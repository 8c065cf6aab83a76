/-
# The configuration file

The file is TOML; every section and every field of it may be missing, and a file that is missing
stands for all defaults (`load_config_from`).  Unknown names are passed over.  A section may
also be given as a list, its items being the fields in their order.

What is read is validated before it is used (`Config.ofDocument`), so no part of the program
sees a configuration that is refused.  The options of the command line are put in afterwards,
and the result is validated again, in `Foreman.Operator.Work`.

`Config.document` goes the other way, for the file of defaults that `init` writes.
-/
import Foreman.Config.Basic
import Foreman.Files.Tree
import Foreman.Toml.Printer
import Foreman.Toml.Reader

namespace Foreman
namespace Config

/-- The name of the file at the project's root. -/
def fileName : String := "wiggum.toml"

/-! ## 1. Values

How a value is taken for a field.  A value of another kind than the field's is no value of it,
and the file is refused. -/

/-- The values that a section gives, by name. -/
abbrev Given := String → Option Toml

/-- The fields of a section, which have the names given. -/
def given? (names : List String) : Toml → Option Given
  | .table _ entries => some fun n => Toml.lookup n entries
  | .list items => some fun n => Toml.lookup n (names.zip items)
  | .tables rows => some fun n => Toml.lookup n (names.zip (rows.map (Toml.table .header)))
  | .moment => some fun _ => none
  | _ => none

/-- A field, or its default. -/
def Given.read {α : Type} (g : Given) (name : String) (take : Toml → Option α) (standard : α) :
    Option α :=
  match g name with
  | some v => take v
  | none => some standard

def text? : Toml → Option String
  | .text s => some s
  | _ => none

def bool? : Toml → Option Bool
  | .bool b => some b
  | _ => none

/-- A whole number below the bound. -/
def nat? (bound : Nat) : Toml → Option Nat
  | .integer n => if 0 ≤ n ∧ n < bound then some n.toNat else none
  | _ => none

/-- A number of either kind. -/
def float? : Toml → Option Float
  | .float x => some x
  | .integer n => some (Decimal.toFloat ⟨n < 0, n.natAbs, 0⟩)
  | _ => none

/-! ## 2. Sections

For each section the names of its fields, how it is read and how it is written. -/

def Project.names : List String := ["kanban_path", "runtime_dir", "worktree_dir", "trunk"]

def Project.ofToml? (v : Toml) : Option Project := do
  let g ← given? names v
  let d : Project := {}
  return {
    kanbanPath := ← g.read "kanban_path" text? d.kanbanPath
    runtimeDir := ← g.read "runtime_dir" text? d.runtimeDir
    worktreeDir := ← g.read "worktree_dir" text? d.worktreeDir
    trunk := ← g.read "trunk" text? d.trunk }

def Project.entries (p : Project) : Toml.Entries :=
  [("kanban_path", .text p.kanbanPath), ("runtime_dir", .text p.runtimeDir),
    ("worktree_dir", .text p.worktreeDir), ("trunk", .text p.trunk)]

def Workers.names : List String := ["limit", "timeout_secs", "max_turns", "shutdown_grace_secs"]

def Workers.ofToml? (v : Toml) : Option Workers := do
  let g ← given? names v
  let d : Workers := {}
  return {
    limit := ← g.read "limit" (nat? Text.bound32) d.limit
    timeoutSecs := ← g.read "timeout_secs" (nat? Text.bound64) d.timeoutSecs
    maxTurns := ← g.read "max_turns" (nat? Text.bound32) d.maxTurns
    shutdownGraceSecs := ← g.read "shutdown_grace_secs" (nat? Text.bound64) d.shutdownGraceSecs }

def Workers.entries (w : Workers) : Toml.Entries :=
  [("limit", .integer w.limit), ("timeout_secs", .integer w.timeoutSecs),
    ("max_turns", .integer w.maxTurns), ("shutdown_grace_secs", .integer w.shutdownGraceSecs)]

def Backend.names : List String := ["name", "binary", "model"]

def Backend.ofToml? (v : Toml) : Option Backend := do
  let g ← given? names v
  let d : Backend := {}
  return {
    name := ← g.read "name" text? d.name
    binary := ← g.read "binary" text? d.binary
    model := ← g.read "model" text? d.model }

def Backend.entries (b : Backend) : Toml.Entries :=
  [("name", .text b.name), ("binary", .text b.binary), ("model", .text b.model)]

def Scoring.names : List String :=
  ["aging_factor", "sibling_wip_penalty", "plan_bonus", "dependency_bonus",
    "resume_initial_bonus", "resume_fail_penalty"]

def Scoring.ofToml? (v : Toml) : Option Scoring := do
  let g ← given? names v
  let d : Scoring := {}
  return {
    agingFactor := ← g.read "aging_factor" float? d.agingFactor
    siblingWipPenalty := ← g.read "sibling_wip_penalty" float? d.siblingWipPenalty
    planBonus := ← g.read "plan_bonus" float? d.planBonus
    dependencyBonus := ← g.read "dependency_bonus" float? d.dependencyBonus
    resumeInitialBonus := ← g.read "resume_initial_bonus" float? d.resumeInitialBonus
    resumeFailPenalty := ← g.read "resume_fail_penalty" float? d.resumeFailPenalty }

def Scoring.entries (s : Scoring) : Toml.Entries :=
  [("aging_factor", .float s.agingFactor), ("sibling_wip_penalty", .float s.siblingWipPenalty),
    ("plan_bonus", .float s.planBonus), ("dependency_bonus", .float s.dependencyBonus),
    ("resume_initial_bonus", .float s.resumeInitialBonus),
    ("resume_fail_penalty", .float s.resumeFailPenalty)]

def Retry.names : List String :=
  ["max_skip_retries", "min_retry_interval_secs", "rate_limit_cooldown_secs"]

def Retry.ofToml? (v : Toml) : Option Retry := do
  let g ← given? names v
  let d : Retry := {}
  return {
    maxSkipRetries := ← g.read "max_skip_retries" (nat? Text.bound32) d.maxSkipRetries
    minRetryIntervalSecs :=
      ← g.read "min_retry_interval_secs" (nat? Text.bound64) d.minRetryIntervalSecs
    rateLimitCooldownSecs :=
      ← g.read "rate_limit_cooldown_secs" (nat? Text.bound64) d.rateLimitCooldownSecs }

def Retry.entries (r : Retry) : Toml.Entries :=
  [("max_skip_retries", .integer r.maxSkipRetries),
    ("min_retry_interval_secs", .integer r.minRetryIntervalSecs),
    ("rate_limit_cooldown_secs", .integer r.rateLimitCooldownSecs)]

def Merge.names : List String := ["enabled", "validate_command"]

def Merge.ofToml? (v : Toml) : Option Merge := do
  let g ← given? names v
  let d : Merge := {}
  return {
    enabled := ← g.read "enabled" bool? d.enabled
    validateCommand := ← g.read "validate_command" text? d.validateCommand }

def Merge.entries (m : Merge) : Toml.Entries :=
  [("enabled", .bool m.enabled), ("validate_command", .text m.validateCommand)]

/-! ## 3. Documents

The configuration as a whole, and the file it is loaded from. -/

/-- The configuration in the entries of a document. -/
def ofEntries? (entries : Toml.Entries) : Option Config := do
  let g : Given := fun n => Toml.lookup n entries
  return {
    project := ← g.read "project" Project.ofToml? {}
    workers := ← g.read "workers" Workers.ofToml? {}
    backend := ← g.read "backend" Backend.ofToml? {}
    scoring := ← g.read "scoring" Scoring.ofToml? {}
    retry := ← g.read "retry" Retry.ofToml? {}
    merge := ← g.read "merge" Merge.ofToml? {} }

/-- The sections by name. -/
def sections (c : Config) : List (String × Toml.Entries) :=
  [("project", c.project.entries), ("workers", c.workers.entries),
    ("backend", c.backend.entries), ("scoring", c.scoring.entries),
    ("retry", c.retry.entries), ("merge", c.merge.entries)]

/-- The text of a configuration. -/
def document (c : Config) : String := Toml.documentText c.sections

/-- The text of all defaults (`default_config_toml`). -/
def defaultDocument : String := document {}

/-- The valid configuration in a text. -/
def ofDocument (path text : String) : Except String Config :=
  match (Toml.read? text).bind ofEntries? with
  | none => .error ("Failed to parse " ++ path ++ ": malformed document")
  | some c =>
    match c.validate with
    | .ok () => .ok c
    | .error m => .error m

/-- Loads the configuration; without a file it is the defaults (`load_config_from`). -/
def load (t : Tree) (path : String) : Except String Config :=
  if t.exists path then
    match t.readText path with
    | .ok text => ofDocument path text
    | .error e => .error ("Failed to read " ++ path ++ ": " ++ e.message)
  else .ok {}

/-- Loads the configuration of a project. -/
def loadAt (t : Tree) (projectRoot : String) : Except String Config :=
  load t (Path.join projectRoot fileName)

/-! ## 4. Places

Where the documents of a project are.  A path that does not begin at the root of the files is
seen from the root of the project. -/

def kanbanPath (c : Config) (root : String) : String := Path.join root c.project.kanbanPath

def runtimeDir (c : Config) (root : String) : String := Path.join root c.project.runtimeDir

def worktreeDir (c : Config) (root : String) : String := Path.join root c.project.worktreeDir

def statePath (c : Config) (root : String) : String := Path.join (c.runtimeDir root) "state.json"

end Config
end Foreman

/-
# Configuration

The configuration (`WiggumConfig`) has six sections, each with defaults.  It is valid if the
limits are positive, the backend is known, the trunk has a name and no weight is negative.  All
that is wrong with it is told at once (`Config.refusals`), so the operator need not mend it
piece by piece.

The weights of the score are the only numbers here that are not whole.  One that is no number or
endless is refused like a negative one; the score itself is made in `Foreman.Schedule.Score`.
-/
import Foreman.Text.Blank
import Foreman.Text.Search
import Foreman.Time.Span

namespace Foreman
namespace Config

/-- Where things are, relative to the project's root. -/
structure Project where
  kanbanPath : String := ".ralph/kanban.yaml"
  /-- Holds the state, the run lock and the captured output of workers. -/
  runtimeDir : String := ".ralph/orchestrator"
  worktreeDir : String := ".ralph/workers"
  trunk : String := "main"
deriving DecidableEq, Repr, Inhabited

structure Workers where
  /-- How many workers may be active at a time. -/
  limit : Nat := 2
  timeoutSecs : Nat := 3600
  maxTurns : Nat := 50
  shutdownGraceSecs : Nat := 30
deriving DecidableEq, Repr, Inhabited

structure Backend where
  name : String := "claude"
  /-- The executable; empty stands for the backend's name. -/
  binary : String := ""
  model : String := ""
deriving DecidableEq, Repr, Inhabited

/-- What a task's score is made of, besides its priority. -/
structure Scoring where
  /-- For each second since the task was created. -/
  agingFactor : Float := 0.01
  siblingWipPenalty : Float := 20.0
  planBonus : Float := 15.0
  /-- For each dependency that is done. -/
  dependencyBonus : Float := 5.0
  /-- For the first retry only. -/
  resumeInitialBonus : Float := 25.0
  /-- For each failed attempt. -/
  resumeFailPenalty : Float := 10.0
deriving Repr, Inhabited

structure Retry where
  /-- The failed attempt of this number is the last. -/
  maxSkipRetries : Nat := 3
  minRetryIntervalSecs : Nat := 300
  rateLimitCooldownSecs : Nat := 600
deriving DecidableEq, Repr, Inhabited

structure Merge where
  enabled : Bool := true
  /-- Run at the project's root after each merge; empty for none. -/
  validateCommand : String := ""
deriving DecidableEq, Repr, Inhabited

/-- What a section says of a weight that cannot be one. -/
def weightRefusal (name : String) (value : Float) : List String :=
  if value.isFinite && !(value < 0.0) then []
  else ["scoring." ++ name ++ " must be a non-negative number"]

/-- The backends the program knows. -/
def knownBackends : List String := ["claude", "codex"]

end Config

/-- The configuration. -/
structure Config where
  project : Config.Project := {}
  workers : Config.Workers := {}
  backend : Config.Backend := {}
  scoring : Config.Scoring := {}
  retry : Config.Retry := {}
  merge : Config.Merge := {}
deriving Repr, Inhabited

namespace Config

/-- What is wrong with the configuration, in a fixed order (`validate`). -/
def refusals (c : Config) : List String :=
  (if c.workers.limit < 1 then ["workers.limit must be >= 1"] else []) ++
  (if c.workers.timeoutSecs < 1 then ["workers.timeout_secs must be >= 1"] else []) ++
  (if c.workers.maxTurns < 1 then ["workers.max_turns must be >= 1"] else []) ++
  (if c.retry.maxSkipRetries < 1 then ["retry.max_skip_retries must be >= 1"] else []) ++
  (if c.backend.name ∈ knownBackends then []
    else
      ["backend.name '" ++ c.backend.name ++ "' is not supported (expected one of: " ++
        Text.joinWith ", " knownBackends ++ ")"]) ++
  (if Text.isBlankText c.project.trunk then ["project.trunk must not be empty"] else []) ++
  weightRefusal "aging_factor" c.scoring.agingFactor ++
  weightRefusal "sibling_wip_penalty" c.scoring.siblingWipPenalty ++
  weightRefusal "plan_bonus" c.scoring.planBonus ++
  weightRefusal "dependency_bonus" c.scoring.dependencyBonus ++
  weightRefusal "resume_initial_bonus" c.scoring.resumeInitialBonus ++
  weightRefusal "resume_fail_penalty" c.scoring.resumeFailPenalty

/-- The configuration is accepted, or one text says all that is wrong with it
(`format_validation_errors`). -/
def validate (c : Config) : Except String Unit :=
  match c.refusals with
  | [] => .ok ()
  | errors =>
    .error ("Config validation failed:\n" ++ Text.joinWith "\n" (errors.map ("  - " ++ ·)))

/-- The executable of the backend (`backend_binary`): its name, unless another one is
configured. -/
def backendBinary (c : Config) : String :=
  if Text.isBlankText c.backend.binary then c.backend.name else c.backend.binary

/-- The model the backend is asked for, if one is named. -/
def backendModel (c : Config) : Option String :=
  let model := Text.trim c.backend.model
  if model = "" then none else some model

def invocationTimeout (c : Config) : Span := .ofSeconds c.workers.timeoutSecs

def shutdownGrace (c : Config) : Span := .ofSeconds c.workers.shutdownGraceSecs

def rateLimitCooldown (c : Config) : Span := .ofSeconds c.retry.rateLimitCooldownSecs

end Config
end Foreman

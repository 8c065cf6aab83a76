/-
# The backlog document

The backlog is kept as YAML.  Fields the program does not know are passed over when it is read
(`load`), and since it is written from what was read (`save`), they are gone afterwards.  A task
needs an identifier, and no two tasks may share one.

The entries of a document are taken in their order, so the first fault of a text is the one that
is told.  What is told is of two kinds: a priority that has no meaning is named, and everything
else is a document that is malformed.

* `Kanban.document` is the text that is written, and `Kanban.ofDocument` reads one.
* `Kanban.load` and `Kanban.save` do so with a file.  Saving writes another file beside the
  backlog and puts it in its place, so the backlog is never seen half written.
-/
import Foreman.Files.Tree
import Foreman.Kanban.Basic
import Foreman.Yaml.Printer
import Foreman.Yaml.Reader

namespace Foreman
namespace Kanban

/-! ## 1. Writing

A field without a value is left out, as is a list without items. -/

/-- A field that is left out if there is no value. -/
def optionalField (name : String) : Option String → List (Yaml × Yaml)
  | some s => [(Yaml.plain name, Yaml.ofText s)]
  | none => []

/-- A list of texts that is left out if it is empty. -/
def optionalList (name : String) : List String → List (Yaml × Yaml)
  | [] => []
  | texts => [(Yaml.plain name, .sequence (texts.map Yaml.ofText))]

/-- The tree of a task. -/
def taskTree (t : Task) : Yaml :=
  .mapping <|
    [(Yaml.plain "id", Yaml.ofText t.id), (Yaml.plain "title", Yaml.ofText t.title),
      (Yaml.plain "status", Yaml.plain t.status.name),
      (Yaml.plain "priority", Yaml.plain (toString t.priority))] ++
    optionalList "dependencies" t.dependencies ++ optionalList "footprint" t.footprint ++
    optionalField "plan" t.plan ++ optionalField "parent" t.parent ++
    optionalField "description" t.description ++
    optionalField "created" (t.created.map Rfc3339.write)

/-- The tree of the backlog. -/
def tree (k : Kanban) : Yaml :=
  .mapping
    [(Yaml.plain "schema_version", Yaml.plain (toString k.schemaVersion)),
      (Yaml.plain "tasks", .sequence (k.tasks.map taskTree))]

/-- The text of the document, which is what `save` writes. -/
def document (k : Kanban) : String := (tree k).write

/-! ## 2. Reading

A task is a draft until all of its entries were taken.  The scalars follow the core rules of
YAML:  plain ones may stand for no value, a number or a truth value, quoted ones are texts. -/

/-- Why a document is no backlog. -/
inductive Refusal where
  | priority (name : String)
  | malformed
deriving DecidableEq, Repr

def Refusal.message : Refusal → String
  | .priority name => Priority.refusal name
  | .malformed => "malformed document"

/-- Reading a part of a document. -/
abbrev Taking := Except Refusal

def orMalformed {α : Type} : Option α → Taking α
  | some a => .ok a
  | none => .error .malformed

/-- A scalar of any style is a text. -/
def takeText (d : Yaml.Document) (n : Yaml) : Taking String :=
  match d.follow n with
  | .scalar s _ _ => .ok s
  | _ => .error .malformed

def nullTag : String := "tag:yaml.org,2002:null"
def intTag : String := "tag:yaml.org,2002:int"

/-- A plain scalar that stands for no value.  Under the tag of null it has to be one of its
words; under another tag it is a text. -/
def isNull (s : String) (tag : Option String) (style : ScalarStyle) : Taking Bool :=
  if style ≠ .plain then .ok false
  else
    match tag with
    | none => .ok (Yaml.isNullWord s)
    | some tag =>
      if tag ≠ nullTag then .ok false
      else if Yaml.isNullWord s && s ≠ "" then .ok true
      else .error .malformed

/-- A text that may be null. -/
def takeOptional (d : Yaml.Document) (n : Yaml) : Taking (Option String) :=
  match d.follow n with
  | .scalar s tag style => do
    if ← isNull s tag style then return none else return some s
  | _ => .error .malformed

/-- A sequence of texts; a node that was left out is an empty one. -/
def takeTexts (d : Yaml.Document) (n : Yaml) : Taking (List String) :=
  match d.follow n with
  | .sequence items => items.mapM (takeText d)
  | .scalar "" _ .plain => .ok []
  | _ => .error .malformed

/-- An instant that may be null. -/
def takeInstant (d : Yaml.Document) (n : Yaml) : Taking (Option Instant) := do
  match ← takeOptional d n with
  | none => return none
  | some s => return some (← orMalformed (Rfc3339.read? s))

/-- The name behind the exclamation mark of a tag of the document's own. -/
def ownTag? : Option String → Option String
  | some tag => Text.stripStart? tag "!"
  | none => none

/-- A status by its name, which may also stand as the tag of nothing. -/
def takeStatus (d : Yaml.Document) (n : Yaml) : Taking TaskStatus :=
  match d.follow n with
  | .scalar s tag style =>
    match ownTag? tag with
    | some name =>
      if style = .plain && Yaml.isNullWord s then orMalformed (TaskStatus.ofName? name)
      else .error .malformed
    | none => orMalformed (TaskStatus.ofName? s)
  | _ => .error .malformed

/-- An integer of 64 bits. -/
def takeInteger (n : Int) : Taking Int :=
  if -(Text.half64 : Int) ≤ n ∧ n < Text.half64 then .ok n else .error .malformed

def takeLevel (name : String) : Taking Int :=
  match Priority.ofLevel? name with
  | some n => .ok n
  | none => .error (.priority name)

/-- What a plain scalar gives as a priority. -/
def takePlainPriority (s : String) : Taking Int :=
  match Yaml.plainValue s with
  | .integer n => takeInteger n
  | .text => takeLevel s
  | _ => .error .malformed

/-- The tags of truth values and of numbers with a fraction. -/
def otherTags : List String := ["tag:yaml.org,2002:bool", "tag:yaml.org,2002:float", nullTag]

/-- A number or the name of a level. -/
def takePriority (d : Yaml.Document) (n : Yaml) : Taking Int :=
  match d.follow n with
  | .scalar s none style => if style = .plain then takePlainPriority s else takeLevel s
  | .scalar s (some tag) _ =>
    if (ownTag? (some tag)).isSome then .error .malformed
    else if tag = intTag then
      match Yaml.plainValue s with
      | .integer n => takeInteger n
      | _ => .error .malformed
    else if tag ∈ otherTags then .error .malformed
    else takeLevel s
  | _ => .error .malformed

/-- A version: a plain whole number of 32 bits. -/
def takeVersion (d : Yaml.Document) (n : Yaml) : Taking Nat :=
  match d.follow n with
  | .scalar s tag style =>
    if style = .plain || (style = .literal && tag = some intTag) then
      match Yaml.unsigned? s.toList with
      | some n => if n < Text.bound32 then .ok n else .error .malformed
      | none => .error .malformed
    else .error .malformed
  | _ => .error .malformed

/-- The fields of a task that were read so far. -/
structure Draft where
  id : Option String := none
  title : Option String := none
  status : Option TaskStatus := none
  priority : Option Int := none
  dependencies : Option (List String) := none
  footprint : Option (List String) := none
  plan : Option (Option String) := none
  parent : Option (Option String) := none
  description : Option (Option String) := none
  created : Option (Option Instant) := none
deriving DecidableEq, Repr, Inhabited

/-- A field is taken only once. -/
def once {α : Type} (seen : Option α) (take : Taking α) : Taking (Option α) :=
  match seen with
  | some _ => .error .malformed
  | none => take.map some

/-- Takes an entry of a task. -/
def takeField (d : Yaml.Document) (f : Draft) (e : Yaml × Yaml) : Taking Draft := do
  match ← takeText d e.1 with
  | "id" => return { f with id := ← once f.id (takeText d e.2) }
  | "title" => return { f with title := ← once f.title (takeText d e.2) }
  | "status" => return { f with status := ← once f.status (takeStatus d e.2) }
  | "priority" => return { f with priority := ← once f.priority (takePriority d e.2) }
  | "dependencies" => return { f with dependencies := ← once f.dependencies (takeTexts d e.2) }
  | "footprint" => return { f with footprint := ← once f.footprint (takeTexts d e.2) }
  | "plan" => return { f with plan := ← once f.plan (takeOptional d e.2) }
  | "parent" => return { f with parent := ← once f.parent (takeOptional d e.2) }
  | "description" => return { f with description := ← once f.description (takeOptional d e.2) }
  | "created" => return { f with created := ← once f.created (takeInstant d e.2) }
  | _ => if e.2.isSound then return f else .error .malformed

/-- The task of a draft, if it has an identifier. -/
def Draft.task? (f : Draft) : Option Task :=
  f.id.map fun id =>
    { id := id
      title := f.title.getD ""
      status := f.status.getD .pending
      priority := f.priority.getD 0
      dependencies := f.dependencies.getD []
      footprint := f.footprint.getD []
      plan := f.plan.getD none
      parent := f.parent.getD none
      description := f.description.getD none
      created := f.created.getD none }

/-- The entries of a mapping; a node that was left out has none. -/
def takeEntries (d : Yaml.Document) (n : Yaml) : Taking (List (Yaml × Yaml)) :=
  match d.follow n with
  | .mapping entries => .ok entries
  | .scalar "" _ .plain => .ok []
  | _ => .error .malformed

def takeTask (d : Yaml.Document) (n : Yaml) : Taking Task := do
  let f ← (← takeEntries d n).foldlM (takeField d) ({} : Draft)
  orMalformed f.task?

def takeTasks (d : Yaml.Document) (n : Yaml) : Taking (List Task) :=
  match d.follow n with
  | .sequence items => items.mapM (takeTask d)
  | .scalar "" _ .plain => .ok []
  | _ => .error .malformed

/-- The version and the tasks that were read so far. -/
abbrev Outline := Option Nat × Option (List Task)

def takeOutline (d : Yaml.Document) (o : Outline) (e : Yaml × Yaml) : Taking Outline := do
  match ← takeText d e.1 with
  | "schema_version" => return (← once o.1 (takeVersion d e.2), o.2)
  | "tasks" => return (o.1, ← once o.2 (takeTasks d e.2))
  | _ => if e.2.isSound then return o else .error .malformed

/-- The backlog of a document, which is all of its text. -/
def ofTree (d : Yaml.Document) : Taking Kanban := do
  let o ← (← takeEntries d d.root).foldlM (takeOutline d) ((none, none) : Outline)
  let version ← orMalformed o.1
  if d.ending = .last then return ⟨version, o.2.getD []⟩ else .error .malformed

/-- The first identifier that a task before it has too. -/
def repeated? (seen : List String) : List Task → Option String
  | [] => none
  | t :: rest => if t.id ∈ seen then some t.id else repeated? (t.id :: seen) rest

/-- The backlog in the text of a document. -/
def ofDocument (path text : String) : Except String Kanban :=
  match ofTree (Yaml.read text) with
  | .error r => .error ("Failed to parse YAML from " ++ path ++ ": " ++ r.message)
  | .ok k =>
    if k.schemaVersion ≠ currentVersion then
      .error ("Unsupported schema_version " ++ toString k.schemaVersion ++ " in " ++ path ++
        " (expected " ++ toString currentVersion ++ ")")
    else
      match repeated? [] k.tasks with
      | some id => .error ("Duplicate task id '" ++ id ++ "' in " ++ path)
      | none => .ok k

/-! ## 3. Files

The failures carry the path, as the operator knows the document by it. -/

/-- Loads the backlog, which has to be there. -/
def load (t : Tree) (path : String) : Except String Kanban :=
  match t.readText path with
  | .ok text => ofDocument path text
  | .error e => .error ("Failed to read " ++ path ++ ": " ++ e.message)

/-- Saves the backlog as a whole, and makes its directory. -/
def save (t : Tree) (path : String) (k : Kanban) : Except String Tree :=
  match Path.parent? path with
  | none => .error ("Cannot determine parent directory of " ++ path)
  | some parent =>
    match t.mkdirAll parent with
    | .error e => .error ("Failed to create directory " ++ parent ++ ": " ++ e.message)
    | .ok t =>
      match t.stage parent with
      | .error e => .error ("Failed to create temp file in " ++ parent ++ ": " ++ e.message)
      | .ok () =>
        match t.replace path (Utf8.encode k.document.toList) with
        | .ok t => .ok t
        | .error e =>
          .error ("Failed to rename temp file to " ++ path ++
            ": failed to persist temporary file: " ++ e.message)

end Kanban
end Foreman

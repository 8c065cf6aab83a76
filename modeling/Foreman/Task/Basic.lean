/-
# Tasks

A task of the backlog, and what the orchestrator remembers of its attempts (`ResumeMeta`), with
their JSON forms.  Lists and texts that are empty or missing are left out of a document.  A
priority is a whole number; a backlog may give one of four level names instead.

The backlog belongs to the user, so a task has fields that the orchestrator only shows.  What it
writes back is the status.
-/
import Foreman.Json.Decode
import Foreman.Task.Id
import Foreman.Task.Status
import Foreman.Text.Blank
import Foreman.Text.Case

namespace Foreman

namespace Priority

/-- The value of a level, in any case and with blanks around it. -/
def ofLevel? (name : String) : Option Int :=
  let word := Text.lower (Text.trim name)
  if word = "critical" then some 40
  else if word = "high" then some 30
  else if word = "medium" then some 20
  else if word = "low" then some 10
  else none

/-- What is said of a text that names no level. -/
def refusal (name : String) : String :=
  "invalid priority '" ++ name ++ "': expected a number or critical, high, medium, low"

end Priority

/-- A task of the backlog. -/
structure Task where
  id : String
  title : String := ""
  status : TaskStatus := .pending
  priority : Int := 0
  /-- Tasks that have to be done first. -/
  dependencies : List String := []
  /-- Patterns of the paths the task is expected to touch. -/
  footprint : List String := []
  /-- A plan document, relative to the project's root. -/
  plan : Option String := none
  /-- The epic the task belongs to. -/
  parent : Option String := none
  description : Option String := none
  created : Option Instant := none
deriving DecidableEq, Repr, Inhabited

/-- What is remembered of a task's attempts.  It goes with an operator's reset, and with nothing
else. -/
structure Resume where
  /-- Attempts that failed and were worth another one.  The program counts them in a word of 32
  bits; `Proofs.History.Counters` says how long that is the number here. -/
  attempts : Nat := 0
  lastFailure : Option String := none
  lastFailedAt : Option Instant := none
  /-- The task does not start before. -/
  earliestRetry : Option Instant := none
  sessionId : Option String := none
  workspace : Option String := none
  /-- The end of the last message of a successful attempt. -/
  lastOutput : Option String := none
deriving DecidableEq, Repr, Inhabited

/-- The task waits out its cooldown, whatever its score.  At the very instant its cooldown ends
it does not wait any more. -/
def Resume.inCooldown (r : Resume) (now : Instant) : Bool :=
  match r.earliestRetry with
  | some t => now.before t
  | none => false

namespace Json

/-- A field that is left out if there is no value. -/
def optional {α : Type} (name : String) (write : α → Json) : Option α → List (String × Json)
  | some v => [(name, write v)]
  | none => []

/-- A list of texts that is left out if it is empty. -/
def optionalTexts (name : String) : List String → List (String × Json)
  | [] => []
  | texts => [(name, .list (texts.map .text))]

def ofInstant (t : Instant) : Json := .text (Rfc3339.write t)

def ofNat (n : Nat) : Json := .integer n

def ofTexts (texts : List String) : Json := .list (texts.map .text)

/-- A double by its bits, in 16 hexadecimal digits. -/
def ofBits (x : Float) : Json :=
  if x.isNaN then .text "nan"
  else
    let digits := Nat.toDigits 16 x.toBits.toNat
    .text (String.ofList (List.replicate (16 - digits.length) '0' ++ digits))

end Json

namespace TaskStatus

def toJson (s : TaskStatus) : Json := .text s.name

def ofJson? (j : Json) : Option TaskStatus := j.asName?.bind ofName?

end TaskStatus

/-- A number of 64 bits or the name of a level. -/
def Priority.ofJson? : Json → Option Int
  | .text s => ofLevel? s
  | j => j.asInt? Text.half64

namespace Task

def toJson (t : Task) : Json :=
  .record <|
    [("id", .text t.id), ("title", .text t.title), ("status", t.status.toJson),
      ("priority", .integer t.priority)] ++
    Json.optionalTexts "dependencies" t.dependencies ++
    Json.optionalTexts "footprint" t.footprint ++
    Json.optional "plan" .text t.plan ++
    Json.optional "parent" .text t.parent ++
    Json.optional "description" .text t.description ++
    Json.optional "created" Json.ofInstant t.created

/-- The names of a task's fields, in the order of a document. -/
def fieldNames : List String :=
  ["id", "title", "status", "priority", "dependencies", "footprint", "plan", "parent",
    "description", "created"]

def ofJson? (j : Json) : Option Task := do
  let f ← j.asFields? fieldNames
  return {
    id := ← f.need? "id" Json.asText?
    title := ← f.getD? "title" Json.asText? ""
    status := ← f.getD? "status" TaskStatus.ofJson? .pending
    priority := ← f.getD? "priority" Priority.ofJson? 0
    dependencies := ← f.getD? "dependencies" (Json.asList? Json.asText?) []
    footprint := ← f.getD? "footprint" (Json.asList? Json.asText?) []
    plan := ← f.maybe? "plan" Json.asText?
    parent := ← f.maybe? "parent" Json.asText?
    description := ← f.maybe? "description" Json.asText?
    created := ← f.maybe? "created" Json.asInstant? }

end Task

namespace Resume

def toJson (r : Resume) : Json :=
  .record <|
    [("attempts", Json.ofNat r.attempts)] ++
    Json.optional "last_failure" .text r.lastFailure ++
    Json.optional "last_failed_at" Json.ofInstant r.lastFailedAt ++
    Json.optional "earliest_retry" Json.ofInstant r.earliestRetry ++
    Json.optional "session_id" .text r.sessionId ++
    Json.optional "workspace" .text r.workspace ++
    Json.optional "last_output" .text r.lastOutput

/-- The names of the fields, in the order of a document. -/
def fieldNames : List String :=
  ["attempts", "last_failure", "last_failed_at", "earliest_retry", "session_id", "workspace",
    "last_output"]

def ofJson? (j : Json) : Option Resume := do
  let f ← j.asFields? fieldNames
  return {
    attempts := ← f.getD? "attempts" (Json.asNat? Text.bound32) 0
    lastFailure := ← f.maybe? "last_failure" Json.asText?
    lastFailedAt := ← f.maybe? "last_failed_at" Json.asInstant?
    earliestRetry := ← f.maybe? "earliest_retry" Json.asInstant?
    sessionId := ← f.maybe? "session_id" Json.asText?
    workspace := ← f.maybe? "workspace" Json.asText?
    lastOutput := ← f.maybe? "last_output" Json.asText? }

end Resume
end Foreman

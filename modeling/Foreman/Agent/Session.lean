/-
# Conversations with an agent

A first attempt opens a conversation under an identifier of our own if the agent can do that, so
that a later attempt can resume it.  A retry resumes the conversation that is known, or else the
last one the agent had in that directory.  `Session.plan` makes the choice, as `plan_session`
does.

Our own identifier is 32 digits to base sixteen, of which one names the version and the top bits
of another one the variant; all others are random.  The random number is given from outside
(`sessionIdOf`), so nothing here draws one.
-/
import Foreman.Json.Basic
import Foreman.Text.Search

namespace Foreman

/-- How an attempt relates to earlier conversations (`SessionPlan`). -/
inductive Session where
  /-- A new conversation; the agent chooses its identifier. -/
  | fresh
  /-- A new conversation under our identifier. -/
  | create (id : String)
  | resume (id : String)
  /-- The last conversation in the directory. -/
  | resumeLatest
deriving DecidableEq, Repr, Inhabited

namespace Session

def isResume : Session → Bool
  | resume _ | resumeLatest => true
  | _ => false

/-- The identifier that is known before the agent runs (`known_session_id`). -/
def known? : Session → Option String
  | create id | resume id => some id
  | _ => none

/-- The conversation for an attempt (`plan_session`); `newId` is used if one is opened under our
identifier.  A stored identifier that is empty is as good as none. -/
def plan (isRetry : Bool) (stored : Option String) (sessions named : Bool) (newId : String) :
    Session :=
  if !sessions then fresh
  else if !isRetry then (if named then create newId else fresh)
  else
    match stored with
    | some id => if id = "" then resumeLatest else resume id
    | none => resumeLatest

def toJson : Session → Json
  | fresh => .record [("kind", .text "fresh")]
  | create id => .record [("kind", .text "create"), ("id", .text id)]
  | resume id => .record [("kind", .text "resume"), ("id", .text id)]
  | resumeLatest => .record [("kind", .text "latest")]

end Session

namespace Agent

/-- The lowest `width` digits of a number to base sixteen. -/
def hexField (width n : Nat) : String :=
  String.ofList ((List.range width).reverse.map fun i => (n / Nat.pow 16 i % 16).digitChar)

/-- The identifier of a random number. -/
def sessionIdOf (n : Nat) : String :=
  Text.joinWith "-"
    [hexField 8 n, hexField 4 (n / Nat.pow 16 8), "4" ++ hexField 3 (n / Nat.pow 16 12),
      hexField 1 (8 + n / Nat.pow 16 15 % 4) ++ hexField 3 (n / Nat.pow 16 16),
      hexField 12 (n / Nat.pow 16 19)]

end Agent

end Foreman

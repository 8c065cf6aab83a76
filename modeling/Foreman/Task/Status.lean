/-
# Status of a task

A task is pending, in progress, blocked, done or failed.  The last two are meant to be final, so
that only an operator's reset leaves them; which moves keep to that is proved in
`Proofs.History.Finality`.
-/
import Foreman.Text.Case
import Foreman.Text.Search

namespace Foreman

/-- What has become of a task so far. -/
inductive TaskStatus where
  | pending
  | inProgress
  | blocked
  | done
  | failed
deriving DecidableEq, Repr, Inhabited

namespace TaskStatus

/-- The name in documents and on screen. -/
def name : TaskStatus → String
  | pending => "pending"
  | inProgress => "in_progress"
  | blocked => "blocked"
  | done => "done"
  | failed => "failed"

/-- Done and failed (`is_terminal`). -/
def isTerminal : TaskStatus → Bool
  | done | failed => true
  | _ => false

/-- The status of exactly that name. -/
def ofName? (s : String) : Option TaskStatus :=
  if s = "pending" then some pending
  else if s = "in_progress" then some inProgress
  else if s = "blocked" then some blocked
  else if s = "done" then some done
  else if s = "failed" then some failed
  else none

theorem ofName?_name (s : TaskStatus) : ofName? s.name = some s := by cases s <;> rfl

/-- The status an operator names: in any case, and with a dash for the underscore
(`parse_task_status`). -/
def parse (s : String) : Except String TaskStatus :=
  match ofName? (Text.replace (Text.lower s) "-" "_") with
  | some status => .ok status
  | none =>
    .error ("Invalid status '" ++ s ++
      "': expected pending, in_progress, blocked, done, or failed")

end TaskStatus
end Foreman

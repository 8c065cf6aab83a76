/-
# Attempts

One attempt of a worker, which is what `run_attempt` does between the dispatch and the outcome.
This module has the parts of it that only look at the ticket and at how the agent ended: what
the agent is asked for (`Ticket.request`), which conversation it goes on with
(`Ticket.session`), and what the coordinator is told of an attempt that failed
(`Finished.failure`).  What an attempt does to the machine is in `Foreman.Run.Rehearsal`.

An agent that fails is an outcome and not an error.  The one exception is an agent that is not
there at all (`Failure.ofStart`), for then no other task could be worked on either.
-/
import Foreman.Agent.Backend
import Foreman.Agent.Exit
import Foreman.Agent.Prompt
import Foreman.Agent.Session
import Foreman.Coordinator.Dispatch
import Foreman.Process.Supervise
import Foreman.Workspace.Basic

namespace Foreman

namespace Ticket

/-- The attempt follows an earlier one: of the same worker, or of another worker on the task. -/
def isRetry (t : Ticket) : Bool := 1 < t.worker.iteration || 0 < t.resume.attempts

/-- The session of the earlier attempts: that of the worker, or else that of the task. -/
def storedSession? (t : Ticket) : Option String := t.worker.sessionId.or t.resume.sessionId

/-- The conversation of the attempt (`plan_session`). -/
def session (t : Ticket) (sessions named : Bool) (newId : String) : Session :=
  .plan t.isRetry t.storedSession? sessions named newId

/-- What the prompts of the attempt are made of. -/
def brief (t : Ticket) (branch trunk : String) (plan : Option String) : Agent.Brief :=
  { task := t.task, workerId := t.worker.id, branch := branch, trunk := trunk, plan := plan,
    resume := if t.isRetry then some t.resume else none }

/-- What the agent is asked for (the `InvocationRequest`). -/
def request (t : Ticket) (w : Workspace) (trunk : String) (plan : Option String) (maxTurns : Nat)
    (session : Session) : Request :=
  let brief := t.brief w.branch trunk plan
  { workspace := w.path, systemPrompt := brief.systemPrompt, userPrompt := brief.userPrompt,
    maxTurns := maxTurns, session := session }

/-- The message of the commit with what the agent left. -/
def commitMessage (t : Ticket) : String := "[" ++ t.task.id ++ "] Agent changes"

end Ticket

namespace Finished

/-- The reason that is kept of an attempt that failed. -/
def reason (f : Finished) (timeout : Span) (stderr : String) : String :=
  if f.timedOut then "timed out after " ++ toString timeout.seconds ++ "s"
  else Agent.failureReason f.exitCode stderr

/-- The outcome of an attempt that failed.  A deadline has a reason of its own, and the exit
code it leaves is one that is worth another attempt. -/
def failure (f : Finished) (timeout : Span) (stderr : String) (session : Option String) : Outcome :=
  match Agent.classifyExit f.exitCode stderr with
  | .retryable cause => .retryable cause (f.reason timeout stderr) session
  | .fatal => .fatal (f.reason timeout stderr) session

end Finished

/-- The session that is known after an attempt: the one the agent told, or else the one it was
started with. -/
def Session.learned (s : Session) (told : String) : Option String :=
  if told = "" then s.known? else some told

/-- What stands for a failure to start an agent: a run cannot go on without an agent, any other
failure concerns the task. -/
def Failure.ofStart (f : Failure) (s : Session) : Except Failure Outcome :=
  match f with
  | .backendUnavailable _ => .error f
  | f => .ok (.fatal f.message s.known?)

end Foreman

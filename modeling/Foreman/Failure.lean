/-
# Failures

Why an operation of the orchestrator did not succeed (`OrchError`), and the text an operator
sees for it.  Two kinds stop the run, three are worth another attempt, and the others concern
one task.
-/
import Foreman.Time.Span

namespace Foreman

/-- The cause of a failed operation. -/
inductive Failure where
  | backendUnavailable (reason : String)
  | invocationTimeout (after : Span)
  | rateLimited (reason : String)
  | transientNetwork (reason : String)
  | fatalAgent (exitCode : Int) (reason : String)
  | conflict (pattern workerId : String)
  | taskBusy (taskId : String)
  | statePersistence (reason : String)
  | config (reason : String)
  | kanban (reason : String)
  | workspace (reason : String)
  | spawn (reason : String)
  | shutdown
deriving DecidableEq, Repr

namespace Failure

/-- The name of the kind. -/
def kind : Failure → String
  | backendUnavailable _ => "BackendUnavailable"
  | invocationTimeout _ => "InvocationTimeout"
  | rateLimited _ => "RateLimited"
  | transientNetwork _ => "TransientNetworkError"
  | fatalAgent .. => "FatalAgentError"
  | conflict .. => "Conflict"
  | taskBusy _ => "TaskBusy"
  | statePersistence _ => "StatePersistenceFailure"
  | config _ => "Config"
  | kanban _ => "Kanban"
  | workspace _ => "Workspace"
  | spawn _ => "Spawn"
  | shutdown => "Shutdown"

/-- The text an operator sees. -/
def message : Failure → String
  | backendUnavailable r => "Backend unavailable: " ++ r
  | invocationTimeout s => "Agent invocation timed out after " ++ s.text
  | rateLimited r => "Agent rate limited: " ++ r
  | transientNetwork r => "Transient network error: " ++ r
  | fatalAgent code r => "Agent failed (exit code " ++ toString code ++ "): " ++ r
  | conflict p w => "Footprint '" ++ p ++ "' conflicts with claim held by " ++ w
  | taskBusy t => "Task " ++ t ++ " already has an active worker"
  | statePersistence r => "State persistence failure: " ++ r
  | config r => "Config error: " ++ r
  | kanban r => "Kanban error: " ++ r
  | workspace r => "Workspace error: " ++ r
  | spawn r => "Failed to spawn agent: " ++ r
  | shutdown => "Shutdown requested"

/-- The task is worth another attempt later (`is_retryable`). -/
def isRetryable : Failure → Bool
  | invocationTimeout _ | rateLimited _ | transientNetwork _ => true
  | _ => false

/-- The run must stop, since going on would build on state that may be stale. -/
def halts : Failure → Bool
  | backendUnavailable _ | statePersistence _ => true
  | _ => false

end Failure
end Foreman

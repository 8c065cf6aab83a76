/-
# Looking for an agent

Before a run the agent is asked for its version, which shows that it can be started
(`verify_binary`).  An agent that is not there, or that fails to tell its version, is
unavailable, and the run does not begin.
-/
import Foreman.Agent.Backend
import Foreman.Process.Launch

namespace Foreman
namespace Agent
namespace Backend

/-- The command that asks for the version. -/
def versionCommand (b : Backend) (dir : String) : Invocation := ⟨b.binary, ["--version"], dir, []⟩

/-- Whether the agent can be used. -/
def check (b : Backend) (m : Machine) (dir : String) : Except Failure Unit × Machine :=
  match m.capture (b.versionCommand dir) with
  | .error e =>
    (.error (.backendUnavailable
      (b.kind.title ++ " (" ++ b.binary ++ ") not found: " ++ e.message)), m)
  | .ok (c, m) =>
    if c.ending.isSuccess then (.ok (), m)
    else
      (.error (.backendUnavailable
        (b.kind.title ++ " found but \x60" ++ b.binary ++ " --version\x60 failed")), m)

end Backend
end Agent
end Foreman

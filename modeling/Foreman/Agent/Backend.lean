/-
# The agents that can be driven

Two command lines, each with its way to take prompts, to name a conversation and to tell the
identifier of one.  They differ in a few values (`Kind`), and otherwise in the order of their
arguments, which is why each has a definition for its session arguments.

* `claude` takes the instructions apart from the request, and opens a conversation under an
  identifier that is given to it.
* `codex` takes both in one text (`combinePrompts`), and chooses the identifier itself.

A request is turned into a command (`Backend.invocation`, from `build_invocation`).  What the
command writes is read in `Foreman.Agent.Stream`, and how it ends in `Foreman.Agent.Exit`.
-/
import Foreman.Agent.Session
import Foreman.Agent.Stream
import Foreman.Config.Basic
import Foreman.Failure
import Foreman.Process.Launch

namespace Foreman

/-- What an agent is asked for (`InvocationRequest`). -/
structure Request where
  workspace : String
  systemPrompt : String
  userPrompt : String
  maxTurns : Nat
  session : Session
deriving DecidableEq, Repr, Inhabited

namespace Agent

/-- The two prompts in one text (`combine_prompts`). -/
def combinePrompts (system user : String) : String :=
  if Text.isBlankText system then user else Text.trimEnd system ++ "\n\n---\n\n" ++ user

/-- A command line the program can drive. -/
inductive Kind where
  | claude
  | codex
deriving DecidableEq, Repr, Inhabited

namespace Kind

def name : Kind → String
  | claude => "claude"
  | codex => "codex"

/-- The name in messages. -/
def title : Kind → String
  | claude => "Claude CLI"
  | codex => "Codex CLI"

/-- The keys under which the session is told, the preferred one first. -/
def sessionKeys : Kind → List String
  | claude => ["session_id"]
  | codex => ["thread_id", "session_id"]

/-- Whether a conversation can be opened under an identifier of ours. -/
def namesSessions : Kind → Bool
  | claude => true
  | codex => false

end Kind

/-- An agent as it is configured. -/
structure Backend where
  kind : Kind
  binary : String
  model : Option String
deriving DecidableEq, Repr, Inhabited

namespace Backend

/-- The agent that a configuration names (`from_config`). -/
def ofConfig (c : Config) : Except Failure Backend :=
  if c.backend.name = "claude" then .ok ⟨.claude, c.backendBinary, c.backendModel⟩
  else if c.backend.name = "codex" then .ok ⟨.codex, c.backendBinary, c.backendModel⟩
  else .error (.config ("Unknown backend '" ++ c.backend.name ++ "'"))

/-- The arguments that name a model. -/
def modelArgs : Option String → List String
  | some model => ["--model", model]
  | none => []

def claudeSessionArgs : Session → List String
  | .fresh => []
  | .create id => ["--session-id", id]
  | .resume id => ["--resume", id]
  | .resumeLatest => ["--continue"]

def codexSessionArgs : Session → List String
  | .fresh | .create _ => []
  | .resume id => ["resume", id]
  | .resumeLatest => ["resume", "--last"]

def args (b : Backend) (r : Request) : List String :=
  match b.kind with
  | .claude =>
    ["-p", r.userPrompt, "--append-system-prompt", r.systemPrompt, "--output-format",
      "stream-json", "--verbose", "--max-turns", toString r.maxTurns] ++
    modelArgs b.model ++ claudeSessionArgs r.session ++ ["--dangerously-skip-permissions"]
  | .codex =>
    ["exec", "--json", "--full-auto", "--cd", r.workspace] ++
    modelArgs b.model ++ codexSessionArgs r.session ++
    [combinePrompts r.systemPrompt r.userPrompt]

/-- The command for a request (`build_invocation`). -/
def invocation (b : Backend) (r : Request) : Invocation :=
  ⟨b.binary, b.args r, r.workspace, []⟩

/-- The session that the output of the agent tells (`extract_session_id`). -/
def sessionId (b : Backend) (stdout : String) : String :=
  Agent.sessionId stdout b.kind.sessionKeys

end Backend

/-- The keys of a scripted agent. -/
def scriptedSessionKeys : List String := ["session_id", "thread_id"]

end Agent
end Foreman

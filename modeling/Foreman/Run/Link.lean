/-
# Agents as a run sees them

A run starts attempts on some agent and learns when they end.  `Link` is what it needs of one: a
name, what the agent can do with sessions, and the start of an attempt.  Two kinds of agents are
known:

* `Link.ofBackend` is a command line that is really started, on the machine;
* `Link.scripted` is a script of attempts for rehearsals, as `MockBackend` plays it.

An attempt that has begun says how long it will last and how it will end if it is left alone
(`Running`).  It is the clock that decides whether it is, in `Foreman.Run.Rehearsal`.
-/
import Foreman.Agent.Backend
import Foreman.Agent.Exit
import Foreman.Process.Supervise
import Foreman.Run.Basic

namespace Foreman
namespace Run

/-- An attempt that has begun. -/
structure Running where
  /-- How long it lasts, if nobody ends it. -/
  lasts : Span
  finished : Finished
  /-- The files it leaves in its workspace when it ends by itself. -/
  leaves : List (String × String) := []
deriving DecidableEq, Repr, Inhabited

/-- An agent that works on a world. -/
structure Link (σ : Type) where
  name : String
  sessions : Bool
  named : Bool
  rateLimit : RateLimit
  /-- The keys under which it tells its session. -/
  sessionKeys : List String
  /-- Starts an attempt, which has to end within the time. -/
  invoke : Request → CapturePaths → Span → σ → Except Failure Running × σ
  /-- Lets a rate limit pass; gives how long that takes. -/
  cool : Span → σ → Span × σ

/-- A command line as an agent. -/
def Link.ofBackend (b : Agent.Backend) : Link Machine where
  name := b.kind.name
  sessions := true
  named := b.kind.namesSessions
  rateLimit := .unknown
  sessionKeys := b.kind.sessionKeys
  invoke request paths timeout m :=
    match m.supervise (b.invocation request) paths { timeout := timeout } with
    | (.ok f, m) => (.ok { lasts := f.elapsed, finished := f }, m)
    | (.error f, m) => (.error f, m)
  cool span m := (span, m)

/-! ## Scripts of attempts

A take is served to the first attempt that matches it.  An attempt for which nothing is left
ends with an error, so a script that is too short does not go unnoticed. -/

/-- An attempt as a script has it (`MockStep`). -/
structure Take where
  exitCode : Int
  stdout : String := ""
  stderr : String := ""
  delay : Span := ⟨0⟩
  /-- The files it leaves in the workspace. -/
  writes : List (String × String) := []
  /-- Only for attempts whose arguments hold this text. -/
  onlyFor : Option String := none
deriving DecidableEq, Repr, Inhabited

/-- What a script is played from: the machine, and the attempts that are left. -/
structure Stage where
  machine : Machine := {}
  script : List Take := []
  /-- How long each rate limit should have been waited for. -/
  waits : List Span := []
  /-- What the merger was asked for. -/
  merges : List String := []
deriving DecidableEq, Repr, Inhabited

namespace Take

/-- The end of an attempt for which the script has nothing. -/
def missing : Take := { exitCode := 2, stderr := "MockBackend: no more scripted steps" }

def sessionArg : Session → String
  | .fresh => "fresh"
  | .create id => "create:" ++ id
  | .resume id => "resume:" ++ id
  | .resumeLatest => "resume:last"

/-- Whether the take is for a request. -/
def serves (t : Take) (r : Request) : Bool :=
  match t.onlyFor with
  | some text => Text.contains (sessionArg r.session) text || Text.contains r.userPrompt text
  | none => true

/-- The first take for a request, and the others, as `next_step` picks it. -/
def pick (r : Request) : List Take → Take × List Take
  | [] => (missing, [])
  | t :: rest =>
    if t.serves r then (t, rest)
    else let (found, others) := pick r rest; (found, t :: others)

/-- Writes a file of the attempt. -/
def write (t : Tree) (path text : String) : Except Failure Tree :=
  match t.writeText path text with
  | .ok t => .ok t
  | .error e => .error (.spawn e.message)

/-- Writes the output of an attempt. -/
def capture (t : Tree) (paths : CapturePaths) (take : Take) : Except Failure Tree := do
  let made := [paths.stdout, paths.stderr].foldlM
    (fun (t : Tree) p =>
      match t.mkdirAll ((Path.parent? p).getD "/") with
      | .ok t => .ok t
      | .error e => .error (Failure.spawn e.message)) t
  write (← write (← made) paths.stdout take.stdout) paths.stderr take.stderr

/-- How the take runs within a time. -/
def running (t : Take) (timeout : Span) : Running :=
  if t.delay.nanos ≤ timeout.nanos then
    { lasts := t.delay, finished := { exitCode := t.exitCode, elapsed := t.delay },
      leaves := t.writes }
  else
    { lasts := timeout,
      finished := { exitCode := Agent.timeoutExit, elapsed := timeout, timedOut := true } }

end Take

/-- A script as an agent (`MockBackend`). -/
def Link.scripted (sessions named available : Bool) (rateLimit : RateLimit) : Link Stage where
  name := "mock"
  sessions := sessions
  named := named
  rateLimit := rateLimit
  sessionKeys := Agent.scriptedSessionKeys
  invoke request paths timeout s :=
    if !available then (.error (.backendUnavailable "mock backend disabled"), s)
    else
      let (take, script) := Take.pick request s.script
      let s := { s with script := script }
      match Take.capture s.machine.files paths take with
      | .error f => (.error f, s)
      | .ok files =>
        (.ok (take.running timeout), { s with machine := { s.machine with files := files } })
  cool span s := (⟨0⟩, { s with waits := s.waits ++ [span] })

end Run
end Foreman

/-
# Prompts

The standing instructions of a worker (`build_system_prompt`) and the request for one attempt
(`build_user_prompt`), each a text of sections with an empty line between them.  A section that
has nothing to say is left out.

The instructions name the patterns of the task's footprint, which is the boundary the worker is
asked to keep.  Nothing keeps it from writing elsewhere: claims are made on what a task
declares.

On a retry the request ends with what is known of the attempt before, its reason or its last
words, so that the agent does not begin from nothing even where no conversation can be resumed.
-/
import Foreman.Task.Basic
import Foreman.Text.Blank
import Foreman.Text.Search

namespace Foreman
namespace Agent

/-- What the prompts of an attempt are made of (`PromptParams`). -/
structure Brief where
  task : Task
  workerId : String
  branch : String
  trunk : String
  /-- The text of the task's plan, if it has one. -/
  plan : Option String
  /-- Present on a retry. -/
  resume : Option Resume
deriving DecidableEq, Repr, Inhabited

namespace Brief

/-- A list of items, each between backquotes on a line of its own (`format_list`). -/
def bullets (items : List String) : String :=
  Text.joinWith "\n" (items.map fun i => "- `" ++ i ++ "`")

def role (b : Brief) : String :=
  "# Autonomous Worker\n\nYou are `" ++ b.workerId ++
  "`, one of several coding agents working in parallel on the same repository.\n" ++
  "No human is available for questions. Use your judgment to make decisions.\n" ++
  "You are working in a dedicated git worktree on branch `" ++ b.branch ++
  "`. Your commits are merged into `" ++ b.trunk ++ "` after you finish."

def boundary (b : Brief) : String :=
  if b.task.footprint = [] then
    "## Boundary\n\nThis task declares no file footprint. " ++
    "Keep your changes as small as the task allows."
  else
    "## Boundary\n\nOther workers are editing other parts of the repository right now. " ++
    "Only modify files matching these patterns:\n\n" ++ bullets b.task.footprint ++
    "\n\nIf the task cannot be completed without touching other files, " ++
    "stop and explain why in your final message instead of editing them."

def completion : String :=
  "## Completion\n\n" ++
  "- Commit your work on the current branch with a message that names the task id.\n" ++
  "- Do not push, rebase, or switch branches.\n" ++
  "- Finish with a short summary of what changed and anything left undone."

/-- The standing instructions. -/
def systemPrompt (b : Brief) : String :=
  Text.joinWith "\n\n" [b.role, b.boundary, completion]

def heading (t : Task) : String :=
  "## Task\n\n- **ID:** " ++ t.id ++ "\n- **Title:** " ++ t.title ++
  "\n- **Priority:** " ++ toString t.priority

def description (t : Task) : List String :=
  match t.description with
  | some d => if Text.isBlankText d then [] else ["## Description\n\n" ++ Text.trim d]
  | none => []

def prerequisites (t : Task) : List String :=
  if t.dependencies = [] then []
  else ["## Completed Prerequisites\n\n" ++ bullets t.dependencies]

def planSection (plan : Option String) : List String :=
  match plan with
  | some text => ["## Implementation Plan\n\n" ++ Text.trim text]
  | none => []

/-- What is said of the failed attempts before this one. -/
def history (resume : Option Resume) : List String :=
  match resume with
  | some r =>
    if 0 < r.attempts then
      ["## Previous Attempt\n\nThis is attempt " ++ toString (r.attempts + 1) ++
        " at this task. The previous attempt stopped early: " ++
        r.lastFailure.getD "unknown" ++
        "\n\nCheck the current state of the worktree before continuing; " ++
        "earlier edits are still there."]
    else []
  | none => []

/-- The request for an attempt. -/
def userPrompt (b : Brief) : String :=
  Text.joinWith "\n\n"
    (heading b.task :: description b.task ++ prerequisites b.task ++ planSection b.plan ++
      history b.resume)

end Brief
end Agent
end Foreman

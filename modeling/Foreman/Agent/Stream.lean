/-
# The output of an agent

An agent writes one JSON record a line; other lines are passed over (`events`).

The final text is the last one that a terminal event gave: the end of a message whose pieces
came one by one, a result, or a completed item that is a message (`finalText`, from
`extract_final_text`).  Pieces without the end of their message are no final text.

The session is the first one that any event names (`sessionId`, from `find_session_id`).  An
event is asked for the keys in their order, at its own level and not inside of what it carries;
a key whose text is empty is passed over, and so is one whose value is no text.
-/
import Foreman.Json.Reader
import Foreman.Json.Writer
import Foreman.Text.Blank
import Foreman.Text.Search

namespace Foreman
namespace Agent

/-- The record on a line, if there is one.  Blanks around it do not count. -/
def eventOfLine? (line : String) : Option Json :=
  let line := Text.trim line
  if Text.startsWith line "\x7b" then
    match Json.read? line with
    | some j => if j.isWhole then some j else none
    | none => none
  else none

/-- The records of the output. -/
def events (stdout : String) : List Json := (Text.lines stdout).filterMap eventOfLine?

/-- The text of the message so far, and the last text that was finished. -/
structure Transcript where
  pending : String := ""
  finished : Option String := none
deriving DecidableEq, Repr, Inhabited

/-- The event inside of an envelope; another event is its own. -/
def unwrap (event : Json) : Json :=
  if event.text? "type" = some "stream_event" then (event.get? "event").getD .null else event

/-- The text of a piece of a message. -/
def deltaText? (event : Json) : Option String :=
  match event.get? "delta" with
  | some delta => if delta.text? "type" = some "text_delta" then delta.text? "text" else none
  | none => none

/-- The text of an item that is a message; its kind stands under one of two names. -/
def messageItem? (event : Json) : Option String :=
  match event.get? "item" with
  | some item =>
    let kind :=
      match item.get? "type" with
      | some (.text s) => some s
      | some _ => none
      | none => item.text? "item_type"
    if kind = some "agent_message" then item.text? "text" else none
  | none => none

/-- The transcript after an event.  An event of another kind leaves it as it is, be it known or
not. -/
def Transcript.take (t : Transcript) (event : Json) : Transcript :=
  match event.text? "type" with
  | some kind =>
    if kind = "message_start" then { t with pending := "" }
    else if kind = "content_block_delta" then
      { t with pending := t.pending ++ (deltaText? event).getD "" }
    else if kind = "message_stop" then ⟨"", some t.pending⟩
    else if kind = "result" then
      { t with finished := (event.text? "result").or t.finished }
    else if kind = "item.completed" then
      { t with finished := (messageItem? event).or t.finished }
    else t
  | none => t

/-- The final text of the output; empty if there is none (`extract_final_text`). -/
def finalText (stdout : String) : String :=
  let t := (events stdout).foldl (fun t e => t.take (unwrap e)) ({} : Transcript)
  t.finished.getD ""

/-- The session of an event: the first of the keys with a text that is not empty. -/
def sessionOf? (keys : List String) (event : Json) : Option String :=
  keys.findSome? fun key =>
    match event.text? key with
    | some s => if s = "" then none else some s
    | none => none

/-- The first session that an event of the output names; empty if there is none
(`find_session_id`). -/
def sessionId (stdout : String) (keys : List String) : String :=
  ((events stdout).findSome? (sessionOf? keys)).getD ""

/-- The line with which an agent gives its result. -/
def resultLine (text session : String) : String :=
  (Json.record [("result", .text text), ("session_id", .text session),
    ("type", .text "result")]).compact ++ "\n"

end Agent
end Foreman

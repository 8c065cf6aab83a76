/-
# Reading YAML

The tree of the first document of a text.  Where the text is faulty the tree is torn, and what
stands before the fault is in it.  Aliases stay numbers: an anchor gets the number of different
names that came before it, and an alias the number its name had last.

The recursion follows the tokens.  It is bounded by a count, as the scanner may stay at one
place to end several blocks there.
-/
import Foreman.Yaml.Scanner

namespace Foreman
namespace Yaml

/-- Where the reader stands. -/
structure Reader where
  scanner : Scanner
  /-- The number that each anchor name has. -/
  names : List (String × Nat) := []
  /-- Anchored nodes with their numbers, the last one that started first. -/
  anchored : List (Nat × Yaml) := []
  /-- Handles of tags and what they stand for. -/
  handles : List (String × String) := []
deriving Repr, Inhabited

namespace Reader

/-- The next token, if the text is not faulty before it. -/
def peek (r : Reader) : Option (Token × Reader) :=
  r.scanner.peek.map fun (t, s) => (t, { r with scanner := s })

def take (r : Reader) : Reader := { r with scanner := r.scanner.take }

/-- The number of an anchor name from now on. -/
def name (r : Reader) (anchor : String) : Nat × Reader :=
  let id := r.names.length
  let names := (anchor, id) :: r.names.filter fun e => e.1 ≠ anchor
  (id, { r with names := names, anchored := (id, .ref id) :: r.anchored })

/-- The anchored node is complete; `later` others started after it. -/
def complete (r : Reader) (started : Nat) (node : Yaml) : Reader :=
  let place := r.anchored.length - started
  { r with anchored := r.anchored.mapIdx fun i e => if i = place then (e.1, node) else e }

/-- A node's anchor and tag, in either order. -/
structure Properties where
  anchor : Option String := none
  tag : Option (String × String) := none
deriving Repr, Inhabited

/-- The properties in front of a node, and the token of the node. -/
def properties (r : Reader) : Option (Properties × Token × Reader) :=
  match r.peek with
  | none => none
  | some (.anchor a, r) =>
    match r.take.peek with
    | none => none
    | some (.tag h s, r) =>
      r.take.peek.map fun (t, r) => ({ anchor := some a, tag := some (h, s) }, t, r)
    | some (t, r) => some ({ anchor := some a }, t, r)
  | some (.tag h s, r) =>
    match r.take.peek with
    | none => none
    | some (.anchor a, r) =>
      r.take.peek.map fun (t, r) => ({ anchor := some a, tag := some (h, s) }, t, r)
    | some (t, r) => some ({ tag := some (h, s) }, t, r)
  | some (t, r) => some ({}, t, r)

/-- The tag that a handle and a suffix stand for; a fault if the handle is unknown. -/
def resolveTag (r : Reader) : Option (String × String) → Option (Option String)
  | none => some none
  | some (handle, suffix) =>
    if handle = "" then some (some suffix)
    else
      match r.handles.find? fun e => e.1 = handle with
      | some e => some (some (e.2 ++ suffix))
      | none => none

/-- A part of the tree, and where the reader stands then; nowhere if the text is faulty. -/
abbrev Found (α : Type) := α × Option Reader

def torn : Found Yaml := (.torn, none)

/-- A node that was left out. -/
def leaveOut (r : Reader) : Found Yaml := (absent, some r)

/-- Tokens that end the part of a block entry where a node could stand. -/
def endsBlockNode : Token → Bool
  | .key | .value | .blockEnd => true
  | _ => false

/-- Tokens before which the key or the value of a pair in brackets was left out. -/
def endsFlowKey : Token → Bool
  | .value | .flowEntry | .flowSequenceEnd => true
  | _ => false

def endsFlowValue : Token → Bool
  | .flowEntry | .flowSequenceEnd => true
  | _ => false

/-- Tokens before which a key or a value in braces was left out. -/
def endsPairKey : Token → Bool
  | .value | .flowEntry | .flowMappingEnd => true
  | _ => false

def endsPairValue : Token → Bool
  | .flowEntry | .flowMappingEnd => true
  | _ => false

/-- Tokens that a document without content ends at. -/
def endsDocument : Token → Bool
  | .versionDirective .. | .tagDirective .. | .documentStart | .documentEnd | .streamEnd => true
  | _ => false

mutual
/-- A node.  `block` allows a block, `indentless` a sequence that is not indented. -/
def node : Nat → Bool → Bool → Reader → Found Yaml
  | 0, _, _, _ => torn
  | fuel + 1, block, indentless, r =>
    match r.peek with
    | none => torn
    | some (.alias a, r) =>
      match r.names.find? fun e => e.1 = a with
      | some e => (.ref e.2, some r.take)
      | none => torn
    | some (_, r) =>
      match r.properties with
      | none => torn
      | some (props, token, r) =>
        match r.resolveTag props.tag with
        | none => torn
        | some tag =>
          let r :=
            match props.anchor with
            | some a => (r.name a).2
            | none => r
          -- a reference inside the node to the node itself is known by this number
          let started := r.anchored.length
          let found := content fuel block indentless tag
            (props.anchor.isSome || props.tag.isSome) token r
          match props.anchor, found with
          | some _, (n, some r) => (n, some (r.complete started n))
          | _, found => found

/-- What follows the properties of a node. -/
def content : Nat → Bool → Bool → Option String → Bool → Token → Reader → Found Yaml
  | 0, _, _, _, _, _, _ => torn
  | fuel + 1, block, indentless, tag, hasProps, token, r =>
    match token with
    | .scalar text style =>
      -- a lone exclamation mark is no tag
      (.scalar text (tag.filter (· ≠ "!")) style, some r.take)
    | .flowSequenceStart =>
      let (items, r) := flowItems fuel true r.take
      (.sequence items, r)
    | .flowMappingStart =>
      let (entries, r) := flowEntries fuel true r.take
      (.mapping entries, r)
    | token =>
      if indentless && token = .blockEntry then
        let (items, r) := looseItems fuel r
        (.sequence items, r)
      else if block && token = .blockSequenceStart then
        let (items, r) := blockItems fuel r.take
        (.sequence items, r)
      else if block && token = .blockMappingStart then
        let (entries, r) := blockEntries fuel r.take
        (.mapping entries, r)
      else if hasProps then (.scalar "" tag .plain, some r)
      else torn

/-- The items of a block sequence. -/
def blockItems : Nat → Reader → Found (List Yaml)
  | 0, _ => ([.torn], none)
  | fuel + 1, r =>
    match r.peek with
    | some (.blockEntry, r) =>
      let found :=
        match r.take.peek with
        | none => torn
        | some (t, r) =>
          if t = .blockEntry || t = .blockEnd then leaveOut r else node fuel true false r
      match found with
      | (n, none) => ([n], none)
      | (n, some r) =>
        let (rest, r) := blockItems fuel r
        (n :: rest, r)
    | some (.blockEnd, r) => ([], some r.take)
    | _ => ([.torn], none)

/-- The items of a sequence that is not indented; its end is no token. -/
def looseItems : Nat → Reader → Found (List Yaml)
  | 0, _ => ([.torn], none)
  | fuel + 1, r =>
    match r.peek with
    | none => ([.torn], none)
    | some (.blockEntry, r) =>
      let found :=
        match r.take.peek with
        | none => torn
        | some (t, r) =>
          if t = .blockEntry || endsBlockNode t then leaveOut r else node fuel true false r
      match found with
      | (n, none) => ([n], none)
      | (n, some r) =>
        let (rest, r) := looseItems fuel r
        (n :: rest, r)
    | some (_, r) => ([], some r)

/-- The entries of a block mapping. -/
def blockEntries : Nat → Reader → Found (List (Yaml × Yaml))
  | 0, _ => ([(.torn, .torn)], none)
  | fuel + 1, r =>
    match r.peek with
    | some (.key, r) =>
      let key :=
        match r.take.peek with
        | none => torn
        | some (t, r) => if endsBlockNode t then leaveOut r else node fuel true true r
      match key with
      | (k, none) => ([(k, .torn)], none)
      | (k, some r) => blockValue fuel k r
    | some (.value, _) => ([(.torn, .torn)], none)
    | some (.blockEnd, r) => ([], some r.take)
    | _ => ([(.torn, .torn)], none)

/-- The value of a key in a block mapping, and the entries after it. -/
def blockValue : Nat → Yaml → Reader → Found (List (Yaml × Yaml))
  | 0, k, _ => ([(k, .torn)], none)
  | fuel + 1, k, r =>
    let value :=
      match r.peek with
      | none => torn
      | some (.value, r) =>
        match r.take.peek with
        | none => torn
        | some (t, r) => if endsBlockNode t then leaveOut r else node fuel true true r
      | some (_, r) => leaveOut r
    match value with
    | (v, none) => ([(k, v)], none)
    | (v, some r) =>
      let (rest, r) := blockEntries fuel r
      ((k, v) :: rest, r)

/-- The items of a sequence in brackets; `first` tells that none was read yet. -/
def flowItems : Nat → Bool → Reader → Found (List Yaml)
  | 0, _, _ => ([.torn], none)
  | fuel + 1, first, r =>
    match r.peek with
    | none => ([.torn], none)
    | some (.flowSequenceEnd, r) => ([], some r.take)
    | some (t, r) =>
      let ready :=
        if first then some (t, r) else if t = .flowEntry then r.take.peek else none
      match ready with
      | none => ([.torn], none)
      | some (.flowSequenceEnd, r) => ([], some r.take)
      | some (t, r) =>
        let found :=
          if t = .key then
            let (entry, r) := flowPair fuel r.take
            (.mapping [entry], r)
          else node fuel false false r
        match found with
        | (n, none) => ([n], none)
        | (n, some r) =>
          let (rest, r) := flowItems fuel false r
          (n :: rest, r)

/-- A key and its value that stand in a sequence. -/
def flowPair : Nat → Reader → Found (Yaml × Yaml)
  | 0, _ => ((.torn, .torn), none)
  | fuel + 1, r =>
    let key :=
      match r.peek with
      | none => torn
      | some (t, r) =>
        if endsFlowKey t then leaveOut r.take else node fuel false false r
    match key with
    | (k, none) => ((k, .torn), none)
    | (k, some r) =>
      let (v, r) :=
        match r.peek with
        | none => torn
        | some (.value, r) =>
          match r.take.peek with
          | none => torn
          | some (t, r) => if endsFlowValue t then leaveOut r else node fuel false false r
        | some (_, r) => leaveOut r
      ((k, v), r)

/-- The entries of a mapping in braces; `first` tells that none was read yet. -/
def flowEntries : Nat → Bool → Reader → Found (List (Yaml × Yaml))
  | 0, _, _ => ([(.torn, .torn)], none)
  | fuel + 1, first, r =>
    match r.peek with
    | none => ([(.torn, .torn)], none)
    | some (.flowMappingEnd, r) => ([], some r.take)
    | some (t, r) =>
      let ready :=
        if first then some (t, r) else if t = .flowEntry then r.take.peek else none
      match ready with
      | none => ([(.torn, .torn)], none)
      | some (.flowMappingEnd, r) => ([], some r.take)
      | some (t, r) =>
        let entry : Found (Yaml × Yaml) :=
          if t = .key then
            -- a marked key may be left out; a key without a mark has no value of its own here
            let key :=
              match r.take.peek with
              | none => torn
              | some (t, r) => if endsPairKey t then leaveOut r else node fuel false false r
            match key with
            | (k, none) => ((k, .torn), none)
            | (k, some r) =>
              let (v, r) := flowValue fuel r
              ((k, v), r)
          else
            match node fuel false false r with
            | (k, none) => ((k, .torn), none)
            | (k, some r) =>
              match r.peek with
              | none => ((k, .torn), none)
              | some (_, r) => ((k, absent), some r)
        match entry with
        | (e, none) => ([e], none)
        | (e, some r) =>
          let (rest, r) := flowEntries fuel false r
          (e :: rest, r)

/-- The value of a key in a mapping in braces. -/
def flowValue : Nat → Reader → Found Yaml
  | 0, _ => torn
  | fuel + 1, r =>
    match r.peek with
    | none => torn
    | some (.value, r) =>
      match r.take.peek with
      | none => torn
      | some (t, r) => if endsPairValue t then leaveOut r else node fuel false false r
    | some (_, r) => leaveOut r
end

/-- The handles that are known without a directive. -/
def knownHandles : List (String × String) := [("!", "!"), ("!!", "tag:yaml.org,2002:")]

/-- The directives in front of a document; a fault if one is repeated or of another version. -/
def directives : Nat → Bool → List (String × String) → Reader → Option Reader
  | 0, _, _, _ => none
  | fuel + 1, versioned, handles, r =>
    match r.peek with
    | none => none
    | some (.versionDirective major minor, r) =>
      if versioned || major ≠ 1 || (minor ≠ 1 && minor ≠ 2) then none
      else directives fuel true handles r.take
    | some (.tagDirective handle leader, r) =>
      if handles.any fun e => e.1 = handle then none
      else directives fuel versioned (handles ++ [(handle, leader)]) r.take
    | some (_, r) =>
      let defaults := knownHandles.filter fun e => !handles.any fun f => f.1 = e.1
      some { r with handles := handles ++ defaults }

/-- Nothing but ends of the document follow. -/
def endsStream : Nat → Reader → Bool
  | 0, _ => false
  | fuel + 1, r =>
    match r.peek with
    | some (.documentEnd, r) => endsStream fuel r.take
    | some (.streamEnd, _) => true
    | _ => false

/-- The document after its root was read. -/
def close (fuel : Nat) (root : Yaml) (r : Reader) : Document :=
  match r.peek with
  | none => ⟨root, r.anchored, .faulty⟩
  | some (_, r) => ⟨root, r.anchored, if endsStream fuel r then .last else .followed⟩

/-- The first document, at its start. -/
def document (fuel : Nat) (r : Reader) : Document :=
  let start : Option (Bool × Reader) :=
    match r.peek with
    | none => none
    | some (.streamStart, r) =>
      match r.take.peek with
      | none => none
      | some (.streamEnd, _) => none
      | some (t, r) =>
        match t with
        | .versionDirective .. | .tagDirective .. | .documentStart =>
          match directives fuel false [] r with
          | none => none
          | some r =>
            match r.peek with
            | some (.documentStart, r) => some (true, r.take)
            | _ => none
        | _ => some (false, { r with handles := knownHandles })
    | some _ => none
  match start with
  | none => ⟨.torn, [], .faulty⟩
  | some (marked, r) =>
    -- only a marked document may be empty, as without a mark there is none
    let isEmpty : Bool :=
      marked &&
        match r.peek with
        | some (t, _) => endsDocument t
        | none => false
    if isEmpty then close fuel absent r
    else
      match node fuel true false r with
      | (root, none) => ⟨root, [], .faulty⟩
      | (root, some r) => close fuel root r

end Reader

/-- The first document of a text. -/
def readChars (cs : List Char) : Document :=
  if cs.all Scanner.isAllowed then
    Reader.document (8 * cs.length + 32) { scanner := { cursor := { rest := cs } } }
  else ⟨.torn, [], .faulty⟩

def read (s : String) : Document := readChars s.toList

end Yaml
end Foreman

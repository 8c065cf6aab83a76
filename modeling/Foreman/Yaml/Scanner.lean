/-
# The tokens of a YAML text, one at a time

Blocks have no brackets of their own: where a line starts deeper than the block around it, a
block starts, and where it starts less deep, blocks end.  A simple key is known for one only
when its colon is reached, so the tokens of a key wait until it is clear that no colon follows,
and the start of the mapping is put in front of them.
-/
import Foreman.Yaml.Token

namespace Foreman
namespace Yaml

/-- A place where a simple key may have started. -/
structure PossibleKey where
  possible : Bool := false
  /-- The block can only go on with a key here. -/
  required : Bool := false
  /-- The number of the token that would be the key. -/
  token : Nat := 0
  index : Nat := 0
  line : Nat := 0
  column : Nat := 0
deriving Repr, Inhabited

/-- Where the scanner stands. -/
structure Scanner where
  cursor : Cursor
  ended : Bool := false
  /-- Tokens that were read and not taken yet. -/
  queue : List Token := [.streamStart]
  /-- How many tokens were taken. -/
  taken : Nat := 0
  keyAllowed : Bool := true
  /-- The possible key of the block, and of each bracket around the place, innermost first. -/
  keys : List PossibleKey := [{}]
  /-- How many brackets are open. -/
  flow : Nat := 0
  indent : Int := -1
  /-- The indentations of the blocks around, innermost first. -/
  outer : List Int := []
deriving Repr, Inhabited

namespace Scanner

/-- The longest simple key. -/
def keyLimit : Nat := 1024

def inFlow (s : Scanner) : Bool := 0 < s.flow

def enqueue (s : Scanner) (t : Token) : Scanner := { s with queue := s.queue ++ [t] }

/-- Puts a token in front of the one with that number. -/
def insertAt (s : Scanner) (number : Nat) (t : Token) : Scanner :=
  let place := number - s.taken
  { s with queue := s.queue.take place ++ t :: s.queue.drop place }

/-- The possible key is too far away by now. -/
def isStale (s : Scanner) (k : PossibleKey) : Bool :=
  k.possible && (k.line < s.cursor.line || k.index + keyLimit < s.cursor.index)

/-- Keys that are too far away are none; a fault if one was required. -/
def dropStale (s : Scanner) : Option Scanner :=
  if s.keys.any fun k => s.isStale k && k.required then none
  else
    some { s with
      keys := s.keys.map fun k => if s.isStale k then { k with possible := false } else k }

/-- The innermost possible key is none; a fault if it was required. -/
def dropKey (s : Scanner) : Option Scanner :=
  match s.keys with
  | [] => some s
  | k :: rest =>
    if k.possible && k.required then none
    else some { s with keys := { k with possible := false } :: rest }

/-- A key may start here. -/
def saveKey (s : Scanner) : Option Scanner :=
  if s.keyAllowed then
    match s.dropKey with
    | none => none
    | some s =>
      let k : PossibleKey :=
        { possible := true
          required := !s.inFlow && s.indent = s.cursor.column
          token := s.taken + s.queue.length
          index := s.cursor.index
          line := s.cursor.line
          column := s.cursor.column }
      some { s with keys := k :: s.keys.drop 1 }
  else some s

/-- Opens a block at a deeper column: its start goes to the end of the queue, or in front of the
token with the number. -/
def roll (s : Scanner) (column : Nat) (number : Option Nat) (t : Token) : Scanner :=
  if !s.inFlow && s.indent < column then
    let s := { s with outer := s.indent :: s.outer, indent := column }
    match number with
    | some n => s.insertAt n t
    | none => s.enqueue t
  else s

/-- Closes the blocks that are deeper than the column. -/
def unroll (column : Int) : List Int → Scanner → Scanner
  | [], s => s
  | i :: outer, s =>
    if !s.inFlow && column < s.indent then
      unroll column outer { s.enqueue .blockEnd with indent := i, outer := outer }
    else s

def closeBlocks (s : Scanner) (column : Int) : Scanner := unroll column s.outer s

/-- Over blanks, comments and line ends. -/
def skipToToken : Nat → Scanner → Scanner
  | 0, s => s
  | fuel + 1, s =>
    let c := s.cursor
    let c := if c.index = 0 && c.has 0 '\uFEFF' then c.skip else c
    let tabs := s.inFlow || !s.keyAllowed
    let c := c.skipWhile fun x => x = ' ' || (tabs && x = '\t')
    let c := if c.has 0 '#' then c.skipWhile (fun x => !isBreak x) else c
    if c.breakAt 0 then
      skipToToken fuel { s with cursor := c.skipLine, keyAllowed := s.keyAllowed || !s.inFlow }
    else { s with cursor := c }

/-- A token of some characters. -/
def mark (s : Scanner) (length : Nat) (t : Token) : Scanner :=
  { s.enqueue t with cursor := s.cursor.skipN length }

/-- The end of the text. -/
def finish (s : Scanner) : Option Scanner :=
  let c := s.cursor
  let c := if c.column ≠ 0 then { c with column := 0, line := c.line + 1 } else c
  (closeBlocks { s with cursor := c } (-1)).dropKey.map fun s =>
    { s.enqueue .streamEnd with keyAllowed := false, ended := true }

def directive (s : Scanner) : Option Scanner :=
  match (s.closeBlocks (-1)).dropKey with
  | none => none
  | some s =>
    (scanDirective s.cursor).map fun (t, c) =>
      { s.enqueue t with keyAllowed := false, cursor := c }

def documentMarker (s : Scanner) (t : Token) : Option Scanner :=
  (s.closeBlocks (-1)).dropKey.map fun s => { s.mark 3 t with keyAllowed := false }

def openFlow (s : Scanner) (t : Token) : Option Scanner :=
  s.saveKey.map fun s =>
    { s.mark 1 t with keys := {} :: s.keys, flow := s.flow + 1, keyAllowed := true }

def closeFlow (s : Scanner) (t : Token) : Option Scanner :=
  s.dropKey.map fun s =>
    let s := if s.inFlow then { s with flow := s.flow - 1, keys := s.keys.drop 1 } else s
    { s.mark 1 t with keyAllowed := false }

def flowEntry (s : Scanner) : Option Scanner :=
  s.dropKey.map fun s => { s.mark 1 .flowEntry with keyAllowed := true }

def blockEntry (s : Scanner) : Option Scanner :=
  if !s.inFlow && !s.keyAllowed then none
  else
    (s.roll s.cursor.column none .blockSequenceStart).dropKey.map fun s =>
      { s.mark 1 .blockEntry with keyAllowed := true }

def keyMark (s : Scanner) : Option Scanner :=
  if !s.inFlow && !s.keyAllowed then none
  else
    (s.roll s.cursor.column none .blockMappingStart).dropKey.map fun s =>
      { s.mark 1 .key with keyAllowed := !s.inFlow }

def valueMark (s : Scanner) : Option Scanner :=
  match s.keys with
  | [] => none
  | k :: rest =>
    if k.possible then
      let s := s.insertAt k.token .key
      let s := s.roll k.column (some k.token) .blockMappingStart
      let s := { s with keys := { k with possible := false } :: rest, keyAllowed := false }
      some (s.mark 1 .value)
    else if !s.inFlow && !s.keyAllowed then none
    else
      let s := s.roll s.cursor.column none .blockMappingStart
      some { s.mark 1 .value with keyAllowed := !s.inFlow }

/-- A token that may be a simple key. -/
def keyToken (s : Scanner) (scan : Cursor → Option (Token × Cursor)) : Option Scanner :=
  match s.saveKey with
  | none => none
  | some s =>
    (scan s.cursor).map fun (t, c) => { s.enqueue t with keyAllowed := false, cursor := c }

def plain (s : Scanner) : Option Scanner :=
  match s.saveKey with
  | none => none
  | some s =>
    (scanPlain s.inFlow s.indent s.cursor).map fun (t, newLine, c) =>
      { s.enqueue t with keyAllowed := newLine, cursor := c }

def block (s : Scanner) (literal : Bool) : Option Scanner :=
  match s.dropKey with
  | none => none
  | some s =>
    (scanBlock literal s.indent s.cursor).map fun (t, c) =>
      { s.enqueue t with keyAllowed := true, cursor := c }

/-- Characters that never start a plain scalar; three of them do if something follows. -/
def isIndicator (x : Char) : Bool := "-?:,[]\x7b\x7d#&*!|>'\"%@`".toList.contains x

/-- A plain scalar can start here. -/
def startsPlain (s : Scanner) (x : Char) : Bool :=
  (!isIndicator x && !isGap x) || (x = '-' && !s.cursor.gapAt 1) ||
    (!s.inFlow && (x = '?' || x = ':') && !s.cursor.gapOrStopAt 1)

/-- Reads the token that starts where the scanner stands. -/
def token (s : Scanner) : Option Scanner :=
  let c := s.cursor
  match c.peek with
  | none => s.finish
  | some x =>
    -- markers of lines first, then brackets, then marks that need a blank behind them outside of
    -- brackets, and a plain scalar where nothing else starts
    if c.column = 0 && x = '%' then s.directive
    else if c.isMarker '-' then s.documentMarker .documentStart
    else if c.isMarker '.' then s.documentMarker .documentEnd
    else if x = '[' then s.openFlow .flowSequenceStart
    else if x = '\x7b' then s.openFlow .flowMappingStart
    else if x = ']' then s.closeFlow .flowSequenceEnd
    else if x = '\x7d' then s.closeFlow .flowMappingEnd
    else if x = ',' then s.flowEntry
    else if x = '-' && c.gapOrStopAt 1 then s.blockEntry
    else if x = '?' && (s.inFlow || c.gapOrStopAt 1) then s.keyMark
    else if x = ':' && (s.inFlow || c.gapOrStopAt 1) then s.valueMark
    else if x = '*' then s.keyToken fun c => (scanName c).map fun (n, c) => (.alias n, c)
    else if x = '&' then s.keyToken fun c => (scanName c).map fun (n, c) => (.anchor n, c)
    else if x = '!' then s.keyToken (scanTag s.inFlow)
    else if x = '|' && !s.inFlow then s.block true
    else if x = '>' && !s.inFlow then s.block false
    else if x = '\'' then s.keyToken (scanQuoted true)
    else if x = '"' then s.keyToken (scanQuoted false)
    else if s.startsPlain x then s.plain
    else none

/-- Reads the next token. -/
def fetch (s : Scanner) : Option Scanner :=
  match (skipToToken (s.cursor.rest.length + 1) s).dropStale with
  | none => none
  | some s => (s.closeBlocks s.cursor.column).token

/-- Reads on until the next token to take is certain. -/
def fill : Nat → Scanner → Option Scanner
  | 0, _ => none
  | fuel + 1, s =>
    if s.ended then some s
    else if s.queue.isEmpty then s.fetch.bind (fill fuel)
    else
      match s.dropStale with
      | none => none
      | some s =>
        if s.keys.any fun k => k.possible && k.token = s.taken then s.fetch.bind (fill fuel)
        else some s

/-- The next token, which stays in the queue. -/
def peek (s : Scanner) : Option (Token × Scanner) :=
  match fill (2 * s.cursor.rest.length + 8) s with
  | none => none
  | some s => s.queue.head?.map (·, s)

/-- Takes the next token. -/
def take (s : Scanner) : Scanner := { s with queue := s.queue.drop 1, taken := s.taken + 1 }

/-- Characters that a document may hold. -/
def isAllowed (x : Char) : Bool :=
  let n := x.toNat
  n = 0x09 || n = 0x0A || n = 0x0D || (0x20 ≤ n && n ≤ 0x7E) || n = 0x85 ||
    (0xA0 ≤ n && n ≤ 0xD7FF) || (0xE000 ≤ n && n ≤ 0xFFFD) || 0x10000 ≤ n

end Scanner
end Yaml
end Foreman

/-
# Tokens of a YAML text

The tokens a text is made of, and the functions that read the longer ones: directives, names,
tags and the five kinds of scalars.  Each takes a cursor at the first character of the token
and returns the cursor behind it, or nothing if the text is faulty there.

What a plain scalar may hold depends on whether brackets are open around it, which each function
is told.
-/
import Foreman.Yaml.Basic
import Foreman.Yaml.Cursor
import Foreman.Text.Utf8

namespace Foreman
namespace Yaml

inductive Token where
  | streamStart
  | streamEnd
  | versionDirective (major minor : Nat)
  | tagDirective (handle leader : String)
  | documentStart
  | documentEnd
  | blockSequenceStart
  | blockMappingStart
  | blockEnd
  | flowSequenceStart
  | flowSequenceEnd
  | flowMappingStart
  | flowMappingEnd
  | blockEntry
  | flowEntry
  | key
  | value
  | alias (name : String)
  | anchor (name : String)
  | tag (handle suffix : String)
  | scalar (text : String) (style : ScalarStyle)
deriving DecidableEq, Repr, Inhabited

/-! ## 1. Names, tags and directives

What stands behind one of the marks `&`, `*`, `!` and `%`.  The bytes that a tag writes with
percent signs have to make up characters. -/

/-- The name of an anchor or an alias, after its mark. -/
def scanName (c : Cursor) : Option (String × Cursor) :=
  let (name, c) := c.skip.takeWhile isNameChar
  let closes := c.gapOrStopAt 0 ||
    c.peek.any fun x => "?:,]\x7d%@`".toList.contains x
  if name = [] || !closes then none else some (String.ofList name, c)

/-- The handle of a tag: an exclamation mark, a name, and mostly a second mark. -/
def scanTagHandle (isDirective : Bool) (c : Cursor) : Option (List Char × Cursor) :=
  if !c.has 0 '!' then none
  else
    let (name, c) := c.skip.takeWhile isNameChar
    if c.has 0 '!' then some ('!' :: name ++ ['!'], c.skip)
    else if isDirective && name ≠ [] then none
    else some ('!' :: name, c)

/-- Characters of a tag, besides letters, digits, underscores and dashes. -/
def isTagMark (verbatim : Bool) (x : Char) : Bool :=
  ";/?:@&=+$.!~*'()%".toList.contains x || (verbatim && ",[]".toList.contains x)

def hexDigit? (x : Char) : Option Nat :=
  if x.isDigit then some (x.toNat - '0'.toNat)
  else if 'a' ≤ x ∧ x ≤ 'f' then some (x.toNat - 'a'.toNat + 10)
  else if 'A' ≤ x ∧ x ≤ 'F' then some (x.toNat - 'A'.toNat + 10)
  else none

/-- The byte of a percent sign and two digits. -/
def escapedByte? (c : Cursor) : Option (UInt8 × Cursor) :=
  match c.rest with
  | '%' :: a :: b :: _ =>
    match hexDigit? a, hexDigit? b with
    | some x, some y => some (UInt8.ofNat (16 * x + y), c.skipN 3)
    | _, _ => none
  | _ => none

/-- The bytes of a character that is written with percent signs. -/
def escapedBytes? : Nat → Cursor → Option (List UInt8 × Cursor)
  | 0, c => some ([], c)
  | n + 1, c =>
    match escapedByte? c with
    | none => none
    | some (b, c) => (escapedBytes? n c).map fun (bs, c) => (b :: bs, c)

/-- How many bytes a character has whose first byte is given; zero if none starts so. -/
def charWidth (b : UInt8) : Nat :=
  let n := b.toNat
  if n < 0x80 then 1
  else if n / 32 = 6 then 2
  else if n / 16 = 14 then 3
  else if n / 8 = 30 then 4
  else 0

/-- A character that is written with percent signs. -/
def escapedChar? (c : Cursor) : Option (List Char × Cursor) :=
  match escapedByte? c with
  | none => none
  | some (b, _) =>
    let width := charWidth b
    if width = 0 then none
    else
      match escapedBytes? width c with
      | none => none
      | some (bytes, c) => (Utf8.decode? bytes).map (·, c)

/-- The rest of a tag. -/
def scanTagBody (verbatim : Bool) : Nat → Cursor → Option (List Char × Cursor)
  | 0, c => some ([], c)
  | fuel + 1, c =>
    match c.peek with
    | none => some ([], c)
    | some x =>
      if x = '%' then
        match escapedChar? c with
        | none => none
        | some (cs, c) => (scanTagBody verbatim fuel c).map fun (more, c) => (cs ++ more, c)
      else if isNameChar x || isTagMark verbatim x then
        (scanTagBody verbatim fuel c.skip).map fun (more, c) => (x :: more, c)
      else some ([], c)

/-- A part of a tag that is not empty, after what was read of it before. -/
def scanTagUri (verbatim : Bool) (head : List Char) (c : Cursor) :
    Option (List Char × Cursor) :=
  match scanTagBody verbatim (c.rest.length + 1) c with
  | none => none
  | some (body, c) => if head = [] && body = [] then none else some (head.drop 1 ++ body, c)

/-- A tag; `inFlow` tells that a comma may follow. -/
def scanTag (inFlow : Bool) (c : Cursor) : Option (Token × Cursor) := do
  let (handle, suffix, c) ←
    if c.has 1 '<' then do
      let (suffix, c) ← scanTagUri true [] (c.skipN 2)
      if c.has 0 '>' then some (([] : List Char), suffix, c.skip) else none
    else do
      let (handle, c) ← scanTagHandle false c
      if 2 ≤ handle.length && handle.getLast? = some '!' then do
        let (suffix, c) ← scanTagUri false [] c
        some (handle, suffix, c)
      else do
        let (suffix, c) ← scanTagUri false handle c
        if suffix = [] then some ([], ['!'], c) else some (['!'], suffix, c)
  if (inFlow && c.has 0 ',') || c.gapOrStopAt 0 then
    some (.tag (String.ofList handle) (String.ofList suffix), c)
  else none

/-- A number of a version, of at most nine digits. -/
def scanVersionNumber (c : Cursor) : Option (Nat × Cursor) :=
  let (digits, c) := c.takeWhile Char.isDigit
  if digits = [] || digits.length > 9 then none
  else some (digits.foldl (fun n d => 10 * n + (d.toNat - '0'.toNat)) 0, c)

/-- A directive, up to the end of its line. -/
def scanDirective (c : Cursor) : Option (Token × Cursor) := do
  let (name, c) := c.skip.takeWhile isNameChar
  if name = [] || !c.gapOrStopAt 0 then none
  else do
    let (token, c) ←
      if name = "YAML".toList then do
        let (major, c) ← scanVersionNumber (c.skipWhile isGap)
        if !c.has 0 '.' then none
        else do
          let (minor, c) ← scanVersionNumber c.skip
          some (Token.versionDirective major minor, c)
      else if name = "TAG".toList then do
        let (handle, c) ← scanTagHandle true (c.skipWhile isGap)
        if !c.gapAt 0 then none
        else do
          let (leader, c) ← scanTagUri true [] (c.skipWhile isGap)
          if c.gapOrStopAt 0 then
            some (.tagDirective (String.ofList handle) (String.ofList leader), c)
          else none
      else none
    let c := c.skipWhile isGap
    let c := if c.has 0 '#' then c.skipWhile (fun x => !isBreak x) else c
    if c.stopAt 0 then some (token, c.skipLine) else none

/-! ## 2. Folding of lines

Plain and quoted scalars go over several lines, and what stands between two words of them is
folded: one line end is a space, and of more the first is dropped. -/

/-- What was passed between two words of a scalar: the gap on the line, or the first line end
and those after it. -/
structure Fold where
  gap : List Char := []
  inBreaks : Bool := false
  first : List Char := []
  more : List Char := []
deriving Repr, Inhabited

/-- What stands for the fold in the text: a single line end is a space. -/
def Fold.text (f : Fold) : List Char :=
  if f.inBreaks then
    if f.first.head? = some '\n' then (if f.more = [] then [' '] else f.more)
    else f.first ++ f.more
  else f.gap

/-- Gaps and line ends up to the next word.  In a plain scalar (`indent` given) a tab may not
stand where blanks indent the line. -/
def scanFold (indent : Option Int) : Nat → Fold → Cursor → Option (Fold × Cursor)
  | 0, f, c => some (f, c)
  | fuel + 1, f, c =>
    match c.peek with
    | none => some (f, c)
    | some x =>
      if isGap x then
        let tabbed :=
          match indent with
          | some n => f.inBreaks && (c.column : Int) < n && x = '\t'
          | none => false
        if tabbed then none
        else if f.inBreaks then scanFold indent fuel f c.skip
        else scanFold indent fuel { f with gap := f.gap ++ [x] } c.skip
      else if isBreak x then
        let (text, c) := c.readLine
        if f.inBreaks then scanFold indent fuel { f with more := f.more ++ text } c
        else scanFold indent fuel { f with gap := [], first := text, inBreaks := true } c
      else some (f, c)

/-! ## 3. Scalars between quotes

Between single quotes a doubled quote is the only escape.  Between double quotes there are those
of one letter, those of a number, and the escaped line end, which joins two lines. -/

/-- The character of an escape of one letter. -/
def shortEscape? (x : Char) : Option Char :=
  if x = '0' then some '\x00'
  else if x = 'a' then some '\x07'
  else if x = 'b' then some '\x08'
  else if x = 't' || x = '\t' then some '\t'
  else if x = 'n' then some '\n'
  else if x = 'v' then some '\x0b'
  else if x = 'f' then some '\x0c'
  else if x = 'r' then some '\r'
  else if x = 'e' then some '\x1b'
  else if x = ' ' then some ' '
  else if x = '"' then some '"'
  else if x = '/' then some '/'
  else if x = '\\' then some '\\'
  else if x = 'N' then some '\u0085'
  else if x = '_' then some '\u00A0'
  else if x = 'L' then some '\u2028'
  else if x = 'P' then some '\u2029'
  else none

/-- How many digits follow the letter of a numeric escape. -/
def escapeWidth? (x : Char) : Option Nat :=
  if x = 'x' then some 2 else if x = 'u' then some 4 else if x = 'U' then some 8 else none

/-- The character of an escape, at its backslash. -/
def scanEscape (c : Cursor) : Option (Char × Cursor) :=
  match c.rest with
  | '\\' :: x :: digits =>
    match shortEscape? x with
    | some y => some (y, c.skipN 2)
    | none =>
      match escapeWidth? x with
      | none => none
      | some width =>
        let taken := digits.take width
        match taken.mapM hexDigit? with
        | none => none
        | some values =>
          let n := values.foldl (fun n d => 16 * n + d) 0
          if taken.length = width && !(0xD800 ≤ n && n ≤ 0xDFFF) && n ≤ 0x10FFFF then
            some (Char.ofNat n, c.skipN (2 + width))
          else none
  | _ => none

/-- The characters up to a gap, a line end or the closing quote; the flag tells that a line end
was escaped. -/
def scanQuotedWord (single : Bool) : Nat → List Char → Cursor →
    Option (List Char × Bool × Cursor)
  | 0, _, _ => none
  | fuel + 1, acc, c =>
    match c.peek with
    | none => some (acc.reverse, false, c)
    | some x =>
      if isGap x || isBreak x then some (acc.reverse, false, c)
      else if single && x = '\'' then
        if c.has 1 '\'' then scanQuotedWord single fuel ('\'' :: acc) (c.skipN 2)
        else some (acc.reverse, false, c)
      else if !single && x = '"' then some (acc.reverse, false, c)
      else if !single && x = '\\' then
        if c.breakAt 1 then some (acc.reverse, true, c.skip.skipLine)
        else
          match scanEscape c with
          | some (y, c) => scanQuotedWord single fuel (y :: acc) c
          | none => none
      else scanQuotedWord single fuel (x :: acc) c.skip

/-- The text of a scalar up to its closing quote. -/
def scanQuotedBody (single : Bool) : Nat → Cursor → Option (List Char × Cursor)
  | 0, _ => none
  | fuel + 1, c =>
    if c.isDocumentMarker || c.atEnd then none
    else
      match scanQuotedWord single (c.rest.length + 1) [] c with
      | none => none
      | some (word, escaped, c) =>
        if c.has 0 (if single then '\'' else '"') then some (word, c.skip)
        else
          match scanFold none (c.rest.length + 1) { inBreaks := escaped } c with
          | none => none
          | some (fold, c) =>
            (scanQuotedBody single fuel c).map fun (more, c) => (word ++ fold.text ++ more, c)

def scanQuoted (single : Bool) (c : Cursor) : Option (Token × Cursor) :=
  (scanQuotedBody single (c.rest.length + 1) c.skip).map fun (text, c) =>
    (.scalar (String.ofList text) (if single then .singleQuoted else .doubleQuoted), c)

/-! ## 4. Plain scalars

A plain scalar ends at a comment, at a colon with a blank behind it, where a line is not deep
enough, and between brackets at their marks too. -/

/-- The characters of a plain scalar up to a gap, a line end or a mark that ends it. -/
def scanPlainWord (inFlow : Bool) : Nat → List Char → Cursor → Option (List Char × Cursor)
  | 0, _, _ => none
  | fuel + 1, acc, c =>
    match c.peek with
    | none => some (acc.reverse, c)
    | some x =>
      if isGap x || isBreak x then some (acc.reverse, c)
      else if inFlow && x = ':' && (c.peekAt 1).any (fun y => ",?[]\x7b\x7d".toList.contains y) then
        none
      else if (x = ':' && c.gapOrStopAt 1) ||
          (inFlow && ",[]\x7b\x7d".toList.contains x) then some (acc.reverse, c)
      else scanPlainWord inFlow fuel (x :: acc) c.skip

/-- The text of a plain scalar, and whether the cursor stands behind a line end.  A fold is part
of the text only if a word follows. -/
def scanPlainBody (inFlow : Bool) (indent : Int) : Nat → Fold → List Char → Cursor →
    Option (List Char × Bool × Cursor)
  | 0, _, _, _ => none
  | fuel + 1, fold, acc, c =>
    if c.isDocumentMarker || c.has 0 '#' then some (acc, fold.inBreaks, c)
    else
      match scanPlainWord inFlow (c.rest.length + 1) [] c with
      | none => none
      | some (word, c) =>
        let acc := if word = [] then acc else acc ++ fold.text ++ word
        let fold : Fold := if word = [] then fold else {}
        if !(c.gapAt 0 || c.breakAt 0) then some (acc, fold.inBreaks, c)
        else
          match scanFold (some indent) (c.rest.length + 1) fold c with
          | none => none
          | some (fold, c) =>
            if !inFlow && (c.column : Int) < indent then some (acc, fold.inBreaks, c)
            else scanPlainBody inFlow indent fuel fold acc c

/-- A plain scalar, and whether a line end follows it. -/
def scanPlain (inFlow : Bool) (parentIndent : Int) (c : Cursor) :
    Option (Token × Bool × Cursor) :=
  (scanPlainBody inFlow (parentIndent + 1) (c.rest.length + 1) {} [] c).map
    fun (text, newLine, c) => (.scalar (String.ofList text) .plain, newLine, c)

/-! ## 5. Block scalars

The lines of a block are as deep as the first of them with text, or as the header says.  Literal
blocks keep their line ends, folded ones join lines that start without a blank. -/

/-- What becomes of the line ends at the end of a block scalar. -/
inductive Chomping where
  | strip
  | clip
  | keep
deriving DecidableEq, Repr, Inhabited

def chompingOf? (x : Char) : Option Chomping :=
  if x = '+' then some .keep else if x = '-' then some .strip else none

/-- The digit that tells the indentation; zero is none. -/
def indentDigit? (c : Cursor) : Option (Nat × Cursor) :=
  match c.peek with
  | some x =>
    if x.isDigit then (if x = '0' then none else some (x.toNat - '0'.toNat, c.skip))
    else some (0, c)
  | none => some (0, c)

/-- The marks behind the indicator, in either order. -/
def scanBlockHeader (c : Cursor) : Option (Chomping × Nat × Cursor) :=
  match c.peek.bind chompingOf? with
  | some chomping => (indentDigit? c.skip).map fun (n, c) => (chomping, n, c)
  | none =>
    match indentDigit? c with
    | none => none
    | some (0, c) => some (.clip, 0, c)
    | some (n, c) =>
      match c.peek.bind chompingOf? with
      | some chomping => some (chomping, n, c.skip)
      | none => some (.clip, n, c)

/-- Empty lines, and the blanks that indent the next one.  With no indentation known yet, the
deepest line tells it. -/
def scanBlockBreaks : Nat → Nat → Nat → List Char → Cursor → Option (List Char × Nat × Cursor)
  | 0, _, _, _, _ => none
  | fuel + 1, indent, deepest, acc, c =>
    let c := blanks indent c
    let deepest := max deepest c.column
    if (indent = 0 || c.column < indent) && c.has 0 '\t' then none
    else if c.breakAt 0 then
      let (text, c) := c.readLine
      scanBlockBreaks fuel indent deepest (acc ++ text) c
    else some (acc, deepest, c)
where
  /-- Over the blanks that indent a line. -/
  blanks (indent : Nat) (c : Cursor) : Cursor :=
    let spaces := (c.rest.takeWhile (· = ' ')).length
    c.skipN (if indent = 0 then spaces else min spaces (indent - c.column))

/-- The lines of a block scalar.  `leading` is the line end before the line, `more` the empty
lines behind that, and `wasGap` tells that the last line started with a gap. -/
def scanBlockLines (literal : Bool) (indent : Nat) : Nat → List Char → List Char → Bool →
    List Char → Cursor → Option (List Char × List Char × List Char × Cursor)
  | 0, _, _, _, _, _ => none
  | fuel + 1, leading, more, wasGap, acc, c =>
    if c.column ≠ indent || c.atEnd then some (acc, leading, more, c)
    else
      let isGapLine := c.gapAt 0
      let joined :=
        if !literal && leading.head? = some '\n' && !wasGap && !isGapLine then
          (if more = [] then [' '] else more)
        else leading ++ more
      let (text, c) := c.takeWhile fun x => !isBreak x
      let (leading, c) := c.readLine
      match scanBlockBreaks (c.rest.length + 1) indent 0 [] c with
      | none => none
      | some (more, _, c) =>
        scanBlockLines literal indent fuel leading more isGapLine (acc ++ joined ++ text) c

def scanBlock (literal : Bool) (parentIndent : Int) (c : Cursor) : Option (Token × Cursor) := do
  let (chomping, digit, c) ← scanBlockHeader c.skip
  let c := c.skipWhile isGap
  let c := if c.has 0 '#' then c.skipWhile (fun x => !isBreak x) else c
  if !c.stopAt 0 then none
  else do
    let c := c.skipLine
    let given := if digit = 0 then 0 else (max parentIndent 0).toNat + digit
    let (breaks, deepest, c) ← scanBlockBreaks (c.rest.length + 1) given 0 [] c
    let indent := if given ≠ 0 then given else max (max deepest (parentIndent + 1).toNat) 1
    let (text, leading, more, c) ←
      scanBlockLines literal indent (c.rest.length + 1) [] breaks false [] c
    let tail :=
      match chomping with
      | .strip => []
      | .clip => leading
      | .keep => leading ++ more
    some (.scalar (String.ofList (text ++ tail)) (if literal then .literal else .folded), c)

end Yaml
end Foreman

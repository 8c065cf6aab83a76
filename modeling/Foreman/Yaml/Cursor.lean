/-
# A place in a text

A cursor walks over a text and counts characters, lines and columns.  A line ends at a line
feed, a carriage return (with the line feed behind it), U+0085, U+2028 or U+2029; the first
three kinds are read as a line feed.
-/

namespace Foreman
namespace Yaml

/-- A place in a text and what follows it. -/
structure Cursor where
  rest : List Char
  index : Nat := 0
  line : Nat := 0
  column : Nat := 0
deriving Repr, Inhabited

def isBreak (c : Char) : Bool :=
  c = '\n' || c = '\r' || c = '\u0085' || c = '\u2028' || c = '\u2029'

/-- A space or a tab. -/
def isGap (c : Char) : Bool := c = ' ' || c = '\t'

/-- A letter, a digit, an underscore or a dash, of ASCII. -/
def isNameChar (c : Char) : Bool := c.isAlphanum || c = '_' || c = '-'

namespace Cursor

def peek (c : Cursor) : Option Char := c.rest.head?

def peekAt (c : Cursor) (n : Nat) : Option Char := c.rest[n]?

/-- The text has that character there. -/
def has (c : Cursor) (n : Nat) (x : Char) : Bool := c.peekAt n = some x

def atEnd (c : Cursor) : Bool := c.rest.isEmpty

def breakAt (c : Cursor) (n : Nat) : Bool := (c.peekAt n).any isBreak

/-- A line end or the end of the text. -/
def stopAt (c : Cursor) (n : Nat) : Bool := (c.peekAt n).all isBreak

def gapAt (c : Cursor) (n : Nat) : Bool := (c.peekAt n).any isGap

/-- A gap, a line end or the end of the text. -/
def gapOrStopAt (c : Cursor) (n : Nat) : Bool := (c.peekAt n).all fun x => isGap x || isBreak x

/-- One character on. -/
def skip (c : Cursor) : Cursor :=
  match c.rest with
  | [] => c
  | _ :: r => { c with rest := r, index := c.index + 1, column := c.column + 1 }

/-- Some characters on. -/
def skipN : Nat → Cursor → Cursor
  | 0, c => c
  | n + 1, c => skipN n c.skip

/-- Past a line end, and what it is read as. -/
def readLine (c : Cursor) : List Char × Cursor :=
  match c.rest with
  | '\r' :: '\n' :: r => (['\n'], ⟨r, c.index + 2, c.line + 1, 0⟩)
  | x :: r =>
    if x = '\u2028' || x = '\u2029' then ([x], ⟨r, c.index + 1, c.line + 1, 0⟩)
    else if isBreak x then (['\n'], ⟨r, c.index + 1, c.line + 1, 0⟩)
    else ([], c)
  | [] => ([], c)

def skipLine (c : Cursor) : Cursor := c.readLine.2

/-- Over the characters of a class. -/
def skipWhile (p : Char → Bool) (c : Cursor) : Cursor :=
  skipN (c.rest.takeWhile p).length c

/-- The characters of a class, and the place behind them. -/
def takeWhile (p : Char → Bool) (c : Cursor) : List Char × Cursor :=
  let taken := c.rest.takeWhile p
  (taken, skipN taken.length c)

/-- Three times the character at the start of a line, with a gap behind it. -/
def isMarker (x : Char) (c : Cursor) : Bool :=
  c.column = 0 && c.has 0 x && c.has 1 x && c.has 2 x && c.gapOrStopAt 3

/-- The marker of a document's start or end. -/
def isDocumentMarker (c : Cursor) : Bool := c.isMarker '-' || c.isMarker '.'

end Cursor
end Yaml
end Foreman

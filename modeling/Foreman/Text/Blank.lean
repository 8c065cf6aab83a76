/-
# Blank characters

The 25 characters of the Unicode property White_Space, and the three ways to trim a text of
them.  Everything here works on `List Char`; the `String` forms at the end wrap it.

Blanks decide which footprint patterns are the same and which entries of a document are empty,
so the table is complete and not only that of ASCII.
-/

namespace Foreman.Text

/-- The Unicode property White_Space. -/
def isBlank (c : Char) : Bool :=
  let n := c.toNat
  (9 ≤ n && n ≤ 13) || n = 32 || n = 0x85 || n = 0xA0 || n = 0x1680 ||
    (0x2000 ≤ n && n ≤ 0x200A) || n = 0x2028 || n = 0x2029 || n = 0x202F ||
    n = 0x205F || n = 0x3000

/-- The text after its leading blanks. -/
def dropBlanks (cs : List Char) : List Char := cs.dropWhile isBlank

/-- The text without its trailing blanks. -/
def dropBlanksEnd : List Char → List Char
  | [] => []
  | c :: r =>
    match dropBlanksEnd r with
    | [] => if isBlank c then [] else [c]
    | r' => c :: r'

/-- The text without blanks at either end. -/
def trimChars (cs : List Char) : List Char := dropBlanksEnd (dropBlanks cs)

/-- Whether nothing but blanks is in the text. -/
def allBlank (cs : List Char) : Bool := cs.all isBlank

def trim (s : String) : String := String.ofList (trimChars s.toList)

def trimEnd (s : String) : String := String.ofList (dropBlanksEnd s.toList)

/-- Whether trimming leaves nothing. -/
def isBlankText (s : String) : Bool := allBlank s.toList

end Foreman.Text

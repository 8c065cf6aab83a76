/-
# Lower case

The program compares a lower-cased text with words of ASCII letters only.  For such a
comparison two rules are enough: the letters A to Z, and the Kelvin sign, whose lower case
form is the letter k.  Every other character either stays out of ASCII or brings a combining
mark with it.
-/

namespace Foreman.Text

/-- The Kelvin sign U+212A. -/
def kelvinSign : Char := '\u212A'

/-- The lower-case form of a character, exact where that form is an ASCII letter. -/
def lowerChar (c : Char) : Char := if c = kelvinSign then 'k' else c.toLower

/-- The text in lower case, for comparison with words of ASCII letters. -/
def lower (s : String) : String := String.ofList (s.toList.map lowerChar)

end Foreman.Text

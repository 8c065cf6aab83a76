/-
# Decimal integers

Reading of unsigned and signed decimal integers with a bound.  A sign `+` is allowed, digits
are required, and leading zeros are kept out of the value.

The bound is that of the machine word into which the number is to go.  A number above it is not
cut but refused.
-/

namespace Foreman.Text

/-- The value of a decimal digit. -/
def digitValue? (c : Char) : Option Nat := if c.isDigit then some (c.toNat - '0'.toNat) else none

/-- The value of a text of decimal digits, each digit put behind `acc`. -/
def digitsValue? (acc : Nat) : List Char → Option Nat
  | [] => some acc
  | c :: cs => (digitValue? c).bind fun d => digitsValue? (10 * acc + d) cs

/-- A nonempty text of digits below `bound`. -/
def unsignedDigits? (bound : Nat) (cs : List Char) : Option Nat :=
  if cs = [] then none else (digitsValue? 0 cs).bind fun n => if n < bound then some n else none

/-- An unsigned integer below `bound`, with an optional sign `+`. -/
def unsigned? (bound : Nat) : List Char → Option Nat
  | '+' :: cs => unsignedDigits? bound cs
  | cs => unsignedDigits? bound cs

/-- A signed integer of `-half` up to `half - 1`, with an optional sign. -/
def signed? (half : Nat) : List Char → Option Int
  | '-' :: cs => (unsignedDigits? (half + 1) cs).map fun n => -(n : Int)
  | '+' :: cs => (unsignedDigits? half cs).map Int.ofNat
  | cs => (unsignedDigits? half cs).map Int.ofNat

/-- Integers of 32 and 64 bits. -/
def bound32 : Nat := 4294967296
def bound64 : Nat := 18446744073709551616
def half64 : Nat := 9223372036854775808

/-- The number in decimal, with zeros in front up to the width. -/
def padded (width n : Nat) : String :=
  let digits := toString n
  String.ofList (List.replicate (width - digits.length) '0') ++ digits

end Foreman.Text

/-
# Decimal numbers and doubles

A decimal number as it is written: sign, digits and a power of ten.  It keeps the written value
exactly; the step to a double of 64 bits rounds once, to the nearest double and ties to even.

The other direction is fixed notation: a double with a given count of places, where the exact
binary value decides and a tie goes to the even digit.

The weights of the configuration and the parts of a score are doubles.  Nothing that is proved
of plans depends on how they are rounded.
-/
import Foreman.Text.Integer

namespace Foreman

/-- The number `± digits * 10 ^ exponent`. -/
structure Decimal where
  negative : Bool
  digits : Nat
  exponent : Int
deriving DecidableEq, Repr

namespace Decimal

/-- How many decimal digits a positive number has; zero has none. -/
def digitCount (n : Nat) : Nat := if n = 0 then 0 else (toString n).length

/-- The size of the nearest double.  Beyond 400 places in either direction every decimal is
infinite or zero, so the power of ten stays small. -/
def magnitude (d : Decimal) : Float :=
  let top := d.exponent + digitCount d.digits
  if d.digits = 0 then 0.0
  else if top > 400 then 1.0 / 0.0
  else if top < -400 then 0.0
  else if d.exponent < 0 then Float.ofScientific d.digits true d.exponent.natAbs
  else Float.ofScientific d.digits false d.exponent.natAbs

/-- The nearest double. -/
def toFloat (d : Decimal) : Float := if d.negative then -d.magnitude else d.magnitude

/-- The nearest double, if it is finite. -/
def toFinite? (d : Decimal) : Option Float :=
  let x := d.toFloat
  if x.isInf then none else some x

end Decimal

namespace Text

/-- The digits at the start of a text and what follows them. -/
def spanDigits (cs : List Char) : List Char × List Char :=
  (cs.takeWhile Char.isDigit, cs.dropWhile Char.isDigit)

/-- The value of a text of digits; other characters do not occur in it. -/
def digitsValue (cs : List Char) : Nat := (digitsValue? 0 cs).getD 0

/-- An exponent mark with its digits, or nothing, up to the end of the text. -/
def exponentPart? : List Char → Option Int
  | [] => some 0
  | e :: cs =>
    if e = 'e' || e = 'E' then
      match cs with
      | '-' :: ds => (unsignedDigits? 1000000000 (capDigits ds)).map fun n => -(n : Int)
      | '+' :: ds => (unsignedDigits? 1000000000 (capDigits ds)).map Int.ofNat
      | ds => (unsignedDigits? 1000000000 (capDigits ds)).map Int.ofNat
    else none
where
  /-- An exponent of more than eight digits acts as the largest of eight. -/
  capDigits (ds : List Char) : List Char :=
    let significant := ds.dropWhile (· = '0')
    if ds.all Char.isDigit && significant.length > 8 then List.replicate 8 '9' else ds

/-- An unsigned decimal: digits with at most one point and at least one digit, and an optional
exponent. -/
def unsignedDecimal? (negative : Bool) (cs : List Char) : Option Decimal :=
  let (whole, rest) := spanDigits cs
  let (fraction, rest) :=
    match rest with
    | '.' :: r => spanDigits r
    | r => ([], r)
  if whole = [] && fraction = [] then none
  else
    (exponentPart? rest).map fun e =>
      ⟨negative, digitsValue (whole ++ fraction), e - fraction.length⟩

/-- A double: a decimal with an optional sign, or one of the names of infinity and of not a
number, in any case. -/
def double? (s : String) : Option Float :=
  let (negative, cs) :=
    match s.toList with
    | '-' :: r => (true, r)
    | '+' :: r => (false, r)
    | r => (false, r)
  let word := String.ofList (cs.map Char.toLower)
  if word = "inf" || word = "infinity" then some (if negative then -1.0 / 0.0 else 1.0 / 0.0)
  else if word = "nan" then some (0.0 / 0.0)
  else (unsignedDecimal? negative cs).map Decimal.toFloat

end Text

namespace Double

/-- Sign, mantissa and binary exponent of a finite double: its value is `± m * 2 ^ q`. -/
def parts (x : Float) : Bool × Nat × Int :=
  let bits : Nat := x.toBits.toNat
  let field : Nat := bits / Nat.pow 2 52 % 2048
  let low : Nat := bits % Nat.pow 2 52
  let negative := bits / Nat.pow 2 63 = 1
  if field = 0 then (negative, low, -1074) else (negative, low + Nat.pow 2 52, (field : Int) - 1075)

/-- The integer nearest to `num / den`, a tie going to the even one. -/
def roundHalfEven (num den : Nat) : Nat :=
  let q := num / den
  let twice := 2 * (num % den)
  if twice > den || (twice = den && q % 2 = 1) then q + 1 else q

/-- A finite double with the given count of places behind the point; at least one place. -/
def fixed (places : Nat) (x : Float) : String :=
  let (negative, m, q) := parts x
  let scaled := m * Nat.pow 10 places
  let n :=
    if q < 0 then roundHalfEven scaled (Nat.pow 2 q.natAbs) else scaled * Nat.pow 2 q.natAbs
  let sign := if negative then "-" else ""
  sign ++ toString (n / Nat.pow 10 places) ++ "." ++ Text.padded places (n % Nat.pow 10 places)

end Double

end Foreman

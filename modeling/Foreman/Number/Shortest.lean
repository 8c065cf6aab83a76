/-
# The shortest text of a double

Of all decimals that read back as a double, the one with the fewest digits is written, and of
those the nearest.  Two decimals of each length are tried, the neighbours of the exact value, so
seventeen digits always are enough.
-/
import Foreman.Number.Decimal

namespace Foreman
namespace Double

/-- The exact value of a positive double as a quotient. -/
def ratio (x : Float) : Nat × Nat :=
  let (_, m, q) := parts x
  if q < 0 then (m, Nat.pow 2 q.natAbs) else (m * Nat.pow 2 q.natAbs, 1)

/-- The greatest power of ten that is not above the quotient, tried downwards from one that is
large enough. -/
def leadingPower (num den : Nat) : Nat → Int → Int
  | 0, e => e
  | fuel + 1, e =>
    let reached :=
      if e < 0 then den ≤ num * Nat.pow 10 e.natAbs else den * Nat.pow 10 e.natAbs ≤ num
    if reached then e else leadingPower num den fuel (e - 1)

/-- The decimals of `10 ^ e` as unit on both sides of the quotient, the nearer one first. -/
def neighbours (num den : Nat) (e : Int) : List Decimal :=
  let (n, d) := if e < 0 then (num * Nat.pow 10 e.natAbs, den) else (num, den * Nat.pow 10 e.natAbs)
  let below : Decimal := ⟨false, n / d, e⟩
  let above : Decimal := ⟨false, n / d + 1, e⟩
  if 2 * (n % d) < d || (2 * (n % d) = d && n / d % 2 = 0) then [below, above]
  else [above, below]

/-- The first decimal that reads back, from the coarsest unit to the finest. -/
def firstThatReads (x : Float) (num den : Nat) : Nat → Int → Option Decimal
  | 0, _ => none
  | fuel + 1, e =>
    match (neighbours num den e).find? fun d => d.toFloat == x with
    | some d => some d
    | none => firstThatReads x num den fuel (e - 1)

/-- The shortest decimal of a positive double. -/
def shortest (x : Float) : Decimal :=
  let (num, den) := ratio x
  let top := leadingPower num den 700 310
  (firstThatReads x num den 17 top).getD ⟨false, num, 0⟩

end Double

namespace Decimal

/-- The decimal without exponent: a point, and at least one digit on both sides of it. -/
def positional (d : Decimal) : String :=
  let sign := if d.negative then "-" else ""
  if 0 ≤ d.exponent then sign ++ toString (d.digits * Nat.pow 10 d.exponent.natAbs) ++ ".0"
  else
    let unit := Nat.pow 10 d.exponent.natAbs
    sign ++ toString (d.digits / unit) ++ "." ++ Text.padded d.exponent.natAbs (d.digits % unit)

end Decimal
end Foreman

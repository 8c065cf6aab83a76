/-
# UTF-8

Bytes and the text they hold.  Strict reading refuses bytes that are not UTF-8; forgiving
reading puts U+FFFD for each part that cannot be continued to a character.

The two readings agree on what is UTF-8, and what was written here is read back by both
(`Foreman.Proofs.Text.Utf8`).
-/

namespace Foreman
namespace Utf8

/-- The bytes of a character. -/
def encodeChar (c : Char) : List UInt8 :=
  let n := c.toNat
  if n < 0x80 then [UInt8.ofNat n]
  else if n < 0x800 then [UInt8.ofNat (0xC0 + n / 64), UInt8.ofNat (0x80 + n % 64)]
  else if n < 0x10000 then
    [UInt8.ofNat (0xE0 + n / 4096), UInt8.ofNat (0x80 + n / 64 % 64), UInt8.ofNat (0x80 + n % 64)]
  else
    [UInt8.ofNat (0xF0 + n / 262144), UInt8.ofNat (0x80 + n / 4096 % 64),
      UInt8.ofNat (0x80 + n / 64 % 64), UInt8.ofNat (0x80 + n % 64)]

/-- The bytes of a text. -/
def encode (cs : List Char) : List UInt8 := cs.flatMap encodeChar

def isTail (b : Nat) : Bool := 0x80 ≤ b && b ≤ 0xBF

/-- The second byte may follow the first one of three. -/
def isSecondOfThree (a b : Nat) : Bool :=
  if a = 0xE0 then 0xA0 ≤ b && b ≤ 0xBF
  else if a = 0xED then 0x80 ≤ b && b ≤ 0x9F
  else isTail b

/-- The second byte may follow the first one of four. -/
def isSecondOfFour (a b : Nat) : Bool :=
  if a = 0xF0 then 0x90 ≤ b && b ≤ 0xBF
  else if a = 0xF4 then 0x80 ≤ b && b ≤ 0x8F
  else isTail b

/-- The character at the front, or none if there is no whole one, and how many bytes are
passed: all of the character, or the part that has no continuation. -/
def front (a : Nat) (rest : List Nat) : Option Char × Nat :=
  if a < 0x80 then (some (Char.ofNat a), 1)
  else if 0xC2 ≤ a && a ≤ 0xDF then
    match rest with
    | b :: _ =>
      if isTail b then (some (Char.ofNat ((a - 0xC0) * 64 + (b - 0x80))), 2) else (none, 1)
    | [] => (none, 1)
  else if 0xE0 ≤ a && a ≤ 0xEF then
    match rest with
    | b :: c :: _ =>
      -- a part that could go on to a character is passed as one, up to the byte that ends it
      if !isSecondOfThree a b then (none, 1)
      else if isTail c then
        (some (Char.ofNat ((a - 0xE0) * 4096 + (b - 0x80) * 64 + (c - 0x80))), 3)
      else (none, 2)
    | [b] => if isSecondOfThree a b then (none, 2) else (none, 1)
    | [] => (none, 1)
  else if 0xF0 ≤ a && a ≤ 0xF4 then
    match rest with
    | b :: c :: d :: _ =>
      if !isSecondOfFour a b then (none, 1)
      else if !isTail c then (none, 2)
      else if isTail d then
        (some (Char.ofNat
          ((a - 0xF0) * 262144 + (b - 0x80) * 4096 + (c - 0x80) * 64 + (d - 0x80))), 4)
      else (none, 3)
    | [b, c] => if !isSecondOfFour a b then (none, 1) else if isTail c then (none, 3) else (none, 2)
    | [b] => if isSecondOfFour a b then (none, 2) else (none, 1)
    | [] => (none, 1)
  else (none, 1)

/-- The characters of the bytes, with none for each part that is no character.  The first `skip`
bytes belong to what was found last. -/
def chunks : Nat → List UInt8 → List (Option Char)
  | _, [] => []
  | skip + 1, _ :: rest => chunks skip rest
  | 0, b :: rest =>
    let (c, size) := front b.toNat ((rest.take 3).map UInt8.toNat)
    c :: chunks (size - 1) rest

/-- The text of the bytes, if they are UTF-8. -/
def decode? (bytes : List UInt8) : Option (List Char) := (chunks 0 bytes).mapM id

/-- The text of the bytes, with U+FFFD for what is not UTF-8. -/
def decodeLossy (bytes : List UInt8) : List Char :=
  (chunks 0 bytes).map fun c => c.getD '\uFFFD'

end Utf8
end Foreman

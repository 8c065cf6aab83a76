/-
# JSON values

A value as it was read or as it will be written.  A record keeps its fields in their order, and
keeps a repeated field, because a document is refused for one and a message takes the last.

A text with an escape that names no character is still a value that can be passed over, but no
text can be taken from it; the same holds of a record with such a key.
-/
import Foreman.Number.Decimal

namespace Foreman

/-- A JSON value. -/
inductive Json where
  | null
  | bool (b : Bool)
  /-- A whole number of 64 bits, signed or unsigned. -/
  | integer (n : Int)
  /-- Any other number. -/
  | decimal (d : Decimal)
  | text (s : String)
  /-- A text, or a record with a key, that has half of a surrogate pair in it. -/
  | unreadable
  | list (items : List Json)
  | record (fields : List (String × Json))
deriving Repr, Inhabited

namespace Json

/-- The value of the last field of that name. -/
def lastField? (key : String) : List (String × Json) → Option Json
  | [] => none
  | (k, v) :: rest =>
    match lastField? key rest with
    | some w => some w
    | none => if k = key then some v else none

/-- The field of a record; of a repeated field the last one counts. -/
def get? (j : Json) (key : String) : Option Json :=
  match j with
  | .record fields => lastField? key fields
  | _ => none

/-- The record with another value in the fields of that name. -/
def setField (j : Json) (key : String) (value : Json) : Json :=
  match j with
  | .record fields => .record (fields.map fun f => if f.1 = key then (key, value) else f)
  | j => j

/-- The field of a record, if it is a text. -/
def text? (j : Json) (key : String) : Option String :=
  match j.get? key with
  | some (.text s) => some s
  | _ => none

mutual
/-- How deep lists and records are nested; a plain value has depth zero. -/
def depth : Json → Nat
  | .list items => depthItems items + 1
  | .record fields => depthFields fields + 1
  | _ => 0

def depthItems : List Json → Nat
  | [] => 0
  | j :: rest => max (depth j) (depthItems rest)

def depthFields : List (String × Json) → Nat
  | [] => 0
  | (_, j) :: rest => max (depth j) (depthFields rest)
end

mutual
/-- Every text names characters only, and every number is finite as a double. -/
def isSound : Json → Bool
  | .unreadable => false
  | .decimal d => d.toFinite?.isSome
  | .list items => soundItems items
  | .record fields => soundFields fields
  | _ => true

def soundItems : List Json → Bool
  | [] => true
  | j :: rest => isSound j && soundItems rest

def soundFields : List (String × Json) → Bool
  | [] => true
  | (_, j) :: rest => isSound j && soundFields rest
end

/-- The deepest nesting of a value that is taken as a whole. -/
def depthLimit : Nat := 127

/-- Whether the value can be taken as a whole, not just passed over. -/
def isWhole (j : Json) : Bool := j.depth ≤ depthLimit && j.isSound

end Json
end Foreman

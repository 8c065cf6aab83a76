/-
# Taking values out of JSON

A record of a document is read by the names of its fields: an unknown field is passed over, a
known one may not be repeated.  A list is read as such a record too, its items being the fields
in their order.

A decoder of a record says for each field what it stands for when it is missing: a default,
nothing, or a refusal of the whole document.
-/
import Foreman.Json.Basic
import Foreman.Table
import Foreman.Time.Rfc3339

namespace Foreman
namespace Json

/-- The fields of a record by name; a name that was not given has none. -/
abbrev Fields := String → Option Json

/-- How many fields have that name. -/
def countField (name : String) (fields : List (String × Json)) : Nat :=
  fields.countP fun f => f.1 = name

/-- The fields that are named, from a record or from a list. -/
def asFields? (names : List String) : Json → Option Fields
  | .record fields =>
    if names.all fun n => countField n fields ≤ 1 then some fun n => lastField? n fields
    else none
  | .list items =>
    if items.length ≤ names.length then some fun n => lastField? n (names.zip items)
    else none
  | _ => none

def asText? : Json → Option String
  | .text s => some s
  | _ => none

def asBool? : Json → Option Bool
  | .bool b => some b
  | _ => none

/-- A whole number from zero up to `bound - 1`. -/
def asNat? (bound : Nat) : Json → Option Nat
  | .integer n => if 0 ≤ n ∧ n < bound then some n.toNat else none
  | _ => none

/-- A whole number of `-half` up to `half - 1`. -/
def asInt? (half : Nat) : Json → Option Int
  | .integer n => if -(half : Int) ≤ n ∧ n < half then some n else none
  | _ => none

/-- Any number, as the nearest double. -/
def asFloat? : Json → Option Float
  | .integer n => some (Decimal.toFloat ⟨n < 0, n.natAbs, 0⟩)
  | .decimal d => d.toFinite?
  | _ => none

def asInstant? : Json → Option Instant
  | .text s => Rfc3339.read? s
  | _ => none

/-- A value that may be null. -/
def asOption? {α : Type} (item : Json → Option α) : Json → Option (Option α)
  | .null => some none
  | j => (item j).map some

def asList? {α : Type} (item : Json → Option α) : Json → Option (List α)
  | .list items => items.mapM item
  | _ => none

/-- A record with any keys; of a repeated key the last value counts. -/
def asTable? {α : Type} (item : Json → Option α) : Json → Option (Table α)
  | .record fields =>
    (fields.mapM fun (e : String × Json) => (item e.2).map (e.1, ·)).map Table.ofList
  | _ => none

/-- One of the named values: its name, or a record of its name and null. -/
def asName? : Json → Option String
  | .text s => some s
  | .record [(s, .null)] => some s
  | _ => none

/-- A field that must be there. -/
def Fields.need? {α : Type} (f : Fields) (name : String) (item : Json → Option α) : Option α :=
  (f name).bind item

/-- A field with a default. -/
def Fields.getD? {α : Type} (f : Fields) (name : String) (item : Json → Option α)
    (default : α) : Option α :=
  match f name with
  | some j => item j
  | none => some default

/-- A field that may be missing or null. -/
def Fields.maybe? {α : Type} (f : Fields) (name : String) (item : Json → Option α) :
    Option (Option α) :=
  f.getD? name (asOption? item) none

end Json
end Foreman

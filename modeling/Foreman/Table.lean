/-
# Tables keyed by text

A table keeps its entries in the order of their keys, so two tables with the same entries are
equal and a document lists them in one order only.  The records of the state that belong to a
task stand in such tables.

A table is a list of entries and not a search tree: the lemmas are about look-ups only, and they
are what everything else uses.

* `get?_insert`: what a look-up finds after an insertion.
* `get?_erase`: what it finds after a removal.
* `insert_comm`: entries with different keys can be put in in either order.
-/

namespace Foreman

/-- Entries in the order of their keys. -/
structure Table (α : Type) where
  entries : List (String × α)
deriving DecidableEq, Repr

namespace Table

variable {α β : Type}

/-- No entries. -/
def empty : Table α := ⟨[]⟩

instance : Inhabited (Table α) := ⟨empty⟩

/-- The value of the first entry with that key. -/
def lookup (key : String) : List (String × α) → Option α
  | [] => none
  | (k, v) :: rest => if k = key then some v else lookup key rest

/-- The value of a key. -/
def get? (t : Table α) (key : String) : Option α := lookup key t.entries

/-- Whether the table has the key. -/
def contains (t : Table α) (key : String) : Bool := (t.get? key).isSome

/-- The entry takes the place of one with its key, or stands before the first greater key. -/
def place (key : String) (value : α) : List (String × α) → List (String × α)
  | [] => [(key, value)]
  | (k, v) :: rest =>
    if k = key then (key, value) :: rest
    else if key < k then (key, value) :: (k, v) :: rest
    else (k, v) :: place key value rest

/-- The table with another value for a key, which may be new. -/
def insert (t : Table α) (key : String) (value : α) : Table α := ⟨place key value t.entries⟩

/-- The table without a key. -/
def erase (t : Table α) (key : String) : Table α := ⟨t.entries.filter fun e => e.1 ≠ key⟩

/-- The keys, in order. -/
def keys (t : Table α) : List String := t.entries.map Prod.fst

/-- The table of the entries, the later of two with one key winning. -/
def ofList (entries : List (String × α)) : Table α :=
  entries.foldl (fun t e => t.insert e.1 e.2) empty

/-- The table with every value changed, under the same keys. -/
def map (f : α → β) (t : Table α) : Table β := ⟨t.entries.map fun e => (e.1, f e.2)⟩

theorem lookup_place (key k : String) (value : α) (entries : List (String × α)) :
    lookup k (place key value entries) = if k = key then some value else lookup k entries := by
  induction entries with
  | nil => grind [place, lookup]
  | cons e rest ih => grind [place, lookup]

theorem get?_insert (t : Table α) (key k : String) (value : α) :
    (t.insert key value).get? k = if k = key then some value else t.get? k :=
  lookup_place key k value t.entries

theorem get?_erase (t : Table α) (key k : String) :
    (t.erase key).get? k = if k = key then none else t.get? k := by
  simp only [get?, erase]
  induction t.entries with
  | nil => simp [lookup]
  | cons e rest ih => grind [lookup]

theorem key_lt_or_lt {key k : String} (hne : key ≠ k) : key < k ∨ k < key := by
  by_cases hlt : key < k
  · exact Or.inl hlt
  · by_cases hgt : k < key
    · exact Or.inr hgt
    · exact absurd (String.le_antisymm (String.not_lt.mp hgt) (String.not_lt.mp hlt)) hne

theorem place_comm {key k : String} (hne : key ≠ k) (v w : α) : ∀ entries : List (String × α),
    place key v (place k w entries) = place k w (place key v entries)
  | [] => by
    have horder := key_lt_or_lt hne
    have hasymm := @String.lt_asymm key k
    grind [place]
  | (l, u) :: rest => by
    -- where either key stands before the entry, the other one may do so too or not
    have ih := place_comm hne v w rest
    have horder := key_lt_or_lt hne
    have hasymm := @String.lt_asymm key k
    have hkey := @String.lt_asymm key l
    have hk := @String.lt_asymm k l
    have hleft := @String.lt_trans key k l
    have hright := @String.lt_trans k key l
    grind [place]

theorem insert_comm (t : Table α) {key k : String} (hne : key ≠ k) (v w : α) :
    (t.insert k w).insert key v = (t.insert key v).insert k w := by
  rw [insert, insert, insert, insert, place_comm hne]

end Table
end Foreman

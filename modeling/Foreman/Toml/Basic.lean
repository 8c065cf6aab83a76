/-
# TOML values

The values of a configuration text, and how its tables come together.  A table knows how it was
opened, since that decides what may still be put into it:

* a table between braces is closed;
* a table with a header of its own takes keys below that header only;
* a table that was only named on the way, by a header or by a dotted key, may still grow.
-/

namespace Foreman

/-- How a table was opened. -/
inductive Toml.Form where
  /-- Between braces. -/
  | inline
  /-- By a header of its own. -/
  | header
  /-- On the way to a header. -/
  | implied
  /-- On the way to a value, by a dotted key. -/
  | dotted
deriving DecidableEq, Repr, Inhabited

/-- A value of a configuration text. -/
inductive Toml where
  | text (s : String)
  | integer (n : Int)
  | float (x : Float)
  | bool (b : Bool)
  /-- A date, a time, or both. -/
  | moment
  | list (items : List Toml)
  | table (form : Toml.Form) (entries : List (String × Toml))
  /-- The tables of headers in double brackets, in their order. -/
  | tables (rows : List (List (String × Toml)))
deriving Repr, Inhabited

namespace Toml

/-- Keys and their values, in the order of the text. -/
abbrev Entries := List (String × Toml)

/-- The value of a key. -/
def lookup (key : String) : Entries → Option Toml
  | [] => none
  | (k, v) :: rest => if k = key then some v else lookup key rest

/-- The value takes the place of the key's value, or stands at the end. -/
def assign (key : String) (value : Toml) : Entries → Entries
  | [] => [(key, value)]
  | (k, v) :: rest => if k = key then (key, value) :: rest else (k, v) :: assign key value rest

/-- The last item is changed, or nothing if there is none. -/
def changeLast? {α : Type} (change : α → Option α) : List α → Option (List α)
  | [] => none
  | [a] => (change a).map ([·])
  | a :: b :: rest => (changeLast? change (b :: rest)).map (a :: ·)

/-- Changes the table that a path leads to, from a table of the form given.  Tables on the way
that are missing are opened, as `dotted` says by a dotted key or by a header.  A dotted key does
not lead into a table with a header of its own, and nothing leads into a closed one. -/
def within (dotted : Bool) (change : Form → Entries → Option Entries) :
    List String → Form → Entries → Option Entries
  | [], form, entries => change form entries
  | key :: path, _, entries =>
    match lookup key entries with
    | none =>
      let form : Form := if dotted then .dotted else .implied
      (within dotted change path form []).map fun sub => entries ++ [(key, .table form sub)]
    | some (.table form sub) =>
      if form = .inline || (dotted && form = .header) then none
      else (within dotted change path form sub).map fun sub => assign key (.table form sub) entries
    | some (.tables rows) =>
      (changeLast? (within dotted change path .header) rows).map fun rows =>
        assign key (.tables rows) entries
    | some _ => none

/-- Puts a value under a key that is free.  A dotted key puts it only into a table that was
opened by dotted keys. -/
def put (path : List String) (key : String) (value : Toml) (form : Form) (entries : Entries) :
    Option Entries :=
  within true
    (fun target es =>
      if path ≠ [] ∧ target ≠ .dotted then none
      else if (lookup key es).isSome then none
      else some (es ++ [(key, value)]))
    path form entries

/-- Opens the table of a header, which has none yet. -/
def openTable (path : List String) (key : String) (entries : Entries) : Option Entries :=
  within false
    (fun _ es =>
      match lookup key es with
      | none => some (es ++ [(key, .table .header [])])
      | some (.table .implied sub) => some (assign key (.table .header sub) es)
      | some _ => none)
    path .header entries

/-- Opens one more table of a header in double brackets. -/
def openRow (path : List String) (key : String) (entries : Entries) : Option Entries :=
  within false
    (fun _ es =>
      match lookup key es with
      | none => some (es ++ [(key, .tables [[]])])
      | some (.tables rows) => some (assign key (.tables (rows ++ [[]])) es)
      | some _ => none)
    path .header entries

/-- A value under a key of the table that the last header opened. -/
def putBelow (header path : List String) (key : String) (value : Toml) (entries : Entries) :
    Option Entries :=
  within false (put path key value) header .header entries

end Toml
end Foreman

/-
# Finding and cutting text

Search for a literal piece in a text, at its first or last place, with the cuts and the
replacement built on it.  All of it is structural recursion on `List Char`; to start with a piece
is to have it as a prefix (`startsWithChars_iff`).

A line ends at a line feed; a carriage return just before that line feed belongs to the line
end.  Text after the last line feed is a line if it is not empty, and keeps a carriage return
at its end.
-/

namespace Foreman.Text

/-- What follows the piece at the start of the text. -/
def afterPrefix? : List Char → List Char → Option (List Char)
  | [], cs => some cs
  | _ :: _, [] => none
  | p :: ps, c :: cs => if p = c then afterPrefix? ps cs else none

/-- Whether the text starts with the piece. -/
def startsWithChars (piece cs : List Char) : Bool := (afterPrefix? piece cs).isSome

theorem afterPrefix?_eq_some_iff {piece cs rest : List Char} :
    afterPrefix? piece cs = some rest ↔ cs = piece ++ rest := by
  induction piece generalizing cs with
  | nil => simp [afterPrefix?]
  | cons p ps ih =>
    cases cs with
    | nil => simp [afterPrefix?]
    | cons c cs =>
      rw [afterPrefix?]
      split
      · rename_i heq
        rw [ih, List.cons_append, heq, List.cons_inj_right]
      · rename_i hne
        refine ⟨nofun, fun h => ?_⟩
        rw [List.cons_append, List.cons.injEq] at h
        exact absurd h.1.symm hne

/-- To start with a piece is to have it as a prefix. -/
theorem startsWithChars_iff {piece cs : List Char} :
    startsWithChars piece cs = true ↔ piece <+: cs := by
  rw [startsWithChars, Option.isSome_iff_exists]
  exact exists_congr fun rest => afterPrefix?_eq_some_iff.trans eq_comm

/-- The text before and after the first place of the piece. -/
def cutFirst? (piece : List Char) : List Char → Option (List Char × List Char)
  | [] => if piece = [] then some ([], []) else none
  | c :: cs =>
    match afterPrefix? piece (c :: cs) with
    | some rest => some ([], rest)
    | none => (cutFirst? piece cs).map fun (before, after) => (c :: before, after)

/-- The text before and after the last `sep`. -/
def cutLastChar? (sep : Char) : List Char → Option (List Char × List Char)
  | [] => none
  | c :: cs =>
    match cutLastChar? sep cs with
    | some (before, after) => some (c :: before, after)
    | none => if c = sep then some ([], cs) else none

/-- Whether the piece occurs in the text. -/
def occursIn (piece cs : List Char) : Bool := (cutFirst? piece cs).isSome

/-- The pieces of the text between the separators; one more than there are separators. -/
def splitOnChar (sep : Char) : List Char → List (List Char)
  | [] => [[]]
  | c :: cs =>
    if c = sep then [] :: splitOnChar sep cs
    else
      match splitOnChar sep cs with
      | [] => [[c]]
      | piece :: rest => (c :: piece) :: rest

/-- One pass of a replacement, left to right; `skip` characters still belong to the piece that
was found last.  A nonempty piece is wanted. -/
def replaceFrom (piece by_ : List Char) : Nat → List Char → List Char
  | _, [] => []
  | skip + 1, _ :: cs => replaceFrom piece by_ skip cs
  | 0, c :: cs =>
    match afterPrefix? piece (c :: cs) with
    | some _ => by_ ++ replaceFrom piece by_ (piece.length - 1) cs
    | none => c :: replaceFrom piece by_ 0 cs

/-- Every place of a nonempty piece is replaced, left to right and without overlap. -/
def replaceAll (piece by_ cs : List Char) : List Char :=
  if piece = [] then cs else replaceFrom piece by_ 0 cs

/-- Whether the text starts with `piece`. -/
def startsWith (s piece : String) : Bool := startsWithChars piece.toList s.toList

/-- Whether the text ends with `piece`. -/
def endsWith (s piece : String) : Bool := startsWithChars piece.toList.reverse s.toList.reverse

def contains (s piece : String) : Bool := occursIn piece.toList s.toList

/-- What follows `piece` at the start of the text. -/
def stripStart? (s piece : String) : Option String :=
  (afterPrefix? piece.toList s.toList).map String.ofList

/-- The text before `piece` at its end. -/
def stripEnd? (s piece : String) : Option String :=
  (afterPrefix? piece.toList.reverse s.toList.reverse).map fun cs => String.ofList cs.reverse

def replace (s piece by_ : String) : String :=
  String.ofList (replaceAll piece.toList by_.toList s.toList)

/-- The text before and after the first `piece`. -/
def splitOnce? (s piece : String) : Option (String × String) :=
  (cutFirst? piece.toList s.toList).map fun (a, b) => (String.ofList a, String.ofList b)

/-- The text before and after the last `sep`. -/
def splitLast? (s : String) (sep : Char) : Option (String × String) :=
  (cutLastChar? sep s.toList).map fun (a, b) => (String.ofList a, String.ofList b)

def split (s : String) (sep : Char) : List String :=
  (splitOnChar sep s.toList).map String.ofList

/-- The texts one after the other with `sep` between them. -/
def joinWith (sep : String) : List String → String
  | [] => ""
  | [s] => s
  | s :: rest => s ++ sep ++ joinWith sep rest

/-- A line that a line feed ended, without the carriage return before it. -/
def dropReturn : List Char → List Char
  | [] => []
  | ['\r'] => []
  | c :: cs => c :: dropReturn cs

/-- The lines that stand between line feeds, as `splitOnChar` gave them: all but the last were
ended by one. -/
def linesOfPieces : List (List Char) → List (List Char)
  | [] => []
  | [last] => if last = [] then [] else [last]
  | piece :: rest => dropReturn piece :: linesOfPieces rest

def linesChars (cs : List Char) : List (List Char) := linesOfPieces (splitOnChar '\n' cs)

def lines (s : String) : List String := (linesChars s.toList).map String.ofList

end Foreman.Text

/-
# Regular expressions

A small language of expressions for texts in log lines: classes of characters, repetition of a
class, sequence, choice, an optional part, and the boundary of a word.

A place in a text is the character before it and the text behind it.  `ends` lists the places
where a match that starts at a place can end, so a match exists if the list is not empty.

A match looks at no characters but its own and, for the boundaries of words, the ones next to it.
So a text keeps its matches when it comes to stand amid another, if what is next to it there
belongs to no word.

* `mem_ends_amid`: the ends of a match amid another text.
* `foundIn_amid`: what is found in a text is found in one that holds it so.
-/
import Foreman.Text.Blank
import Foreman.Text.WordChar

namespace Foreman.Text

/-- A place in a text: the character before it, if there is one, and what follows. -/
structure Place where
  before : Option Char
  rest : List Char
deriving DecidableEq, Repr

/-- An expression. -/
inductive Regex where
  /-- One character of a class. -/
  | one (p : Char → Bool)
  /-- Any number of characters of a class. -/
  | many (p : Char → Bool)
  | empty
  | seq (a b : Regex)
  | opt (a : Regex)
  | either (a b : Regex)
  /-- Exactly one of the characters at the place belongs to a word. -/
  | boundary

namespace Regex

def isWordAt : Option Char → Bool
  | some c => isWordChar c
  | none => false

/-- A word starts or ends at the place. -/
def atBoundary (p : Place) : Bool := isWordAt p.before != isWordAt p.rest.head?

/-- The places reached by passing over characters of a class, the place itself first. -/
def manyEnds (p : Char → Bool) (before : Option Char) : List Char → List Place
  | [] => [⟨before, []⟩]
  | c :: cs =>
    ⟨before, c :: cs⟩ :: (if p c then manyEnds p (some c) cs else [])

/-- The places where a match that starts at the place can end. -/
def ends : Regex → Place → List Place
  | .one p, place =>
    match place.rest with
    | c :: cs => if p c then [⟨some c, cs⟩] else []
    | [] => []
  | .many p, place => manyEnds p place.before place.rest
  | .empty, place => [place]
  | .seq a b, place => (ends a place).flatMap (ends b)
  | .opt a, place => ends a place ++ [place]
  | .either a b, place => ends a place ++ ends b place
  | .boundary, place => if atBoundary place then [place] else []

/-- A match starts at some place of the text. -/
def foundFrom (r : Regex) (before : Option Char) : List Char → Bool
  | [] => !(r.ends ⟨before, []⟩).isEmpty
  | c :: cs => !(r.ends ⟨before, c :: cs⟩).isEmpty || foundFrom r (some c) cs

/-- The expression matches somewhere in the text. -/
def foundIn (r : Regex) (s : String) : Bool := r.foundFrom none s.toList

/-! ## A text amid another

A place is moved into a longer text, and with it the ends of matches from there.  The neighbours
of the text matter to the boundaries of words alone. -/

section Amid

variable {r : Regex} {p : Char → Bool} {before outside : Option Char} {cs tail : List Char}

/-- The place as it is when a character stands before the text and others behind it. -/
def amid (outside : Option Char) (tail : List Char) (place : Place) : Place :=
  ⟨place.before.or outside, place.rest ++ tail⟩

theorem self_mem_manyEnds : ⟨before, cs⟩ ∈ manyEnds p before cs := by
  cases cs <;> exact List.mem_cons_self

theorem mem_manyEnds_amid {q : Place} (h : q ∈ manyEnds p before cs) :
    amid outside tail q ∈ manyEnds p (before.or outside) (cs ++ tail) := by
  induction cs generalizing before with
  | nil =>
    rw [manyEnds, List.mem_singleton] at h
    subst h
    exact self_mem_manyEnds
  | cons c cs ih =>
    rw [manyEnds, List.mem_cons] at h
    rw [List.cons_append, manyEnds, List.mem_cons]
    rcases h with rfl | h
    · exact Or.inl rfl
    · right
      by_cases hc : p c
      · rw [if_pos hc] at h ⊢
        exact ih h
      · rw [if_neg hc] at h
        cases h

/-- No word starts or ends where none did, if the neighbours of the text belong to no word. -/
theorem atBoundary_amid (houtside : isWordAt outside = false) (htail : isWordAt tail.head? = false)
    (place : Place) : atBoundary (amid outside tail place) = atBoundary place := by
  have hbefore : isWordAt (place.before.or outside) = isWordAt place.before := by
    cases place.before with
    | none => exact houtside
    | some c => rfl
  have hrest : isWordAt (place.rest ++ tail).head? = isWordAt place.rest.head? := by
    cases place.rest with
    | nil => exact htail
    | cons c cs => rfl
  rw [atBoundary, atBoundary, amid, hbefore, hrest]

/-- **A match stays a match amid another text**, if the neighbours belong to no word. -/
theorem mem_ends_amid (houtside : isWordAt outside = false) (htail : isWordAt tail.head? = false)
    {place q : Place} (h : q ∈ r.ends place) :
    amid outside tail q ∈ r.ends (amid outside tail place) := by
  induction r generalizing place q with
  | one p =>
    obtain ⟨b, cs⟩ := place
    cases cs with
    | nil => cases h
    | cons c cs =>
      simp only [ends, amid, List.cons_append] at h ⊢
      by_cases hc : p c
      · rw [if_pos hc, List.mem_singleton] at h ⊢
        rw [h]
        rfl
      · rw [if_neg hc] at h
        cases h
  -- only this and a boundary look beyond the place: at what follows, and at both neighbours
  | many p => exact mem_manyEnds_amid h
  | empty =>
    cases List.mem_singleton.mp h
    exact List.mem_singleton.mpr rfl
  | seq a b iha ihb =>
    obtain ⟨middle, hmiddle, hq⟩ := List.mem_flatMap.mp h
    exact List.mem_flatMap.mpr ⟨amid outside tail middle, iha hmiddle, ihb hq⟩
  | opt a ih =>
    rcases List.mem_append.mp h with h | h
    · exact List.mem_append_left _ (ih h)
    · cases List.mem_singleton.mp h
      exact List.mem_append_right _ (List.mem_singleton.mpr rfl)
  | either a b iha ihb =>
    rcases List.mem_append.mp h with h | h
    · exact List.mem_append_left _ (iha h)
    · exact List.mem_append_right _ (ihb h)
  | boundary =>
    rw [ends] at h ⊢
    rw [atBoundary_amid houtside htail]
    split at h
    · cases List.mem_singleton.mp h
      rw [if_pos ‹_›]
      exact List.mem_singleton.mpr rfl
    · cases h

theorem foundFrom_nil : r.foundFrom before [] = true ↔ ∃ q, q ∈ r.ends ⟨before, []⟩ := by
  rw [foundFrom, Bool.not_eq_true', List.isEmpty_eq_false_iff_exists_mem]

theorem foundFrom_cons {c : Char} : r.foundFrom before (c :: cs) = true ↔
    (∃ q, q ∈ r.ends ⟨before, c :: cs⟩) ∨ r.foundFrom (some c) cs = true := by
  rw [foundFrom, Bool.or_eq_true, Bool.not_eq_true', List.isEmpty_eq_false_iff_exists_mem]

/-- What starts at the start of a text is found in it. -/
theorem foundFrom_of_mem_ends {q : Place} (h : q ∈ r.ends ⟨before, cs⟩) :
    r.foundFrom before cs = true := by
  cases cs with
  | nil => exact foundFrom_nil.mpr ⟨q, h⟩
  | cons c cs => exact foundFrom_cons.mpr (Or.inl ⟨q, h⟩)

/-- What is found behind a character is found in front of it too. -/
theorem foundFrom_behind (front : List Char) {c : Char} (h : r.foundFrom (some c) cs = true) :
    r.foundFrom before (front ++ c :: cs) = true := by
  induction front generalizing before with
  | nil => exact foundFrom_cons.mpr (Or.inr h)
  | cons d front ih => exact foundFrom_cons.mpr (Or.inr ih)

/-- **What is found in a text is found around it**, if its neighbours belong to no word. -/
theorem foundFrom_amid (houtside : isWordAt outside = false)
    (htail : isWordAt tail.head? = false) (h : r.foundFrom before cs = true) :
    r.foundFrom (before.or outside) (cs ++ tail) = true := by
  induction cs generalizing before with
  | nil =>
    obtain ⟨q, hq⟩ := foundFrom_nil.mp h
    exact foundFrom_of_mem_ends (mem_ends_amid houtside htail hq)
  | cons c cs ih =>
    rcases foundFrom_cons.mp h with ⟨q, hq⟩ | h
    · exact foundFrom_of_mem_ends (mem_ends_amid houtside htail hq)
    · exact foundFrom_cons.mpr (Or.inr (ih h))

/-- What is found in a text is found in every text that holds it between two characters of no
word. -/
theorem foundIn_amid {c d : Char} (hc : isWordChar c = false) (hd : isWordChar d = false)
    {s t : String} {front back : List Char} (ht : t.toList = front ++ c :: (s.toList ++ d :: back))
    (h : r.foundIn s = true) : r.foundIn t = true := by
  have houtside : isWordAt (some c) = false := hc
  have htail : isWordAt (d :: back).head? = false := hd
  rw [foundIn, ht]
  exact foundFrom_behind front (foundFrom_amid houtside htail h)

end Amid

/-! ## Building blocks

The expressions that classification is made of are put together from these. -/

/-- The letter in either case.  The long s and the Kelvin sign are cases of s and k. -/
def sameLetter (letter c : Char) : Bool :=
  c = letter || c.toLower = letter ||
    (letter = 's' && c = '\u017F') || (letter = 'k' && c = '\u212A')

/-- One expression after the other. -/
def all : List Regex → Regex
  | [] => .empty
  | [r] => r
  | r :: rest => .seq r (all rest)

/-- The text as it stands. -/
def exactly (s : String) : Regex := all (s.toList.map fun c => .one (· = c))

/-- The text of lower-case letters, in any case. -/
def anyCase (s : String) : Regex := all (s.toList.map fun c => .one (sameLetter c))

/-- Blanks: any number, or at least one. -/
def blanks : Regex := .many isBlank
def someBlanks : Regex := .seq (.one isBlank) (.many isBlank)

/-- Words in any case with blanks between them. -/
def phrase : List String → Regex
  | [] => .empty
  | [w] => anyCase w
  | w :: rest => .seq (anyCase w) (.seq someBlanks (phrase rest))

end Regex
end Foreman.Text

/-
# What was written is read

The reader makes the tree again from its tokens, so the text of a tree is read as that tree.

* `reads_value`, `reads_item`: a part of a tree from its tokens.
* `read_write`: the document of a written tree.

The tree is made by recursion on the tokens with a count of fuel.  That the fuel is enough is
proved together with what is read, since a part of a tree takes no more steps than it has
tokens.
-/
import Foreman.Proofs.Yaml.Written
import Foreman.Yaml.Reader

namespace Foreman
namespace Yaml

open Scanner

variable {α : Type} {fuel : Nat} {block indentless : Bool} {r : Reader} {s s' : Scanner} {t : Token}
  {ts us vs : List Token} {text : String} {style : ScalarStyle}

namespace Reader

/-! ## 1. Tokens and the reader

What the reader does when the next token is known. -/

/-- The reader stands with this scanner; nothing else of it changes. -/
abbrev on (r : Reader) (s : Scanner) : Reader := { r with scanner := s }

theorem peek_eq (h : Stream r.scanner (t :: ts)) :
    ∃ s, r.peek = some (t, r.on s) ∧ Ahead s t ts := by
  obtain ⟨s, hpeek, hahead⟩ := peek_of_stream h
  exact ⟨s, by rw [peek, hpeek, Option.map_some], hahead⟩

theorem peek_on (h : Ahead s t ts) : (r.on s).peek = some (t, r.on s) := by
  rw [peek, peek_of_ahead h, Option.map_some]

/-- A token that is known need not be read again. -/
theorem stream_of_ahead (h : Ahead s t ts) : Stream s (t :: ts) :=
  ⟨s, h.filled.fill 3, h.front, h.more⟩

/-- The part was found, and these tokens follow. -/
def Finds (found : Found α) (r : Reader) (a : α) (us : List Token) : Prop :=
  ∃ s, found = (a, some (r.on s)) ∧ Stream s us

/-! ## 2. Nodes by their first tokens

The first token of a node says what it is. -/

/-- A node that is read back starts with this token. -/
def startsNode : Token → Bool
  | .scalar .. | .flowSequenceStart | .blockEntry | .blockMappingStart => true
  | _ => false

theorem not_endsBlockNode (h : startsNode t = true) : endsBlockNode t = false := by
  cases t <;> first | rfl | exact absurd h Bool.false_ne_true

theorem node_of_start (hstart : startsNode t = true) (h : Ahead s t ts) :
    node (fuel + 1) block indentless (r.on s) =
      content fuel block indentless none false t (r.on s) := by
  cases t <;> first
    | exact absurd hstart Bool.false_ne_true
    | simp [node, properties, resolveTag, peek_on h]

theorem finds_scalar (h : Ahead s (.scalar text style) us) :
    Finds (node (fuel + 2) block indentless (r.on s)) r (.scalar text none style) us := by
  rw [node_of_start rfl h]
  exact ⟨_, rfl, h.more⟩

theorem finds_brackets (h : Ahead s .flowSequenceStart (.flowSequenceEnd :: us)) :
    Finds (node (fuel + 3) block indentless (r.on s)) r (.sequence []) us := by
  obtain ⟨s', hpeek, hahead⟩ := peek_eq (r := (r.on s).take) h.more
  refine ⟨s'.take, ?_, hahead.more⟩
  rw [node_of_start rfl h]
  simp only [content, flowItems, hpeek]
  rfl

theorem finds_sequence {items : List Yaml} (h : Ahead s .blockEntry ts)
    (hitems : Finds (looseItems fuel (r.on s)) r items us) :
    Finds (node (fuel + 2) block true (r.on s)) r (.sequence items) us := by
  obtain ⟨s', hfound, hmore⟩ := hitems
  refine ⟨s', ?_, hmore⟩
  rw [node_of_start rfl h]
  simp [content, hfound]

theorem finds_mapping {entries : List (Yaml × Yaml)} (h : Ahead s .blockMappingStart ts)
    (hentries : Finds (blockEntries fuel (r.on s.take)) r entries us) :
    Finds (node (fuel + 2) true indentless (r.on s)) r (.mapping entries) us := by
  obtain ⟨s', hfound, hmore⟩ := hentries
  refine ⟨s', ?_, hmore⟩
  rw [node_of_start rfl h]
  simp [content, take, hfound]

/-! ## 3. Lists and mappings, a part at a time

An item or an entry, and then the rest. -/

/-- A list ends where something else than a dash stands. -/
theorem finds_items_end (h : Stream s (t :: us)) (ht : t ≠ .blockEntry) :
    Finds (looseItems (fuel + 1) (r.on s)) r [] (t :: us) := by
  obtain ⟨s', hpeek, hahead⟩ := peek_eq (r := r.on s) h
  refine ⟨s', ?_, stream_of_ahead hahead⟩
  cases t <;> first | exact absurd rfl ht | simp [looseItems, hpeek]

theorem finds_items_cons {item : Yaml} {items : List Yaml} (h : Stream s (.blockEntry :: t :: ts))
    (hstart : startsNode t = true) (hdash : t ≠ .blockEntry)
    (hitem : ∀ ⦃s⦄, Ahead s t ts → Finds (node fuel true false (r.on s)) r item vs)
    (hitems : ∀ ⦃s⦄, Stream s vs → Finds (looseItems fuel (r.on s)) r items us) :
    Finds (looseItems (fuel + 1) (r.on s)) r (item :: items) us := by
  obtain ⟨s₁, hpeek, hdashed⟩ := peek_eq (r := r.on s) h
  obtain ⟨s₂, hnext, hahead⟩ := peek_eq (r := (r.on s₁).take) hdashed.more
  obtain ⟨s₃, hfound, hmore⟩ := hitem hahead
  obtain ⟨s₄, hrest, hus⟩ := hitems hmore
  refine ⟨s₄, ?_, hus⟩
  have hnext : (r.on s₁).take.peek = some (t, r.on s₂) := hnext
  simp [looseItems, hpeek, hnext, hdash, not_endsBlockNode hstart, hfound, hrest]

/-- A mapping ends where its block does. -/
theorem finds_entries_end (h : Stream s (.blockEnd :: us)) :
    Finds (blockEntries (fuel + 1) (r.on s)) r [] us := by
  obtain ⟨s', hpeek, hahead⟩ := peek_eq (r := r.on s) h
  exact ⟨s'.take, by simp [blockEntries, hpeek, take], hahead.more⟩

theorem finds_colon {k v : Yaml} {entries : List (Yaml × Yaml)} (h : Stream s (.value :: t :: ts))
    (hstart : startsNode t = true)
    (hvalue : ∀ ⦃s⦄, Ahead s t ts → Finds (node fuel true true (r.on s)) r v vs)
    (hentries : ∀ ⦃s⦄, Stream s vs → Finds (blockEntries fuel (r.on s)) r entries us) :
    Finds (blockValue (fuel + 1) k (r.on s)) r ((k, v) :: entries) us := by
  obtain ⟨s₁, hpeek, hcolon⟩ := peek_eq (r := r.on s) h
  obtain ⟨s₂, hnext, hahead⟩ := peek_eq (r := (r.on s₁).take) hcolon.more
  obtain ⟨s₃, hfound, hmore⟩ := hvalue hahead
  obtain ⟨s₄, hrest, hus⟩ := hentries hmore
  refine ⟨s₄, ?_, hus⟩
  have hnext : (r.on s₁).take.peek = some (t, r.on s₂) := hnext
  simp [blockValue, hpeek, hnext, not_endsBlockNode hstart, hfound, hrest]

theorem finds_entries_cons {v : Yaml} {entries : List (Yaml × Yaml)}
    (h : Stream s (.key :: .scalar text style :: .value :: t :: ts)) (hstart : startsNode t = true)
    (hvalue : ∀ ⦃s⦄, Ahead s t ts → Finds (node (fuel + 1) true true (r.on s)) r v vs)
    (hentries : ∀ ⦃s⦄, Stream s vs → Finds (blockEntries (fuel + 1) (r.on s)) r entries us) :
    Finds (blockEntries (fuel + 3) (r.on s)) r ((.scalar text none style, v) :: entries) us := by
  obtain ⟨s₁, hpeek, hkey⟩ := peek_eq (r := r.on s) h
  obtain ⟨s₂, hnext, hname⟩ := peek_eq (r := (r.on s₁).take) hkey.more
  obtain ⟨s₃, hscalar, hcolon⟩ : Finds (node (fuel + 2) true true (r.on s₂)) r _ _ :=
    finds_scalar hname
  obtain ⟨s₄, hfound, hus⟩ : Finds (blockValue (fuel + 2) (.scalar text none style) _) r _ us :=
    finds_colon hcolon hstart hvalue hentries
  refine ⟨s₄, ?_, hus⟩
  have hnext : (r.on s₁).take.peek = some (.scalar text style, r.on s₂) := hnext
  have hname : endsBlockNode (.scalar text style) = false := rfl
  rw [blockEntries, hpeek]
  simp [hnext, hname, hscalar, hfound]

/-! ## 4. Trees

All parts of a tree. -/

theorem value_start {v : Yaml} (h : FitsValue v) :
    ∃ t ts, nodeTokens v = t :: ts ∧ startsNode t = true := by
  cases h with
  | scalar h => exact ⟨_, _, rfl, rfl⟩
  | @sequence items h =>
    cases items with
    | nil => exact ⟨_, _, rfl, rfl⟩
    | cons item items => exact ⟨.blockEntry, _, by rw [nodeTokens, itemsTokens]; simp, rfl⟩

theorem item_start {item : Yaml} (h : FitsItem item) :
    ∃ t ts, nodeTokens item = t :: ts ∧ startsNode t = true ∧ t ≠ .blockEntry := by
  cases h with
  | scalar h => exact ⟨_, _, rfl, rfl, nofun⟩
  | mapping hne hkeys hvalues => exact ⟨_, _, rfl, rfl, nofun⟩

/-- No item follows. -/
def EndsItems (us : List Token) : Prop := ∃ t ts, us = t :: ts ∧ t ≠ .blockEntry

theorem endsItems_entries (entries : List (Yaml × Yaml)) (us : List Token) :
    EndsItems (entriesTokens entries ++ .blockEnd :: us) := by
  cases entries with
  | nil => exact ⟨_, _, rfl, nofun⟩
  | cons e entries => exact ⟨.key, _, by rw [entriesTokens]; rfl, nofun⟩

mutual

/-- **A value is read from its tokens**, where an entry or the end of its block follows. -/
theorem reads_value : ∀ {v : Yaml}, FitsValue v → ∀ {fuel : Nat} {t : Token} {ts us : List Token}
    {s : Scanner}, 3 * (nodeTokens v).length + 3 ≤ fuel → nodeTokens v ++ us = t :: ts →
    EndsItems us → Ahead s t ts → Finds (node fuel true true (r.on s)) r v us
  | .scalar text none style, .scalar _, fuel, t, ts, us, s, hfuel, htokens, _, h => by
    obtain ⟨f, rfl⟩ : ∃ f, fuel = f + 2 := ⟨fuel - 2, by omega⟩
    obtain ⟨rfl, rfl⟩ := List.cons.inj htokens
    exact finds_scalar h
  | .sequence [], _, fuel, t, ts, us, s, hfuel, htokens, _, h => by
    obtain ⟨f, rfl⟩ : ∃ f, fuel = f + 3 := ⟨fuel - 3, by omega⟩
    obtain ⟨rfl, rfl⟩ := List.cons.inj htokens
    exact finds_brackets h
  | .sequence (item :: items), .sequence hitems, fuel, t, ts, us, s, hfuel, htokens, hus, h => by
    obtain ⟨f, rfl⟩ : ∃ f, fuel = f + 2 := ⟨fuel - 2, by omega⟩
    rw [nodeTokens] at hfuel htokens
    · have hdash : t = .blockEntry := by
        rw [itemsTokens] at htokens
        exact (List.cons.inj htokens).1.symm
      have hstream : Stream s (itemsTokens (item :: items) ++ us) := htokens ▸ stream_of_ahead h
      exact finds_sequence (hdash ▸ h) (reads_items hitems (by omega) hus hstream)
    · exact List.cons_ne_nil _ _
    · exact List.cons_ne_nil _ _

/-- The items of a list, up to something else. -/
theorem reads_items : ∀ {items : List Yaml}, (∀ item ∈ items, FitsItem item) → ∀ {fuel : Nat}
    {us : List Token} {s : Scanner}, 3 * (itemsTokens items).length + 1 ≤ fuel → EndsItems us →
    Stream s (itemsTokens items ++ us) → Finds (looseItems fuel (r.on s)) r items us
  | [], _, fuel, us, s, hfuel, ⟨t, ts, hus, ht⟩, h => by
    obtain ⟨f, rfl⟩ : ∃ f, fuel = f + 1 := ⟨fuel - 1, by omega⟩
    subst hus
    exact finds_items_end h ht
  | item :: items, hitems, fuel, us, s, hfuel, hus, h => by
    obtain ⟨f, rfl⟩ : ∃ f, fuel = f + 1 := ⟨fuel - 1, by omega⟩
    rw [List.forall_mem_cons] at hitems
    obtain ⟨t, ts, hstart, hnode, hdash⟩ := item_start hitems.1
    rw [itemsTokens, List.length_cons, List.length_append] at hfuel
    rw [itemsTokens, List.cons_append, List.append_assoc, hstart] at h
    have hitem : ∀ ⦃s⦄, Ahead s t (ts ++ (itemsTokens items ++ us)) →
        Finds (node f true false (r.on s)) r item (itemsTokens items ++ us) :=
      fun s hs => reads_item hitems.1 (by omega) (by rw [hstart]; rfl) hs
    exact finds_items_cons h hnode hdash hitem fun s hs => reads_items hitems.2 (by omega) hus hs

/-- An item behind its dash. -/
theorem reads_item : ∀ {item : Yaml}, FitsItem item → ∀ {fuel : Nat} {t : Token}
    {ts us : List Token} {s : Scanner}, 3 * (nodeTokens item).length + 3 ≤ fuel →
    nodeTokens item ++ us = t :: ts →
    Ahead s t ts → Finds (node fuel true false (r.on s)) r item us
  | .scalar text none style, .scalar _, fuel, t, ts, us, s, hfuel, htokens, h => by
    obtain ⟨f, rfl⟩ : ∃ f, fuel = f + 2 := ⟨fuel - 2, by omega⟩
    obtain ⟨rfl, rfl⟩ := List.cons.inj htokens
    exact finds_scalar h
  | .mapping entries, .mapping _ hkeys hvalues, fuel, t, ts, us, s, hfuel, htokens, h => by
    obtain ⟨f, rfl⟩ : ∃ f, fuel = f + 2 := ⟨fuel - 2, by omega⟩
    rw [nodeTokens] at hfuel htokens
    rw [List.length_cons, List.length_append] at hfuel
    obtain ⟨rfl, rfl⟩ := List.cons.inj htokens
    refine finds_mapping h (reads_entries hkeys hvalues (by omega) ?_)
    simpa using h.more

/-- The entries of a mapping, up to the end of its block. -/
theorem reads_entries : ∀ {entries : List (Yaml × Yaml)}, (∀ e ∈ entries, FitsKey e.1) →
    (∀ e ∈ entries, FitsValue e.2) → ∀ {fuel : Nat} {us : List Token} {s : Scanner},
    3 * (entriesTokens entries).length + 1 ≤ fuel →
    Stream s (entriesTokens entries ++ .blockEnd :: us) →
    Finds (blockEntries fuel (r.on s)) r entries us
  | [], _, _, fuel, us, s, hfuel, h => by
    obtain ⟨f, rfl⟩ : ∃ f, fuel = f + 1 := ⟨fuel - 1, by omega⟩
    exact finds_entries_end h
  | (k, v) :: entries, hkeys, hvalues, fuel, us, s, hfuel, h => by
    obtain ⟨f, rfl⟩ : ∃ f, fuel = f + 3 := ⟨fuel - 3, by simp [entriesTokens] at hfuel; omega⟩
    rw [List.forall_mem_cons] at hkeys hvalues
    obtain ⟨⟨text, rfl, -⟩, hkeys⟩ := hkeys
    obtain ⟨hv, hvalues⟩ : FitsValue v ∧ _ := hvalues
    obtain ⟨t, ts, hstart, hnode⟩ := value_start hv
    rw [entriesTokens, List.length_cons, List.length_cons, List.length_cons, List.length_append]
      at hfuel
    rw [entriesTokens, keyChars, String.ofList_toList] at h
    simp only [List.cons_append, List.append_assoc] at h
    rw [hstart] at h
    have hvalue : ∀ ⦃s⦄, Ahead s t (ts ++ (entriesTokens entries ++ .blockEnd :: us)) →
        Finds (node (f + 1) true true (r.on s)) r v (entriesTokens entries ++ .blockEnd :: us) :=
      fun s hs => reads_value hv (by omega) (by rw [hstart]; rfl)
        (endsItems_entries entries us) hs
    exact finds_entries_cons h hnode hvalue fun s hs => reads_entries hkeys hvalues (by omega) hs

end

end Reader

/-! ## 5. Characters and fuel

A text is only read if all of its characters are allowed, and the fuel is counted by them. -/

section Characters

variable {x : Char} {cs : List Char}

theorem isAllowed_of_isPrintable (h : isPrintable x = true) : isAllowed x = true := by
  simp only [isPrintable, isAllowed, Bool.or_eq_true, Bool.and_eq_true, decide_eq_true_eq] at h ⊢
  omega

theorem all_isAllowed_of_not_needsEscapes (h : needsEscapes cs = false) :
    cs.all isAllowed = true := by
  simp only [needsEscapes, Bool.or_eq_false_iff, List.any_eq_false, Bool.not_eq_true',
    Bool.not_eq_false] at h
  exact List.all_eq_true.mpr fun x hx => isAllowed_of_isPrintable (h.1 x hx)

theorem all_isAllowed_ite {P : Prop} [Decidable P] {ds : List Char}
    (h : P → cs.all isAllowed = true) (hnot : ¬P → ds.all isAllowed = true) :
    (if P then cs else ds).all isAllowed = true := by
  split
  · exact h ‹P›
  · exact hnot ‹¬P›

theorem all_isAllowed_spaces (n : Nat) : (spaces n).all isAllowed = true :=
  List.all_eq_true.mpr fun _ hx => eq_space_of_mem_spaces hx ▸ rfl

theorem all_isAllowed_singleBody (h : cs.all isAllowed = true) (n : Nat) (broken : Bool) :
    (singleBody n broken cs).all isAllowed = true := by
  induction cs generalizing broken with
  | nil => cases broken <;> simp [singleBody, all_isAllowed_spaces]
  | cons x cs ih =>
    rw [List.all_cons, Bool.and_eq_true] at h
    rw [singleBody]
    refine all_isAllowed_ite (fun _ => ?_) fun _ => ?_
    · rw [List.all_cons, h.1, ih h.2, Bool.and_self]
    · rw [List.all_append, List.all_append, ih h.2, Bool.and_true, Bool.and_eq_true]
      refine ⟨all_isAllowed_ite (fun _ => all_isAllowed_spaces n) fun _ => rfl, ?_⟩
      exact all_isAllowed_ite (fun _ => rfl) fun _ => by rw [List.all_cons, h.1]; rfl

theorem all_isAllowed_literalBody (h : cs.all isAllowed = true) (n : Nat) (broken : Bool) :
    (literalBody n broken cs).all isAllowed = true := by
  induction cs generalizing broken with
  | nil => rfl
  | cons x cs ih =>
    rw [List.all_cons, Bool.and_eq_true] at h
    rw [literalBody]
    refine all_isAllowed_ite (fun _ => ?_) fun _ => ?_
    · rw [List.all_cons, h.1, ih h.2, Bool.and_self]
    · rw [List.all_append, List.all_cons, h.1, ih h.2, Bool.and_true]
      rw [all_isAllowed_ite (fun _ => all_isAllowed_spaces n) fun _ => rfl]
      rfl

theorem all_isAllowed_hexDigits (width n : Nat) : (hexDigits width n).all isAllowed = true := by
  have hdigit : ∀ m < 16, isAllowed (Nat.digitChar m).toUpper = true := by decide
  induction width generalizing n with
  | zero => rfl
  | succ width ih =>
    rw [hexDigits, List.all_append, ih, List.all_cons, upperHex,
      hdigit _ (Nat.mod_lt n (by decide))]
    rfl

theorem all_isAllowed_doubleChar (x : Char) : (doubleChar x).all isAllowed = true := by
  rw [doubleChar]
  refine all_isAllowed_ite (fun h => ?_) fun _ => ?_
  · simp only [Bool.and_eq_true] at h
    rw [List.all_cons, isAllowed_of_isPrintable h.1.1.1]
    rfl
  iterate 14 refine all_isAllowed_ite (fun _ => rfl) fun _ => ?_
  iterate 2 refine all_isAllowed_ite (fun _ => all_isAllowed_hexDigits _ _) fun _ => ?_
  exact all_isAllowed_hexDigits _ _

theorem all_isAllowed_literalMarks (cs : List Char) : (literalMarks cs).all isAllowed = true := by
  rw [literalMarks, List.all_append, Bool.and_eq_true]
  refine ⟨all_isAllowed_ite (fun _ => rfl) fun _ => rfl, ?_⟩
  unfold chompMark
  split
  · rfl
  · exact all_isAllowed_ite (fun _ => rfl) fun _ => rfl
  · refine all_isAllowed_ite (fun _ => rfl) fun _ => ?_
    exact all_isAllowed_ite (fun _ => rfl) fun _ => rfl

theorem all_isAllowed_scalarChars (h : FitsStyle text style) (n : Nat) :
    (scalarChars n text style).all isAllowed = true := by
  cases style with
  | folded => exact h.elim
  | plain =>
    have hchars : text.toList.all isAllowed = true := by
      refine all_isAllowed_of_not_needsEscapes ?_
      have hallowed := h.2
      simp only [allowsPlain, Bool.and_eq_true, Bool.not_eq_true'] at hallowed
      exact hallowed.1.1.1.1.1
    rw [scalarChars, List.all_append, hchars]
    · rfl
    all_goals simp
  | singleQuoted =>
    have hchars : text.toList.all isAllowed = true :=
      List.all_eq_true.mpr fun x hx => isAllowed_of_isPrintable (h.printable x hx)
    rw [scalarChars, List.cons_append, List.all_cons, List.all_append,
      all_isAllowed_singleBody hchars]
    rfl
  | doubleQuoted =>
    have hchars : (text.toList.flatMap doubleChar).all isAllowed = true := by
      rw [List.all_flatMap]
      exact List.all_eq_true.mpr fun x _ => all_isAllowed_doubleChar x
    rw [scalarChars, List.cons_append, List.all_cons, List.all_append, hchars]
    rfl
  | literal =>
    have hchars : text.toList.all isAllowed = true := by
      refine all_isAllowed_of_not_needsEscapes ?_
      have hallowed := h.2
      simp only [allowsLiteral, Bool.and_eq_true, Bool.not_eq_true'] at hallowed
      exact hallowed.1
    simp only [scalarChars, List.cons_append, List.all_cons, List.all_append,
      all_isAllowed_literalMarks, all_isAllowed_literalBody hchars]
    rw [all_isAllowed_ite (fun _ => rfl) fun _ => rfl]
    rfl

theorem length_scalarChars_pos (n : Nat) (text : String) (style : ScalarStyle) :
    0 < (scalarChars n text style).length := by
  cases style <;> simp [scalarChars]

/-- The characters are allowed, and give fuel for the tokens and for more. -/
structure Pays (more : Nat) (ts : List Token) (cs : List Char) : Prop where
  allowed : cs.all isAllowed = true
  enough : ts.length + more ≤ 2 * cs.length

theorem pays_entry {k v : Yaml} {entries : List (Yaml × Yaml)} {level : Nat} (hk : FitsKey k)
    (hvalue : Pays 2 (nodeTokens v) (valueChars level v))
    (hrest : Pays 0 (entriesTokens entries) (entriesChars level level entries)) (lead : Nat) :
    Pays 3 (entriesTokens ((k, v) :: entries)) (entriesChars lead level ((k, v) :: entries)) := by
  obtain ⟨t, rfl, hne, -, hword⟩ := hk
  have hkey : t.toList.all isAllowed = true :=
    List.all_eq_true.mpr fun x hx =>
      isAllowed_of_isPrintable (isPrintable_of_isFieldChar (hword x hx))
  refine ⟨?_, ?_⟩
  · simp only [entriesChars, keyChars, List.all_append, List.all_cons, all_isAllowed_spaces, hkey,
      hvalue.allowed, hrest.allowed, Bool.and_true]
    rfl
  · have hlength := List.length_pos_of_ne_nil hne
    have hv := hvalue.enough
    have hr := hrest.enough
    simp only [entriesTokens, entriesChars, keyChars, List.length_append, List.length_cons]
    omega

mutual

theorem pays_value : ∀ {v : Yaml}, FitsValue v → ∀ level,
    Pays 2 (nodeTokens v) (valueChars level v)
  | .scalar text none style, .scalar h, level => by
    refine ⟨all_isAllowed_scalarChars h (level + 2), ?_⟩
    have hlength := length_scalarChars_pos (level + 2) text style
    simp only [nodeTokens, valueChars, List.length_cons, List.length_nil]
    omega
  | .sequence [], _, level => ⟨rfl, by simp [nodeTokens, valueChars]⟩
  | .sequence (item :: items), .sequence hitems, level => by
    have hpays := pays_items hitems level
    have henough := hpays.enough
    rw [nodeTokens, valueChars]
    · exact ⟨hpays.allowed, by rw [List.length_cons]; omega⟩
    all_goals exact List.cons_ne_nil _ _

theorem pays_items : ∀ {items : List Yaml}, (∀ item ∈ items, FitsItem item) → ∀ level,
    Pays 0 (itemsTokens items) (itemsChars level items)
  | [], _, level => ⟨rfl, Nat.le_refl 0⟩
  | item :: items, hitems, level => by
    rw [List.forall_mem_cons] at hitems
    have hitem := pays_item hitems.1 level
    have hrest := pays_items hitems.2 level
    refine ⟨?_, ?_⟩
    · simp only [itemsChars, List.all_append, List.all_cons, all_isAllowed_spaces, hitem.allowed,
        hrest.allowed, Bool.and_true]
      rfl
    · have hi := hitem.enough
      have hr := hrest.enough
      simp only [itemsTokens, itemsChars, List.length_append, List.length_cons]
      omega

theorem pays_item : ∀ {item : Yaml}, FitsItem item → ∀ level,
    Pays 0 (nodeTokens item) (itemChars level item)
  | .scalar text none style, .scalar h, level => by
    refine ⟨all_isAllowed_scalarChars h (level + 2), ?_⟩
    have hlength := length_scalarChars_pos (level + 2) text style
    simp only [nodeTokens, itemChars, List.length_cons, List.length_nil]
    omega
  | .mapping [], .mapping hne _ _, _ => absurd rfl hne
  | .mapping ((k, v) :: entries), .mapping _ hkeys hvalues, level => by
    rw [List.forall_mem_cons] at hkeys hvalues
    have hentries : Pays 3 (entriesTokens ((k, v) :: entries))
        (entriesChars 0 (level + 2) ((k, v) :: entries)) :=
      pays_entry hkeys.1 (pays_value hvalues.1 (level + 2))
        (pays_entries hkeys.2 hvalues.2 (level + 2)) 0
    have henough := hentries.enough
    rw [nodeTokens, itemChars]
    · refine ⟨hentries.allowed, ?_⟩
      simp only [List.length_cons, List.length_append, List.length_nil]
      omega
    · exact List.cons_ne_nil _ _

theorem pays_entries : ∀ {entries : List (Yaml × Yaml)}, (∀ e ∈ entries, FitsKey e.1) →
    (∀ e ∈ entries, FitsValue e.2) → ∀ level,
    Pays 0 (entriesTokens entries) (entriesChars level level entries)
  | [], _, _, level => ⟨rfl, Nat.le_refl 0⟩
  | (k, v) :: entries, hkeys, hvalues, level => by
    rw [List.forall_mem_cons] at hkeys hvalues
    have hentries := pays_entry hkeys.1 (pays_value hvalues.1 level)
      (pays_entries hkeys.2 hvalues.2 level) level
    exact ⟨hentries.allowed, (Nat.le_add_right _ 3).trans hentries.enough⟩

end

end Characters

/-! ## 6. Documents

The tree with the start and the end of its document. -/

namespace Reader

theorem endsStream_end (h : Ahead s .streamEnd ts) : endsStream (fuel + 1) (r.on s) = true := by
  simp [endsStream, peek_on h]

/-- The document of a mapping that the tokens of the stream hold. -/
theorem document_eq {entries : List (Yaml × Yaml)} (hkeys : ∀ e ∈ entries, FitsKey e.1)
    (hvalues : ∀ e ∈ entries, FitsValue e.2)
    (hfuel : 3 * (nodeTokens (.mapping entries)).length + 3 ≤ fuel)
    (h : Stream s (.streamStart :: (nodeTokens (.mapping entries) ++ [.streamEnd]))) :
    document fuel { scanner := s } = ⟨.mapping entries, [], .last⟩ := by
  obtain ⟨f, rfl⟩ : ∃ f, fuel = f + 2 := ⟨fuel - 2, by omega⟩
  obtain ⟨s₁, hpeek, hstart⟩ := peek_eq (r := { scanner := s }) h
  rw [nodeTokens] at hstart hfuel
  obtain ⟨s₂, hnext, hahead⟩ := peek_eq (r := { scanner := s₁.take }) hstart.more
  have hentries : Stream s₂.take (entriesTokens entries ++ [.blockEnd, .streamEnd]) := by
    simpa using hahead.more
  have hsize : 3 * (entriesTokens entries).length + 1 ≤ f := by
    simp only [List.length_cons, List.length_append, List.length_nil] at hfuel
    omega
  obtain ⟨s₃, hfound, hend⟩ : Finds (node (f + 2) true false _)
      { scanner := s, handles := knownHandles } (.mapping entries) [.streamEnd] :=
    finds_mapping hahead (reads_entries hkeys hvalues hsize hentries)
  obtain ⟨s₄, hlast, hended⟩ := peek_eq (r := { scanner := s₃, handles := knownHandles }) hend
  have hclose : endsStream (f + 2) { scanner := s₄, handles := knownHandles } = true :=
    endsStream_end (r := { scanner := s₄, handles := knownHandles }) hended
  simp only [document, hpeek, take, on] at hnext hfound ⊢
  simp [hnext, hfound, close, hlast, hclose]

end Reader

/-- **The text of a tree is read as that tree.** -/
theorem read_write {entries : List (Yaml × Yaml)} (hne : entries ≠ [])
    (hkeys : ∀ e ∈ entries, FitsKey e.1) (hvalues : ∀ e ∈ entries, FitsValue e.2) :
    read (write (.mapping entries)) = ⟨.mapping entries, [], .last⟩ := by
  have hpays := pays_entries hkeys hvalues 0
  rw [read, write, String.toList_ofList, readChars, if_pos]
  · have henough := hpays.enough
    refine Reader.document_eq hkeys hvalues ?_ (stream_write hne hkeys hvalues)
    simp only [nodeTokens, List.length_cons, List.length_append, List.length_nil, writeChars]
    omega
  · exact hpays.allowed

end Yaml
end Foreman

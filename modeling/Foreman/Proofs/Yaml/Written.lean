/-
# A written tree as tokens

The trees that are written here hold scalars and lists in the fields of a mapping, and scalars and
mappings in a list.  A scanner that gets the text of such a tree gives the tokens of the tree.

* `FitsValue`, `FitsItem`: such a tree, with scalars in styles that can hold their texts.
* `behind_value`, `gives_item`: the parts of a tree, wherever they stand.
* `stream_write`: the tree as a whole.
-/
import Foreman.Proofs.Yaml.Blocks

namespace Foreman
namespace Yaml

open Scanner

variable {n L : Nat} {b d : Int} {base : List Int} {rest : List Char} {us : List Token}
  {s : Scanner}
  {t : String} {style : ScalarStyle}

/-! ## 1. Trees that can be written

The form of the trees, and the tokens each has. -/

/-- A field's name: a word of letters and underscores. -/
def FitsKey (k : Yaml) : Prop :=
  ∃ t : String, k = .scalar t none .plain ∧ t.toList ≠ [] ∧ t.toList.length ≤ keyLimit ∧
    ∀ x ∈ t.toList, isFieldChar x = true

mutual

/-- What a field can hold. -/
inductive FitsValue : Yaml → Prop
  | scalar {t : String} {style : ScalarStyle} (h : FitsStyle t style) :
      FitsValue (.scalar t none style)
  | sequence {items : List Yaml} (h : ∀ item ∈ items, FitsItem item) : FitsValue (.sequence items)

/-- What a list can hold. -/
inductive FitsItem : Yaml → Prop
  | scalar {t : String} {style : ScalarStyle} (h : FitsStyle t style) :
      FitsItem (.scalar t none style)
  | mapping {entries : List (Yaml × Yaml)} (hne : entries ≠ []) (hkeys : ∀ e ∈ entries, FitsKey e.1)
      (hvalues : ∀ e ∈ entries, FitsValue e.2) : FitsItem (.mapping entries)

end

mutual

/-- The tokens of a node. -/
def nodeTokens : Yaml → List Token
  | .scalar t _ style => [.scalar t style]
  | .sequence [] => [.flowSequenceStart, .flowSequenceEnd]
  | .sequence items => itemsTokens items
  | .mapping entries => .blockMappingStart :: (entriesTokens entries ++ [.blockEnd])
  | .ref _ | .torn => []

def itemsTokens : List Yaml → List Token
  | [] => []
  | item :: rest => .blockEntry :: (nodeTokens item ++ itemsTokens rest)

def entriesTokens : List (Yaml × Yaml) → List Token
  | [] => []
  | (k, v) :: rest =>
    .key :: .scalar (String.ofList (keyChars k)) .plain :: .value ::
      (nodeTokens v ++ entriesTokens rest)

end

/-! ## 2. Starts

Where the first token of a part stands. -/

theorem startsToken_scalar (h : FitsStyle t style) (level : Nat) (rest : List Char) :
    StartsToken (scalarChars level t style ++ rest) := by
  cases style with
  | plain =>
    obtain ⟨x, r, hstart, hink, hx⟩ := (plainRun_of_allowed h.1 h.2).start
    have hprint : isPrintable x = true := by
      have hallowed := h.2
      simp only [allowsPlain, needsEscapes, hstart, Bool.and_eq_true, Bool.not_eq_true',
        Bool.or_eq_false_iff, List.any_eq_false, Bool.not_eq_false] at hallowed
      exact hallowed.1.1.1.1.1.1 x List.mem_cons_self
    have hmark : x ≠ '\uFEFF' := by
      rintro rfl
      cases hprint
    have hchars : scalarChars level t .plain ++ rest = x :: (r ++ '\n' :: rest) := by
      simp [scalarChars, hstart]
    rw [hchars]
    rintro y ⟨⟩
    exact ⟨hink, hx, hmark⟩
  | folded => exact h.elim
  | _ =>
    rintro y ⟨⟩
    decide

theorem startsToken_key {k : Yaml} (hk : FitsKey k) (rest : List Char) :
    StartsToken (keyChars k ++ rest) := by
  obtain ⟨t, rfl, hne, -, hword⟩ := hk
  obtain ⟨x, w, hstart⟩ := List.exists_cons_of_ne_nil hne
  have hx : isFieldChar x = true := hword x (hstart ▸ List.mem_cons_self)
  rw [keyChars, hstart]
  rintro y ⟨⟩
  exact ⟨isInk_of_isFieldChar hx, ne_of_isFieldChar hx (by decide),
    ne_of_isFieldChar hx (by decide)⟩

theorem startsToken_item {item : Yaml} (h : FitsItem item) (level : Nat) (rest : List Char) :
    StartsToken (itemChars level item ++ rest) := by
  cases h with
  | scalar h => exact startsToken_scalar h (level + 2) rest
  | @mapping entries hne hkeys _ =>
    obtain ⟨⟨k, v⟩, entries, rfl⟩ := List.exists_cons_of_ne_nil hne
    rw [itemChars, entriesChars, spaces_zero, List.nil_append, List.append_assoc, List.append_assoc]
    · exact startsToken_key (hkeys _ List.mem_cons_self) _
    · exact hne

theorem isApart_valueChars {v : Yaml} (hv : FitsValue v) (level : Nat) (rest : List Char) :
    isApart (valueChars level v ++ rest).head? = true := by
  cases hv with
  | scalar h => rfl
  | @sequence items h => cases items <;> rfl

/-! ## 3. From a part to the next

A part is written, read and left behind. -/

theorem Scanner.Behind.blank (h : Behind s (L :: base) (' ' :: rest)) (hrest : StartsToken rest) :
    ∃ k, L < k ∧ At s [] false (L :: base) k rest := by
  obtain ⟨i, l, k, T, K, indent, outer, hK, hstack, hdeep, rfl⟩ := h
  obtain ⟨rfl, rfl⟩ := List.cons.inj hstack
  exact ⟨k + 1, by omega, at_of_blanks (g := 1) hK hrest i l k T⟩

theorem Scanner.Behind.line (h : Behind s (L :: base) ('\n' :: (spaces n ++ rest)))
    (hrest : StartsToken rest) : At s [] true (L :: base) n rest := by
  obtain ⟨i, l, k, T, K, indent, outer, hK, hstack, -, rfl⟩ := h
  rw [hstack]
  exact at_of_line (wants_of_empty rfl rfl)
    (fun h => absurd (hK.symm.trans h) Bool.false_ne_true) hrest

/-- The key of an entry, and the value behind its colon. -/
theorem continues_entry {k v : Yaml} (hk : FitsKey k) (hv : FitsValue v) (hb : b ≤ L)
    (h : ∀ ⦃s⦄, Behind s (L :: if b < L then b :: base else base) (valueChars L v ++ rest) →
      Stream s us) :
    Continues (b :: base) L L (keyChars k ++ ':' :: (valueChars L v ++ rest))
      (keyTokens b L (keyChars k) ++ us) := by
  obtain ⟨t, rfl, hne, hlength, hword⟩ := hk
  exact continues_key hword hne hlength (isApart_valueChars hv L rest) hb h

/-- The first entry of a mapping starts its block. -/
theorem continues_first {k v : Yaml} (hk : FitsKey k) (hv : FitsValue v) (hb : b < L)
    (h : ∀ ⦃s⦄, Behind s (L :: b :: base) (valueChars L v ++ rest) → Stream s us) :
    Continues (b :: base) L L (keyChars k ++ ':' :: (valueChars L v ++ rest))
      (.blockMappingStart :: .key :: .scalar (String.ofList (keyChars k)) .plain :: .value ::
        us) := by
  have hentry : Continues (b :: base) L L _ (keyTokens b L (keyChars k) ++ us) :=
    continues_entry hk hv (Int.le_of_lt hb) (by rwa [if_pos hb])
  rwa [keyTokens, if_pos hb] at hentry

/-- The others go on with it. -/
theorem continues_further {k v : Yaml} (hk : FitsKey k) (hv : FitsValue v)
    (h : ∀ ⦃s⦄, Behind s (L :: base) (valueChars L v ++ rest) → Stream s us) :
    Continues ((L : Int) :: base) L L (keyChars k ++ ':' :: (valueChars L v ++ rest))
      (.key :: .scalar (String.ofList (keyChars k)) .plain :: .value :: us) := by
  have hL : ¬(L : Int) < L := Int.lt_irrefl L
  have hentry : Continues ((L : Int) :: base) L L _ (keyTokens L L (keyChars k) ++ us) :=
    continues_entry hk hv (Int.le_refl L) (by rwa [if_neg hL])
  rwa [keyTokens, if_neg hL] at hentry

/-- Behind a part of a block at level `L`, at the start of a line that is not deeper. -/
structure Onward (base : List Int) (d : Int) (L n : Nat) (rest : List Char) (us : List Token) :
    Prop where
  continues : Continues base d n rest us
  shallow : n ≤ L
  starts : StartsToken rest
  ends : d ≤ L

/-- Behind the last entry of a mapping its block ends. -/
theorem Onward.close (h : Onward base d L n rest us) (hd : d < L) :
    Onward (L :: base) d L n rest (.blockEnd :: us) := by
  refine ⟨fun s pre extras hextras hs => ?_, h.shallow, h.starts, h.ends⟩
  have hdeep : ∀ j ∈ extras ++ [(L : Int)], d < j := by
    simpa [or_imp, forall_and] using ⟨hextras, hd⟩
  have hmore := h.continues hdeep (by simpa using hs)
  simpa [List.replicate_succ'] using hmore

theorem Onward.deeper (h : Onward base d L n rest us) {L' : Nat} (hle : L ≤ L') :
    Onward base d L' n rest us :=
  ⟨h.continues, h.shallow.trans hle, h.starts, Int.le_trans h.ends (Int.ofNat_le.mpr hle)⟩

mutual

theorem behind_value : ∀ {v : Yaml} {L n : Nat} {d : Int} {base : List Int} {rest : List Char}
    {us : List Token} {s : Scanner}, FitsValue v → Onward (L :: base) d L n rest us →
    Behind s (L :: base) (valueChars L v ++ (spaces n ++ rest)) → Stream s (nodeTokens v ++ us)
  | .scalar t none style, L, n, d, base, rest, us, s, .scalar hfits, hnext, hs => by
    obtain ⟨k, hk, hat⟩ := hs.blank (startsToken_scalar hfits (L + 2) _)
    exact gives_scalar hnext.continues hnext.shallow hnext.starts hk hfits hat
  | .sequence [], L, n, d, base, rest, us, s, _, hnext, hs => by
    obtain ⟨k, hk, hat⟩ := hs.blank (by rintro y ⟨⟩; decide)
    exact gives_brackets hnext.continues hnext.starts hk hat
  | .sequence (item :: items), L, n, d, base, rest, us, s, .sequence hitems, hnext, hs => by
    obtain ⟨d', n', rest', htext, hon⟩ := onward_items hitems hnext
    rw [valueChars, List.cons_append, htext] at hs
    · exact hon.continues.gives (hs.line hon.starts)
    · exact List.cons_ne_nil _ _

theorem onward_items : ∀ {items : List Yaml} {L n : Nat} {d : Int} {base : List Int}
    {rest : List Char} {us : List Token}, (∀ item ∈ items, FitsItem item) →
    Onward (L :: base) d L n rest us → ∃ d' n' rest',
      itemsChars L items ++ (spaces n ++ rest) = spaces n' ++ rest' ∧
      Onward (L :: base) d' L n' rest' (itemsTokens items ++ us)
  | [], L, n, d, base, rest, us, _, hnext => ⟨d, n, rest, rfl, hnext⟩
  | item :: items, L, n, d, base, rest, us, hitems, hnext => by
    rw [List.forall_mem_cons] at hitems
    obtain ⟨d', n', rest', htext, hon⟩ := onward_items hitems.2 hnext
    have hdash := continues_dash (startsToken_item hitems.1 L _) (gives_item hitems.1 hon)
    refine ⟨L, L, '-' :: ' ' :: (itemChars L item ++ (spaces n' ++ rest')), ?_, ?_, Nat.le_refl L,
      ?_, Int.le_refl L⟩
    · simp [itemsChars, ← htext]
    · simpa [itemsTokens] using hdash
    · rintro y ⟨⟩
      decide

theorem gives_item : ∀ {item : Yaml} {L n : Nat} {d : Int} {base : List Int} {rest : List Char}
    {us : List Token}, FitsItem item → Onward (L :: base) d L n rest us →
    Gives (L :: base) true (L + 2) (itemChars L item ++ (spaces n ++ rest)) (nodeTokens item ++ us)
  | .scalar t none style, L, n, d, base, rest, us, .scalar hfits, hnext =>
    gives_scalar hnext.continues hnext.shallow hnext.starts (by omega) hfits
  | .mapping [], L, n, d, base, rest, us, .mapping hne _ _, _ => absurd rfl hne
  | .mapping ((k, v) :: entries), L, n, d, base, rest, us, .mapping _ hkeys hvalues, hnext => by
    rw [List.forall_mem_cons] at hkeys hvalues
    have hdeep : d < (L + 2 : Nat) := by have := hnext.ends; omega
    obtain ⟨d', n', rest', htext, hon⟩ :=
      onward_entries hkeys.2 hvalues.2 hdeep (hnext.deeper (Nat.le_add_right L 2))
    have hentry := (continues_first (b := L) hkeys.1 hvalues.1 (by omega)
      fun s hs => behind_value hvalues.1 hon hs).gives
    rw [nodeTokens, itemChars, entriesChars, spaces_zero]
    · simpa [entriesTokens, ← htext] using hentry
    · exact List.cons_ne_nil _ _

theorem onward_entries : ∀ {entries : List (Yaml × Yaml)} {L n : Nat} {d : Int} {base : List Int}
    {rest : List Char} {us : List Token}, (∀ e ∈ entries, FitsKey e.1) →
    (∀ e ∈ entries, FitsValue e.2) → d < L → Onward base d L n rest us → ∃ d' n' rest',
      entriesChars L L entries ++ (spaces n ++ rest) = spaces n' ++ rest' ∧
      Onward (L :: base) d' L n' rest' (entriesTokens entries ++ .blockEnd :: us)
  | [], L, n, d, base, rest, us, _, _, hd, hnext => ⟨d, n, rest, rfl, hnext.close hd⟩
  | (k, v) :: entries, L, n, d, base, rest, us, hkeys, hvalues, hd, hnext => by
    rw [List.forall_mem_cons] at hkeys hvalues
    obtain ⟨d', n', rest', htext, hon⟩ := onward_entries hkeys.2 hvalues.2 hd hnext
    have hentry := continues_further hkeys.1 hvalues.1 fun s hs => behind_value hvalues.1 hon hs
    refine ⟨L, L, keyChars k ++ ':' :: (valueChars L v ++ (spaces n' ++ rest')), ?_, ?_,
      Nat.le_refl L, startsToken_key hkeys.1 _, Int.le_refl L⟩
    · simp [entriesChars, ← htext]
    · simpa [entriesTokens] using hentry

end

/-! ## 4. Documents

The text as a whole. -/

theorem onward_end : Onward [-1] (-1) 0 0 [] [.streamEnd] :=
  ⟨continues_end, Nat.le_refl 0, fun _ hx => absurd hx (by simp), by decide⟩

/-- **The text of a mapping is scanned as its tokens.** -/
theorem stream_write {entries : List (Yaml × Yaml)} (hne : entries ≠ [])
    (hkeys : ∀ e ∈ entries, FitsKey e.1) (hvalues : ∀ e ∈ entries, FitsValue e.2) :
    Stream { cursor := { rest := writeChars (.mapping entries) } }
      (.streamStart :: (nodeTokens (.mapping entries) ++ [.streamEnd])) := by
  obtain ⟨⟨k, v⟩, entries, rfl⟩ := List.exists_cons_of_ne_nil hne
  rw [List.forall_mem_cons] at hkeys hvalues
  obtain ⟨d, n, rest, htext, hon⟩ :=
    onward_entries (L := 0) hkeys.2 hvalues.2 (by decide) onward_end
  have hentry := (continues_first (b := -1) (L := 0) hkeys.1 hvalues.1 (by decide)
    fun s hs => behind_value hvalues.1 hon hs).gives
  rw [← htext] at hentry
  refine stream_start ?_
    (by simpa [writeChars, entriesChars, nodeTokens, entriesTokens] using hentry)
  simpa [writeChars, entriesChars] using startsToken_key hkeys.1 _

end Yaml
end Foreman

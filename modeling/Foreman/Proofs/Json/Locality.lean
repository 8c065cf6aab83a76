/-
# Reading is local

A value is read up to its last character, and what stands behind it has no say in it: the same
value is read with anything else behind, and nothing behind is touched.  Only a number may go on,
so what is put behind must not continue one.

The proofs follow the reader.  Each part of it is asked the same: what was found in `cs`, with
`rest` left, is found in `cs ++ tail`, with `rest ++ tail` left.  The count that bounds the depth
may be greater.

* `textBody?_append`, `number?_append`: texts and numbers.
* `value?_append`: values.
* `fields?_embedded`: the text of a value, in the last field of a record.
-/
import Foreman.Proofs.Json.RoundTrip

namespace Foreman
namespace Json

variable {cs rest tail : List Char} {c : Char}

/-! ## 1. Texts

A text ends at its closing quote. -/

theorem hexUnit?_append {n : Nat} (h : hexUnit? cs = some (n, rest)) :
    hexUnit? (cs ++ tail) = some (n, rest ++ tail) := by
  obtain _ | ⟨a, _ | ⟨b, _ | ⟨c, _ | ⟨d, cs⟩⟩⟩⟩ := cs
  · cases h
  · cases h
  · cases h
  · cases h
  · simp only [List.cons_append, hexUnit?, Option.bind_eq_bind, Option.bind_eq_some_iff] at h ⊢
    obtain ⟨a', ha, b', hb, c', hc, d', hd, heq⟩ := h
    cases heq
    exact ⟨a', ha, b', hb, c', hc, d', hd, rfl⟩

theorem lowHalf?_append {n : Nat} (h : lowHalf? cs = some (n, rest)) :
    lowHalf? (cs ++ tail) = some (n, rest ++ tail) := by
  unfold lowHalf? at h
  split at h
  · split at h
    · rename_i hunit
      split at h
      · rename_i hlow
        cases h
        simp only [List.cons_append, lowHalf?, hexUnit?_append hunit]
        exact if_pos hlow
      · cases h
    · cases h
  · cases h

/-- A half that does not follow in a text that is closed does not follow either if more comes
behind. -/
theorem lowHalf?_append_none {fuel : Nat} {broken : Bool} {acc : List Char} {s : Option String}
    (hbody : textBody? fuel broken acc cs = some (s, rest)) (h : lowHalf? cs = none) :
    lowHalf? (cs ++ tail) = none := by
  obtain _ | fuel := fuel
  · cases hbody
  obtain _ | ⟨a, _ | ⟨b, cs⟩⟩ := cs
  · cases hbody
  · by_cases ha : a = '\\'
    · subst ha
      simp [textBody?] at hbody
    · unfold lowHalf?
      split
      · rename_i heq
        exact absurd (List.cons.inj heq).1 ha
      · rfl
  · by_cases hescape : a = '\\' ∧ b = 'u'
    · obtain ⟨rfl, rfl⟩ := hescape
      rw [textBody?] at hbody
      cases hunit : hexUnit? cs with
      | none =>
        rw [hunit] at hbody
        cases hbody
      | some found =>
        obtain ⟨n, r⟩ := found
        simp only [lowHalf?, hunit] at h
        simp only [List.cons_append, lowHalf?, hexUnit?_append hunit]
        split at h
        · cases h
        · rename_i hnot
          exact if_neg hnot
    · unfold lowHalf?
      split
      · rename_i heq
        simp only [List.cons_append, List.cons.injEq] at heq
        exact absurd ⟨heq.1, heq.2.1⟩ hescape
      · rfl

/-- **A text is read up to its closing quote.** -/
theorem textBody?_append {fuel : Nat} {broken : Bool} {acc : List Char} {s : Option String}
    (more : Nat) (h : textBody? fuel broken acc cs = some (s, rest)) :
    textBody? (fuel + more) broken acc (cs ++ tail) = some (s, rest ++ tail) := by
  -- the cases in which the text goes on: escapes of one and of two units, others, a plain character
  fun_induction textBody? fuel broken acc cs with
  | case1 => cases h
  | case2 => cases h
  | case3 =>
    cases h
    rw [Nat.succ_add, List.cons_append, textBody?]
  | case4 => cases h
  | case5 _ _ _ _ _ _ hunit hhigh _ _ hlow ih =>
    rw [Nat.succ_add, List.cons_append, List.cons_append, textBody?, hexUnit?_append hunit]
    dsimp only
    rw [if_pos hhigh, lowHalf?_append hlow]
    exact ih h
  | case6 _ _ _ _ _ _ hunit hhigh hlow ih =>
    rw [Nat.succ_add, List.cons_append, List.cons_append, textBody?, hexUnit?_append hunit]
    dsimp only
    rw [if_pos hhigh, lowHalf?_append_none h hlow]
    exact ih h
  | case7 _ _ _ _ _ _ hunit hnot hlow ih =>
    rw [Nat.succ_add, List.cons_append, List.cons_append, textBody?, hexUnit?_append hunit]
    dsimp only
    rw [if_neg hnot, if_pos hlow]
    exact ih h
  | case8 _ _ _ _ _ _ hunit hnot hnot' ih =>
    rw [Nat.succ_add, List.cons_append, List.cons_append, textBody?, hexUnit?_append hunit]
    dsimp only
    rw [if_neg hnot, if_neg hnot']
    exact ih h
  | case9 _ _ _ _ _ hne _ hshort ih =>
    rw [Nat.succ_add, List.cons_append, List.cons_append, textBody?, hshort]
    · exact ih h
    · exact hne
  | case10 => cases h
  | case11 => cases h
  | case12 _ _ _ c _ hquote _ _ hplain ih =>
    have hslash : c ≠ '\\' := fun heq => hplain (by simp [heq])
    rw [Nat.succ_add, List.cons_append, textBody?, if_neg hplain]
    · exact ih h
    · exact hquote
    · exact fun _ heq _ => hslash heq
    · exact fun _ _ heq _ => hslash heq

/-! ## 2. Numbers

A number ends where no character can go on with it. -/

theorem spanDigits_append_tail (h : Text.NoDigitNext tail) : ∀ cs : List Char,
    Text.spanDigits (cs ++ tail) =
      ((Text.spanDigits cs).1, (Text.spanDigits cs).2 ++ tail)
  | [] => Text.spanDigits_append nofun h
  | c :: cs => by
    have ih := spanDigits_append_tail h cs
    rw [Text.spanDigits, Text.spanDigits, Prod.mk.injEq] at ih
    rw [Text.spanDigits, Text.spanDigits, List.cons_append]
    by_cases hc : c.isDigit = true
    · simp only [List.takeWhile_cons_of_pos hc, List.dropWhile_cons_of_pos hc, ih.1, ih.2]
    · simp only [List.takeWhile_cons_of_neg hc, List.dropWhile_cons_of_neg hc, List.cons_append]

variable {digits : List Char}

theorem wholePart?_append (htail : NoNumberNext tail) (h : wholePart? cs = some (digits, rest)) :
    wholePart? (cs ++ tail) = some (digits, rest ++ tail) := by
  rw [wholePart?] at h ⊢
  rw [spanDigits_append_tail htail.noDigitNext]
  generalize Text.spanDigits cs = found at h ⊢
  obtain ⟨ds, r⟩ := found
  dsimp only at h ⊢
  split at h
  · cases h
  · cases h
  · rename_i hnil hzero heq
    cases h
    cases heq
    split
    · rename_i heq
      cases heq
      exact (hnil rfl).elim
    · rename_i heq
      cases heq
      exact (hzero _ _ rfl).elim
    · rename_i heq
      cases heq
      rfl

theorem fractionPart?_append (htail : NoNumberNext tail)
    (h : fractionPart? cs = some (digits, rest)) :
    fractionPart? (cs ++ tail) = some (digits, rest ++ tail) := by
  cases cs with
  | nil =>
    cases h
    exact fractionPart?_none htail
  | cons c cs =>
    by_cases hpoint : c = '.'
    · subst hpoint
      rw [fractionPart?] at h
      rw [List.cons_append, fractionPart?, spanDigits_append_tail htail.noDigitNext]
      generalize Text.spanDigits cs = found at h ⊢
      obtain ⟨_ | ⟨d, ds⟩, r⟩ := found
      · cases h
      · cases h
        rfl
    · rw [fractionPart?] at h
      · cases h
        rw [List.cons_append, fractionPart?]
        exact fun _ heq => hpoint (List.cons.inj heq).1
      · exact fun _ heq => hpoint (List.cons.inj heq).1

/-- The sign of a power of ten, its digits, and what follows them. -/
def signedDigits : List Char → Bool × List Char × List Char
  | '-' :: cs => (true, Text.spanDigits cs)
  | '+' :: cs => (false, Text.spanDigits cs)
  | cs => (false, Text.spanDigits cs)

theorem powerPart?_cons (c : Char) (cs : List Char) : powerPart? (c :: cs) =
    if c = 'e' || c = 'E' then
      if (signedDigits cs).2.1 = [] then none
      else
        some (some (if (signedDigits cs).1
            then -(min (Text.digitsValue (signedDigits cs).2.1) 999999999 : Int)
            else (min (Text.digitsValue (signedDigits cs).2.1) 999999999 : Int)),
          (signedDigits cs).2.2)
    else some (none, c :: cs) := rfl

theorem signedDigits_append (htail : Text.NoDigitNext tail) (h : (signedDigits cs).2.1 ≠ []) :
    signedDigits (cs ++ tail) =
      ((signedDigits cs).1, (signedDigits cs).2.1, (signedDigits cs).2.2 ++ tail) := by
  have hspan := spanDigits_append_tail htail
  unfold signedDigits at h ⊢
  split at h
  · simp only [List.cons_append, hspan]
  · simp only [List.cons_append, hspan]
  · rename_i hminus hplus
    cases cs with
    | nil => exact absurd rfl h
    | cons c cs =>
      split
      · exact (hminus _ (congrArg (· :: cs) (List.cons.inj ‹_›).1)).elim
      · exact (hplus _ (congrArg (· :: cs) (List.cons.inj ‹_›).1)).elim
      · rw [hspan]

theorem powerPart?_append {power : Option Int} (htail : NoNumberNext tail)
    (h : powerPart? cs = some (power, rest)) :
    powerPart? (cs ++ tail) = some (power, rest ++ tail) := by
  cases cs with
  | nil =>
    cases h
    exact powerPart?_none htail
  | cons c cs =>
    rw [powerPart?_cons] at h
    rw [List.cons_append, powerPart?_cons]
    by_cases hpower : (c = 'e' || c = 'E') = true
    · rw [if_pos hpower] at h ⊢
      split at h
      · cases h
      · rename_i hdigits
        cases h
        rw [signedDigits_append htail.noDigitNext hdigits]
        exact if_neg hdigits
    · rw [if_neg hpower] at h ⊢
      cases h
      rfl

/-- **A number is read up to what does not continue it.** -/
theorem number?_append {negative : Bool} {j : Json} (htail : NoNumberNext tail)
    (h : number? negative cs = some (j, rest)) :
    number? negative (cs ++ tail) = some (j, rest ++ tail) := by
  simp only [number?, Option.bind_eq_bind, Option.bind_eq_some_iff] at h ⊢
  obtain ⟨⟨whole, r⟩, hwhole, ⟨fraction, r'⟩, hfraction, ⟨power, r''⟩, hpower, hvalue⟩ := h
  refine ⟨_, wholePart?_append htail hwhole, _, fractionPart?_append htail hfraction, _,
    powerPart?_append htail hpower, ?_⟩
  cases hvalue
  rfl

/-! ## 3. Values

A value ends with its last part. -/

theorem word?_append {j value : Json} : ∀ {word cs : List Char},
    word? word value cs = some (j, rest) → word? word value (cs ++ tail) = some (j, rest ++ tail)
  | [], _, h => by
    cases h
    rfl
  | w :: ws, c :: cs, h => by
    rw [word?] at h
    rw [List.cons_append, word?]
    split at h
    · rename_i heq
      rw [if_pos heq, word?_append h]
    · cases h

theorem skipSpace_append (h : skipSpace cs ≠ []) :
    skipSpace (cs ++ tail) = skipSpace cs ++ tail := by
  unfold skipSpace at h ⊢
  rw [List.dropWhile_append, if_neg (by simpa using h)]

theorem skipSpace_append_cons {r : List Char} (h : skipSpace cs = c :: r) :
    skipSpace (cs ++ tail) = c :: (r ++ tail) := by
  rw [skipSpace_append (by simp [h]), h, List.cons_append]

/-- A quoted text in front. -/
theorem quotedBody_append {s : Option String}
    (h : textBody? (cs.length + 1) false [] cs = some (s, rest)) :
    textBody? ((cs ++ tail).length + 1) false [] (cs ++ tail) = some (s, rest ++ tail) := by
  rw [List.length_append, Nat.add_right_comm]
  exact textBody?_append tail.length h

/-- What begins with nothing else is a number. -/
theorem value?_other {fuel : Nat} (hspace : isSpace c = false)
    (h : c ∉ ['"', '[', '\x7b', 'n', 't', 'f', '-']) (r : List Char) :
    value? (fuel + 1) (c :: r) = number? false (c :: r) := by
  simp only [List.mem_cons, List.not_mem_nil, or_false, not_or] at h
  obtain ⟨hquote, hbracket, hbrace, hn, ht, hf, hminus⟩ := h
  unfold value?
  rw [skipSpace_of_not hspace]
  split
  · exact absurd ‹_› (List.cons_ne_nil c r)
  · exact absurd (List.cons.inj ‹_›).1 hquote
  · exact absurd (List.cons.inj ‹_›).1 hbracket
  · exact absurd (List.cons.inj ‹_›).1 hbrace
  · exact absurd (List.cons.inj ‹_›).1 hn
  · exact absurd (List.cons.inj ‹_›).1 ht
  · exact absurd (List.cons.inj ‹_›).1 hf
  · exact absurd (List.cons.inj ‹_›).1 hminus
  · rfl

theorem isSpace_of_skipSpace (h : skipSpace cs = c :: rest) : isSpace c = false := by
  have hhead := List.head?_dropWhile_not isSpace cs
  rw [show cs.dropWhile isSpace = c :: rest from h] at hhead
  exact hhead

theorem value?_front {fuel : Nat} {j : Json} (h : value? fuel cs = some (j, rest)) :
    skipSpace cs ≠ [] := by
  intro hnil
  rw [← value?_skipSpace, hnil] at h
  cases fuel <;> cases h

theorem items?_front {fuel : Nat} {items : List Json} (h : items? fuel cs = some (items, rest)) :
    skipSpace cs ≠ [] := by
  obtain _ | fuel := fuel
  · cases h
  · unfold items? at h
    split at h
    · cases h
    · rename_i hvalue
      exact value?_front hvalue

theorem fields?_front {fuel : Nat} {fields : List (Option String × Json)}
    (h : fields? fuel cs = some (fields, rest)) : skipSpace cs ≠ [] := by
  intro hnil
  rw [← fields?_skipSpace, hnil] at h
  cases fuel <;> cases h

/-- What does not open a list or a record at once does not do so with more behind it. -/
theorem skipSpace_append_ne {d : Char} (hfront : skipSpace cs ≠ [])
    (h : ∀ r, skipSpace cs = d :: r → False) (r : List Char) : skipSpace (cs ++ tail) ≠ d :: r := by
  intro heq
  rw [skipSpace_append hfront] at heq
  obtain ⟨c, r', hcs⟩ := List.exists_cons_of_ne_nil hfront
  rw [hcs, List.cons_append] at heq
  exact h r' ((List.cons.inj heq).1 ▸ hcs)

mutual

/-- **A value is read as before with more behind it.** -/
theorem value?_append : ∀ {fuel : Nat} {cs rest : List Char} {j : Json} (more : Nat),
    NoNumberNext tail → value? fuel cs = some (j, rest) →
      value? (fuel + more) (cs ++ tail) = some (j, rest ++ tail)
  | fuel + 1, cs, rest, j, more, htail, h => by
    rw [Nat.add_right_comm, ← value?_skipSpace _ (cs ++ tail), skipSpace_append (value?_front h)]
    unfold value? at h
    split at h
    · cases h
    · rename_i r heq
      -- a text goes up to its quotation mark, whatever follows
      obtain ⟨⟨s, r'⟩, hbody, hvalue⟩ := Option.map_eq_some_iff.mp h
      cases hvalue
      rw [heq, List.cons_append, value?_quote, quotedBody_append hbody]
      rfl
    · rename_i r heq
      rw [heq, List.cons_append]
      split at h
      · rename_i hclosed
        cases h
        -- an empty list; the bracket that closes it is already there
        rw [value?_bracket, skipSpace_append_cons hclosed]
        rfl
      · rename_i hopen
        -- the list is not empty, and more behind it does not close it earlier
        obtain ⟨⟨items, r'⟩, hitems, hvalue⟩ := Option.map_eq_some_iff.mp h
        cases hvalue
        rw [items?_skipSpace] at hitems
        rw [value?_list (skipSpace_append_ne (items?_front hitems) hopen),
          items?_append more htail hitems]
        rfl
    · rename_i r heq
      rw [heq, List.cons_append]
      split at h
      · rename_i hclosed
        cases h
        rw [value?_brace, skipSpace_append_cons hclosed]
        rfl
      · rename_i hopen
        obtain ⟨⟨fields, r'⟩, hfields, hvalue⟩ := Option.map_eq_some_iff.mp h
        cases hvalue
        rw [fields?_skipSpace] at hfields
        rw [value?_record (skipSpace_append_ne (fields?_front hfields) hopen),
          fields?_append more htail hfields]
        rfl
    · rename_i r heq
      rw [heq, List.cons_append]
      exact word?_append h
    · rename_i r heq
      rw [heq, List.cons_append]
      exact word?_append h
    · rename_i r heq
      rw [heq, List.cons_append]
      exact word?_append h
    · rename_i r heq
      rw [heq, List.cons_append, value?_minus]
      exact number?_append htail h
    · rename_i hnil hquote hbracket hbrace hn ht hf hminus
      obtain ⟨c, r, heq⟩ := List.exists_cons_of_ne_nil hnil
      -- a number: the only value that goes on as long as it can, so that what follows matters
      have hother : c ∉ ['"', '[', '\x7b', 'n', 't', 'f', '-'] := by
        simp only [List.mem_cons, List.not_mem_nil, or_false]
        rintro (rfl | rfl | rfl | rfl | rfl | rfl | rfl)
        · exact hquote _ heq
        · exact hbracket _ heq
        · exact hbrace _ heq
        · exact hn _ heq
        · exact ht _ heq
        · exact hf _ heq
        · exact hminus _ heq
      rw [heq, List.cons_append, value?_other (isSpace_of_skipSpace heq) hother]
      exact number?_append htail (heq ▸ h)
termination_by structural fuel => fuel

/-- Items are read as before. -/
theorem items?_append : ∀ {fuel : Nat} {cs rest : List Char} {items : List Json} (more : Nat),
    NoNumberNext tail → items? fuel cs = some (items, rest) →
      items? (fuel + more) (cs ++ tail) = some (items, rest ++ tail)
  | fuel + 1, cs, rest, items, more, htail, h => by
    rw [Nat.add_right_comm]
    unfold items? at h ⊢
    split at h
    · cases h
    · rename_i item r hvalue
      rw [value?_append more htail hvalue]
      split at h
      · rename_i hclosed
        cases h
        simp only [skipSpace_append_cons hclosed]
      · rename_i hnext
        obtain ⟨⟨items', r'⟩, hitems, hall⟩ := Option.map_eq_some_iff.mp h
        cases hall
        simp only [skipSpace_append_cons hnext, items?_append more htail hitems, Option.map_some]
      · cases h
termination_by structural fuel => fuel

/-- Fields are read as before. -/
theorem fields?_append : ∀ {fuel : Nat} {cs rest : List Char}
    {fields : List (Option String × Json)} (more : Nat),
    NoNumberNext tail → fields? fuel cs = some (fields, rest) →
      fields? (fuel + more) (cs ++ tail) = some (fields, rest ++ tail)
  | fuel + 1, cs, rest, fields, more, htail, h => by
    rw [Nat.add_right_comm]
    unfold fields? at h
    split at h
    · rename_i r hquote
      split at h
      · cases h
      · rename_i key r' hbody
        split at h
        · rename_i r'' hcolon
          split at h
          · cases h
          · rename_i value rv hvalue
            have hread := value?_append more htail hvalue
            split at h
            · rename_i hclosed
              cases h
              simp only [fields?, skipSpace_append_cons hquote, quotedBody_append hbody,
                skipSpace_append_cons hcolon, hread, skipSpace_append_cons hclosed]
            · rename_i hnext
              obtain ⟨⟨fields', rf⟩, hfields, hall⟩ := Option.map_eq_some_iff.mp h
              cases hall
              simp only [fields?, skipSpace_append_cons hquote, quotedBody_append hbody,
                skipSpace_append_cons hcolon, hread, skipSpace_append_cons hnext,
                fields?_append more htail hfields, Option.map_some]
            · cases h
        · cases h
    · cases h
termination_by structural fuel => fuel

end

/-! ## 4. A value in a record

The text of a value can be put in a record, and is read there as it is by itself. -/

theorem readChars?_eq_some {j : Json} (h : readChars? cs = some j) :
    ∃ rest, value? (cs.length + 1) cs = some (j, rest) ∧ rest.all isSpace = true := by
  unfold readChars? at h
  split at h
  · rename_i value rest hvalue
    split at h
    · rename_i hrest
      cases h
      exact ⟨rest, hvalue, hrest⟩
    · cases h
  · cases h

/-- **The text of a value may stand in the last field of a record**: it is read as that value. -/
theorem fields?_embedded {j : Json} (h : readChars? cs = some j) (k : String) (more : Nat) :
    fields? (cs.length + 1 + more + 1) (quoted k ++ ':' :: (cs ++ ['\x7d'])) =
      some ([(some k, j)], []) := by
  obtain ⟨rest, hvalue, hrest⟩ := readChars?_eq_some h
  have hclosed : skipSpace (rest ++ ['\x7d']) = ['\x7d'] := by
    rw [skipSpace, List.dropWhile_append_of_pos (by simpa using hrest)]
    exact skipSpace_of_not rfl
  exact fields?_last (value?_append more (noNumberNext_cons.mpr (by decide)) hvalue) hclosed

end Json
end Foreman

/-
# A written value is read back

A value over several lines is read as that value: blanks stand only where the reader passes them,
every text is escaped so that its end is the first bare quote, and a number is followed by
something that is no part of a number.

Numbers that are no integers of 64 bits are left out, because their text does not say with which
power of ten they were written; so are texts that cannot be read.

* `textBody?_escaped`: the characters of a text, up to its closing quote.
* `number?_toDigits`: the digits of an integer.
* `value?_pretty`: a value, with anything behind it that does not go on with its number.
* `read?_pretty`: a whole text.
-/
import Foreman.Json.Reader
import Foreman.Json.Writer
import Foreman.Proofs.Text.Digits

namespace Foreman
namespace Json

variable {fuel : Nat} {acc rest : List Char} {c d : Char}

/-! ## 1. Texts

Every character is written so that it is read back and ends no text. -/

theorem textBody?_short (hshort : shortEscape? d = some c) :
    textBody? (fuel + 1) false acc ('\\' :: d :: rest) = textBody? fuel false (c :: acc) rest := by
  have hd : d ≠ 'u' := by
    rintro rfl
    cases hshort
  rw [textBody?]
  · rw [hshort]
  · exact hd

theorem textBody?_plain (hquote : c ≠ '"') (hslash : c ≠ '\\') (hcontrol : ¬ c.toNat < 0x20) :
    textBody? (fuel + 1) false acc (c :: rest) = textBody? fuel false (c :: acc) rest := by
  rw [textBody?]
  · rw [if_neg (by simp [hcontrol, hslash])]
  · exact hquote
  · exact fun _ heq _ => hslash heq
  · exact fun _ _ heq _ => hslash heq

theorem hexValue?_hexDigit (n : Nat) : hexValue? (hexDigit n) = some (n % 16) := by
  have hall : ∀ d : Fin 16, hexValue? (Nat.digitChar d) = some d.val := by decide
  exact hall ⟨n % 16, Nat.mod_lt _ (by decide)⟩

/-- A control character is written by its number. -/
theorem textBody?_control (h : c.toNat < 0x20) :
    textBody? (fuel + 1) false acc
        ('\\' :: 'u' :: '0' :: '0' :: hexDigit (c.toNat / 16) :: hexDigit c.toNat :: rest) =
      textBody? fuel false (c :: acc) rest := by
  have hzero : hexValue? '0' = some 0 := rfl
  have hvalue : ((0 * 16 + 0) * 16 + c.toNat / 16 % 16) * 16 + c.toNat % 16 = c.toNat := by omega
  have hunit : hexUnit? ('0' :: '0' :: hexDigit (c.toNat / 16) :: hexDigit c.toNat :: rest) =
      some (c.toNat, rest) := by
    simp only [hexUnit?, hzero, hexValue?_hexDigit, Option.bind_eq_bind, Option.bind_some, hvalue]
    rfl
  rw [textBody?, hunit]
  dsimp only
  rw [if_neg (by omega), if_neg (by omega), Char.ofNat_toNat]

/-- The characters with an escape of one letter, and that letter. -/
def shortEscapes : List (Char × Char) :=
  [('"', '"'), ('\\', '\\'), ('\x08', 'b'), ('\x0c', 'f'), ('\n', 'n'), ('\r', 'r'), ('\t', 't')]

/-- A character has an escape of one letter, an escape by its number, or none. -/
theorem escapeChar_cases (c : Char) :
    (∃ d, shortEscape? d = some c ∧ escapeChar c = ['\\', d]) ∨
      (c.toNat < 0x20 ∧ escapeChar c =
        ['\\', 'u', '0', '0', hexDigit (c.toNat / 16), hexDigit c.toNat]) ∨
      (c ≠ '"' ∧ c ≠ '\\' ∧ ¬ c.toNat < 0x20 ∧ escapeChar c = [c]) := by
  by_cases hshort : ∃ e ∈ shortEscapes, e.1 = c
  · have hall : ∀ e ∈ shortEscapes, shortEscape? e.2 = some e.1 ∧ escapeChar e.1 = ['\\', e.2] := by
      decide
    obtain ⟨e, he, rfl⟩ := hshort
    exact Or.inl ⟨e.2, hall e he⟩
  · simp only [shortEscapes, List.mem_cons, List.not_mem_nil, or_false, exists_eq_or_imp,
      exists_eq_left, not_or] at hshort
    obtain ⟨hquote, hslash, hb, hf, hn, hr, ht⟩ := hshort
    rw [escapeChar, if_neg (Ne.symm hquote), if_neg (Ne.symm hslash), if_neg (Ne.symm hb),
      if_neg (Ne.symm hf), if_neg (Ne.symm hn), if_neg (Ne.symm hr), if_neg (Ne.symm ht)]
    by_cases hcontrol : c.toNat < 0x20
    · exact Or.inr (Or.inl ⟨hcontrol, if_pos hcontrol⟩)
    · exact Or.inr (Or.inr ⟨Ne.symm hquote, Ne.symm hslash, hcontrol, if_neg hcontrol⟩)

/-- **An escaped character is read as that character.** -/
theorem textBody?_escapeChar (fuel : Nat) (acc : List Char) (c : Char) (rest : List Char) :
    textBody? (fuel + 1) false acc (escapeChar c ++ rest) =
      textBody? fuel false (c :: acc) rest := by
  rcases escapeChar_cases c with ⟨d, hshort, heq⟩ | ⟨hcontrol, heq⟩ | ⟨hquote, hslash, hplain, heq⟩
  · rw [heq]
    exact textBody?_short hshort
  · rw [heq]
    exact textBody?_control hcontrol
  · rw [heq]
    exact textBody?_plain hquote hslash hplain

/-- **The characters of a text are read up to its closing quote.** -/
theorem textBody?_escaped (rest : List Char) : ∀ (cs : List Char) {fuel : Nat} (acc : List Char),
    cs.length < fuel →
      textBody? fuel false acc (cs.flatMap escapeChar ++ '"' :: rest) =
        some (some (String.ofList (acc.reverse ++ cs)), rest)
  | [], fuel + 1, acc, _ => by simp [textBody?]
  | c :: cs, fuel + 1, acc, h => by
    rw [List.flatMap_cons, List.append_assoc, textBody?_escapeChar,
      textBody?_escaped rest cs (c :: acc) (Nat.lt_of_succ_lt_succ h), List.reverse_cons,
      List.append_assoc, List.singleton_append]

theorem length_le_flatMap_escapeChar : ∀ cs : List Char,
    cs.length ≤ (cs.flatMap escapeChar).length
  | [] => Nat.le_refl _
  | c :: cs => by
    have hc : 1 ≤ (escapeChar c).length := by
      rcases escapeChar_cases c with ⟨d, -, heq⟩ | ⟨-, heq⟩ | ⟨-, -, -, heq⟩ <;> simp [heq]
    have ih := length_le_flatMap_escapeChar cs
    rw [List.flatMap_cons, List.length_append, List.length_cons]
    omega

/-- What stands behind the opening quote of a text. -/
theorem textBody?_quoted (s : String) (rest : List Char) :
    ∃ r, quoted s ++ rest = '"' :: r ∧
      textBody? (r.length + 1) false [] r = some (some s, rest) := by
  refine ⟨s.toList.flatMap escapeChar ++ '"' :: rest, by simp [quoted], ?_⟩
  have hfuel := length_le_flatMap_escapeChar s.toList
  rw [textBody?_escaped rest s.toList [] (by rw [List.length_append]; omega), List.reverse_nil,
    List.nil_append, String.ofList_toList]

/-! ## 2. Numbers

The digits of an integer, with its sign. -/

/-- What follows does not go on with a number. -/
def NoNumberNext (rest : List Char) : Prop :=
  ∀ c ∈ rest.head?, c.isDigit = false ∧ c ≠ '.' ∧ c ≠ 'e' ∧ c ≠ 'E'

theorem noNumberNext_nil : NoNumberNext [] := nofun

theorem noNumberNext_cons :
    NoNumberNext (c :: rest) ↔ c.isDigit = false ∧ c ≠ '.' ∧ c ≠ 'e' ∧ c ≠ 'E' := by
  simp [NoNumberNext]

theorem NoNumberNext.noDigitNext (h : NoNumberNext rest) : Text.NoDigitNext rest :=
  fun c hc => (h c hc).1

theorem wholePart?_toDigits (n : Nat) (h : NoNumberNext rest) :
    wholePart? (Nat.toDigits 10 n ++ rest) = some (Nat.toDigits 10 n, rest) := by
  rw [wholePart?, Text.spanDigits_append (fun c => Text.isDigit_of_mem_toDigits) h.noDigitNext]
  split
  · rename_i heq
    exact absurd (congrArg Prod.fst heq) Nat.toDigits_ne_nil
  · rename_i heq
    exact absurd (congrArg Prod.fst heq) (Text.toDigits_ne_zero_cons n _ _)
  · rename_i heq
    cases heq
    rfl

theorem fractionPart?_none (h : NoNumberNext rest) : fractionPart? rest = some ([], rest) := by
  unfold fractionPart?
  split
  · exact absurd rfl (noNumberNext_cons.mp h).2.1
  · rfl

theorem powerPart?_none (h : NoNumberNext rest) : powerPart? rest = some (none, rest) := by
  cases rest with
  | nil => rfl
  | cons c cs =>
    obtain ⟨-, -, hlower, hupper⟩ := noNumberNext_cons.mp h
    exact if_neg (by simp [hlower, hupper])

/-- **The digits of an integer are read as that integer**, where it is one of 64 bits. -/
theorem number?_toDigits (h : NoNumberNext rest) {n : Nat} (hn : n < Text.bound64) :
    number? false (Nat.toDigits 10 n ++ rest) = some (.integer n, rest) := by
  simp only [number?, wholePart?_toDigits n h, fractionPart?_none h, powerPart?_none h,
    Option.bind_eq_bind, Option.bind_some, Text.digitsValue_toDigits]
  simp [hn]

theorem number?_neg_toDigits (h : NoNumberNext rest) {n : Nat} (hpos : 0 < n)
    (hn : n ≤ Text.half64) :
    number? true (Nat.toDigits 10 n ++ rest) = some (.integer (-(n : Int)), rest) := by
  simp only [number?, wholePart?_toDigits n h, fractionPart?_none h, powerPart?_none h,
    Option.bind_eq_bind, Option.bind_some, Text.digitsValue_toDigits]
  simp [hpos, hn]

/-! ## 3. Blanks

What stands between the parts of a value. -/

theorem skipSpace_of_not (h : isSpace c = false) : skipSpace (c :: rest) = c :: rest :=
  List.dropWhile_cons_of_neg (by simp [h])

theorem skipSpace_newline (level : Nat) (rest : List Char) :
    skipSpace (newline level ++ rest) = skipSpace rest := by
  refine List.dropWhile_append_of_pos fun c hc => ?_
  rcases List.mem_cons.mp hc with rfl | hc
  · rfl
  · rw [List.eq_of_mem_replicate hc]
    rfl

theorem skipSpace_skipSpace : ∀ cs : List Char, skipSpace (skipSpace cs) = skipSpace cs
  | [] => rfl
  | c :: cs => by
    by_cases hc : isSpace c = true
    · have hdrop : skipSpace (c :: cs) = skipSpace cs := List.dropWhile_cons_of_pos hc
      rw [hdrop, skipSpace_skipSpace cs]
    · rw [skipSpace_of_not (Bool.not_eq_true _ ▸ hc), skipSpace_of_not (Bool.not_eq_true _ ▸ hc)]

/-- Blanks in front of a value, of items and of fields do not count. -/
theorem value?_skipSpace (fuel : Nat) (cs : List Char) :
    value? fuel (skipSpace cs) = value? fuel cs := by
  cases fuel with
  | zero => rfl
  | succ fuel => rw [value?, value?, skipSpace_skipSpace]

theorem items?_skipSpace (fuel : Nat) (cs : List Char) :
    items? fuel (skipSpace cs) = items? fuel cs := by
  cases fuel with
  | zero => rfl
  | succ fuel => rw [items?, items?, value?_skipSpace]

theorem fields?_skipSpace (fuel : Nat) (cs : List Char) :
    fields? fuel (skipSpace cs) = fields? fuel cs := by
  cases fuel with
  | zero => rfl
  | succ fuel => rw [fields?, fields?, skipSpace_skipSpace]

theorem value?_newline (fuel level : Nat) (cs : List Char) :
    value? fuel (newline level ++ cs) = value? fuel cs := by
  rw [← value?_skipSpace, skipSpace_newline, value?_skipSpace]

theorem fields?_newline (fuel level : Nat) (cs : List Char) :
    fields? fuel (newline level ++ cs) = fields? fuel cs := by
  rw [← fields?_skipSpace, skipSpace_newline, fields?_skipSpace]

theorem value?_blank (fuel : Nat) (cs : List Char) : value? fuel (' ' :: cs) = value? fuel cs := by
  rw [← value?_skipSpace, ← value?_skipSpace fuel cs]
  rfl

/-! ## 4. One value

What is asked of the parts of a value, and what follows for the value. -/

/-- Nothing of the value is lost in its text: a number is an integer of 64 bits, and a text names
characters only. -/
inductive IsExact : Json → Prop where
  | null : IsExact .null
  | bool (b : Bool) : IsExact (.bool b)
  | integer {n : Int} (hlow : -(Text.half64 : Int) ≤ n) (hhigh : n < Text.bound64) :
    IsExact (.integer n)
  | text (s : String) : IsExact (.text s)
  | list {items : List Json} (h : ∀ j ∈ items, IsExact j) : IsExact (.list items)
  | record {fields : List (String × Json)} (h : ∀ f ∈ fields, IsExact f.2) :
    IsExact (.record fields)

variable {level : Nat} {r : List Char}

/-! The first character says what kind of value it is. -/

theorem value?_quote (r : List Char) :
    value? (fuel + 1) ('"' :: r) =
      (textBody? (r.length + 1) false [] r).map fun (s, rest) =>
        (match s with
          | some s => .text s
          | none => .unreadable, rest) := rfl

theorem value?_minus (r : List Char) : value? (fuel + 1) ('-' :: r) = number? true r := rfl

theorem value?_digit (h : c.isDigit = true) (r : List Char) :
    value? (fuel + 1) (c :: r) = number? false (c :: r) := by
  have hall : ∀ d : Fin 10, Char.ofNat (48 + d) ∈
      ['0', '1', '2', '3', '4', '5', '6', '7', '8', '9'] := by decide
  have hrange := Text.isDigit_range h
  have hc := hall ⟨c.toNat - 48, by omega⟩
  dsimp only at hc
  rw [Nat.add_sub_cancel' hrange.1, Char.ofNat_toNat] at hc
  simp only [List.mem_cons, List.not_mem_nil, or_false] at hc
  rcases hc with rfl | rfl | rfl | rfl | rfl | rfl | rfl | rfl | rfl | rfl <;> rfl

theorem value?_bracket (r : List Char) :
    value? (fuel + 1) ('[' :: r) =
      match skipSpace r with
      | ']' :: rest => some (.list [], rest)
      | r => (items? fuel r).map fun (items, rest) => (.list items, rest) := rfl

theorem value?_brace (r : List Char) :
    value? (fuel + 1) ('\x7b' :: r) =
      match skipSpace r with
      | '\x7d' :: rest => some (.record [], rest)
      | r => (fields? fuel r).map fun (fields, rest) => (ofFields fields, rest) := rfl

/-! So each value is found where it was written. -/

theorem value?_quoted (fuel : Nat) (s : String) (rest : List Char) :
    value? (fuel + 1) (quoted s ++ rest) = some (.text s, rest) := by
  obtain ⟨r, hr, hbody⟩ := textBody?_quoted s rest
  rw [hr, value?_quote, hbody, Option.map_some]

theorem value?_integer {n : Int} (hlow : -(Text.half64 : Int) ≤ n) (hhigh : n < Text.bound64)
    (hrest : NoNumberNext rest) (fuel : Nat) :
    value? (fuel + 1) ((toString n).toList ++ rest) = some (.integer n, rest) := by
  rcases Int.lt_or_le n 0 with hneg | hpos
  · obtain ⟨m, rfl⟩ : ∃ m : Nat, n = -(m : Int) := ⟨n.natAbs, by omega⟩
    rw [Text.toString_neg_toList (by omega), List.cons_append, value?_minus,
      number?_neg_toDigits hrest (by omega) (by omega)]
  · obtain ⟨m, rfl⟩ := Int.eq_ofNat_of_zero_le hpos
    rw [Text.toString_natCast_toList, ← number?_toDigits hrest (by omega)]
    obtain ⟨c, cs, hfront, hc⟩ := Text.toDigits_front m
    rw [hfront]
    exact value?_digit hc _

/-- A list whose closing bracket does not follow at once has items. -/
theorem value?_list (h : ∀ rest, skipSpace r ≠ ']' :: rest) :
    value? (fuel + 1) ('[' :: r) =
      (items? fuel r).map fun (items, rest) => (.list items, rest) := by
  rw [value?_bracket]
  split
  · exact absurd ‹_› (h _)
  · rw [items?_skipSpace]

theorem value?_record (h : ∀ rest, skipSpace r ≠ '\x7d' :: rest) :
    value? (fuel + 1) ('\x7b' :: r) =
      (fields? fuel r).map fun (fields, rest) => (ofFields fields, rest) := by
  rw [value?_brace]
  split
  · exact absurd ‹_› (h _)
  · rw [fields?_skipSpace]

/-! ## 5. Lists and records

Parts with commas between them. -/

theorem prettyChars_list (level : Nat) (j : Json) (items : List Json) :
    prettyChars level (.list (j :: items)) =
      '[' :: prettyItems (level + 1) (j :: items) ++ newline level ++ [']'] := rfl

theorem prettyChars_record (level : Nat) (f : String × Json) (fields : List (String × Json)) :
    prettyChars level (.record (f :: fields)) =
      '\x7b' :: prettyFields (level + 1) (f :: fields) ++ newline level ++ ['\x7d'] := rfl

theorem prettyItems_cons (level : Nat) (j k : Json) (items : List Json) :
    prettyItems level (j :: k :: items) =
      newline level ++ prettyChars level j ++ ',' :: prettyItems level (k :: items) := rfl

theorem prettyFields_cons (level : Nat) (k : String) (j : Json) (f : String × Json)
    (fields : List (String × Json)) :
    prettyFields level ((k, j) :: f :: fields) =
      newline level ++ quoted k ++ ':' :: ' ' :: prettyChars level j ++
        ',' :: prettyFields level (f :: fields) := rfl

/-- A written value begins with a character that is no blank and closes no list. -/
theorem prettyChars_front {j : Json} (h : IsExact j) (level : Nat) :
    ∃ c cs, prettyChars level j = c :: cs ∧ isSpace c = false ∧ c ≠ ']' := by
  cases h with
  | null => exact ⟨_, _, rfl, by decide⟩
  | bool b => cases b <;> exact ⟨_, _, rfl, by decide⟩
  | @integer n =>
    rw [prettyChars]
    rcases Int.lt_or_le n 0 with hneg | hpos
    · obtain ⟨m, rfl⟩ : ∃ m : Nat, n = -(m : Int) := ⟨n.natAbs, by omega⟩
      exact ⟨_, _, Text.toString_neg_toList (by omega), by decide⟩
    · obtain ⟨m, rfl⟩ := Int.eq_ofNat_of_zero_le hpos
      obtain ⟨c, cs, hfront, hc⟩ := Text.toDigits_front m
      rw [Text.toString_natCast_toList]
      refine ⟨c, cs, hfront, ?_, Text.ne_of_isDigit hc rfl⟩
      simp [isSpace, Text.ne_of_isDigit hc]
  | text s => exact ⟨_, _, rfl, by decide⟩
  | @list items => cases items <;> exact ⟨_, _, rfl, by decide⟩
  | @record fields => cases fields <;> exact ⟨_, _, rfl, by decide⟩

/-- No list with items is closed at once. -/
theorem prettyItems_front {j : Json} (h : IsExact j) (items : List Json) (level : Nat)
    (after rest : List Char) :
    skipSpace (prettyItems level (j :: items) ++ after) ≠ ']' :: rest := by
  obtain ⟨c, cs, hfront, hspace, hne⟩ := prettyChars_front h level
  have hitems : ∃ tail, prettyItems level (j :: items) = newline level ++ c :: tail := by
    cases items with
    | nil => exact ⟨cs, by rw [← hfront]; rfl⟩
    | cons k items =>
      exact ⟨cs ++ ',' :: prettyItems level (k :: items), by simp [prettyItems_cons, hfront]⟩
  obtain ⟨tail, htail⟩ := hitems
  rw [htail, List.append_assoc, skipSpace_newline, List.cons_append, skipSpace_of_not hspace]
  exact fun heq => hne (List.cons.inj heq).1

theorem prettyFields_front (f : String × Json) (fields : List (String × Json)) (level : Nat)
    (after rest : List Char) :
    skipSpace (prettyFields level (f :: fields) ++ after) ≠ '\x7d' :: rest := by
  have hfields : ∃ tail, prettyFields level (f :: fields) = newline level ++ '"' :: tail := by
    cases fields with
    | nil => exact ⟨_, List.append_assoc _ _ _⟩
    | cons g fields =>
      exact ⟨_, (List.append_assoc _ _ _).trans ((List.append_assoc _ _ _).trans rfl)⟩
  obtain ⟨tail, htail⟩ := hfields
  rw [htail, List.append_assoc, skipSpace_newline, List.cons_append, skipSpace_of_not rfl]
  exact fun heq => absurd (List.cons.inj heq).1 (by decide)

theorem noNumberNext_newline (level : Nat) (rest : List Char) :
    NoNumberNext (newline level ++ rest) :=
  noNumberNext_cons.mpr (by decide)

/-- The last item of a list. -/
theorem items?_last {j : Json} {cs : List Char} {outer : Nat}
    (h : value? fuel cs = some (j, newline outer ++ ']' :: rest)) :
    items? (fuel + 1) cs = some ([j], rest) := by
  simp [items?, h, skipSpace_newline, skipSpace_of_not (c := ']') rfl]

/-- An item with others behind it. -/
theorem items?_more {j : Json} {cs : List Char} (h : value? fuel cs = some (j, ',' :: r)) :
    items? (fuel + 1) cs = (items? fuel r).map fun (items, rest) => (j :: items, rest) := by
  simp [items?, h, skipSpace_of_not (c := ',') rfl]

/-- The last field of a record. -/
theorem fields?_last {k : String} {j : Json} {r' : List Char} (h : value? fuel r = some (j, r'))
    (hclosed : skipSpace r' = '\x7d' :: rest) :
    fields? (fuel + 1) (quoted k ++ ':' :: r) = some ([(some k, j)], rest) := by
  obtain ⟨body, hbody, htext⟩ := textBody?_quoted k (':' :: r)
  rw [fields?, hbody, skipSpace_of_not rfl]
  simp [htext, h, hclosed, skipSpace_of_not (c := ':') rfl]

/-- A field with others behind it. -/
theorem fields?_more {k : String} {j : Json} {r' r'' : List Char}
    (h : value? fuel r = some (j, r')) (hnext : skipSpace r' = ',' :: r'') :
    fields? (fuel + 1) (quoted k ++ ':' :: r) =
      (fields? fuel r'').map fun (fields, rest) => ((some k, j) :: fields, rest) := by
  obtain ⟨body, hbody, htext⟩ := textBody?_quoted k (':' :: r)
  rw [fields?, hbody, skipSpace_of_not rfl]
  simp [htext, h, hnext, skipSpace_of_not (c := ':') rfl]

theorem ofFields_named (fields : List (String × Json)) :
    ofFields (fields.map fun f => (some f.1, f.2)) = .record fields := by
  have hnames : (fields.map fun f => (some f.1, f.2)).mapM
      (fun (e : Option String × Json) => e.1.map (·, e.2)) = some fields := by
    induction fields with
    | nil => rfl
    | cons f fields ih => simp [ih]
  rw [ofFields]
  simp only [hnames]

/-! The induction is on the count: each step of reading takes one from it and at least one
character from the text, so what is left is enough for the rest of the text. -/

mutual

/-- **A value is read where it was written.** -/
theorem value?_pretty : ∀ {j : Json} {level fuel : Nat} {rest : List Char}, IsExact j →
    NoNumberNext rest → (prettyChars level j).length < fuel →
      value? fuel (prettyChars level j ++ rest) = some (j, rest)
  | .null, _, fuel + 1, _, _, _, _ => rfl
  | .bool true, _, fuel + 1, _, _, _, _ => rfl
  | .bool false, _, fuel + 1, _, _, _, _ => rfl
  | .integer n, _, fuel + 1, _, .integer hlow hhigh, hrest, _ => by
    rw [prettyChars]
    exact value?_integer hlow hhigh hrest fuel
  | .text s, _, fuel + 1, rest, _, _, _ => by
    rw [prettyChars]
    exact value?_quoted fuel s rest
  | .list [], _, fuel + 1, _, _, _, _ => rfl
  | .record [], _, fuel + 1, _, _, _, _ => rfl
  | .list (j :: items), level, fuel + 1, rest, .list hitems, _, hfuel => by
    have hlength : (prettyItems (level + 1) (j :: items)).length < fuel := by
      rw [prettyChars_list] at hfuel
      simp only [List.length_append, List.length_cons] at hfuel
      omega
    have hj : IsExact j := hitems j List.mem_cons_self
    -- between the bracket and the first item is a new line, which no closing bracket follows
    rw [prettyChars_list, List.append_assoc, List.append_assoc, List.cons_append,
      List.singleton_append, value?_list (prettyItems_front hj items _ _), ← List.append_assoc,
      items?_pretty rest hitems hlength]
    rfl
  | .record (f :: fields), level, fuel + 1, rest, .record hfields, _, hfuel => by
    have hlength : (prettyFields (level + 1) (f :: fields)).length < fuel := by
      rw [prettyChars_record] at hfuel
      simp only [List.length_append, List.length_cons] at hfuel
      omega
    rw [prettyChars_record, List.append_assoc, List.append_assoc, List.cons_append,
      List.singleton_append, value?_record (prettyFields_front f fields _ _), ← List.append_assoc,
      fields?_pretty rest hfields hlength, Option.map_some]
    dsimp only
    rw [ofFields_named]
termination_by structural _ _ fuel => fuel

/-- Items are read up to the bracket that closes their list. -/
theorem items?_pretty : ∀ {j : Json} {items : List Json} {level outer fuel : Nat}
    (rest : List Char), (∀ i ∈ j :: items, IsExact i) →
      (prettyItems level (j :: items)).length < fuel →
        items? fuel (prettyItems level (j :: items) ++ newline outer ++ ']' :: rest) =
          some (j :: items, rest)
  | j, [], level, outer, fuel + 1, rest, hitems, hfuel => by
    have hlength : (prettyChars level j).length < fuel := by
      simp only [prettyItems, newline, List.length_append, List.length_cons] at hfuel
      omega
    have hvalue : value? fuel (prettyItems level [j] ++ newline outer ++ ']' :: rest) =
        some (j, newline outer ++ ']' :: rest) := by
      rw [prettyItems, List.append_assoc, List.append_assoc, value?_newline]
      -- a new line stands behind the last item, so a number there has ended
      exact value?_pretty (hitems j List.mem_cons_self) (noNumberNext_newline _ _) hlength
    exact items?_last hvalue
  | j, k :: items, level, outer, fuel + 1, rest, hitems, hfuel => by
    have hlength : (prettyChars level j).length < fuel ∧
        (prettyItems level (k :: items)).length < fuel := by
      rw [prettyItems_cons] at hfuel
      simp only [newline, List.length_append, List.length_cons] at hfuel
      omega
    have hvalue :
        value? fuel (prettyItems level (j :: k :: items) ++ newline outer ++ ']' :: rest) =
        some (j, ',' :: (prettyItems level (k :: items) ++ newline outer ++ ']' :: rest)) := by
      simp only [prettyItems_cons, List.append_assoc, List.cons_append, value?_newline]
      exact value?_pretty (hitems j List.mem_cons_self) (noNumberNext_cons.mpr (by decide))
        hlength.1
    rw [items?_more hvalue,
      items?_pretty rest (fun i hi => hitems i (List.mem_cons_of_mem _ hi)) hlength.2]
    rfl
termination_by structural _ _ _ _ fuel => fuel

/-- Fields are read up to the brace that closes their record. -/
theorem fields?_pretty : ∀ {f : String × Json} {fields : List (String × Json)}
    {level outer fuel : Nat} (rest : List Char), (∀ e ∈ f :: fields, IsExact e.2) →
      (prettyFields level (f :: fields)).length < fuel →
        fields? fuel (prettyFields level (f :: fields) ++ newline outer ++ '\x7d' :: rest) =
          some ((f :: fields).map fun e => (some e.1, e.2), rest)
  | (k, j), [], level, outer, fuel + 1, rest, hfields, hfuel => by
    have hlength : (prettyChars level j).length < fuel := by
      simp only [prettyFields, newline, List.length_append, List.length_cons] at hfuel
      omega
    have hvalue : value? fuel (' ' :: prettyChars level j ++ newline outer ++ '\x7d' :: rest) =
        some (j, newline outer ++ '\x7d' :: rest) := by
      rw [List.append_assoc, List.cons_append, value?_blank]
      exact value?_pretty (hfields _ List.mem_cons_self) (noNumberNext_newline _ _) hlength
    have htext : prettyFields level [(k, j)] ++ newline outer ++ '\x7d' :: rest =
        newline level ++ (quoted k ++
          ':' :: (' ' :: prettyChars level j ++ newline outer ++ '\x7d' :: rest)) := by
      simp [prettyFields]
    have hclosed : skipSpace (newline outer ++ '\x7d' :: rest) = '\x7d' :: rest := by
      rw [skipSpace_newline, skipSpace_of_not rfl]
    rw [htext, fields?_newline, fields?_last hvalue hclosed]
    rfl
  | (k, j), f :: fields, level, outer, fuel + 1, rest, hfields, hfuel => by
    have hlength : (prettyChars level j).length < fuel ∧
        (prettyFields level (f :: fields)).length < fuel := by
      rw [prettyFields_cons] at hfuel
      simp only [newline, List.length_append, List.length_cons] at hfuel
      omega
    have hvalue : value? fuel (' ' :: prettyChars level j ++
          ',' :: (prettyFields level (f :: fields) ++ newline outer ++ '\x7d' :: rest)) =
        some (j, ',' :: (prettyFields level (f :: fields) ++ newline outer ++ '\x7d' :: rest)) := by
      rw [List.cons_append, value?_blank]
      exact value?_pretty (hfields _ List.mem_cons_self) (noNumberNext_cons.mpr (by decide))
        hlength.1
    have htext : prettyFields level ((k, j) :: f :: fields) ++ newline outer ++ '\x7d' :: rest =
        newline level ++ (quoted k ++ ':' :: (' ' :: prettyChars level j ++
          ',' :: (prettyFields level (f :: fields) ++ newline outer ++ '\x7d' :: rest))) := by
      simp [prettyFields_cons]
    rw [htext, fields?_newline, fields?_more hvalue (skipSpace_of_not rfl),
      fields?_pretty rest (fun e he => hfields e (List.mem_cons_of_mem _ he)) hlength.2]
    rfl
termination_by structural _ _ _ _ fuel => fuel

end

/-! ## 6. A whole text

Nothing stands behind the value but a line feed. -/

/-- **A value over several lines is read back.** -/
theorem read?_pretty {j : Json} (h : IsExact j) : read? j.pretty = some j := by
  have hvalue : value? ((prettyChars 0 j).length + 1) (prettyChars 0 j ++ []) = some (j, []) :=
    value?_pretty h noNumberNext_nil (Nat.lt_succ_self _)
  rw [List.append_nil] at hvalue
  rw [read?, pretty, String.toList_ofList, readChars?]
  simp only [hvalue]
  rfl

/-! ## 7. A record of texts on one line

The line with which an agent gives its result. -/

/-- Fields that are texts. -/
def textFields (fields : List (String × String)) : List (String × Json) :=
  fields.map fun e => (e.1, .text e.2)

theorem compactFields_cons (k v : String) (e : String × String)
    (fields : List (String × String)) : compactFields (textFields ((k, v) :: e :: fields)) =
      quoted k ++ ':' :: (quoted v ++ ',' :: compactFields (textFields (e :: fields))) := by
  simp [textFields, compactFields, compactChars]

/-- Fields on one line are read up to the brace that closes their record. -/
theorem fields?_compactFields (rest : List Char) : ∀ {e : String × String}
    {fields : List (String × String)} {fuel : Nat}, fields.length + 1 < fuel →
      fields? fuel (compactFields (textFields (e :: fields)) ++ rest) =
        some ((textFields (e :: fields)).map fun f => (some f.1, f.2), rest)
  | (k, v), [], fuel + 2, _ => by
    have htext : compactFields (textFields [(k, v)]) ++ rest =
        quoted k ++ ':' :: (quoted v ++ '\x7d' :: rest) := by
      simp [textFields, compactFields, compactChars]
    rw [htext, fields?_last (value?_quoted fuel v _) (skipSpace_of_not rfl)]
    rfl
  | (k, v), e :: fields, fuel + 2, hfuel => by
    have hlength : fields.length + 1 < fuel + 1 := Nat.lt_of_succ_lt_succ hfuel
    simp only [compactFields_cons, List.append_assoc, List.cons_append]
    rw [fields?_more (value?_quoted fuel v _) (skipSpace_of_not rfl),
      fields?_compactFields rest hlength]
    rfl

theorem length_lt_compactFields : ∀ fields : List (String × String),
    fields.length < (compactFields (textFields fields)).length
  | [] => by decide
  | [(k, v)] => by
    simp only [textFields, List.map_cons, List.map_nil, compactFields, List.length_append,
      List.length_cons, List.length_nil]
    omega
  | (k, v) :: e :: fields => by
    have ih := length_lt_compactFields (e :: fields)
    rw [compactFields_cons]
    simp only [List.length_append, List.length_cons] at ih ⊢
    omega

/-- **A record of texts on one line is read back.** -/
theorem read?_compact_texts (e : String × String) (fields : List (String × String)) :
    read? (record (textFields (e :: fields))).compact =
      some (record (textFields (e :: fields))) := by
  obtain ⟨k, v⟩ := e
  have hfront : ∀ rest,
      skipSpace (compactFields (textFields ((k, v) :: fields))) ≠ '\x7d' :: rest := by
    have hquote : ∃ r, compactFields (textFields ((k, v) :: fields)) = '"' :: r := by
      cases fields with
      | nil => exact ⟨_, rfl⟩
      | cons e fields => exact ⟨_, compactFields_cons k v e fields⟩
    obtain ⟨r, hr⟩ := hquote
    rw [hr, skipSpace_of_not rfl]
    exact fun rest heq => absurd (List.cons.inj heq).1 (by decide)
  have hfields := fields?_compactFields [] (e := (k, v))
    (Nat.lt_succ_of_lt (length_lt_compactFields ((k, v) :: fields)))
  rw [List.append_nil] at hfields
  rw [read?, compact, String.toList_ofList, compactChars, readChars?, List.length_cons,
    value?_record hfront, hfields, Option.map_some]
  dsimp only
  rw [ofFields_named]
  rfl

theorem lineFeed_notMem_quoted (s : String) : '\n' ∉ quoted s := by
  have hdigit : ∀ n, hexDigit n ≠ '\n' := by
    have hall : ∀ d : Fin 16, Nat.digitChar d ≠ '\n' := by decide
    exact fun n => hall ⟨n % 16, Nat.mod_lt _ (by decide)⟩
  have hescape : ∀ c, '\n' ∉ escapeChar c := by
    intro c
    rcases escapeChar_cases c with ⟨d, hshort, heq⟩ | ⟨-, heq⟩ | ⟨-, -, hplain, heq⟩
    · have hd : d ≠ '\n' := by
        rintro rfl
        cases hshort
      simp [heq, Ne.symm hd]
    · simp [heq, Ne.symm (hdigit _)]
    · have hc : c ≠ '\n' := by
        rintro rfl
        exact hplain (by decide)
      simp [heq, Ne.symm hc]
  simp [quoted, hescape]

theorem lineFeed_notMem_compactFields : ∀ fields : List (String × String),
    '\n' ∉ compactFields (textFields fields)
  | [] => by decide
  | [(k, v)] => by simp [textFields, compactFields, compactChars, lineFeed_notMem_quoted]
  | (k, v) :: e :: fields => by
    rw [compactFields_cons]
    simp [lineFeed_notMem_quoted, lineFeed_notMem_compactFields (e :: fields)]

end Json
end Foreman

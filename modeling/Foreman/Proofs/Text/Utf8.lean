/-
# Text as bytes and back

A character is written in one to four bytes, and the first byte tells how many they are.  So the
bytes of a text are cut where its characters end, whatever the characters are.

* `front_one` to `front_four`: the first byte and those behind it give back the number.
* `chunks_encodeChar`: the bytes of a character are read as that character.
* `decode?_encode`: the bytes of a text are read as that text.
* `encodeChar_of_front`: a character is found in front only where its own bytes stand.
* `decode?_eq_some_iff`: no other bytes are read as that text.
-/
import Foreman.Text.Utf8

namespace Foreman
namespace Utf8

variable {n : Nat}

/-! ## 1. The character in front

By the four lengths. -/

theorem isTail_of_lt (h : n < 64) : isTail (0x80 + n) = true := by
  simp [isTail]
  omega

theorem front_one (h : n < 0x80) (rest : List Nat) : front n rest = (some (Char.ofNat n), 1) :=
  if_pos h

theorem front_two (hlow : 0x80 ≤ n) (h : n < 0x800) (rest : List Nat) :
    front (0xC0 + n / 64) ((0x80 + n % 64) :: rest) = (some (Char.ofNat n), 2) := by
  have hvalue : (0xC0 + n / 64 - 0xC0) * 64 + (0x80 + n % 64 - 0x80) = n := by omega
  rw [front, if_neg (by omega), if_pos (by simp; omega),
    if_pos (isTail_of_lt (Nat.mod_lt _ (by decide))), hvalue]

/-- The shortest form is the only one, and no half of a surrogate pair is written. -/
theorem isSecondOfThree_of_range (hlow : 0x800 ≤ n) (h : n < 0x10000)
    (hpair : n < 0xD800 ∨ 0xDFFF < n) :
    isSecondOfThree (0xE0 + n / 4096) (0x80 + n / 64 % 64) = true := by
  unfold isSecondOfThree
  split
  · simp
    omega
  · split
    · simp
      omega
    · exact isTail_of_lt (Nat.mod_lt _ (by decide))

theorem front_three (hlow : 0x800 ≤ n) (h : n < 0x10000) (hpair : n < 0xD800 ∨ 0xDFFF < n)
    (rest : List Nat) :
    front (0xE0 + n / 4096) ((0x80 + n / 64 % 64) :: (0x80 + n % 64) :: rest) =
      (some (Char.ofNat n), 3) := by
  have hvalue : (0xE0 + n / 4096 - 0xE0) * 4096 + (0x80 + n / 64 % 64 - 0x80) * 64 +
      (0x80 + n % 64 - 0x80) = n := by omega
  rw [front, if_neg (by omega), if_neg (by simp; omega), if_pos (by simp; omega)]
  dsimp only
  rw [isSecondOfThree_of_range hlow h hpair, if_neg (by decide),
    if_pos (isTail_of_lt (Nat.mod_lt _ (by decide))), hvalue]

theorem isSecondOfFour_of_range (hlow : 0x10000 ≤ n) (h : n < 0x110000) :
    isSecondOfFour (0xF0 + n / 262144) (0x80 + n / 4096 % 64) = true := by
  unfold isSecondOfFour
  split
  · simp
    omega
  · split
    · simp
      omega
    · exact isTail_of_lt (Nat.mod_lt _ (by decide))

theorem front_four (hlow : 0x10000 ≤ n) (h : n < 0x110000) (rest : List Nat) :
    front (0xF0 + n / 262144)
        ((0x80 + n / 4096 % 64) :: (0x80 + n / 64 % 64) :: (0x80 + n % 64) :: rest) =
      (some (Char.ofNat n), 4) := by
  have hvalue : (0xF0 + n / 262144 - 0xF0) * 262144 + (0x80 + n / 4096 % 64 - 0x80) * 4096 +
      (0x80 + n / 64 % 64 - 0x80) * 64 + (0x80 + n % 64 - 0x80) = n := by omega
  rw [front, if_neg (by omega), if_neg (by simp; omega), if_neg (by simp; omega),
    if_pos (by simp; omega)]
  dsimp only
  rw [isSecondOfFour_of_range hlow h, if_neg (by decide),
    isTail_of_lt (n := n / 64 % 64) (Nat.mod_lt _ (by decide)), if_neg (by decide),
    if_pos (isTail_of_lt (Nat.mod_lt _ (by decide))), hvalue]

/-! ## 2. Texts

Character by character. -/

theorem toNat_byte (h : n < 256) : (UInt8.ofNat n).toNat = n :=
  UInt8.toNat_ofNat_of_lt h

/-- The bytes of a character are read as that character, if its number is found in them. -/
theorem chunks_append {b : UInt8} {c : Char} {tail : List UInt8} (htail : tail.length ≤ 3)
    (hfront : ∀ rest, front b.toNat (tail.map UInt8.toNat ++ rest) = (some c, tail.length + 1))
    (rest : List UInt8) : chunks 0 (b :: tail ++ rest) = some c :: chunks 0 rest := by
  have hskip : ∀ tail : List UInt8, chunks tail.length (tail ++ rest) = chunks 0 rest := by
    intro tail
    induction tail with
    | nil => rfl
    | cons _ tail ih => exact ih
  rw [List.cons_append, chunks, List.take_append, List.take_of_length_le htail, List.map_append,
    hfront]
  exact congrArg _ (hskip tail)

/-- **The bytes of a character are read as that character.** -/
theorem chunks_encodeChar (c : Char) (rest : List UInt8) :
    chunks 0 (encodeChar c ++ rest) = some c :: chunks 0 rest := by
  -- a character is no half of a surrogate pair
  have hrange : c.toNat < 0xD800 ∨ 0xDFFF < c.toNat ∧ c.toNat < 0x110000 := c.valid
  unfold encodeChar
  dsimp only
  split
  · refine chunks_append (by simp) (fun rest => ?_) rest
    rw [toNat_byte (by omega), front_one (by omega), Char.ofNat_toNat]
    rfl
  · split
    · refine chunks_append (by simp) (fun rest => ?_) rest
      simp only [List.map_cons, List.map_nil, List.cons_append, List.nil_append]
      rw [toNat_byte (by omega), toNat_byte (by omega), front_two (by omega) (by omega),
        Char.ofNat_toNat]
      rfl
    · split
      · refine chunks_append (by simp) (fun rest => ?_) rest
        simp only [List.map_cons, List.map_nil, List.cons_append, List.nil_append]
        rw [toNat_byte (by omega), toNat_byte (by omega), toNat_byte (by omega),
          front_three (by omega) (by omega) (by omega), Char.ofNat_toNat]
        rfl
      · refine chunks_append (by simp) (fun rest => ?_) rest
        simp only [List.map_cons, List.map_nil, List.cons_append, List.nil_append]
        rw [toNat_byte (by omega), toNat_byte (by omega), toNat_byte (by omega),
          toNat_byte (by omega), front_four (by omega) (by omega), Char.ofNat_toNat]
        rfl

theorem chunks_encode (cs : List Char) : chunks 0 (encode cs) = cs.map some := by
  induction cs with
  | nil => rfl
  | cons c cs ih => rw [encode, List.flatMap_cons, chunks_encodeChar, ← encode, ih, List.map_cons]

/-- **The bytes of a text are read as that text.** -/
theorem decode?_encode (cs : List Char) : decode? (encode cs) = some cs := by
  rw [decode?, chunks_encode, List.mapM_map]
  exact (List.mapM_pure (m := Option) (f := id)).trans (congrArg some (List.map_id cs))

theorem encode_append (cs ds : List Char) : encode (cs ++ ds) = encode cs ++ encode ds :=
  List.flatMap_append

theorem encodeChar_ne_nil (c : Char) : encodeChar c ≠ [] := by
  unfold encodeChar
  dsimp only
  repeat' split
  all_goals simp

theorem encode_eq_nil_iff {cs : List Char} : encode cs = [] ↔ cs = [] := by
  rw [encode, List.flatMap_eq_nil_iff, List.eq_nil_iff_forall_not_mem]
  exact forall_congr' fun c => ⟨fun h hc => encodeChar_ne_nil c (h hc), fun h hc => absurd hc h⟩

/-- **A byte below 128 stands for itself only.** -/
theorem toNat_eq_of_mem_encodeChar {b : UInt8} {c : Char} (hb : b.toNat < 0x80)
    (h : b ∈ encodeChar c) : c.toNat = b.toNat := by
  have hrange : c.toNat < 0xD800 ∨ 0xDFFF < c.toNat ∧ c.toNat < 0x110000 := c.valid
  have hhigh : ∀ k, 0x80 ≤ k → k < 256 → b ≠ UInt8.ofNat k := by
    rintro k hlow hk rfl
    rw [toNat_byte hk] at hb
    omega
  unfold encodeChar at h
  dsimp only at h
  split at h
  · rw [List.mem_singleton] at h
    rw [h, toNat_byte (by omega)]
  · exfalso
    split at h
    · simp only [List.mem_cons, List.not_mem_nil, or_false] at h
      rcases h with h | h <;> exact hhigh _ (by omega) (by omega) h
    · split at h <;> simp only [List.mem_cons, List.not_mem_nil, or_false] at h
      · rcases h with h | h | h <;> exact hhigh _ (by omega) (by omega) h
      · rcases h with h | h | h | h <;> exact hhigh _ (by omega) (by omega) h

/-! ## 3. Bytes

The other way round: what is found in front are the bytes of a character in their only form, as
longer forms and halves of surrogate pairs are refused. -/

theorem toNat_ofNat (h : n < 0xD800 ∨ 0xDFFF < n ∧ n < 0x110000) : (Char.ofNat n).toNat = n := by
  have hvalid : n.isValidChar := h
  rw [Char.ofNat, dif_pos hvalid]
  rfl

/-- The bytes of the character with a number, as numbers. -/
theorem encodeChar_one (h : n < 0x80) : (encodeChar (Char.ofNat n)).map UInt8.toNat = [n] := by
  rw [encodeChar, toNat_ofNat (by omega), if_pos h, List.map_singleton, toNat_byte (by omega)]

theorem encodeChar_two {a b : Nat} (ha : 0xC2 ≤ a ∧ a ≤ 0xDF) (hb : 0x80 ≤ b ∧ b ≤ 0xBF) :
    (encodeChar (Char.ofNat ((a - 0xC0) * 64 + (b - 0x80)))).map UInt8.toNat = [a, b] := by
  rw [encodeChar, toNat_ofNat (by omega), if_neg (by omega), if_pos (by omega)]
  simp only [List.map_cons, List.map_nil]
  rw [toNat_byte (by omega), toNat_byte (by omega)]
  simp only [List.cons.injEq, and_true]
  omega

theorem isTail_iff {b : Nat} : isTail b = true ↔ 0x80 ≤ b ∧ b ≤ 0xBF := by
  simp [isTail]

theorem isSecondOfThree_range {a b : Nat} (ha : 0xE0 ≤ a ∧ a ≤ 0xEF)
    (h : isSecondOfThree a b = true) : 0x80 ≤ b ∧ b ≤ 0xBF ∧
      0x800 ≤ (a - 0xE0) * 4096 + (b - 0x80) * 64 ∧
      ((a - 0xE0) * 4096 + (b - 0x80) * 64 + 63 < 0xD800 ∨
        0xDFFF < (a - 0xE0) * 4096 + (b - 0x80) * 64) := by
  unfold isSecondOfThree at h
  split at h
  · simp at h
    omega
  · split at h
    · simp at h
      omega
    · rw [isTail_iff] at h
      omega

theorem encodeChar_three {a b c : Nat} (ha : 0xE0 ≤ a ∧ a ≤ 0xEF)
    (hb : isSecondOfThree a b = true) (hc : 0x80 ≤ c ∧ c ≤ 0xBF) :
    (encodeChar (Char.ofNat ((a - 0xE0) * 4096 + (b - 0x80) * 64 + (c - 0x80)))).map UInt8.toNat =
      [a, b, c] := by
  have hrange := isSecondOfThree_range ha hb
  rw [encodeChar, toNat_ofNat (by omega), if_neg (by omega), if_neg (by omega), if_pos (by omega)]
  simp only [List.map_cons, List.map_nil]
  rw [toNat_byte (by omega), toNat_byte (by omega), toNat_byte (by omega)]
  simp only [List.cons.injEq, and_true]
  omega

theorem isSecondOfFour_range {a b : Nat} (ha : 0xF0 ≤ a ∧ a ≤ 0xF4)
    (h : isSecondOfFour a b = true) : 0x80 ≤ b ∧ b ≤ 0xBF ∧
      0x10000 ≤ (a - 0xF0) * 262144 + (b - 0x80) * 4096 ∧
      (a - 0xF0) * 262144 + (b - 0x80) * 4096 + 4095 < 0x110000 := by
  unfold isSecondOfFour at h
  split at h
  · simp at h
    omega
  · split at h
    · simp at h
      omega
    · rw [isTail_iff] at h
      omega

theorem encodeChar_four {a b c d : Nat} (ha : 0xF0 ≤ a ∧ a ≤ 0xF4)
    (hb : isSecondOfFour a b = true) (hc : 0x80 ≤ c ∧ c ≤ 0xBF) (hd : 0x80 ≤ d ∧ d ≤ 0xBF) :
    (encodeChar (Char.ofNat ((a - 0xF0) * 262144 + (b - 0x80) * 4096 + (c - 0x80) * 64 +
      (d - 0x80)))).map UInt8.toNat = [a, b, c, d] := by
  have hrange := isSecondOfFour_range ha hb
  rw [encodeChar, toNat_ofNat (by omega), if_neg (by omega), if_neg (by omega), if_neg (by omega)]
  simp only [List.map_cons, List.map_nil]
  rw [toNat_byte (by omega), toNat_byte (by omega), toNat_byte (by omega), toNat_byte (by omega)]
  simp only [List.cons.injEq, and_true]
  omega

theorem found_inj {c d : Char} {m k : Nat} (h : (some c, m) = (some d, k)) : c = d ∧ m = k :=
  ⟨Option.some.inj (Prod.mk.inj h).1, (Prod.mk.inj h).2⟩

/-- **A character that is found in front stands there with its own bytes.** -/
theorem encodeChar_of_front {a size : Nat} {rest : List Nat} {c : Char}
    (h : front a rest = (some c, size)) :
    ∃ tail more, rest = tail ++ more ∧ size = tail.length + 1 ∧
      (encodeChar c).map UInt8.toNat = a :: tail := by
  unfold front at h
  split at h
  · cases h
    exact ⟨[], rest, rfl, rfl, encodeChar_one ‹_›⟩
  split at h
  · rename_i ha
    simp only [Bool.and_eq_true, decide_eq_true_eq] at ha
    split at h
    · rename_i b more
      split at h
      · obtain ⟨rfl, rfl⟩ := found_inj h
        exact ⟨[b], more, rfl, rfl, encodeChar_two ha (isTail_iff.mp ‹_›)⟩
      · cases h
    · cases h
  split at h
  · rename_i ha
    simp only [Bool.and_eq_true, decide_eq_true_eq] at ha
    split at h
    · rename_i b d more
      split at h
      · cases h
      split at h
      · rename_i hb hd
        obtain ⟨rfl, rfl⟩ := found_inj h
        exact ⟨[b, d], more, rfl, rfl, encodeChar_three ha (by simpa using hb) (isTail_iff.mp hd)⟩
      · cases h
    · split at h <;> cases h
    · cases h
  split at h
  · rename_i ha
    simp only [Bool.and_eq_true, decide_eq_true_eq] at ha
    split at h
    · rename_i b d e more
      split at h
      · cases h
      split at h
      · cases h
      split at h
      · rename_i hb hd he
        obtain ⟨rfl, rfl⟩ := found_inj h
        exact ⟨[b, d, e], more, rfl, rfl, encodeChar_four ha (by simpa using hb)
          (isTail_iff.mp (by simpa using hd)) (isTail_iff.mp he)⟩
      · cases h
    · split at h
      · cases h
      · split at h <;> cases h
    · split at h <;> cases h
    · cases h
  · cases h

theorem chunks_skip : ∀ (tail rest : List UInt8), chunks tail.length (tail ++ rest) = chunks 0 rest
  | [], _ => rfl
  | _ :: tail, rest => chunks_skip tail rest

/-- Where the first chunk is a character, the bytes begin with its bytes. -/
theorem eq_append_of_chunks {bytes : List UInt8} {c : Char} {more : List (Option Char)}
    (h : chunks 0 bytes = some c :: more) :
    ∃ rest, bytes = encodeChar c ++ rest ∧ chunks 0 rest = more := by
  cases bytes with
  | nil => cases h
  | cons b rest =>
    rw [chunks] at h
    generalize hfound : front b.toNat ((rest.take 3).map UInt8.toNat) = found at h
    obtain ⟨o, size⟩ := found
    obtain ⟨rfl, rfl⟩ := List.cons.inj h
    obtain ⟨tail, left, hnext, rfl, hchar⟩ := encodeChar_of_front hfound
    obtain ⟨front, back, htake, rfl, -⟩ := List.map_eq_append_iff.mp hnext
    have hrest : rest = front ++ (back ++ rest.drop 3) := by
      rw [← List.append_assoc, ← htake, List.take_append_drop]
    have hbytes : encodeChar c = b :: front :=
      (List.map_inj_right fun _ _ => UInt8.toNat_inj.mp).mp hchar
    have hskip := chunks_skip front (back ++ rest.drop 3)
    rw [← hrest] at hskip
    refine ⟨back ++ rest.drop 3, ?_, ?_⟩
    · rw [hbytes, List.cons_append, ← hrest]
    · rw [List.length_map, Nat.add_sub_cancel, hskip]

/-- **Bytes are UTF-8 exactly if they are those of the text that is read from them.** -/
theorem decode?_eq_some_iff {bytes : List UInt8} {cs : List Char} :
    decode? bytes = some cs ↔ encode cs = bytes := by
  refine ⟨fun h => ?_, fun h => by rw [← h, decode?_encode]⟩
  rw [decode?] at h
  generalize hchunks : chunks 0 bytes = found at h
  induction found generalizing bytes cs with
  | nil =>
    cases h
    cases bytes with
    | nil => rfl
    | cons b rest => cases hchunks
  | cons o found ih =>
    rw [List.mapM_cons] at h
    cases o with
    | none => cases h
    | some c =>
      obtain ⟨rest, rfl, hrest⟩ := eq_append_of_chunks hchunks
      cases hds : found.mapM id with
      | none =>
        rw [hds] at h
        cases h
      | some ds =>
        rw [hds] at h
        cases h
        rw [encode, List.flatMap_cons, ← encode, ih hrest hds]

end Utf8
end Foreman

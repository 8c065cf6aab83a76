/-
# The reason that is kept of a failure

The last line of an agent's error output may be of any length and in any script, and of the reason
that names it at most 500 bytes are kept.  A character has up to four bytes, so the limit may fall
into one.  The search for the end of a character goes back from the limit byte by byte; among four
bytes in a row one starts a character, so it is over after three steps at most.

* `isBoundary_iff`: a boundary is where some first characters end.
* `boundaryBefore_eq`: the search ends where the characters end that fit.
* `exists_search`: it goes back by three bytes at most.
* `lastLine?_eq_some_iff`: what the last line is.
* `failure_reason_cut`: the reason is the front of the whole one, cut where a character ends.
-/
import Foreman.Agent.Exit
import Foreman.Proofs.Text.Utf8
import Mathlib.Data.List.Infix

namespace Foreman.Agent

variable {cs front rest : List Char} {limit n : Nat}

/-! ## 1. Bytes

Counts of bytes, by characters. -/

theorem length_encodeChar (c : Char) : (Utf8.encodeChar c).length = c.utf8Size := by
  have hle : ∀ n : UInt32, c.val ≤ n ↔ c.toNat ≤ n.toNat := fun _ => UInt32.le_iff_toNat_le
  unfold Utf8.encodeChar Char.utf8Size
  simp only [hle]
  split_ifs <;> simp_all <;> omega

/-- **The bytes of a text are as many as those of its characters.** -/
theorem length_encode (cs : List Char) : (Utf8.encode cs).length = byteCount cs := by
  induction cs with
  | nil => rfl
  | cons c cs ih =>
    rw [Utf8.encode, List.flatMap_cons, List.length_append, length_encodeChar, ← Utf8.encode, ih,
      byteCount]

theorem byteCount_append (cs ds : List Char) :
    byteCount (cs ++ ds) = byteCount cs + byteCount ds := by
  rw [← length_encode, Utf8.encode_append, List.length_append, length_encode, length_encode]

/-! ## 2. Boundaries

Where a character ends, another one starts, or the text is over. -/

/-- **A boundary is where some first characters end.** -/
theorem isBoundary_iff : isBoundary cs n = true ↔ ∃ front, front <+: cs ∧ byteCount front = n := by
  induction cs generalizing n with
  | nil =>
    cases n with
    | zero => simp [isBoundary, byteCount]
    | succ n => simp [isBoundary, byteCount]
  | cons c cs ih =>
    have hsize : 0 < c.utf8Size := c.utf8Size_pos
    cases n with
    | zero => simpa [isBoundary] using ⟨[], List.nil_prefix, rfl⟩
    | succ n =>
      rw [isBoundary]
      constructor
      · intro h
        split at h
        · cases h
        · obtain ⟨front, hfront, hcount⟩ := ih.mp h
          refine ⟨c :: front, List.cons_prefix_cons.mpr ⟨rfl, hfront⟩, ?_⟩
          rw [byteCount]
          omega
      · rintro ⟨front, hfront, hcount⟩
        cases front with
        | nil => cases hcount
        | cons d front =>
          obtain ⟨rfl, htail⟩ := List.cons_prefix_cons.mp hfront
          rw [byteCount] at hcount
          rw [if_neg (by omega)]
          exact ih.mpr ⟨front, htail, by omega⟩

/-! ## 3. The characters that fit

The longest front of the text within the limit. -/

theorem takeBytes_isPrefix (limit : Nat) (cs : List Char) : takeBytes limit cs <+: cs := by
  induction cs generalizing limit with
  | nil => exact List.prefix_rfl
  | cons c cs ih =>
    rw [takeBytes]
    split
    · exact List.cons_prefix_cons.mpr ⟨rfl, ih _⟩
    · exact List.nil_prefix

theorem byteCount_takeBytes_le (limit : Nat) (cs : List Char) :
    byteCount (takeBytes limit cs) ≤ limit := by
  induction cs generalizing limit with
  | nil => exact Nat.zero_le _
  | cons c cs ih =>
    rw [takeBytes]
    split
    · have hrest := ih (limit - c.utf8Size)
      rw [byteCount]
      omega
    · exact Nat.zero_le _

/-- First characters that end within the limit are among those that fit. -/
theorem prefix_takeBytes (hfront : front <+: cs) (hcount : byteCount front ≤ limit) :
    front <+: takeBytes limit cs := by
  induction cs generalizing front limit with
  | nil => exact hfront
  | cons c cs ih =>
    cases front with
    | nil => exact List.nil_prefix
    | cons d front =>
      obtain ⟨rfl, htail⟩ := List.cons_prefix_cons.mp hfront
      rw [byteCount] at hcount
      rw [takeBytes, if_pos (by omega)]
      exact List.cons_prefix_cons.mpr ⟨rfl, ih htail (by omega)⟩

/-- What does not fit any more is one character, so no four bytes are left free. -/
theorem lt_byteCount_takeBytes (h : limit ≤ byteCount cs) :
    limit < byteCount (takeBytes limit cs) + 4 := by
  induction cs generalizing limit with
  | nil =>
    rw [byteCount] at h
    omega
  | cons c cs ih =>
    have hsize : c.utf8Size ≤ 4 := c.utf8Size_le_four
    rw [byteCount] at h
    rw [takeBytes]
    split
    · have hrest : limit - c.utf8Size < byteCount (takeBytes (limit - c.utf8Size) cs) + 4 :=
        ih (by omega)
      rw [byteCount]
      omega
    · omega

/-! ## 4. The search

It goes back from the limit, byte by byte. -/

theorem boundaryBefore_le (cs : List Char) (n : Nat) : boundaryBefore cs n ≤ n := by
  induction n with
  | zero => exact Nat.le_refl _
  | succ n ih =>
    rw [boundaryBefore]
    split
    · exact Nat.le_refl _
    · exact Nat.le_succ_of_le ih

theorem isBoundary_boundaryBefore (cs : List Char) (n : Nat) :
    isBoundary cs (boundaryBefore cs n) = true := by
  induction n with
  | zero => rw [boundaryBefore, isBoundary]
  | succ n ih =>
    rw [boundaryBefore]
    split
    · assumption
    · exact ih

/-- Where the search has passed there is no boundary. -/
theorem isBoundary_of_boundaryBefore_lt (hlt : boundaryBefore cs n < limit) (hle : limit ≤ n) :
    isBoundary cs limit = false := by
  induction n with
  | zero => omega
  | succ n ih =>
    rw [boundaryBefore] at hlt
    split at hlt
    · omega
    · rename_i hno
      rcases Nat.lt_or_eq_of_le hle with h | rfl
      · exact ih hlt (by omega)
      · exact Bool.eq_false_iff.mpr hno

/-- **The characters that fit end where the search does.** -/
theorem boundaryBefore_eq (cs : List Char) (limit : Nat) :
    boundaryBefore cs limit = byteCount (takeBytes limit cs) := by
  obtain ⟨front, hfront, hcount⟩ := isBoundary_iff.mp (isBoundary_boundaryBefore cs limit)
  refine Nat.le_antisymm ?_ (Nat.le_of_not_lt fun hlt => ?_)
  · obtain ⟨tail, htail⟩ := prefix_takeBytes hfront (hcount ▸ boundaryBefore_le cs limit)
    rw [← hcount, ← htail, byteCount_append]
    exact Nat.le_add_right _ _
  · have hpassed := isBoundary_of_boundaryBefore_lt hlt (byteCount_takeBytes_le limit cs)
    exact Bool.eq_false_iff.mp hpassed
      (isBoundary_iff.mpr ⟨_, takeBytes_isPrefix limit cs, rfl⟩)

/-- What is taken up to a boundary ends there. -/
theorem byteCount_takeBytes (h : isBoundary cs n = true) : byteCount (takeBytes n cs) = n := by
  obtain ⟨front, hfront, rfl⟩ := isBoundary_iff.mp h
  refine Nat.le_antisymm (byteCount_takeBytes_le _ _) ?_
  obtain ⟨tail, htail⟩ := prefix_takeBytes hfront (Nat.le_refl _)
  rw [← htail, byteCount_append]
  exact Nat.le_add_right _ _

/-- The search for a boundary goes back from the limit by some steps: it passes what is none, each
time with a byte in front of it to go to, and ends at a boundary. -/
structure Search (cs : List Char) (limit steps : Nat) : Prop where
  room : steps ≤ limit
  passes : ∀ k < steps, isBoundary cs (limit - k) = false
  ends : isBoundary cs (limit - steps) = true

/-- **The search goes back three bytes at most.** -/
theorem exists_search (hlong : limit ≤ byteCount cs) (hlimit : 3 ≤ limit) :
    ∃ steps ≤ 3, Search cs limit steps ∧ boundaryBefore cs limit = limit - steps := by
  have hle := boundaryBefore_le cs limit
  have hnear : limit < boundaryBefore cs limit + 4 := by
    rw [boundaryBefore_eq]
    exact lt_byteCount_takeBytes hlong
  refine ⟨limit - boundaryBefore cs limit, by omega, ⟨by omega, fun k hk => ?_, ?_⟩, by omega⟩
  · exact isBoundary_of_boundaryBefore_lt (n := limit) (by omega) (by omega)
  · rw [Nat.sub_sub_self hle]
    exact isBoundary_boundaryBefore cs limit

/-! ## 5. The last line

The lines are looked at from the last on. -/

/-- The line is the last one of the error output that is not blank, without the blanks around
it. -/
def IsLastLine (stderr line : String) : Prop :=
  ∃ before raw after, Text.lines stderr = before ++ raw :: after ∧ Text.trim raw = line ∧
    line ≠ "" ∧ ∀ later ∈ after, Text.trim later = ""

theorem lastLine?_eq_some_iff {stderr line : String} :
    lastLine? stderr = some line ↔ IsLastLine stderr line := by
  rw [lastLine?, ← List.map_reverse, List.find?_map, Option.map_eq_some_iff]
  simp only [List.find?_eq_some_iff_append, Function.comp_def, decide_eq_true_eq]
  constructor
  · rintro ⟨raw, ⟨hraw, after, before, hlines, hafter⟩, rfl⟩
    refine ⟨before.reverse, raw, after.reverse, ?_, rfl, hraw, fun later hlater => ?_⟩
    · rw [← List.reverse_inj, hlines]
      simp
    · simpa using hafter later (List.mem_reverse.mp hlater)
  · rintro ⟨before, raw, after, hlines, rfl, hraw, hafter⟩
    refine ⟨raw, ⟨hraw, after.reverse, before.reverse, ?_, fun later hlater => ?_⟩, rfl⟩
    · rw [hlines]
      simp
    · simpa using hafter later (List.mem_reverse.mp hlater)

theorem lastLine?_eq_none_iff {stderr : String} :
    lastLine? stderr = none ↔ ∀ line ∈ Text.lines stderr, Text.trim line = "" := by
  rw [lastLine?, List.find?_eq_none]
  simp

/-! ## 6. The reason

The code and the line, cut. -/

/-- The whole reason of a failure: the exit code, and the last line of the error output or that
there is none. -/
inductive WholeReason (code : Int) (stderr : String) : String → Prop
  | line {line : String} : IsLastLine stderr line →
      WholeReason code stderr ("exit code " ++ toString code ++ ": " ++ line)
  | none : (∀ line ∈ Text.lines stderr, Text.trim line = "") →
      WholeReason code stderr ("exit code " ++ toString code ++ ": " ++ "no stderr output")

theorem fullReason_wholeReason (code : Int) (stderr : String) :
    WholeReason code stderr (fullReason code stderr) := by
  unfold fullReason
  cases hlast : lastLine? stderr with
  | none => exact .none (lastLine?_eq_none_iff.mp hlast)
  | some line => exact .line (lastLine?_eq_some_iff.mp hlast)

/-- The bytes of a text. -/
def bytes (s : String) : List UInt8 := Utf8.encode s.toList

/-- A text that is too long is cut where the search ends, and what is left there is UTF-8. -/
theorem cutToLimit_long (h : reasonLimit < byteCount cs) :
    ∃ steps ≤ 3, Search cs reasonLimit steps ∧
      Utf8.encode (cutToLimit cs) = (Utf8.encode cs).take (reasonLimit - steps) ∧
      (Utf8.encode (cutToLimit cs)).length = reasonLimit - steps := by
  obtain ⟨steps, hsteps, hsearch, hbefore⟩ := exists_search (Nat.le_of_lt h) (by decide)
  have hlength : (Utf8.encode (takeBytes (reasonLimit - steps) cs)).length =
      reasonLimit - steps := by rw [length_encode, byteCount_takeBytes hsearch.ends]
  obtain ⟨tail, htail⟩ := takeBytes_isPrefix (reasonLimit - steps) cs
  have htake : (Utf8.encode cs).take (reasonLimit - steps) =
      Utf8.encode (takeBytes (reasonLimit - steps) cs) := by
    conv_lhs => rw [← htail, Utf8.encode_append]
    exact List.take_left' hlength
  rw [cutToLimit, if_neg (by omega), hbefore]
  exact ⟨steps, hsteps, hsearch, htake.symm, hlength⟩

theorem cutToLimit_isPrefix (cs : List Char) : cutToLimit cs <+: cs := by
  unfold cutToLimit
  split
  · exact List.prefix_rfl
  · exact takeBytes_isPrefix _ _

/-- **The reason that is kept is the front of the whole one, cut where a character ends.**  The
whole reason has the exit code and the last line that is not blank.  What is kept is its front, has
500 bytes at most, and is UTF-8.  A whole reason of 500 bytes is kept as it is.  Of a longer one the
bytes up to the place are kept where the search ends, which goes back from the limit by three bytes
at most; so there are more than 496. -/
theorem failure_reason_cut (code : Int) (stderr : String) :
    let whole := fullReason code stderr
    let kept := failureReason code stderr
    WholeReason code stderr whole ∧
      kept.toList <+: whole.toList ∧ (bytes kept).length ≤ 500 ∧
      Utf8.decode? (bytes kept) = some kept.toList ∧
      ((bytes whole).length ≤ 500 → kept = whole) ∧
      (500 < (bytes whole).length → 496 < (bytes kept).length ∧
        ∃ steps ≤ 3, Search whole.toList 500 steps ∧
          bytes kept = (bytes whole).take (500 - steps)) := by
  intro whole kept
  have hkept : kept.toList = cutToLimit whole.toList := String.toList_ofList
  refine ⟨fullReason_wholeReason code stderr, ?_, ?_, Utf8.decode?_encode _, fun hshort => ?_,
    fun hlong => ?_⟩
  · rw [hkept]
    exact cutToLimit_isPrefix _
  · rw [bytes, hkept]
    by_cases hlong : reasonLimit < byteCount whole.toList
    · obtain ⟨steps, -, -, -, hlength⟩ := cutToLimit_long hlong
      rw [hlength]
      exact Nat.sub_le _ _
    · rw [cutToLimit, if_pos (by omega), length_encode]
      exact Nat.le_of_not_lt hlong
  · rw [bytes, length_encode] at hshort
    rw [← String.toList_inj, hkept]
    exact if_pos hshort
  · rw [bytes, length_encode] at hlong
    obtain ⟨steps, hsteps, hsearch, htake, hlength⟩ := cutToLimit_long hlong
    rw [bytes, hkept]
    exact ⟨by rw [hlength, reasonLimit]; omega, steps, hsteps, hsearch, htake⟩

namespace Sample

/-- A line of characters of four bytes, too long by some. -/
def faces : List Char := List.replicate 130 '😀'

/-- The line stands behind another, with blanks around it. -/
def faceLog : String := String.ofList (['!', '\n', ' '] ++ faces ++ ['\r', '\n', ' ', '\n'])

theorem lines_faceLog : Text.lines faceLog = ["!", String.ofList (' ' :: faces), " "] := by
  have hlines : Text.linesChars (['!', '\n', ' '] ++ faces ++ ['\r', '\n', ' ', '\n']) =
      [['!'], ' ' :: faces, [' ']] := by decide +kernel
  rw [Text.lines, faceLog, String.toList_ofList, hlines]
  rfl

theorem fullReason_faceLog :
    fullReason 1 faceLog = String.ofList ("exit code 1: ".toList ++ faces) := by
  have htrim : Text.trim (String.ofList (' ' :: faces)) = String.ofList faces := by
    have hchars : Text.trimChars (' ' :: faces) = faces := by decide +kernel
    rw [Text.trim, String.toList_ofList, hchars]
  have hline : lastLine? faceLog = some (String.ofList faces) := by
    refine lastLine?_eq_some_iff.mpr ⟨["!"], _, [" "], lines_faceLog, htrim, ?_, by decide +kernel⟩
    rw [Ne, ← String.toList_inj, String.toList_ofList]
    decide
  rw [fullReason, hline, ← String.toList_inj]
  simp only [String.toList_append, String.toList_ofList, Option.getD_some]
  rfl

end Sample

/-- The limit falls behind the third byte of a character, so the search goes back three bytes and
the character is left out. -/
theorem straddling_character_left_out :
    500 < (bytes (fullReason 1 Sample.faceLog)).length ∧
      496 < (bytes (failureReason 1 Sample.faceLog)).length ∧
      (failureReason 1 Sample.faceLog).toList =
        "exit code 1: ".toList ++ List.replicate 121 '😀' := by
  have hlong : 500 < (bytes (fullReason 1 Sample.faceLog)).length := by
    rw [bytes, length_encode, Sample.fullReason_faceLog, String.toList_ofList]
    decide +kernel
  have hkept : (failureReason 1 Sample.faceLog).toList =
      "exit code 1: ".toList ++ List.replicate 121 '😀' := by
    rw [failureReason, Sample.fullReason_faceLog, String.toList_ofList, String.toList_ofList]
    decide +kernel
  obtain ⟨-, -, -, -, -, hcut⟩ := failure_reason_cut 1 Sample.faceLog
  exact ⟨hlong, (hcut hlong).1, hkept⟩

end Foreman.Agent

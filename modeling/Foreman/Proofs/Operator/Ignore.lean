/-
# The ignored directory

To have the program's directory ignored means to add a line to a file that belongs to somebody
else.  Told in the bytes of the file, which may be anything: what was there stays in front, a line
that was not ended is ended, and the entry is the last line; a file with the entry stays as it is.

The file is read as text and written as a whole, and one that is not UTF-8 counts as empty.  So its
bytes are lost.

* `splitOn_encode`: the lines of a text and the lines of its bytes.
* `encode_withEntry`: the text that is written, in bytes.
* `hasEntry_withEntryBytes`: the entry is found again.
* `ignore_file_kept_iff`: the file is kept exactly if it is UTF-8.
* `foreign_bytes_lost`: a file that is not kept.

`withEntryBytes` says in bytes what the file is to hold, and knows nothing of texts.  The
command works on the text, and the two agree where the bytes are a text (`ensure_gitignored`).
-/
import Foreman.Operator.SetUp
import Foreman.Proofs.Files.Write
import Mathlib.Data.List.Infix

namespace Foreman

/-! ## 1. Lines of bytes

A line feed is one byte, and no other character has it among its bytes. -/

namespace Text

theorem splitOn_append_of_notMem {α : Type} [BEq α] [LawfulBEq α] {a : α} :
    ∀ {front : List α}, a ∉ front → ∀ rest : List α,
      (front ++ rest).splitOn a = (rest.splitOn a).modifyHead (front ++ ·)
  | [], _, rest => by cases hpieces : rest.splitOn a <;> simp [hpieces]
  | b :: front, h, rest => by
    rw [List.mem_cons, not_or] at h
    rw [List.cons_append, List.splitOn_cons_eq_if_modifyHead, if_neg (by simpa using Ne.symm h.1),
      splitOn_append_of_notMem h.2]
    cases rest.splitOn a with
    | nil => rfl
    | cons piece pieces => rfl

/-- Only a line feed has the byte of a line feed. -/
theorem lineFeed_mem_encodeChar {c : Char} : 10 ∈ Utf8.encodeChar c ↔ c = '\n' := by
  constructor
  · intro h
    exact Char.toNat_inj.mp (Utf8.toNat_eq_of_mem_encodeChar (by decide) h)
  · rintro rfl
    decide

/-- **The lines of the bytes are the bytes of the lines.** -/
theorem splitOn_encode (cs : List Char) :
    (Utf8.encode cs).splitOn 10 = (cs.splitOn '\n').map Utf8.encode := by
  induction cs with
  | nil => rfl
  | cons c cs ih =>
    rw [Utf8.encode, List.flatMap_cons, ← Utf8.encode, List.splitOn_cons_eq_if_modifyHead]
    by_cases hc : c = '\n'
    · subst hc
      rw [show Utf8.encodeChar '\n' = [10] from rfl, List.singleton_append,
        List.splitOn_cons_eq_if_modifyHead, ih]
      rfl
    · rw [splitOn_append_of_notMem (by rwa [lineFeed_mem_encodeChar]), ih,
        if_neg (by simpa using hc)]
      cases cs.splitOn '\n' with
      | nil => rfl
      | cons piece pieces => rfl

theorem getLast?_encode (cs : List Char) :
    (Utf8.encode cs).getLast? = some 10 ↔ cs.getLast? = some '\n' := by
  induction cs using List.reverseRecOn with
  | nil => simp [Utf8.encode]
  | append_singleton cs c _ =>
    rw [Utf8.encode, List.flatMap_append, List.flatMap_singleton,
      List.getLast?_append_of_ne_nil _ (Utf8.encodeChar_ne_nil c), List.getLast?_concat,
      Option.some.injEq]
    constructor
    · exact fun h => lineFeed_mem_encodeChar.mp (List.mem_of_getLast? h)
    · rintro rfl
      rfl

end Text

namespace Operator

variable {t t' : Tree} {root : String} {old : List UInt8}

/-! ## 2. What the file is to hold

Stated on bytes, and shown to be what the command writes. -/

/-- Some line of the bytes is the entry, with blanks around it or not. -/
def hasEntry (bytes : List UInt8) : Bool :=
  (bytes.splitOn 10).any fun line =>
    (Utf8.decode? line).any fun cs => Text.trim (String.ofList cs) = ignoredEntry

/-- The bytes with the last line ended. -/
def ended (bytes : List UInt8) : List UInt8 :=
  if bytes = [] ∨ bytes.getLast? = some 10 then bytes else bytes ++ [10]

/-- The bytes with a line for the entry behind them, unless there is one. -/
def withEntryBytes (bytes : List UInt8) : List UInt8 :=
  if hasEntry bytes then bytes else ended bytes ++ Utf8.encode (ignoredEntry ++ "\n").toList

theorem prefix_withEntryBytes (bytes : List UInt8) : bytes <+: withEntryBytes bytes := by
  have hended : bytes <+: ended bytes := by
    unfold ended
    split
    · exact List.prefix_rfl
    · exact List.prefix_append _ _
  unfold withEntryBytes
  split
  · exact List.prefix_rfl
  · exact hended.trans (List.prefix_append _ _)

/-- The entry is found in a text exactly if it is found in its bytes. -/
theorem hasEntry_encode (text : String) :
    hasEntry (Utf8.encode text.toList) = ignoresEntry text := by
  rw [hasEntry, ignoresEntry,
    Text.any_lines (p := fun line => decide (line = ignoredEntry)) (by decide), Text.splitOn_encode,
    Text.split, Text.splitOnChar_eq_splitOn, List.any_map, List.any_map]
  simp only [Function.comp_def, Utf8.decode?_encode, Option.any_some]

theorem endsWith_lineFeed_iff (text : String) :
    Text.endsWith text "\n" = true ↔ text.toList.getLast? = some '\n' := by
  rw [Text.endsWith, Text.startsWithChars_iff, List.reverse_prefix, List.getLast?_eq_some_iff]
  exact exists_congr fun front => eq_comm

/-- **The text that is written, in bytes.** -/
theorem encode_withEntry (text : String) : Utf8.encode (withEntry text).toList =
    ended (Utf8.encode text.toList) ++ Utf8.encode (ignoredEntry ++ "\n").toList := by
  have hempty : Utf8.encode text.toList = [] ↔ text = "" :=
    Utf8.encode_eq_nil_iff.trans String.toList_eq_nil_iff
  have hlast := (Text.getLast?_encode text.toList).trans (endsWith_lineFeed_iff text).symm
  have hended : ∀ text' : String, Utf8.encode (text' ++ ignoredEntry ++ "\n").toList =
      Utf8.encode text'.toList ++ Utf8.encode (ignoredEntry ++ "\n").toList := fun text' => by
    rw [String.append_assoc, String.toList_append, Utf8.encode_append]
  simp only [withEntry, ended, hempty, hlast, hended]
  by_cases hkept : text = "" ∨ Text.endsWith text "\n" = true
  · rw [if_pos hkept, if_neg (by simpa [or_iff_not_imp_left] using hkept)]
  · rw [if_neg hkept, if_pos (by simpa [not_or] using hkept), String.toList_append,
      Utf8.encode_append]
    rfl

/-- **The entry is found again.** -/
theorem hasEntry_ended (bytes : List UInt8) :
    hasEntry (ended bytes ++ Utf8.encode (ignoredEntry ++ "\n").toList) = true := by
  have hfound : ∀ lines : List (List UInt8), (lines ++
      [Utf8.encode ignoredEntry.toList, []]).any (fun line => (Utf8.decode? line).any fun cs =>
        Text.trim (String.ofList cs) = ignoredEntry) = true := by
    intro lines
    rw [List.any_append, Bool.or_eq_true]
    exact .inr (by decide +kernel)
  have hentry : (Utf8.encode (ignoredEntry ++ "\n").toList).splitOn 10 =
      [Utf8.encode ignoredEntry.toList, []] := by decide +kernel
  have hends : ended bytes = [] ∨ ∃ front, ended bytes = front ++ [10] := by
    unfold ended
    split
    · rename_i hkept
      exact hkept.imp_right List.getLast?_eq_some_iff.mp
    · exact .inr ⟨bytes, rfl⟩
  rw [hasEntry]
  rcases hends with hnil | ⟨front, hfront⟩
  · rw [hnil, List.nil_append, hentry]
    exact hfound []
  · rw [hfront, List.append_assoc, List.singleton_append, List.splitOn_append_cons_self, hentry]
    exact hfound _

theorem hasEntry_withEntryBytes (bytes : List UInt8) : hasEntry (withEntryBytes bytes) = true := by
  unfold withEntryBytes
  split
  · assumption
  · exact hasEntry_ended bytes

theorem withEntryBytes_encode (text : String) : withEntryBytes (Utf8.encode text.toList) =
    Utf8.encode (if ignoresEntry text then text else withEntry text).toList := by
  rw [withEntryBytes, hasEntry_encode]
  split
  · rfl
  · rw [encode_withEntry]

/-! ## 3. What the file holds

On the tree of files, once and twice. -/

/-- What is taken for the content of the file: bytes that are no text count as none. -/
def taken (bytes : List UInt8) : List UInt8 := if (Utf8.decode? bytes).isSome then bytes else []

theorem encode_readText {p : String} (h : t.read p = .ok old) :
    Utf8.encode ((t.readText p).toOption.getD "").toList = taken old := by
  rw [Tree.readText, h]
  simp only [bind, Except.bind, taken]
  cases hdecode : Utf8.decode? old with
  | none => rfl
  | some cs =>
    rw [← Utf8.decode?_eq_some_iff.mp hdecode]
    exact congrArg Utf8.encode String.toList_ofList

theorem taken_eq_of_hasEntry (h : hasEntry (taken old) = true) : taken old = old := by
  unfold taken at h ⊢
  split
  · rfl
  · rename_i hnone
    rw [if_neg hnone] at h
    exact absurd h (by decide)

/-- **The directory is ignored afterwards**: the entry stands behind what was taken for the
content. -/
theorem ensureIgnored_of_read (h : t.read (ignorePath root) = .ok old) :
    ∃ t', ensureIgnored t root = .ok t' ∧
      t'.read (ignorePath root) = .ok (withEntryBytes (taken old)) := by
  have htext := encode_readText h
  simp only [ensureIgnored]
  generalize (t.readText (ignorePath root)).toOption.getD "" = text at htext ⊢
  by_cases hentry : ignoresEntry text = true
  · have htaken : hasEntry (taken old) = true := by rw [← htext, hasEntry_encode, hentry]
    refine ⟨t, by rw [if_pos hentry], ?_⟩
    rw [withEntryBytes, if_pos htaken, taken_eq_of_hasEntry htaken, h]
  · obtain ⟨t', hwrite⟩ := Tree.write_of_read h (Utf8.encode (withEntry text).toList)
    refine ⟨t', by rw [if_neg hentry, Tree.writeText, hwrite], ?_⟩
    rw [Tree.read_write hwrite, ← htext, withEntryBytes_encode, if_neg hentry]

/-- Where the entry is found nothing is done. -/
theorem ensureIgnored_of_entry {text : String} (h : t.readText (ignorePath root) = .ok text)
    (hentry : ignoresEntry text = true) : ensureIgnored t root = .ok t := by
  rw [ensureIgnored, h]
  exact if_pos hentry

theorem ensureIgnored_again (h : t.read (ignorePath root) = .ok old)
    (h' : t'.read (ignorePath root) = .ok (withEntryBytes (taken old))) :
    ensureIgnored t' root = .ok t' := by
  rw [← encode_readText h, withEntryBytes_encode] at h'
  refine ensureIgnored_of_entry (Tree.readText_eq_ok_iff.mpr h') ?_
  rw [← hasEntry_encode, ← withEntryBytes_encode]
  exact hasEntry_withEntryBytes _

/-- What stands in front of the entry alone is text. -/
theorem isSome_decode?_of_prefix (h : old <+: Utf8.encode (ignoredEntry ++ "\n").toList) :
    (Utf8.decode? old).isSome = true := by
  have hall : ∀ bytes ∈ (Utf8.encode (ignoredEntry ++ "\n").toList).inits,
      (Utf8.decode? bytes).isSome = true := by decide +kernel
  exact hall old ((List.mem_inits _ _).mpr h)

/-- **What becomes of the file.**  Whatever its bytes are, setting up succeeds, and a second time
changes nothing.  The bytes stay in front, with the entry behind them if no line was the entry,
exactly if they are UTF-8; bytes that are not are gone, and the entry is all there is. -/
theorem ignore_file_kept_iff (t : Tree) (root : String) (old : List UInt8)
    (h : t.read (ignorePath root) = .ok old) :
    ∃ t' new, ensureIgnored t root = .ok t' ∧ t'.read (ignorePath root) = .ok new ∧
      ensureIgnored t' root = .ok t' ∧
      (old <+: new ↔ (Utf8.decode? old).isSome = true) ∧
      (new = withEntryBytes old ↔ (Utf8.decode? old).isSome = true) ∧
      (Utf8.decode? old = none → new = Utf8.encode (ignoredEntry ++ "\n").toList) := by
  obtain ⟨t', hdone, hread⟩ := ensureIgnored_of_read h
  refine ⟨t', _, hdone, hread, ensureIgnored_again h hread, ?_⟩
  have hkept : (Utf8.decode? old).isSome = true → withEntryBytes (taken old) = withEntryBytes old :=
    fun htext => by rw [taken, if_pos htext]
  have halone : withEntryBytes [] = Utf8.encode (ignoredEntry ++ "\n").toList := by decide +kernel
  have hlost : Utf8.decode? old = none →
      withEntryBytes (taken old) = Utf8.encode (ignoredEntry ++ "\n").toList := by
    intro hnone
    rw [taken, hnone]
    exact halone
  have htext : old <+: withEntryBytes (taken old) → (Utf8.decode? old).isSome = true := by
    intro hprefix
    cases hdecode : Utf8.decode? old with
    | some cs => rfl
    | none =>
      rw [hlost hdecode] at hprefix
      exact hdecode ▸ isSome_decode?_of_prefix hprefix
  exact ⟨⟨htext, fun h => hkept h ▸ prefix_withEntryBytes old⟩,
    ⟨fun h => htext (h ▸ prefix_withEntryBytes old), hkept⟩, hlost⟩

/-- Lines end with a carriage return or not at all, and one of them only contains the entry. -/
theorem open_line_kept :
    let old := Utf8.encode "/target\r\n *.ralph/".toList
    let t := Tree.empty.put [".gitignore"] (.file old false)
    t.read (ignorePath "/") = .ok old ∧
      ∃ t' new, ensureIgnored t "/" = .ok t' ∧ t'.read (ignorePath "/") = .ok new ∧
        ensureIgnored t' "/" = .ok t' ∧
        (old <+: new ↔ (Utf8.decode? old).isSome = true) ∧
        (new = withEntryBytes old ↔ (Utf8.decode? old).isSome = true) ∧
        (Utf8.decode? old = none → new = Utf8.encode (ignoredEntry ++ "\n").toList) := by
  intro old t
  have hread : t.read (ignorePath "/") = .ok old := by decide +kernel
  exact ⟨hread, ignore_file_kept_iff t "/" old hread⟩

/-- **A file that is not kept**: one line, in an encoding of single bytes. -/
theorem foreign_bytes_lost :
    ¬ ∀ (t : Tree) (root : String) (old : List UInt8), t.read (ignorePath root) = .ok old →
      ∃ t' new, ensureIgnored t root = .ok t' ∧ t'.read (ignorePath root) = .ok new ∧
        old <+: new ∧ new = withEntryBytes old ∧ ensureIgnored t' root = .ok t' := by
  intro hkept
  let old : List UInt8 := [99, 97, 102, 233, 10]
  obtain ⟨t', new, hdone, hread, hprefix, -⟩ :=
    hkept (Tree.empty.put [".gitignore"] (.file old false)) "/" old (by decide +kernel)
  have hlost : (ensureIgnored (Tree.empty.put [".gitignore"] (.file old false)) "/").toOption.bind
      (fun t => (t.read (ignorePath "/")).toOption) =
        some (Utf8.encode (ignoredEntry ++ "\n").toList) := by decide +kernel
  rw [hdone] at hlost
  simp only [Except.toOption, Option.bind_some, hread, Option.some.injEq] at hlost
  subst hlost
  exact absurd hprefix (by decide +kernel)

end Operator
end Foreman

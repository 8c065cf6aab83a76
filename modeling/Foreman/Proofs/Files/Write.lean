/-
# Files that are written, replaced and removed

A path leads over directories to a place, and an operation on a file changes what stands at one
place.  So what was written is read there, and what stands elsewhere is not touched: neither other
files, nor the directories over which a path leads.

* `locate_mono`: where the same directories stand, every path leads to the same place.
* `locate_join`: the place of a name in a directory.
* `read_eq_ok_iff`, `write_eq_ok`: what reading and writing have to do with the place of a path.
* `read_write`, `read_replace`: what was written is read.
* `grown_mkdirAll`: making a directory makes directories, and nothing else.
* `keepsFile_write_join`, `Grown.keepsFile`: writing one name of a directory, and making
  directories, leave the file of another name as it was.
* `not_read_removed`: what was removed is not read.

The frame lemmas say what an operation leaves alone, and they are stated for the file that is
left alone: a file keeps its content while directories are made and other names are written.
Removal is the one operation that takes something away, and it is told to take no more than its
file.
-/
import Foreman.Files.Tree
import Foreman.Proofs.Text.Lines
import Foreman.Proofs.Text.Utf8

namespace Foreman

/-! ## 1. A name in a directory

Paths that are put together of a directory and a name. -/

namespace Path

/-- The text names something in the directory from which it is seen. -/
structure IsName (name : String) : Prop where
  noSlash : '/' ∉ name.toList
  ne_empty : name ≠ ""
  ne_dot : name ≠ "."
  ne_dots : name ≠ ".."

theorem parts_append_slash (a b : String) : parts (a ++ "/" ++ b) = parts a ++ parts b := by
  rw [parts, show "/" = String.singleton '/' from rfl, Text.split_append, List.filter_append, parts,
    parts]

theorem parts_of_isName {name : String} (h : IsName name) : parts name = [name] := by
  rw [parts, Text.split_of_notMem h.noSlash]
  simp [h.ne_empty, h.ne_dot]

/-- What ends with a piece is something in front of it. -/
theorem exists_of_endsWith {s piece : String} (h : Text.endsWith s piece = true) :
    ∃ front, s = front ++ piece := by
  obtain ⟨rest, hrest⟩ := Text.startsWithChars_iff.mp h
  refine ⟨String.ofList rest.reverse, ?_⟩
  rw [← String.toList_inj, String.toList_append, String.toList_ofList, ← List.reverse_inj,
    List.reverse_append, List.reverse_reverse, hrest]

theorem isAbsolute_of_isName {name : String} (h : IsName name) : isAbsolute name = false := by
  rw [isAbsolute, Text.startsWith, Bool.eq_false_iff]
  intro hstart
  obtain ⟨rest, hrest⟩ := Text.startsWithChars_iff.mp hstart
  exact h.noSlash (hrest ▸ List.mem_cons_self)

/-- **The parts of a name in a directory** are those of the directory, and the name. -/
theorem parts_join {name : String} (h : IsName name) (dir : String) :
    parts (join dir name) = parts dir ++ [name] := by
  rw [join, if_neg (by simp [isAbsolute_of_isName h])]
  split
  · rename_i hfront
    simp only [Bool.or_eq_true, decide_eq_true_eq] at hfront
    rcases hfront with rfl | hslash
    · rw [String.empty_append, parts_of_isName h]
      rfl
    · obtain ⟨front, rfl⟩ := exists_of_endsWith hslash
      have hfront : parts (front ++ "/") = parts front := by
        have hparts := parts_append_slash front ""
        rwa [String.append_empty, show parts "" = [] from rfl, List.append_nil] at hparts
      rw [parts_append_slash, hfront, parts_of_isName h]
  · rw [parts_append_slash, parts_of_isName h]

theorem isAbsolute_join {name : String} (h : IsName name) (dir : String) :
    isAbsolute (join dir name) = isAbsolute dir := by
  have happend : ∀ tail : String, dir ≠ "" → isAbsolute (dir ++ tail) = isAbsolute dir := by
    intro tail hne
    rw [isAbsolute, isAbsolute, Text.startsWith, Text.startsWith, Text.startsWithChars,
      Text.startsWithChars, String.toList_append]
    cases hchars : dir.toList with
    | nil => exact absurd (String.toList_eq_nil_iff.mp hchars) hne
    | cons c cs => simp [Text.afterPrefix?]; split <;> rfl
  rw [join, if_neg (by simp [isAbsolute_of_isName h])]
  by_cases hempty : dir = ""
  · subst hempty
    rw [if_pos (by simp), String.empty_append, isAbsolute_of_isName h]
    rfl
  · split
    · exact happend name hempty
    · rw [String.append_assoc]
      exact happend _ hempty

/-- Where a directory cannot be looked up for the length of its path, no name in it can. -/
theorem isTooLong_join {dir name : String} (h : IsName name) (hlong : isTooLong dir = true) :
    isTooLong (join dir name) = true := by
  have hsize : dir.utf8ByteSize ≤ (join dir name).utf8ByteSize := by
    rw [join, if_neg (by simp [isAbsolute_of_isName h])]
    split <;> simp only [String.utf8ByteSize_append] <;> omega
  unfold isTooLong at hlong ⊢
  rw [decide_eq_true_eq] at hlong ⊢
  exact Nat.lt_of_lt_of_le hlong hsize

end Path

namespace Tree

variable {t t' : Tree} {parts parts' : List String} {n : Node} {p dir name : String}
  {bytes : List UInt8}

/-! ## 2. The place of a path

Where a path leads depends on the directories alone. -/

theorem at?_put_self (h : parts ≠ []) : (t.put parts n).at? parts = some n := by
  rw [at?, if_neg h, put, Table.get?_insert, if_pos rfl]

theorem isDirAt_iff : t.isDirAt parts = true ↔ t.at? parts = some .directory := by
  unfold isDirAt
  split <;> simp_all

theorem at?_put (t : Tree) (parts parts' : List String) (n : Node) :
    (t.put parts n).at? parts' =
      if parts' = [] then some .directory
      else if key parts' = key parts then some n else t.at? parts' := by
  unfold at?
  split
  · rfl
  · rw [put, Table.get?_insert]

/-- A path of parts below the root is known by its text. -/
theorem at?_congr (hne : parts ≠ []) (hne' : parts' ≠ []) (hkey : key parts' = key parts) :
    t.at? parts' = t.at? parts := by
  rw [at?, at?, if_neg hne, if_neg hne', hkey]

theorem at?_erase (t : Tree) (parts parts' : List String) :
    { t with nodes := t.nodes.erase (key parts) }.at? parts' =
      if parts' = [] then some .directory
      else if key parts' = key parts then none else t.at? parts' := by
  unfold at?
  split
  · rfl
  · rw [Table.get?_erase]

theorem ne_nil_of_file (hfile : t.at? parts ≠ some .directory) : parts ≠ [] := by
  rintro rfl
  exact hfile (if_pos rfl)

/-- Where a directory stands, it still stands when a node is put elsewhere. -/
theorem isDirAt_put (hfile : t.at? parts ≠ some .directory) (h : t.isDirAt parts' = true) :
    (t.put parts n).isDirAt parts' = true := by
  rw [isDirAt_iff] at h ⊢
  rw [at?_put]
  split
  · rfl
  · rename_i hne
    split
    · rename_i hkey
      rw [at?_congr (ne_nil_of_file hfile) hne hkey] at h
      exact absurd h hfile
    · exact h

/-- One part of a path, seen from a directory. -/
def enter (t : Tree) (here : List String) (part : String) : Except FileError (List String) :=
  if part ≠ ".." then .ok (here ++ [part])
  else if t.isDirAt here then .ok here.dropLast
  else .error (t.lookupError (here ++ [part]))

theorem locate_eq (t : Tree) (p : String) : t.locate p =
    if Path.isTooLong p then .error .nameTooLong
    else (Path.parts p).foldlM t.enter (t.base p) := rfl

/-- A part that is entered can be entered wherever the same directories stand. -/
theorem enter_mono {here next : List String} {part : String}
    (hdirs : ∀ parts, t.isDirAt parts = true → t'.isDirAt parts = true)
    (h : t.enter here part = .ok next) : t'.enter here part = .ok next := by
  unfold enter at h ⊢
  split at h
  · rename_i hpart
    rw [if_pos hpart, h]
  · rename_i hpart
    rw [if_neg hpart]
    split at h
    · rename_i hdir
      rw [if_pos (hdirs _ hdir), h]
    · cases h

/-- **A path still leads where it led**, if no directory was taken away. -/
theorem locate_mono (hhere : t'.here = t.here)
    (hdirs : ∀ parts, t.isDirAt parts = true → t'.isDirAt parts = true)
    (h : t.locate p = .ok parts) : t'.locate p = .ok parts := by
  have hbase : t'.base p = t.base p := by rw [base, base, hhere]
  have hwalk : ∀ (names here : List String), names.foldlM t.enter here = .ok parts →
      names.foldlM t'.enter here = .ok parts := by
    intro names
    induction names with
    | nil => exact fun here h => h
    | cons name names ih =>
      intro here h
      rw [List.foldlM_cons] at h ⊢
      cases hnext : t.enter here name with
      | error e =>
        rw [hnext] at h
        cases h
      | ok next =>
        rw [hnext] at h
        rw [enter_mono hdirs hnext]
        exact ih next h
  rw [locate_eq] at h ⊢
  split at h
  · cases h
  · rename_i hshort
    rw [if_neg hshort, hbase]
    exact hwalk _ _ h

theorem locate_put (hfile : t.at? parts ≠ some .directory) (h : t.locate p = .ok parts') :
    (t.put parts n).locate p = .ok parts' :=
  locate_mono (t := t) rfl (fun _ => isDirAt_put hfile) h

/-- **The place of a name in a directory** is the name, seen from the place of the directory. -/
theorem locate_join (hname : Path.IsName name) (h : t.locate (Path.join dir name) = .ok parts) :
    ∃ here, t.locate dir = .ok here ∧ parts = here ++ [name] := by
  have hbase : t.base (Path.join dir name) = t.base dir := by
    rw [base, base, Path.isAbsolute_join hname]
  have hlast : ∀ here, t.enter here name = .ok (here ++ [name]) := fun _ => if_pos hname.ne_dots
  rw [locate_eq] at h
  split at h
  · cases h
  · rename_i hshort
    rw [locate_eq, if_neg fun hlong => hshort (Path.isTooLong_join hname hlong)]
    rw [hbase, Path.parts_join hname, List.foldlM_append] at h
    cases hdir : (Path.parts dir).foldlM t.enter (t.base dir) with
    | error e =>
      rw [hdir] at h
      cases h
    | ok here =>
      rw [hdir] at h
      simp only [List.foldlM_cons, List.foldlM_nil, hlast, bind, Except.bind, pure,
        Except.pure] at h
      cases h
      exact ⟨here, rfl, rfl⟩

/-- Two names in a directory stand at two places. -/
theorem key_concat_inj {a b : String} (h : key (parts ++ [a]) = key (parts ++ [b])) : a = b := by
  rw [key, key] at h
  cases parts with
  | nil => simpa [Text.joinWith] using h
  | cons s rest =>
    rw [Text.joinWith_concat _ _ _ (List.cons_ne_nil _ _),
      Text.joinWith_concat _ _ _ (List.cons_ne_nil _ _)] at h
    simpa using h

/-! ## 3. What is read and written

Reading, writing and replacing at one place. -/

/-- **A file is read where its path leads.** -/
theorem read_eq_ok_iff : t.read p = .ok bytes ↔
    Path.namesDirectory p = false ∧
      ∃ parts x, t.locate p = .ok parts ∧ t.at? parts = some (.file bytes x) := by
  unfold read
  cases t.locate p with
  | error e => simp [bind, Except.bind]
  | ok parts =>
    simp only [bind, Except.bind, Except.ok.injEq, exists_and_left, exists_eq_left']
    split
    · rename_i found x hfound
      split
      · rename_i hname
        simp [hname]
      · rename_i hname
        simp [hname, hfound]
    · rename_i hfound
      simp [hfound]
    · rename_i hfound
      simp [hfound]

theorem readText_eq_ok_iff {s : String} :
    t.readText p = .ok s ↔ t.read p = .ok (Utf8.encode s.toList) := by
  unfold readText
  cases t.read p with
  | error e => simp [bind, Except.bind]
  | ok bytes =>
    simp only [bind, Except.bind, Except.ok.injEq]
    cases hdecode : Utf8.decode? bytes with
    | none =>
      have hbytes : Utf8.encode s.toList ≠ bytes := by
        rw [Ne, ← Utf8.decode?_eq_some_iff, hdecode]
        simp
      simp [hbytes.symm]
    | some cs =>
      have hbytes := Utf8.decode?_eq_some_iff.mp hdecode
      constructor
      · rintro ⟨⟩
        rw [String.toList_ofList, hbytes]
      · rintro rfl
        rw [Utf8.decode?_encode, Option.some.injEq] at hdecode
        simp [← hdecode, pure, Except.pure]

/-- A file is written where its path leads, and no directory is there. -/
theorem write_eq_ok (h : t.write p bytes = .ok t') :
    Path.namesDirectory p = false ∧ ∃ parts x, t.locate p = .ok parts ∧
      t.at? parts ≠ some .directory ∧ t' = t.put parts (.file bytes x) := by
  unfold write at h
  cases hparts : t.locate p with
  | error e =>
    rw [hparts] at h
    cases h
  | ok parts =>
    rw [hparts] at h
    simp only [bind, Except.bind] at h
    split at h
    · cases h
    · rename_i old x hold
      split at h
      · cases h
      · rename_i hname
        cases h
        exact ⟨Bool.eq_false_iff.mpr hname, parts, x, rfl, by simp [hold], rfl⟩
    · rename_i hold
      split at h
      · cases h
      · split at h
        · cases h
        · rename_i hname
          cases h
          exact ⟨Bool.eq_false_iff.mpr hname, parts, false, rfl, by simp [hold], rfl⟩

/-- **What was written is read.** -/
theorem read_write (h : t.write p bytes = .ok t') : t'.read p = .ok bytes := by
  obtain ⟨hname, parts, x, hparts, hfile, rfl⟩ := write_eq_ok h
  exact read_eq_ok_iff.mpr ⟨hname, parts, x, locate_put hfile hparts,
    at?_put_self (ne_nil_of_file hfile)⟩

/-- A file that can be read can be written. -/
theorem write_of_read {old : List UInt8} (h : t.read p = .ok old) (bytes : List UInt8) :
    ∃ t', t.write p bytes = .ok t' := by
  obtain ⟨hname, parts, x, hparts, hfile⟩ := read_eq_ok_iff.mp h
  refine ⟨t.put parts (.file bytes x), ?_⟩
  rw [write, hparts]
  simp [bind, Except.bind, hfile, hname]

theorem readText_writeText {s : String} (h : t.writeText p s = .ok t') : t'.readText p = .ok s :=
  readText_eq_ok_iff.mpr (read_write h)

/-- A file is put where the path leads, and no directory is there. -/
theorem replace_eq_ok (h : t.replace p bytes = .ok t') :
    ∃ parts, t.locate p = .ok parts ∧ t.at? parts ≠ some .directory ∧
      t' = t.put parts (.file bytes false) := by
  unfold replace at h
  cases hparts : t.locate p with
  | error e =>
    rw [hparts] at h
    cases h
  | ok parts =>
    rw [hparts] at h
    simp only [bind, Except.bind] at h
    split at h
    · cases h
    · rename_i hfile
      split at h
      · cases h
        exact ⟨parts, rfl, hfile, rfl⟩
      · cases h

/-- **What is read where a file was replaced are its bytes.** -/
theorem read_replace (hname : Path.namesDirectory p = false) (h : t.replace p bytes = .ok t') :
    t'.read p = .ok bytes := by
  obtain ⟨parts, hparts, hfile, rfl⟩ := replace_eq_ok h
  exact read_eq_ok_iff.mpr ⟨hname, parts, false, locate_put hfile hparts,
    at?_put_self (ne_nil_of_file hfile)⟩

theorem readText_replace {s : String} (hname : Path.namesDirectory p = false)
    (h : t.replace p (Utf8.encode s.toList) = .ok t') : t'.readText p = .ok s :=
  readText_eq_ok_iff.mpr (read_replace hname h)

/-- Where a text is read, the path does not say that it names a directory. -/
theorem namesDirectory_of_readText {s : String} (h : t.readText p = .ok s) :
    Path.namesDirectory p = false :=
  (read_eq_ok_iff.mp (readText_eq_ok_iff.mp h)).1

/-! ## 4. Directories that are made

A tree that has grown has all that was there before. -/

/-- From one tree to another directories were made, and nothing else was done. -/
structure Grown (t t' : Tree) : Prop where
  here : t'.here = t.here
  place (parts : List String) :
    t'.at? parts = t.at? parts ∨ t.at? parts = none ∧ t'.at? parts = some .directory

namespace Grown

theorem refl (t : Tree) : Grown t t := ⟨rfl, fun _ => .inl rfl⟩

theorem trans {t'' : Tree} (h : Grown t t') (h' : Grown t' t'') : Grown t t'' := by
  refine ⟨h'.here.trans h.here, fun parts => ?_⟩
  rcases h'.place parts with heq | ⟨hfree, hmade⟩
  · rw [heq]
    exact h.place parts
  · rcases h.place parts with heq | ⟨-, hdir⟩
    · exact .inr ⟨heq ▸ hfree, hmade⟩
    · rw [hdir] at hfree
      cases hfree

theorem isDirAt (h : Grown t t') (hdir : t.isDirAt parts = true) : t'.isDirAt parts = true := by
  rw [isDirAt_iff] at hdir ⊢
  rcases h.place parts with heq | ⟨hfree, -⟩
  · rw [heq, hdir]
  · rw [hdir] at hfree
    cases hfree

theorem at?_eq_file_iff {x : Bool} (h : Grown t t') :
    t'.at? parts = some (.file bytes x) ↔ t.at? parts = some (.file bytes x) := by
  rcases h.place parts with heq | ⟨hfree, hmade⟩
  · rw [heq]
  · simp [hfree, hmade]

end Grown

theorem grown_put (hfree : t.at? parts = none) : Grown t (t.put parts .directory) := by
  refine ⟨rfl, fun parts' => ?_⟩
  rw [at?_put]
  split
  · rename_i hroot
    exact .inl (if_pos hroot).symm
  · rename_i hroot
    split
    · rename_i hkey
      exact .inr ⟨at?_congr (ne_nil_of_file (t := t) (by simp [hfree])) hroot hkey ▸ hfree, rfl⟩
    · exact .inl rfl

theorem grown_makeDirs {above names : List String} (h : t.makeDirs above names = .ok t') :
    Grown t t' := by
  induction names generalizing t above with
  | nil =>
    cases h
    exact Grown.refl _
  | cons name names ih =>
    unfold makeDirs at h
    split at h
    · exact ih h
    · simp only at h
      split at h
      · exact ih h
      · cases h
      · rename_i hfree
        exact (grown_put hfree).trans (ih h)

/-- **Making a directory makes directories, and nothing else.** -/
theorem grown_mkdirAll (h : t.mkdirAll p = .ok t') : Grown t t' := by
  unfold mkdirAll at h
  split at h
  · cases h
  · exact grown_makeDirs h

/-! ## 5. The file of a path, while other things change

One frame lemma for each operation. -/

/-- From one tree to another a path leads where it led, and the file there, if any, is the
same. -/
def KeepsFile (p : String) (t t' : Tree) : Prop :=
  ∀ parts, t.locate p = .ok parts → t'.locate p = .ok parts ∧
    ∀ bytes x, t'.at? parts = some (.file bytes x) ↔ t.at? parts = some (.file bytes x)

theorem Grown.keepsFile (h : Grown t t') (p : String) : KeepsFile p t t' :=
  fun _ hparts => ⟨locate_mono h.here (fun _ => h.isDirAt) hparts, fun _ _ => h.at?_eq_file_iff⟩

/-- **Writing one name of a directory leaves the file of another name as it was.** -/
theorem keepsFile_write_join {name other : String} (hname : Path.IsName name)
    (hother : Path.IsName other) (hne : name ≠ other)
    (h : t.write (Path.join dir name) bytes = .ok t') : KeepsFile (Path.join dir other) t t' := by
  obtain ⟨-, parts, x, hparts, hfile, rfl⟩ := write_eq_ok h
  intro parts' hparts'
  refine ⟨locate_put hfile hparts', ?_⟩
  obtain ⟨here, hdir, rfl⟩ := locate_join hname hparts
  obtain ⟨here', hdir', rfl⟩ := locate_join hother hparts'
  cases hdir.symm.trans hdir'
  have hkey : key (here ++ [other]) ≠ key (here ++ [name]) :=
    fun heq => hne (key_concat_inj heq).symm
  intro bytes' x'
  rw [at?_put, if_neg (by simp), if_neg hkey]

/-- What is read from a file that was kept. -/
theorem KeepsFile.readText_iff {s : String} (h : KeepsFile p t t')
    (hparts : t.locate p = .ok parts) : t'.readText p = .ok s ↔ t.readText p = .ok s := by
  obtain ⟨hparts', hfile⟩ := h parts hparts
  have hread : ∀ bytes, t'.read p = .ok bytes ↔ t.read p = .ok bytes := by
    intro bytes
    simp only [read_eq_ok_iff, hparts, hparts', Except.ok.injEq, exists_and_left,
      exists_eq_left', hfile]
  simp only [readText_eq_ok_iff, hread]

/-! ## 6. A file that is removed

What stands there afterwards. -/

/-- A file is removed where its path leads. -/
theorem removeFile_eq_ok (h : t.removeFile p = .ok t') : ∃ parts bytes x,
    t.locate p = .ok parts ∧ t.at? parts = some (.file bytes x) ∧
      t' = { t with nodes := t.nodes.erase (key parts) } := by
  unfold removeFile at h
  cases hparts : t.locate p with
  | error e =>
    rw [hparts] at h
    cases h
  | ok parts =>
    rw [hparts] at h
    simp only [bind, Except.bind] at h
    split at h
    · rename_i bytes x hfile
      cases h
      exact ⟨parts, bytes, x, rfl, hfile, rfl⟩
    · cases h
    · cases h

/-- No path leads over a file, so none leads elsewhere when it is gone. -/
theorem locate_erase {x : Bool} (hfile : t.at? parts = some (.file bytes x))
    (h : t.locate p = .ok parts') :
    { t with nodes := t.nodes.erase (key parts) }.locate p = .ok parts' := by
  refine locate_mono (t := t) rfl (fun other hdir => ?_) h
  rw [isDirAt_iff] at hdir ⊢
  rw [at?_erase]
  split
  · rfl
  · rename_i hne
    split
    · rename_i hkey
      rw [at?_congr (ne_nil_of_file (t := t) (by simp [hfile])) hne hkey, hfile] at hdir
      cases hdir
    · exact hdir

theorem locate_removed (h : t.locate p = .ok parts) :
    ((t.removeFile p).toOption.getD t).locate p = .ok parts := by
  cases hremoved : t.removeFile p with
  | error e => exact h
  | ok t' =>
    obtain ⟨parts', old, x, hparts', hfile, rfl⟩ := removeFile_eq_ok hremoved
    exact locate_erase hfile h

/-- **What was removed is not read.** -/
theorem not_read_removed : ((t.removeFile p).toOption.getD t).read p ≠ .ok bytes := by
  intro hread
  obtain ⟨-, parts, x, hparts, hfile⟩ := read_eq_ok_iff.mp hread
  cases hremoved : t.removeFile p with
  | error e =>
    rw [hremoved] at hparts hfile
    rw [removeFile, show t.locate p = .ok parts from hparts] at hremoved
    simp [bind, Except.bind, show t.at? parts = _ from hfile] at hremoved
  | ok t' =>
    obtain ⟨parts', old, x', hparts', hfile', rfl⟩ := removeFile_eq_ok hremoved
    have hne : parts' ≠ [] := ne_nil_of_file (t := t) (by simp [hfile'])
    rw [locate_removed hparts'] at hparts
    cases hparts
    rw [hremoved] at hfile
    have hgone : { t with nodes := t.nodes.erase (key parts) }.at? parts = none := by
      rw [at?_erase, if_neg hne, if_pos rfl]
    cases hgone.symm.trans hfile

end Tree
end Foreman

/-
# The number of the holder

However the steps of several processes are mixed, the lock lets one at a time write its number, so
the number of the holder stands in the file when it is written.  It does not stay there: a process
that leaves gives the lock back first and removes the number afterwards, and in between another one
may have taken the lock and have written its own.  Such a process takes away the number of the
holder.

* `holds_unique`: one process at a time holds the lock.
* `readText_run`: the number stays in its file exactly while nobody who was leaving goes on.
* `number_kept_iff`: the holder is named exactly if nobody who was leaving when it wrote its number
  has gone on since.
* `late_removal_unnames_holder`: a holder that is not named.

The steps are those of `try_acquire` and of giving the lock up, each of them one access to the
machine:  the directory, the lock, the number, and then, in this order, the lock again and the
number again.  A contest interleaves them in any way.  The order of the last two is what
`number_kept_iff` is about.
-/
import Foreman.Lock.Basic
import Foreman.Proofs.Files.Write

namespace Foreman
namespace RunLock

variable {m : Machine} {dir : String} {pid p q : Nat} {alive : Nat → Bool} {s : Stage}
  {c : Contest} {pids : List Nat}

/-! ## 1. What a step does

A step takes the lock, gives it back, or leaves it alone, and `AtLock` says which step does
what. -/

theorem lockName_isName : Path.IsName "wiggum.lock" := ⟨by decide, by decide, by decide, by decide⟩

theorem numberName_isName : Path.IsName "wiggum.pid" :=
  ⟨by decide, by decide, by decide, by decide⟩

/-- What a step does at the lock: the process takes it, gives it back, or leaves it as it was. -/
inductive AtLock (key : String) (pid : Nat) (s : Stage) (locks : Table Nat) :
    Except String Stage → Table Nat → Prop where
  | taken : s = .prepared → locks.get? key = none →
      AtLock key pid s locks (.ok .owning) (locks.insert key pid)
  | kept {next : Except String Stage} : next ≠ .ok .owning →
      (next = .ok .holding → s = .owning) → AtLock key pid s locks next locks
  | givenBack {next : Except String Stage} : next ≠ .ok .owning → next ≠ .ok .holding →
      s = .owning ∨ s = .holding → AtLock key pid s locks next (locks.erase key)

theorem lockKey_congr {m' : Machine} (h : m'.files.here = m.files.here) :
    lockKey m' dir = lockKey m dir := by
  simp only [lockKey, Tree.fullPath, h]

theorem write_here {t t' : Tree} {path : String} {bytes : List UInt8}
    (h : t.write path bytes = .ok t') : t'.here = t.here := by
  obtain ⟨-, parts, x, -, -, rfl⟩ := Tree.write_eq_ok h
  rfl

theorem advance_atLock (m : Machine) (dir : String) (pid : Nat) (alive : Nat → Bool) (s : Stage) :
    AtLock (lockKey m dir) pid s m.locks (advance dir pid alive m s).1
      (advance dir pid alive m s).2.locks := by
  cases s with
  | outside =>
    simp only [advance, prepare]
    split <;> exact .kept (by simp) (by simp)
  | prepared =>
    simp only [advance, lockFile]
    split
    · exact .kept (by simp) (by simp)
    · rename_i files hwrite
      have hkey : lockKey { m with files := files } dir = lockKey m dir :=
        lockKey_congr (write_here hwrite)
      split
      · exact .kept (by simp) (by simp)
      · rename_i hfree
        rw [hkey] at hfree ⊢
        exact .taken rfl (by simpa [Table.contains] using hfree)
  | owning =>
    simp only [advance, writeNumber]
    split
    · exact .kept (by simp) (fun _ => rfl)
    · exact .givenBack (by simp) (by simp) (.inl rfl)
  | holding => exact .givenBack (by simp [advance]) (by simp [advance]) (.inr rfl)
  | leaving => exact .kept (by simp [advance]) (by simp [advance])

theorem advance_here (m : Machine) (dir : String) (pid : Nat) (alive : Nat → Bool) (s : Stage) :
    (advance dir pid alive m s).2.files.here = m.files.here := by
  cases s with
  | outside =>
    simp only [advance, prepare]
    split
    · rename_i hmade
      exact (Tree.grown_mkdirAll hmade).here
    · rfl
  | prepared =>
    simp only [advance, lockFile]
    split
    · rfl
    · rename_i hwrite
      split <;> exact write_here hwrite
  | owning =>
    simp only [advance, writeNumber]
    split
    · rename_i hwrite
      exact write_here hwrite
    · rfl
  | holding => rfl
  | leaving =>
    simp only [advance, removeNumber]
    cases hremoved : m.files.removeFile (pidPath dir) with
    | error e => rfl
    | ok files =>
      obtain ⟨parts, bytes, x, -, -, rfl⟩ := Tree.removeFile_eq_ok hremoved
      rfl

/-- Up to the lock a process does nothing to the file with the number. -/
theorem advance_keepsFile (hs : s = .outside ∨ s = .prepared) :
    Tree.KeepsFile (pidPath dir) m.files (advance dir pid alive m s).2.files := by
  have hsame : Tree.KeepsFile (pidPath dir) m.files m.files := (Tree.Grown.refl _).keepsFile _
  rcases hs with rfl | rfl
  · simp only [advance, prepare]
    split
    · rename_i hmade
      exact (Tree.grown_mkdirAll hmade).keepsFile _
    · exact hsame
  · simp only [advance, lockFile]
    split
    · exact hsame
    · rename_i hwrite
      have hkept := Tree.keepsFile_write_join lockName_isName numberName_isName (by decide) hwrite
      split <;> exact hkept

/-! ## 2. One process at a time has the lock

Who is past the lock is the one that the lock names. -/

namespace Contest

/-- A process past the lock is the one that the machine keeps at it. -/
def Exclusive (dir : String) (c : Contest) : Prop :=
  ∀ p, c.stage p = .owning ∨ c.stage p = .holding →
    c.machine.locks.get? (lockKey c.machine dir) = some p

theorem exclusive_start (m : Machine) : (start m).Exclusive dir := by
  rintro p (h | h) <;> cases h

theorem machine_step (c : Contest) (dir : String) (alive : Nat → Bool) (q : Nat) :
    (c.step dir alive q).machine = (advance dir q alive c.machine (c.stage q)).2 := rfl

theorem stage_other (hne : p ≠ q) : (c.step dir alive q).stage p = c.stage p := if_neg hne

theorem stage_self {next : Stage}
    (h : (advance dir q alive c.machine (c.stage q)).1 = .ok next) :
    (c.step dir alive q).stage q = next := by
  unfold step
  simp only [if_true]
  rw [h]

/-- How far a process comes: where its step leads, or back to the beginning. -/
theorem stage_step (c : Contest) (dir : String) (alive : Nat → Bool) (q : Nat) :
    (advance dir q alive c.machine (c.stage q)).1 = .ok ((c.step dir alive q).stage q) ∨
      (c.step dir alive q).stage q = .outside := by
  cases hnext : (advance dir q alive c.machine (c.stage q)).1 with
  | ok next => exact .inl (congrArg _ (stage_self hnext).symm)
  | error e =>
    refine .inr ?_
    unfold step
    simp only [if_true]
    rw [hnext]

theorem lockKey_step (c : Contest) (dir : String) (alive : Nat → Bool) (q : Nat) :
    lockKey (c.step dir alive q).machine dir = lockKey c.machine dir :=
  lockKey_congr (advance_here c.machine dir q alive (c.stage q))

theorem exclusive_step (h : c.Exclusive dir) : (c.step dir alive q).Exclusive dir := by
  intro p hp
  have hlock := advance_atLock c.machine dir q alive (c.stage q)
  have hstage := stage_step c dir alive q
  rw [lockKey_step, machine_step]
  generalize (advance dir q alive c.machine (c.stage q)).1 = next at hlock hstage
  generalize (advance dir q alive c.machine (c.stage q)).2.locks = locks at hlock ⊢
  by_cases hpq : p = q
  · -- the step of the process itself has led past the lock
    subst hpq
    generalize (c.step dir alive p).stage p = after at hp hstage
    have hnext : next = .ok after := by
      rcases hstage with hnext | rfl
      · exact hnext
      · rcases hp with hp | hp <;> cases hp
    subst hnext
    cases hlock with
    | taken hs hfree => rw [Table.get?_insert, if_pos rfl]
    | kept hnot howning =>
      rcases hp with rfl | rfl
      · exact absurd rfl hnot
      · exact h p (.inl (howning rfl))
    | givenBack hnot hnot' hs =>
      rcases hp with rfl | rfl
      · exact absurd rfl hnot
      · exact absurd rfl hnot'
  · -- nobody else takes the lock from the process, or gives it back for it
    rw [stage_other hpq] at hp
    have hheld := h p hp
    cases hlock with
    | taken hs hfree =>
      rw [hfree] at hheld
      cases hheld
    | kept => exact hheld
    | givenBack hnot hnot' hs =>
      rw [h q hs, Option.some.injEq] at hheld
      exact absurd hheld.symm hpq

theorem exclusive_run (h : c.Exclusive dir) (pids : List Nat) :
    (c.run dir alive pids).Exclusive dir := by
  induction pids generalizing c with
  | nil => exact h
  | cons q pids ih => exact ih (exclusive_step h)

/-- **One process at a time holds the lock.** -/
theorem holds_unique (hp : ((start m).run dir alive pids).holds p)
    (hq : ((start m).run dir alive pids).holds q) : p = q := by
  have hexclusive : ((start m).run dir alive pids).Exclusive dir :=
    exclusive_run (exclusive_start m) pids
  have hheld := hexclusive p (.inr (of_decide_eq_true hp))
  rw [hexclusive q (.inr (of_decide_eq_true hq)), Option.some.injEq] at hheld
  exact hheld.symm

/-! ## 3. The number of the holder

Steps of others leave the file alone, unless one of them was leaving. -/

/-- The path of the file with the number leads to a place. -/
def Leads (dir : String) (c : Contest) : Prop :=
  ∃ parts, c.machine.files.locate (pidPath dir) = .ok parts

/-- While a process holds the lock, the others are before it, or on their way out. -/
theorem stage_of_holds (h : c.Exclusive dir) (hp : c.stage p = .holding) (hne : q ≠ p) :
    c.stage q = .outside ∨ c.stage q = .prepared ∨ c.stage q = .leaving := by
  have hlock := h p (.inr hp)
  have hnot : ¬ (c.stage q = .owning ∨ c.stage q = .holding) := by
    intro hq
    rw [h q hq, Option.some.injEq] at hlock
    exact hne hlock
  cases hq : c.stage q <;> simp_all

/-- Only who holds the lock goes on to leave. -/
theorem stage_step_ne_leaving (h : c.stage q ≠ .holding) :
    (c.step dir alive q).stage q ≠ .leaving := by
  have hnext : ∀ s, s ≠ .holding → (advance dir q alive c.machine s).1 ≠ .ok .leaving := by
    intro s hs
    cases s with
    | holding => exact absurd rfl hs
    | leaving => simp [advance]
    | outside | prepared | owning =>
      simp only [advance, prepare, lockFile, writeNumber]
      repeat' split
      all_goals simp
  rcases stage_step c dir alive q with hstage | hout
  · intro hleaving
    rw [hleaving] at hstage
    exact hnext _ h hstage
  · rw [hout]
    simp

/-- **A step beside the holder** leaves the number as it was, unless it takes it away. -/
theorem readText_step {text : String} (h : c.Exclusive dir) (hp : c.stage p = .holding)
    (hleads : c.Leads dir) (hne : q ≠ p) :
    (c.step dir alive q).Leads dir ∧
      ((c.step dir alive q).machine.files.readText (pidPath dir) = .ok text ↔
        c.machine.files.readText (pidPath dir) = .ok text ∧ c.stage q ≠ .leaving) := by
  obtain ⟨parts, hparts⟩ := hleads
  have hbefore : c.stage q = .outside ∨ c.stage q = .prepared ∨ c.stage q = .leaving :=
    stage_of_holds h hp hne
  rw [← or_assoc] at hbefore
  rcases hbefore with hs | hs
  · have hkept : Tree.KeepsFile (pidPath dir) c.machine.files
        (c.step dir alive q).machine.files := advance_keepsFile hs
    have hnot : c.stage q ≠ .leaving := by rcases hs with hs | hs <;> simp [hs]
    exact ⟨⟨parts, (hkept parts hparts).1⟩, by simp [hkept.readText_iff hparts, hnot]⟩
  · have hfiles : (c.step dir alive q).machine.files =
        (c.machine.files.removeFile (pidPath dir)).toOption.getD c.machine.files := by
      rw [machine_step, hs]
      rfl
    rw [Leads, hfiles]
    refine ⟨⟨parts, Tree.locate_removed hparts⟩, ?_⟩
    simp [Tree.readText_eq_ok_iff, Tree.not_read_removed, hs]

/-- **The number stays in its file exactly while nobody who was leaving goes on.** -/
theorem readText_run {text : String} (h : c.Exclusive dir) (hp : c.stage p = .holding)
    (hleads : c.Leads dir) (hpids : p ∉ pids) :
    (c.run dir alive pids).machine.files.readText (pidPath dir) = .ok text ↔
      c.machine.files.readText (pidPath dir) = .ok text ∧ ∀ q ∈ pids, c.stage q ≠ .leaving := by
  induction pids generalizing c with
  | nil => simp [run]
  | cons q pids ih =>
    rw [List.mem_cons, not_or] at hpids
    obtain ⟨hpq, hpids⟩ := hpids
    obtain ⟨hleads', hread⟩ : (c.step dir alive q).Leads dir ∧
        ((c.step dir alive q).machine.files.readText (pidPath dir) = .ok text ↔
          c.machine.files.readText (pidPath dir) = .ok text ∧ c.stage q ≠ .leaving) :=
      readText_step h hp hleads (Ne.symm hpq)
    have hp' : (c.step dir alive q).stage p = .holding := by rw [stage_other hpq, hp]
    -- who is leaving afterwards was leaving before
    have hstage : c.stage q ≠ .leaving →
        ∀ r, (c.step dir alive q).stage r ≠ .leaving ↔ c.stage r ≠ .leaving := by
      intro hq r
      by_cases hr : r = q
      · subst hr
        have hnot : c.stage r ≠ .holding := by
          rcases stage_of_holds h hp (Ne.symm hpq) with hs | hs | hs <;> simp [hs]
        simp [stage_step_ne_leaving hnot, hq]
      · rw [stage_other hr]
    calc (c.run dir alive (q :: pids)).machine.files.readText (pidPath dir) = .ok text
      _ ↔ (c.step dir alive q).machine.files.readText (pidPath dir) = .ok text ∧
            ∀ r ∈ pids, (c.step dir alive q).stage r ≠ .leaving :=
          ih (exclusive_step h) hp' hleads' hpids
      _ ↔ (c.machine.files.readText (pidPath dir) = .ok text ∧ c.stage q ≠ .leaving) ∧
            ∀ r ∈ pids, (c.step dir alive q).stage r ≠ .leaving := by rw [hread]
      _ ↔ c.machine.files.readText (pidPath dir) = .ok text ∧
            ∀ r ∈ q :: pids, c.stage r ≠ .leaving := by
          rw [List.forall_mem_cons, and_assoc]
          refine and_congr_right fun _ => and_congr_right fun hq => ?_
          exact forall_congr' fun r => imp_congr_right fun _ => hstage hq r

/-! ## 4. The holder is named

From the moment at which the holder wrote its number. -/

theorem stage_run_of_notMem (h : p ∉ pids) : (c.run dir alive pids).stage p = c.stage p := by
  induction pids generalizing c with
  | nil => rfl
  | cons q pids ih =>
    rw [List.mem_cons, not_or] at h
    exact (ih h.2).trans (stage_other h.1)

/-- **Who comes to hold the lock has written its number.** -/
theorem step_to_holding (h : (c.step dir alive p).stage p = .holding) :
    c.stage p = .owning ∧
      (c.step dir alive p).machine.files.readText (pidPath dir) = .ok (toString p) := by
  have hnext : (advance dir p alive c.machine (c.stage p)).1 = .ok .holding := by
    rcases stage_step c dir alive p with hstage | hout
    · rw [hstage, h]
    · rw [hout] at h
      cases h
  have howning : c.stage p = .owning := by
    have hlock := advance_atLock c.machine dir p alive (c.stage p)
    rw [hnext] at hlock
    generalize (advance dir p alive c.machine (c.stage p)).2.locks = locks at hlock
    cases hlock with
    | kept _ howning => exact howning rfl
    | givenBack _ hnot => exact absurd rfl hnot
  refine ⟨howning, ?_⟩
  rw [machine_step, howning]
  rw [howning] at hnext
  simp only [advance, writeNumber] at hnext ⊢
  split at hnext
  · rename_i files hwrite
    exact Tree.readText_writeText hwrite
  · cases hnext

/-- **The number of the holder.**  The last step of a process that holds the lock was to write its
number, and the file names the process exactly if nobody who was leaving the lock at that moment
has gone on since. -/
theorem number_kept_iff (m : Machine) (dir : String) (alive : Nat → Bool) (pids : List Nat)
    (p : Nat) (h : ((start m).run dir alive pids).holds p = true) :
    ∃ before after, pids = before ++ p :: after ∧ p ∉ after ∧
      ((start m).run dir alive before).stage p = .owning ∧
      (((start m).run dir alive pids).machine.files.readText (pidPath dir) = .ok (toString p) ↔
        ∀ q ∈ after, ((start m).run dir alive before).stage q ≠ .leaving) := by
  have hholding := of_decide_eq_true h
  have hmem : p ∈ pids.reverse := by
    by_contra hnot
    rw [stage_run_of_notMem (by simpa using hnot)] at hholding
    cases hholding
  -- the last step of the process: before it the process had not written, after it others step only
  obtain ⟨after, before, hpids, hafter⟩ := List.eq_append_cons_of_mem hmem
  have hsplit : pids = before.reverse ++ p :: after.reverse := by
    rw [← List.reverse_inj, hpids]
    simp
  refine ⟨before.reverse, after.reverse, hsplit, by simpa using hafter, ?_⟩
  generalize before.reverse = before at hsplit
  have hnot : p ∉ after.reverse := by simpa using hafter
  generalize after.reverse = after at hsplit hnot
  have hrun : (start m).run dir alive pids =
      (((start m).run dir alive before).step dir alive p).run dir alive after := by
    rw [hsplit, run, List.foldl_append]
    rfl
  generalize hc : (start m).run dir alive before = c at hrun ⊢
  have hexclusive : c.Exclusive dir := hc ▸ exclusive_run (exclusive_start m) before
  rw [hrun, stage_run_of_notMem hnot] at hholding
  obtain ⟨howning, hwritten⟩ := step_to_holding hholding
  have hleads : (c.step dir alive p).Leads dir := by
    obtain ⟨-, parts, -, hparts, -⟩ := Tree.read_eq_ok_iff.mp (Tree.readText_eq_ok_iff.mp hwritten)
    exact ⟨parts, hparts⟩
  refine ⟨howning, ?_⟩
  rw [hrun, readText_run (exclusive_step hexclusive) hholding hleads hnot, and_iff_right hwritten]
  refine forall_congr' fun q => imp_congr_right fun hq => ?_
  rw [stage_other (show q ≠ p from fun heq => hnot (heq ▸ hq))]

/-- The first process is gone before the second one writes its number, and a third one is
refused. -/
theorem successor_named :
    ((start {}).run "/run" (fun _ => true) [1, 1, 1, 1, 2, 2, 1, 2, 3, 3]).holds 2 = true ∧
      ∃ before after, [1, 1, 1, 1, 2, 2, 1, 2, 3, 3] = before ++ 2 :: after ∧ 2 ∉ after ∧
        ((start {}).run "/run" (fun _ => true) before).stage 2 = .owning ∧
        (((start {}).run "/run" (fun _ => true)
            [1, 1, 1, 1, 2, 2, 1, 2, 3, 3]).machine.files.readText (pidPath "/run") =
              .ok (toString 2) ↔
          ∀ q ∈ after, ((start {}).run "/run" (fun _ => true) before).stage q ≠ .leaving) := by
  have hholds : ((start {}).run "/run" (fun _ => true) [1, 1, 1, 1, 2, 2, 1, 2, 3, 3]).holds 2 =
      true := by decide +kernel
  exact ⟨hholds, number_kept_iff {} "/run" (fun _ => true) _ 2 hholds⟩

/-- **A holder that is not named**: the first process gives the lock back, the second one takes it
and writes its number, and then the first one removes the number. -/
theorem late_removal_unnames_holder :
    ¬ ∀ (m : Machine) (dir : String) (alive : Nat → Bool) (pids : List Nat) (p : Nat),
      ((start m).run dir alive pids).holds p = true →
      ((start m).run dir alive pids).machine.files.readText (pidPath dir) = .ok (toString p) := by
  intro hnamed
  have hread := hnamed {} "/run" (fun _ => true) [1, 1, 1, 1, 2, 2, 2, 1] 2 (by decide +kernel)
  exact absurd hread (by decide +kernel)

end Contest
end RunLock
end Foreman

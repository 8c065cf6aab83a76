/-
# Records behind others of their name

Where names are not distinct, look-ups and changes reach only the first record of a name, and the
others stay as they are for ever.  That would be fatal for a record that waits for its next attempt.
But a record is added only for a task without an open worker, so whoever stands behind a record of
his name was added as an active one, and is active for ever: his task is busy, and nobody is ever
started for it again.  What follows rests on that.

* `Orderly`: records behind others are active, and the open records of a task have one name.
* `find?_of_inactive`: so a worker that is not active is the one a look-up finds.
* `Orderly.updateFirst`, `Orderly.append`: the two ways in which the records change.

Of the records that stand in front nothing is said but that. One of them may change in any way
its own task allows, and it is the one that every call by that name reaches.
-/
import Foreman.Proofs.State.Liveness

namespace Foreman

namespace State

/-! ## 1. Whoever stands behind another is active

A list is read from the front; a record whose name has come before has to be active. -/

/-- A record behind another of its name is active. -/
def Shadowed (v w : Worker) : Prop := v.id = w.id → w.status.isActive = true

section Shadows

variable {ws : List Worker} {workerId : String} {f : Worker → Worker} {u v : Worker}

/-- A change of the first record of a name changes nothing in front of others. -/
theorem pairwise_updateFirst (h : ws.Pairwise Shadowed) (hid : ∀ w, (f w).id = w.id) :
    (updateFirst workerId f ws).Pairwise Shadowed := by
  cases hfirst : ws.find? fun v => v.id = workerId with
  | none =>
    rw [updateFirst_eq_self fun w hw => by simpa using List.find?_eq_none.mp hfirst w hw]
    exact h
  | some v =>
    obtain ⟨before, after, hws, hbefore, hupdate⟩ := exists_updateFirst hfirst f
    rw [hws, List.pairwise_append, List.pairwise_cons] at h
    obtain ⟨hb, ⟨hv, ha⟩, hacross⟩ := h
    rw [hupdate, List.pairwise_append, List.pairwise_cons]
    refine ⟨hb, ⟨fun w hw hname => hv w hw ((hid v).symm.trans hname), ha⟩, ?_⟩
    intro u hu w hw
    rcases List.mem_cons.mp hw with rfl | hw
    · intro hname
      have hvname : v.id = workerId := (find?_key_mem hfirst).2
      exact absurd (hname.trans ((hid v).trans hvname)) (hbefore u hu)
    · exact hacross u hu w (List.mem_cons_of_mem _ hw)

/-- A record after a change is the first of the name, changed, or it was there before, and then it
has another name or is active. -/
theorem mem_updateFirst_shadowed (h : ws.Pairwise Shadowed) (hu : u ∈ updateFirst workerId f ws) :
    (∃ v, (ws.find? fun w => w.id = workerId) = some v ∧ u = f v) ∨
      u ∈ ws ∧ (u.id = workerId → u.status.isActive = true) := by
  cases hfirst : ws.find? fun v => v.id = workerId with
  | none =>
    have hother : ∀ w ∈ ws, w.id ≠ workerId := fun w hw => by
      simpa using List.find?_eq_none.mp hfirst w hw
    rw [updateFirst_eq_self hother] at hu
    exact Or.inr ⟨hu, fun hname => absurd hname (hother u hu)⟩
  | some v =>
    obtain ⟨before, after, hws, hbefore, hupdate⟩ := exists_updateFirst hfirst f
    rw [hws, List.pairwise_append, List.pairwise_cons] at h
    rw [hupdate, List.mem_append, List.mem_cons] at hu
    rcases hu with hu | rfl | hu
    · refine Or.inr ⟨?_, fun hname => absurd hname (hbefore u hu)⟩
      rw [hws]
      exact List.mem_append_left _ hu
    · exact Or.inl ⟨v, rfl, rfl⟩
    · have hvname : v.id = workerId := (find?_key_mem hfirst).2
      refine Or.inr ⟨?_, fun hname => h.2.1.1 u hu (hvname.trans hname.symm)⟩
      rw [hws]
      exact List.mem_append_right _ (List.mem_cons_of_mem _ hu)

/-- A worker that is not active is the first of its name. -/
theorem find?_of_inactive (h : ws.Pairwise Shadowed) (hv : v ∈ ws)
    (hinactive : v.status.isActive = false) : (ws.find? fun w => w.id = v.id) = some v := by
  cases hfirst : ws.find? fun w => w.id = v.id with
  | none =>
    have hnone := List.find?_eq_none.mp hfirst v hv
    simp at hnone
  | some w =>
    obtain ⟨before, after, hws, hbefore, -⟩ := exists_updateFirst hfirst id
    rw [hws, List.pairwise_append, List.pairwise_cons] at h
    rw [hws, List.mem_append, List.mem_cons] at hv
    rcases hv with hv | rfl | hv
    · exact absurd rfl (hbefore v hv)
    · rfl
    · have hactive := h.2.1.1 v hv (find?_key_mem hfirst).2
      rw [hinactive] at hactive
      cases hactive

/-- Of workers that were given up one after the other, those that were not reached are as before,
and active if they have the name of one that was given up. -/
theorem mem_abandonAll : ∀ {lost : List Worker} {s : State}, s.workers.Pairwise Shadowed →
    u ∈ (s.abandonAll lost).workers →
      u.status = .abandoned ∨ u ∈ s.workers ∧ ∀ w ∈ lost, u.id = w.id → u.status.isActive = true
  | [], s, _, hu => Or.inr ⟨hu, by simp⟩
  | w :: lost, s, h, hu => by
    have hnext : (s.abandon w.id).workers.Pairwise Shadowed :=
      pairwise_updateFirst h (f := abandoned) fun _ => rfl
    rcases mem_abandonAll hnext hu with hgone | ⟨hmem, hrest⟩
    · exact Or.inl hgone
    · rcases mem_updateFirst_shadowed h hmem with ⟨v, -, rfl⟩ | ⟨hmem, hfirst⟩
      · exact Or.inl rfl
      · exact Or.inr ⟨hmem, List.forall_mem_cons.mpr ⟨hfirst, hrest⟩⟩

end Shadows

/-! ## 2. Records in order

The property of a list of records, and that it is kept when the first record of a name changes
and when a record is added for a task without an open worker. -/

/-- The records are in order. -/
structure Orderly (ws : List Worker) : Prop where
  shadowed : ws.Pairwise Shadowed
  /-- The open records of a task have one name. -/
  oneOpen : ∀ v ∈ ws, ∀ w ∈ ws, v.taskId = w.taskId → v.status.isTerminal = false →
    w.status.isTerminal = false → v.id = w.id
  /-- Every record has made an attempt. -/
  counted : ∀ w ∈ ws, 1 ≤ w.iteration

namespace Orderly

variable {ws ws' : List Worker} {workerId : String} {f : Worker → Worker} {v : Worker}

theorem nil : Orderly [] := ⟨List.Pairwise.nil, by simp, by simp⟩

/-- **The first record of a name changes**, and is open afterwards only if an open record of its
task has the name. -/
theorem updateFirst (h : Orderly ws) (hid : ∀ w, (f w).id = w.id)
    (htask : ∀ w, (f w).taskId = w.taskId) (hcount : ∀ w, w.iteration ≤ (f w).iteration)
    (hopen : ∀ v, (ws.find? fun w => w.id = workerId) = some v →
      (f v).status.isTerminal = false →
        ∃ u ∈ ws, u.id = workerId ∧ u.taskId = v.taskId ∧ u.status.isTerminal = false) :
    Orderly (updateFirst workerId f ws) := by
  -- every open record afterwards stands for one of its name and task that was open before
  have hwas : ∀ u ∈ State.updateFirst workerId f ws, u.status.isTerminal = false →
      ∃ w ∈ ws, w.id = u.id ∧ w.taskId = u.taskId ∧ w.status.isTerminal = false := by
    intro u hu huopen
    rcases mem_updateFirst_shadowed h.shadowed hu with ⟨v, hv, rfl⟩ | ⟨hmem, -⟩
    · obtain ⟨w, hw, hwid, hwtask, hwopen⟩ := hopen v hv huopen
      have hvid : v.id = workerId := (find?_key_mem hv).2
      exact ⟨w, hw, hwid.trans (hvid.symm.trans (hid v).symm), hwtask.trans (htask v).symm, hwopen⟩
    · exact ⟨u, hmem, rfl, rfl, huopen⟩
  refine ⟨pairwise_updateFirst h.shadowed hid, ?_, ?_⟩
  · intro u hu w hw hsame huopen hwopen
    obtain ⟨u', hu', huid, hutask, huopen'⟩ := hwas u hu huopen
    obtain ⟨w', hw', hwid, hwtask, hwopen'⟩ := hwas w hw hwopen
    rw [← huid, ← hwid]
    exact h.oneOpen u' hu' w' hw' (hutask.trans (hsame.trans hwtask.symm)) huopen' hwopen'
  · intro u hu
    rcases mem_updateFirst_shadowed h.shadowed hu with ⟨v, hv, rfl⟩ | ⟨hmem, -⟩
    · exact Nat.le_trans (h.counted v (find?_key_mem hv).1) (hcount v)
    · exact h.counted u hmem

/-- **A record is added for a task without an open worker.** -/
theorem append (h : Orderly ws) (hactive : v.status.isActive = true) (hcount : 1 ≤ v.iteration)
    (hclosed : ∀ w ∈ ws, w.taskId = v.taskId → w.status.isTerminal = true) :
    Orderly (ws ++ [v]) := by
  refine ⟨?_, ?_, ?_⟩
  · rw [List.pairwise_append]
    refine ⟨h.shadowed, List.pairwise_singleton _ _, fun u _ w hw _ => ?_⟩
    rw [List.mem_singleton.mp hw]
    exact hactive
  · simp only [List.mem_append, List.mem_singleton]
    rintro u (hu | rfl) w (hw | rfl) hsame huopen hwopen
    · exact h.oneOpen u hu w hw hsame huopen hwopen
    · rw [hclosed u hu hsame] at huopen
      cases huopen
    · rw [hclosed w hw hsame.symm] at hwopen
      cases hwopen
    · rfl
  · simp only [List.mem_append, List.mem_singleton]
    rintro u (hu | rfl)
    · exact h.counted u hu
    · exact hcount

theorem abandonAll : ∀ {lost : List Worker} {s : State}, Orderly s.workers →
    Orderly (s.abandonAll lost).workers
  | [], _, h => h
  | w :: lost, s, h => by
    have hnext : Orderly (s.abandon w.id).workers :=
      h.updateFirst (f := abandoned) (fun _ => rfl) (fun _ => rfl) (fun _ => Nat.le_refl _)
        fun v _ hopen => by cases hopen
    exact hnext.abandonAll

end Orderly
end State
end Foreman

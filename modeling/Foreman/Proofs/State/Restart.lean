/-
# What a restart leaves, and what it reports

A restart sets the records against the processes that run.  Where workers have distinct names it
leaves a state in which every active worker has a process, and a second restart finds nothing to do.

What it reports is another matter.  The report begins with the task of every lost worker, whatever
has become of that task, and goes on with the tasks that were returned to pending and are not in it
yet.  So no returned task is missing; but a crash between the writing of the two documents can leave
a lost worker with a task that is done, and then the report names a task that nobody returned.

* `restart_leaves_consistent`: what a restart leaves, and that it is a fixed point.
* `restoreLiveness_reset`: the report, in its two parts.
* `restart_reports_iff`: when it names the returned tasks, each once, and no other.

A restart is `restore_liveness_with`, with the question whether a process is alive as a
parameter, so nothing here depends on the machine.  It has two loops: the workers whose process
is gone are given up one after the other, and then the tasks are looked at in the order of the
backlog.
-/
import Mathlib.Data.List.Nodup
import Foreman.Proofs.State.Liveness

namespace Foreman

/-- A live process stands behind the worker. -/
def Worker.HasProcess (alive : Nat → Bool) (w : Worker) : Prop :=
  ∃ pid ∈ w.pid, alive pid = true

instance (alive : Nat → Bool) (w : Worker) : Decidable (w.HasProcess alive) :=
  inferInstanceAs (Decidable (∃ pid ∈ w.pid, alive pid = true))

namespace State

variable {alive : Nat → Bool} {s : State} {ts : List Task} {reset : List String}

/-! ## 1. Lost workers

Who is given up, and that the records afterwards depend on nothing else. -/

/-- The active workers without a live process. -/
def lost (s : State) (alive : Nat → Bool) : List Worker :=
  s.workers.filter fun w => w.status.isActive = true ∧ ¬ w.HasProcess alive

theorem mem_lost {w : Worker} :
    w ∈ s.lost alive ↔ w ∈ s.workers ∧ w.status.isActive = true ∧ ¬ w.HasProcess alive := by
  simp [lost]

/-- These are the workers that a restart gives up. -/
theorem lost_eq (s : State) (alive : Nat → Bool) :
    s.lost alive = s.workers.filter (isLost alive) := by
  refine List.filter_congr fun w _ => ?_
  rw [Bool.eq_iff_iff, decide_eq_true_iff]
  unfold isLost Worker.HasProcess
  cases w.pid <;> simp

theorem restoreLiveness_fst (s : State) (tasks : List Task) (alive : Nat → Bool) :
    (s.restoreLiveness tasks alive).1 = s.abandonAll (s.lost alive) := by
  rw [lost_eq]
  rfl

/-- Where names are distinct, a worker that has the name of a lost one is that one. -/
theorem mem_map_id_lost (hids : (s.workers.map Worker.id).Nodup) {w : Worker}
    (hw : w ∈ s.workers) : w.id ∈ (s.lost alive).map Worker.id ↔ w ∈ s.lost alive := by
  refine ⟨fun h => ?_, List.mem_map_of_mem⟩
  obtain ⟨v, hv, hname⟩ := List.mem_map.mp h
  rwa [List.inj_on_of_nodup_map hids (mem_lost.mp hv).1 hw hname] at hv

/-- **The records after a restart**: the lost workers are abandoned. -/
theorem restoreLiveness_workers (hids : (s.workers.map Worker.id).Nodup) (tasks : List Task)
    (alive : Nat → Bool) :
    (s.restoreLiveness tasks alive).1.workers =
      s.workers.map fun w => if w ∈ s.lost alive then abandoned w else w := by
  rw [restoreLiveness_fst, abandonAll_workers _ hids]
  refine List.map_congr_left fun w hw => ?_
  simp only [mem_map_id_lost hids hw]

/-- After a restart every active worker has a process. -/
theorem hasProcess_restoreLiveness (hids : (s.workers.map Worker.id).Nodup) (tasks : List Task)
    (alive : Nat → Bool) :
    ∀ w ∈ (s.restoreLiveness tasks alive).1.workers, w.status.isActive = true →
      w.HasProcess alive := by
  rw [restoreLiveness_workers hids]
  intro v hv hactive
  obtain ⟨w, hw, rfl⟩ := List.mem_map.mp hv
  by_cases hlost : w ∈ s.lost alive
  · rw [if_pos hlost] at hactive
    cases hactive
  · rw [if_neg hlost] at hactive ⊢
    by_contra hnone
    exact hlost (mem_lost.mpr ⟨hw, hactive, hnone⟩)

/-- Where every active worker has a process, nobody is lost. -/
theorem lost_eq_nil (h : ∀ w ∈ s.workers, w.status.isActive = true → w.HasProcess alive) :
    s.lost alive = [] := by
  refine List.eq_nil_iff_forall_not_mem.mpr fun w hw => ?_
  obtain ⟨hmem, hactive, hnone⟩ := mem_lost.mp hw
  exact hnone (h w hmem hactive)

/-! ## 2. Returned tasks and the report

The report as a list: the tasks of the lost workers in the order of the records, then the
returned tasks that are not among them. -/

/-- Where every task in progress has an active worker, no task is returned. -/
theorem returnTasks_eq_self (h : ∀ t ∈ ts, t.status = .inProgress → s.hasActiveWorker t.id = true) :
    returnTasks s reset ts = (ts, reset) := by
  induction ts with
  | nil => rfl
  | cons t ts ih =>
    rw [List.forall_mem_cons] at h
    rw [returnTasks, if_neg fun hboth => hboth.2 (h.1 hboth.1), ih h.2]

/-- The task is in progress, and nobody works on it. -/
def isIdle (s : State) (t : Task) : Bool :=
  t.status = .inProgress && !s.hasActiveWorker t.id

theorem isIdle_iff {t : Task} :
    s.isIdle t = true ↔ t.status = .inProgress ∧ s.hasActiveWorker t.id = false := by
  simp [isIdle]

theorem returned_of_isIdle {t : Task} (h : s.isIdle t = true) :
    s.returned t = { t with status := .pending } := by
  rw [isIdle_iff] at h
  exact if_pos ⟨h.1, by rw [h.2]; decide⟩

theorem returned_of_not_isIdle {t : Task} (h : s.isIdle t = false) : s.returned t = t := by
  refine if_neg fun hboth => ?_
  rw [← Bool.not_eq_true, isIdle_iff] at h
  exact h ⟨hboth.1, Bool.not_eq_true _ ▸ hboth.2⟩

theorem returnTasks_cons_of_isIdle {t : Task} (h : s.isIdle t = true) :
    (returnTasks s reset (t :: ts)).2 =
      (returnTasks s (if t.id ∈ reset then reset else reset ++ [t.id]) ts).2 := by
  rw [isIdle_iff] at h
  rw [returnTasks, if_pos ⟨h.1, by simp [h.2]⟩]

theorem returnTasks_cons_of_not_isIdle {t : Task} (h : s.isIdle t = false) :
    (returnTasks s reset (t :: ts)).2 = (returnTasks s reset ts).2 := by
  rw [← Bool.not_eq_true, isIdle_iff] at h
  rw [returnTasks, if_neg fun hboth => h ⟨hboth.1, by simpa using hboth.2⟩]

/-- What is reported: first what is there already, and then the returned tasks that are not. -/
theorem returnTasks_snd (s : State) : ∀ {ts : List Task} (reset : List String),
    (ts.map Task.id).Nodup →
      (returnTasks s reset ts).2 =
        reset ++ ((ts.filter s.isIdle).map Task.id).filter fun id => id ∉ reset
  | [], reset, _ => by simp [returnTasks]
  | t :: ts, reset, h => by
    rw [List.map_cons, List.nodup_cons] at h
    cases hidle : s.isIdle t with
    | false =>
      rw [returnTasks_cons_of_not_isIdle hidle, List.filter_cons_of_neg (by simp [hidle])]
      exact returnTasks_snd s reset h.2
    | true =>
      rw [returnTasks_cons_of_isIdle hidle, List.filter_cons_of_pos hidle, List.map_cons]
      by_cases hin : t.id ∈ reset
      · rw [if_pos hin, List.filter_cons_of_neg (by simpa using hin)]
        exact returnTasks_snd s reset h.2
      · -- the tasks behind have other names, so it does not matter to them that this one is in
        have hrest : (((ts.filter s.isIdle).map Task.id).filter fun id => id ∉ reset ++ [t.id]) =
            ((ts.filter s.isIdle).map Task.id).filter fun id => id ∉ reset := by
          refine List.filter_congr fun id hid => ?_
          have hne : id ≠ t.id := by
            rintro rfl
            exact h.1 ((List.filter_sublist.map Task.id).subset hid)
          simp [hne]
        rw [if_neg hin, List.filter_cons_of_pos (by simpa using hin),
          returnTasks_snd s (reset ++ [t.id]) h.2, hrest, List.append_assoc, List.singleton_append]

/-- The task was in progress, and is pending now. -/
def WentBack (tasks tasks' : List Task) (taskId : String) : Prop :=
  ∃ t ∈ tasks, ∃ t' ∈ tasks', t.id = taskId ∧ t'.id = taskId ∧
    t.status = .inProgress ∧ t'.status = .pending

instance (tasks tasks' : List Task) (taskId : String) : Decidable (WentBack tasks tasks' taskId) :=
  inferInstanceAs (Decidable (∃ t ∈ tasks, ∃ t' ∈ tasks', _))

/-- The tasks that went back are those in progress that nobody works on. -/
theorem wentBack_iff (hids : (ts.map Task.id).Nodup) {taskId : String} :
    WentBack ts (ts.map s.returned) taskId ↔ taskId ∈ (ts.filter s.isIdle).map Task.id := by
  constructor
  · rintro ⟨t, ht, t', ht', rfl, hname, hbefore, hafter⟩
    obtain ⟨u, hu, rfl⟩ := List.mem_map.mp ht'
    obtain rfl := List.inj_on_of_nodup_map hids hu ht ((returned_id s u).symm.trans hname)
    cases hidle : s.isIdle u with
    | true => exact List.mem_map_of_mem (List.mem_filter.mpr ⟨hu, hidle⟩)
    | false =>
      rw [returned_of_not_isIdle hidle, hbefore] at hafter
      cases hafter
  · intro h
    obtain ⟨t, ht, rfl⟩ := List.mem_map.mp h
    obtain ⟨hmem, hidle⟩ := List.mem_filter.mp ht
    refine ⟨t, hmem, s.returned t, List.mem_map_of_mem hmem, rfl, returned_id s t,
      (isIdle_iff.mp hidle).1, ?_⟩
    rw [returned_of_isIdle hidle]

/-- **The report of a restart**: the tasks of the lost workers, and then those of the returned tasks
that are not among them. -/
theorem restoreLiveness_reset (s : State) {tasks : List Task} (hids : (tasks.map Task.id).Nodup)
    (alive : Nat → Bool) :
    (s.restoreLiveness tasks alive).2.2 =
      (s.lost alive).map Worker.taskId ++
        ((tasks.filter (s.restoreLiveness tasks alive).1.isIdle).map Task.id).filter fun id =>
          id ∉ (s.lost alive).map Worker.taskId := by
  rw [restoreLiveness_fst, lost_eq]
  exact returnTasks_snd _ _ hids

/-- Some names, and then those of a second list that are not among them: when these are the names of
the second list, each once. -/
theorem exact_append_filter_iff {given idle : List String} (hidle : idle.Nodup) :
    ((given ++ idle.filter fun id => id ∉ given).Nodup ∧
        ∀ id, id ∈ given ++ (idle.filter fun id => id ∉ given) ↔ id ∈ idle) ↔
      given.Nodup ∧ ∀ id ∈ given, id ∈ idle := by
  constructor
  · rintro ⟨hnodup, hmem⟩
    exact ⟨(List.nodup_append.mp hnodup).1, fun id hid => (hmem id).mp (List.mem_append_left _ hid)⟩
  · rintro ⟨hnodup, hsub⟩
    refine ⟨List.nodup_append.mpr ⟨hnodup, hidle.filter _, ?_⟩, fun id => ?_⟩
    · rintro a ha b hb rfl
      simp [ha] at hb
    · rw [List.mem_append, List.mem_filter, decide_eq_true_iff]
      exact ⟨fun h => h.elim (hsub id) And.left,
        fun h => or_iff_not_imp_left.mpr fun hnot => ⟨h, hnot⟩⟩

/-! ## 3. What a restart leaves

The state after it, and the state after two of them. -/

/-- What a restart has to make of a state and of the tasks, given which processes are alive. -/
structure Restored (alive : Nat → Bool) (s : State) (tasks : List Task) (s' : State)
    (tasks' : List Task) : Prop where
  /-- Every active worker has a live process. -/
  manned : ∀ w ∈ s'.workers, w.status.isActive = true → w.HasProcess alive
  /-- The lost workers are abandoned, and no other record has changed. -/
  records : s'.workers =
    s.workers.map fun w => if w ∈ s.lost alive then { w with status := .abandoned } else w
  /-- The claims of the lost workers are gone, and the others stand in their order. -/
  claims : s'.registry.claims =
    s.registry.claims.filter fun c => c.workerId ∉ (s.lost alive).map Worker.id
  /-- Nobody waits for a lost worker. -/
  queue : ∀ e ∈ s'.registry.queue, e.blocking.workerId ∉ (s.lost alive).map Worker.id
  /-- A task that was in progress and has no active worker left is pending, and no other task has
  changed. -/
  tasks : tasks' = tasks.map fun t =>
    if t.status = .inProgress ∧ ¬ ∃ w ∈ s'.workers, w.taskId = t.id ∧ w.status.isActive = true then
      { t with status := .pending }
    else t
  /-- All else is what it was. -/
  rest : s' = { s with workers := s'.workers, registry := s'.registry }

theorem restoreLiveness_restored (hids : (s.workers.map Worker.id).Nodup) (tasks : List Task)
    (alive : Nat → Bool) :
    Restored alive s tasks (s.restoreLiveness tasks alive).1
      (s.restoreLiveness tasks alive).2.1 where
  manned := hasProcess_restoreLiveness hids tasks alive
  records := restoreLiveness_workers hids tasks alive
  claims := by rw [restoreLiveness_fst, abandonAll_claims]
  queue := by
    rw [restoreLiveness_fst]
    exact abandonAll_queue (s.lost alive) s
  tasks := by
    rw [restoreLiveness_tasks, restoreLiveness_fst, lost_eq]
    refine List.map_congr_left fun t _ => ?_
    simp only [returned, hasActiveWorker_iff]
  rest := by
    rw [restoreLiveness_fst]
    exact abandonAll_eq (s.lost alive) s

/-- Where every active worker has a process and every task in progress has an active worker, a
restart finds nothing to do. -/
theorem restoreLiveness_eq_self {tasks : List Task}
    (hmanned : ∀ w ∈ s.workers, w.status.isActive = true → w.HasProcess alive)
    (hbusy : ∀ t ∈ tasks, t.status = .inProgress → s.hasActiveWorker t.id = true) :
    s.restoreLiveness tasks alive = (s, tasks, []) := by
  rw [restoreLiveness, ← lost_eq, lost_eq_nil hmanned]
  simp only [List.foldl_nil, List.map_nil, returnTasks_eq_self hbusy]

/-- After a restart every task in progress has an active worker. -/
theorem Restored.hasActiveWorker {s' : State} {tasks tasks' : List Task}
    (h : Restored alive s tasks s' tasks') :
    ∀ t ∈ tasks', t.status = .inProgress → s'.hasActiveWorker t.id = true := by
  rw [h.tasks]
  intro u hu hstatus
  obtain ⟨t, -, rfl⟩ := List.mem_map.mp hu
  split at hstatus
  · cases hstatus
  · rename_i hkept
    rw [if_neg hkept, hasActiveWorker_iff]
    by_contra hnobody
    exact hkept ⟨hstatus, hnobody⟩

end State

/-- **A restart leaves a consistent state, and a second one finds nothing to do.**  Let the workers
have distinct names, and let any processes be alive.  Then, after a restart, every active worker has
a live process; exactly the active workers without one are abandoned; their claims are gone, and
nobody waits for them; a task is in progress if it was before and still has an active worker, and
goes back to pending if it has none; and nothing else has changed.  The same restart once more
changes nothing, and has nothing to report. -/
theorem restart_leaves_consistent {s : State} (hids : (s.workers.map Worker.id).Nodup)
    (tasks : List Task) (alive : Nat → Bool) :
    let (s', tasks', _) := s.restoreLiveness tasks alive
    State.Restored alive s tasks s' tasks' ∧
      s'.restoreLiveness tasks' alive = (s', tasks', []) := by
  have hrestored := State.restoreLiveness_restored hids tasks alive
  generalize s.restoreLiveness tasks alive = r at hrestored
  obtain ⟨s', tasks', reset⟩ := r
  exact ⟨hrestored, State.restoreLiveness_eq_self hrestored.manned hrestored.hasActiveWorker⟩

namespace Sample

/-- Only one process has survived. -/
def survivors (pid : Nat) : Bool := pid = 7

/-- A worker as the program that died has left it. -/
def leftWorker (id taskId : String) (pid : Option Nat) (status : WorkerStatus) : Worker where
  id := id
  taskId := taskId
  workspace := "/wt/" ++ id
  backend := "mock"
  pid := pid
  startedAt := ⟨20000, 28800, 0⟩
  sessionId := none
  iteration := 1
  status := status

/-- The first worker lives, the second and the third are lost, and the fourth waits for its next
attempt.  Two tasks wait for the second worker: the one could go on only after the third worker as
well, the other only after the first. -/
def aftermath : State where
  workers :=
    [leftWorker "w1" "T-1" (some 7) .running, leftWorker "w2" "T-2" none .running,
      leftWorker "w3" "T-3" (some 8) .spawned, leftWorker "w4" "T-4" none .awaitingRetry]
  registry :=
    { claims :=
        [⟨"lib", "w1", "T-1", ⟨20000, 28800, 0⟩⟩, ⟨"src", "w2", "T-2", ⟨20000, 28800, 0⟩⟩,
          ⟨"docs", "w3", "T-3", ⟨20000, 28800, 0⟩⟩]
      queue :=
        [⟨"T-5", ["src/a.rs", "docs/a.md"], ⟨"w2", "T-2", "src"⟩, ⟨20000, 28801, 0⟩⟩,
          ⟨"T-6", ["src/b.rs", "lib/b.rs"], ⟨"w2", "T-2", "src"⟩, ⟨20000, 28801, 0⟩⟩] }

/-- The tasks of these workers; the third one's is in progress, or has gone on without the record
of its worker. -/
def leftTasks (third : TaskStatus) : List Task :=
  [{ id := "T-1", status := .inProgress }, { id := "T-2", status := .inProgress },
    { id := "T-3", status := third }, { id := "T-4" }, { id := "T-5" }, { id := "T-6" }]

end Sample

/-- The entry that waits for two lost workers is pointed from the one to the other and goes, and the
other entry ends at the worker that lives. -/
theorem aftermath_leaves_consistent :
    (Sample.aftermath.workers.map Worker.id).Nodup ∧
      let (s', tasks', _) :=
        Sample.aftermath.restoreLiveness (Sample.leftTasks .done) Sample.survivors
      (s'.workers.map Worker.status = [.running, .abandoned, .abandoned, .awaitingRetry] ∧
        s'.registry.queue.map (fun e => (e.taskId, e.blocking.workerId)) = [("T-6", "w1")] ∧
        tasks'.map Task.status = [.inProgress, .pending, .done, .pending, .pending, .pending]) ∧
      State.Restored Sample.survivors Sample.aftermath (Sample.leftTasks .done) s' tasks' ∧
        s'.restoreLiveness tasks' Sample.survivors = (s', tasks', []) := by
  have hids : (Sample.aftermath.workers.map Worker.id).Nodup := by decide +kernel
  exact ⟨hids, by decide +kernel,
    restart_leaves_consistent hids (Sample.leftTasks .done) Sample.survivors⟩

/-- **A restart reports every task that it returns**, and it reports them exactly, each once and no
other, if and only if no task has lost two workers and every task that has lost one was in progress
and has no active worker left.  The names of the tasks are distinct; those of the workers need not
be. -/
theorem restart_reports_iff (s : State) {tasks : List Task} (hids : (tasks.map Task.id).Nodup)
    (alive : Nat → Bool) :
    let (s', tasks', reset) := s.restoreLiveness tasks alive
    (∀ id, State.WentBack tasks tasks' id → id ∈ reset) ∧
      ((reset.Nodup ∧ ∀ id, id ∈ reset ↔ State.WentBack tasks tasks' id) ↔
        ((s.lost alive).map Worker.taskId).Nodup ∧
          ∀ w ∈ s.lost alive, ∃ t ∈ tasks, t.id = w.taskId ∧ t.status = .inProgress ∧
            s'.hasActiveWorker t.id = false) := by
  have hreset := s.restoreLiveness_reset hids alive
  have htasks := s.restoreLiveness_tasks tasks alive
  rw [← State.lost_eq, ← s.restoreLiveness_fst tasks] at htasks
  generalize s.restoreLiveness tasks alive = r at hreset htasks
  obtain ⟨s', tasks', reset⟩ := r
  dsimp only at hreset htasks
  subst htasks
  simp only [State.wentBack_iff hids]
  have hnodup : ((tasks.filter s'.isIdle).map Task.id).Nodup :=
    hids.sublist (List.filter_sublist.map Task.id)
  -- the report is the tasks of lost workers, and then the other returned ones
  have hnames : (∀ id ∈ (s.lost alive).map Worker.taskId,
      id ∈ (tasks.filter s'.isIdle).map Task.id) ↔
        ∀ w ∈ s.lost alive, ∃ t ∈ tasks, t.id = w.taskId ∧ t.status = .inProgress ∧
          s'.hasActiveWorker t.id = false := by
    rw [List.forall_mem_map]
    refine forall₂_congr fun w _ => ?_
    simp only [List.mem_map, List.mem_filter, State.isIdle_iff]
    constructor
    · rintro ⟨t, ⟨ht, hidle⟩, hname⟩
      exact ⟨t, ht, hname, hidle⟩
    · rintro ⟨t, ht, hname, hidle⟩
      exact ⟨t, ⟨ht, hidle⟩, hname⟩
  rw [hreset, ← hnames]
  refine ⟨fun id hid => ?_, State.exact_append_filter_iff hnodup⟩
  rw [List.mem_append, List.mem_filter, decide_eq_true_iff]
  exact or_iff_not_imp_left.mpr fun hnot => ⟨hid, hnot⟩

/-- Two workers are lost, and the tasks of both were in progress: the report is exact. -/
theorem lost_workers_reported :
    ((Sample.leftTasks .inProgress).map Task.id).Nodup ∧
      let (_, tasks', reset) :=
        Sample.aftermath.restoreLiveness (Sample.leftTasks .inProgress) Sample.survivors
      reset = ["T-2", "T-3"] ∧ reset.Nodup ∧
        ∀ id, id ∈ reset ↔ State.WentBack (Sample.leftTasks .inProgress) tasks' id := by
  have hids : ((Sample.leftTasks .inProgress).map Task.id).Nodup := by decide +kernel
  have hiff := (restart_reports_iff Sample.aftermath hids Sample.survivors).2
  exact ⟨hids, by decide +kernel, hiff.mpr ⟨by decide +kernel, by decide +kernel⟩⟩

/-- The backlog was written and the state was not: the task of a lost worker is done.  It stays
done, and is reported all the same. -/
theorem finished_task_reported :
    let (_, tasks', reset) :=
      Sample.aftermath.restoreLiveness (Sample.leftTasks .done) Sample.survivors
    reset = ["T-2", "T-3"] ∧ ¬ State.WentBack (Sample.leftTasks .done) tasks' "T-3" ∧
      ¬ (reset.Nodup ∧ ∀ id, id ∈ reset ↔ State.WentBack (Sample.leftTasks .done) tasks' id) := by
  have hreport : (Sample.aftermath.restoreLiveness (Sample.leftTasks .done)
      Sample.survivors).2.2 = ["T-2", "T-3"] := by decide +kernel
  have hkept : ¬ State.WentBack (Sample.leftTasks .done)
      (Sample.aftermath.restoreLiveness (Sample.leftTasks .done) Sample.survivors).2.1 "T-3" := by
    decide +kernel
  generalize Sample.aftermath.restoreLiveness (Sample.leftTasks .done) Sample.survivors = r
    at hreport hkept ⊢
  obtain ⟨s', tasks', reset⟩ := r
  obtain rfl : reset = ["T-2", "T-3"] := hreport
  exact ⟨rfl, hkept, fun hexact => hkept ((hexact.2 "T-3").mp (by decide))⟩

end Foreman

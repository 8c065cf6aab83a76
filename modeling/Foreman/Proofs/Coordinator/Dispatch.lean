/-
# How a dispatch can end

A dispatch (`apply_dispatch`) ends in one of four ways, and each of them says exactly what it
leaves behind: `DispatchEnd` lists them, and `dispatch_end` says that there is no fifth,
although the definition has two more exits: one for a parked worker whose record is gone, and
one for a status that cannot be set.  Later proofs take a dispatch apart with it and never open
the definition.

Both of the exits stand behind the claim of the footprint, where they would leave the claim
without a worker.  That they are never taken is no accident of the data: the claim leaves the
records and the backlog alone, so what was found before it is found after it.

* `engage_eq`: a parked worker is never gone when the dispatch comes to wake it.
* `launched_workers_of_some` and `launched_workers_of_none`: which record a dispatch that starts
  its task works on.
* `launched_workersOf`: the records of other tasks are left alone.
* `refused_dispatch_only_queues`: a dispatch that is refused changes nothing but the queue, and
  that only if a claim is in its way.
-/
import Foreman.Coordinator.Dispatch
import Foreman.Proofs.Footprint.Queue
import Foreman.Proofs.Kanban.Tasks
import Foreman.Proofs.State.Records

namespace Foreman
namespace State

/-! ## 1. The state of a started task

`launched` is the state of a dispatch that starts its task, in one piece.  It is made of the
steps of the definition, and the lemmas say of each part of the state what has become of it. -/

/-- The worker a dispatch of the task runs under: the parked one, or the one the order names. -/
def workerFor (s : State) (taskId : String) (o : Order) : String :=
  match s.retryWorker? taskId with
  | some w => w.id
  | none => o.workerId

/-- The state with the footprint of the task claimed and the task out of the queue. -/
def claimed (s : State) (task : Task) (workerId : String) (now : Instant) : State :=
  { s with
    registry := Registry.dequeue { s.registry with
      claims := s.registry.claims ++ Registry.claimsFor task.footprint workerId task.id now }
      task.id }

/-- The worker of a started task, and the state with its record.  A parked worker is itself a record
of its name, so the first record of that name, which is the one that is woken, is always there:
`engage_eq` says so of the dispatch, and the fallback here is never taken. -/
def launched (s : State) (task : Task) (o : Order) (backend worktreeDir : String)
    (now : Instant) : Worker × State :=
  let c := s.claimed task (s.workerFor task.id o) now
  match s.retryWorker? task.id with
  | some waiting =>
    (wake ((s.worker? waiting.id).getD waiting) now, c.updateWorker waiting.id fun w => wake w now)
  | none =>
    let w := recruit o.workerId task.id backend worktreeDir now
    (w, { c with workers := c.workers ++ [w] })

@[simp] theorem claimed_workers (s : State) (task : Task) (workerId : String) (now : Instant) :
    (s.claimed task workerId now).workers = s.workers := rfl

@[simp] theorem claimed_claims (s : State) (task : Task) (workerId : String) (now : Instant) :
    (s.claimed task workerId now).registry.claims =
      s.registry.claims ++ Registry.claimsFor task.footprint workerId task.id now := rfl

@[simp] theorem launched_registry (s : State) (task : Task) (o : Order)
    (backend worktreeDir : String) (now : Instant) :
    (s.launched task o backend worktreeDir now).2.registry =
      (s.claimed task (s.workerFor task.id o) now).registry := by
  unfold launched
  dsimp only
  split <;> rfl

@[simp] theorem launched_resume (s : State) (task : Task) (o : Order)
    (backend worktreeDir : String) (now : Instant) :
    (s.launched task o backend worktreeDir now).2.resume = s.resume := by
  unfold launched
  dsimp only
  split <;> rfl

/-- A parked worker is woken, and nothing else happens to the records. -/
theorem launched_workers_of_some {s : State} {task : Task} {w : Worker}
    (hretry : s.retryWorker? task.id = some w) (o : Order) (backend worktreeDir : String)
    (now : Instant) :
    (s.launched task o backend worktreeDir now).2.workers =
      updateFirst w.id (fun v => wake v now) s.workers := by
  simp only [launched, hretry, updateWorker, claimed_workers]

/-- Without a parked worker a record is added at the end. -/
theorem launched_workers_of_none {s : State} {task : Task}
    (hretry : s.retryWorker? task.id = none) (o : Order) (backend worktreeDir : String)
    (now : Instant) :
    (s.launched task o backend worktreeDir now).2.workers =
      s.workers ++ [recruit o.workerId task.id backend worktreeDir now] := by
  simp only [launched, hretry, claimed_workers]

/-- If what is added has a new name, then so has the worker an order names. -/
theorem ne_of_launched_fresh {s : State} {task : Task} {o : Order} {backend worktreeDir : String}
    {now : Instant}
    (hfresh : ∀ w ∈ (s.launched task o backend worktreeDir now).2.workers.drop s.workers.length,
      ∀ v ∈ s.workers, v.id ≠ w.id)
    (hretry : s.retryWorker? task.id = none) : ∀ v ∈ s.workers, v.id ≠ o.workerId := by
  rw [launched_workers_of_none hretry, List.drop_left] at hfresh
  exact hfresh _ List.mem_cons_self

/-- The worker of a started task has the name it was to run under. -/
theorem launched_id (s : State) (task : Task) (o : Order) (backend worktreeDir : String)
    (now : Instant) :
    (s.launched task o backend worktreeDir now).1.id = s.workerFor task.id o := by
  cases hretry : s.retryWorker? task.id with
  | none => simp only [launched, workerFor, hretry, recruit]
  | some waiting =>
    simp only [launched, workerFor, hretry, wake]
    cases hfind : s.worker? waiting.id with
    | none => rfl
    | some v => exact (worker?_mem hfind).2

/-- The first record of its name is the worker that is woken. -/
theorem launched_worker_of_some {s : State} {task : Task} {w : Worker}
    (hretry : s.retryWorker? task.id = some w) (hfirst : s.worker? w.id = some w) (o : Order)
    (backend worktreeDir : String) (now : Instant) :
    (s.launched task o backend worktreeDir now).1 = wake w now := by
  simp only [launched, hretry, hfirst, Option.getD_some]

/-- A new worker is the one the order names. -/
theorem launched_worker_of_none {s : State} {task : Task}
    (hretry : s.retryWorker? task.id = none) (o : Order) (backend worktreeDir : String)
    (now : Instant) :
    (s.launched task o backend worktreeDir now).1 =
      recruit o.workerId task.id backend worktreeDir now := by
  simp only [launched, hretry]

/-- A parked worker is a record of the task that waits. -/
theorem retryWorker?_mem {s : State} {taskId : String} {w : Worker}
    (h : s.retryWorker? taskId = some w) :
    w ∈ s.workers ∧ w.taskId = taskId ∧ w.status = .awaitingRetry := by
  have hprop := List.find?_some h
  simp only [Bool.and_eq_true, decide_eq_true_eq] at hprop
  exact ⟨List.mem_of_find?_eq_some h, hprop⟩

/-- **A parked worker has not vanished**: it is itself a record of its name. -/
theorem exists_worker?_of_retryWorker? {s : State} {taskId : String} {w : Worker}
    (h : s.retryWorker? taskId = some w) : ∃ record, s.worker? w.id = some record := by
  cases hfind : s.worker? w.id with
  | some record => exact ⟨record, rfl⟩
  | none =>
    have hnone := List.find?_eq_none.mp hfind w (retryWorker?_mem h).1
    exact absurd (decide_eq_true rfl) hnone

/-- **A dispatch that has claimed its footprint always finds its worker.**  The claim leaves the
records alone, so the worker that was parked before it is there after it, whatever the names of the
other records are. -/
theorem engage_eq (s : State) (task : Task) (o : Order) (backend worktreeDir : String)
    (now : Instant) :
    (s.claimed task (s.workerFor task.id o) now).engage (s.retryWorker? task.id)
      (s.workerFor task.id o) task.id backend worktreeDir now =
        .ok (s.launched task o backend worktreeDir now) := by
  cases hretry : s.retryWorker? task.id with
  | none => simp only [engage, launched, workerFor, hretry]
  | some w =>
    obtain ⟨record, hrecord⟩ := exists_worker?_of_retryWorker? hretry
    have hclaimed : ∀ workerId, (s.claimed task workerId now).worker? w.id = some record :=
      fun _ => hrecord
    simp only [engage, launched, hretry, hclaimed, hrecord, Option.getD_some]

/-- A task with neither an active worker nor a parked one has only closed workers. -/
theorem closed_of_idle {s : State} {taskId : String} (hidle : s.hasActiveWorker taskId = false)
    (hretry : s.retryWorker? taskId = none) {w : Worker} (hw : w ∈ s.workers)
    (htask : w.taskId = taskId) : w.status.isTerminal = true := by
  have hinactive : w.status.isActive = false := by
    cases hactive : w.status.isActive with
    | false => rfl
    | true =>
      rw [hasActiveWorker_iff.mpr ⟨w, hw, htask, hactive⟩] at hidle
      cases hidle
  cases hopen : w.status.isTerminal with
  | true => rfl
  | false =>
    have hwaits := WorkerStatus.eq_awaitingRetry_iff.mpr ⟨hinactive, hopen⟩
    have hnone := List.find?_eq_none.mp hretry w hw
    simp [htask, hwaits] at hnone

/-! ## 2. The four ends

An end has with it what was found out on the way there, so a proof by cases knows why it ended
so. -/

/-- The ends of a dispatch: its answer, the state and the backlog after it. -/
inductive DispatchEnd (s : State) (k : Kanban) (o : Order) (backend worktreeDir : String)
    (now : Instant) : Except Failure Ticket × State × Kanban → Prop
  /-- The backlog has no such task. -/
  | unknown : k.find? o.taskId = none →
      DispatchEnd s k o backend worktreeDir now
        (.error (.kanban (Kanban.unknownTask o.taskId)), s, k)
  /-- The task has an active worker already. -/
  | busy (task : Task) : k.find? o.taskId = some task → s.hasActiveWorker task.id = true →
      DispatchEnd s k o backend worktreeDir now (.error (.taskBusy task.id), s, k)
  /-- A claim is in the way, and the task is put in the queue behind it. -/
  | blocked (task : Task) (held : ClaimRef) : k.find? o.taskId = some task →
      s.hasActiveWorker task.id = false → s.registry.findConflict task.footprint = some held →
      DispatchEnd s k o backend worktreeDir now
        (.error (.conflict held.pattern held.workerId),
          { s with
            registry := s.registry.enqueue task.id task.footprint
              (s.heldClaim held.pattern held.workerId) now },
          k)
  /-- The task is in progress and its worker at the start of an attempt. -/
  | started (task : Task) (k' : Kanban) : k.find? o.taskId = some task →
      s.hasActiveWorker task.id = false → s.registry.findConflict task.footprint = none →
      k.setStatus task.id .inProgress = .ok k' →
      DispatchEnd s k o backend worktreeDir now
        (.ok ⟨(s.launched task o backend worktreeDir now).1, { task with status := .inProgress },
            s.resumeOf task.id⟩,
          (s.launched task o backend worktreeDir now).2, k')

/-- **There is no other end.**  Two exits of the definition are never taken, both behind the
claim of the footprint: a dispatch that has claimed it finds the record of its worker
(`engage_eq`), and one that has found its task can set its status (`Kanban.exists_setStatus`).
Neither needs identifiers to be distinct. -/
theorem dispatch_end (s : State) (k : Kanban) (o : Order) (backend worktreeDir : String)
    (now : Instant) :
    DispatchEnd s k o backend worktreeDir now (s.dispatch k o backend worktreeDir now) := by
  unfold dispatch
  split
  · rename_i hfind
    exact .unknown hfind
  · rename_i task hfind
    split
    · rename_i hbusy
      exact .busy task hfind hbusy
    · rename_i hidle
      rw [Bool.not_eq_true] at hidle
      simp only
      split
      · rename_i pattern holder hclaim
        obtain ⟨held, hheld, hfail⟩ := Registry.claim_eq_error_iff.mp hclaim
        cases hfail
        exact .blocked task held hfind hidle hheld
      · rename_i failure hno hclaim
        obtain ⟨held, -, hfail⟩ := Registry.claim_eq_error_iff.mp hclaim
        exact absurd hfail (hno _ _)
      · rename_i registry hclaim
        obtain ⟨hfree, rfl⟩ := Registry.claim_eq_ok_iff.mp hclaim
        have hengage := s.engage_eq task o backend worktreeDir now
        split
        · rename_i failure hvanished
          exact absurd (hengage.symm.trans hvanished) (by simp)
        · rename_i worker s' hworker
          have hlaunched : (worker, s') = s.launched task o backend worktreeDir now :=
            (Except.ok.inj (hengage.symm.trans hworker)).symm
          obtain ⟨k', hk'⟩ :=
            Kanban.exists_setStatus ⟨(Kanban.find?_mem hfind).1, rfl⟩ .inProgress
          have hres : s'.resumeOf task.id = s.resumeOf task.id := by
            simp [show s' = _ from congrArg Prod.snd hlaunched, resumeOf]
          have hend : DispatchEnd s k o backend worktreeDir now _ :=
            .started task k' hfind hidle hfree hk'
          rw [← hlaunched] at hend
          rw [hk']
          simpa only [hres] using hend

/-! ## 3. The records of other tasks

A dispatch may add a record whose name is taken.  The records of other tasks are safe from it all
the same, as long as no parked worker is hidden behind a worker of another task. -/

/-- A parked worker's name leads to its own task. -/
def ParkedAtHome (s : State) : Prop :=
  ∀ w ∈ s.workers, w.status = .awaitingRetry → s.taskOf? w.id = some w.taskId

theorem retryWorker?_eq_find?_workersOf (s : State) (taskId : String) :
    s.retryWorker? taskId = (s.workersOf taskId).find? fun w => w.status = .awaitingRetry := by
  rw [workersOf, List.find?_filter, retryWorker?]
  simp only [decide_eq_true_eq, Bool.decide_and]

/-- **A dispatch leaves the records of other tasks alone.** -/
theorem launched_workersOf {s : State} (h : s.ParkedAtHome) (task : Task) (o : Order)
    (backend worktreeDir : String) (now : Instant) {taskId : String} (hne : taskId ≠ task.id) :
    (s.launched task o backend worktreeDir now).2.workersOf taskId = s.workersOf taskId := by
  cases hretry : s.retryWorker? task.id with
  | some w =>
    obtain ⟨hw, hwt, hstatus⟩ := retryWorker?_mem hretry
    have hhome : s.taskOf? w.id ≠ some taskId := by
      rw [h w hw hstatus, hwt]
      exact fun e => hne (Option.some.inj e).symm
    rw [workersOf, launched_workers_of_some hretry]
    exact s.workersOf_updateWorker (f := fun v => wake v now) (fun _ => rfl) hhome
  | none =>
    rw [workersOf, launched_workers_of_none hretry, List.filter_append, List.filter_singleton,
      workersOf]
    simp [recruit, Ne.symm hne]

/-- A dispatch hides no parked worker. -/
theorem ParkedAtHome.launched {s : State} (h : s.ParkedAtHome) (task : Task) (o : Order)
    (backend worktreeDir : String) (now : Instant) :
    (s.launched task o backend worktreeDir now).2.ParkedAtHome := by
  intro v hv hstatus
  cases hretry : s.retryWorker? task.id with
  | some w =>
    have hws := launched_workers_of_some hretry o backend worktreeDir now
    have htask : (s.launched task o backend worktreeDir now).2.taskOf? v.id = s.taskOf? v.id := by
      rw [taskOf?, worker?, hws]
      exact s.taskOf?_updateWorker (f := fun v => wake v now) (fun _ => rfl) (fun _ => rfl) v.id
    rw [htask]
    rw [hws] at hv
    rcases mem_of_mem_updateFirst hv with hold | ⟨u, -, rfl⟩
    · exact h v hold hstatus
    · exact absurd hstatus (by simp [wake])
  | none =>
    have hws := launched_workers_of_none hretry o backend worktreeDir now
    rw [hws, List.mem_append, List.mem_singleton] at hv
    rcases hv with hold | rfl
    · obtain ⟨u, hu, hut⟩ := Option.map_eq_some_iff.mp (h v hold hstatus)
      rw [worker?] at hu
      rw [taskOf?, worker?, hws, List.find?_append, hu, Option.some_or, Option.map_some, hut]
    · exact absurd hstatus (by simp [recruit])

/-! ## 4. Refusals

A refusal for a claim puts the task in the queue, or moves the place it has there.  The claim is
looked up again by the pattern and the worker that the refusal names, and is found. -/

/-- The claim that a refusal names is held, under the name and the pattern it names. -/
theorem exists_heldClaim {s : State} {held : ClaimRef}
    (h : ∃ c ∈ s.registry.claims, c.ref = held) :
    ∃ c ∈ s.registry.claims, s.heldClaim held.pattern held.workerId = c.ref ∧
      c.pattern = held.pattern ∧ c.workerId = held.workerId := by
  obtain ⟨c, hc, rfl⟩ := h
  unfold heldClaim
  split
  · rename_i c' hfind
    have hnamed := List.find?_some hfind
    simp only [Bool.and_eq_true, decide_eq_true_eq] at hnamed
    exact ⟨c', List.mem_of_find?_eq_some hfind, rfl, hnamed.2, hnamed.1⟩
  · rename_i hnone
    exact absurd (List.find?_eq_none.mp hnone c hc) (by simp [Claim.ref])

end State

/-- **A dispatch that is refused changes at most the queue.**  Whatever the state, the backlog and
the order, duplicate identifiers included, it is refused for one of three reasons:

* the backlog has no such task, and nothing changes;
* the task has an active worker, and nothing changes;
* a claim that is held overlaps the task's footprint.  The refusal names it, and all that changes is
  the queue, which the task joins behind that claim. -/
theorem refused_dispatch_only_queues {s s' : State} {k k' : Kanban} {o : Order}
    {backend worktreeDir : String} {now : Instant} {failure : Failure}
    (h : s.dispatch k o backend worktreeDir now = (.error failure, s', k')) :
    k' = k ∧
      ((k.find? o.taskId = none ∧ failure = .kanban (Kanban.unknownTask o.taskId) ∧ s' = s) ∨
        (∃ task, k.find? o.taskId = some task ∧ s.hasActiveWorker task.id = true ∧
          failure = .taskBusy task.id ∧ s' = s) ∨
        ∃ task, k.find? o.taskId = some task ∧ s.hasActiveWorker task.id = false ∧
          ∃ c ∈ s.registry.claims,
            (∃ p ∈ task.footprint, Pattern.intersects p c.pattern = true) ∧
            failure = .conflict c.pattern c.workerId ∧
            ∃ queue, Registry.Joins task.id task.footprint c.ref now s.registry.queue queue ∧
              s' = { s with registry := { s.registry with queue := queue } }) := by
  have hend := s.dispatch_end k o backend worktreeDir now
  rw [h] at hend
  cases hend with
  | unknown hfind => exact ⟨rfl, Or.inl ⟨hfind, rfl, rfl⟩⟩
  | busy task hfind hbusy => exact ⟨rfl, Or.inr (Or.inl ⟨task, hfind, hbusy, rfl, rfl⟩)⟩
  | blocked task held hfind hidle hheld =>
    obtain ⟨p, hp, c, hc, hoverlap, href⟩ := Registry.conflictAmong_eq_some hheld
    obtain ⟨c', hc', hnamed, hpattern, hworker⟩ := State.exists_heldClaim ⟨c, hc, href⟩
    have hsame : c'.pattern = c.pattern := by rw [hpattern, ← href, Claim.ref]
    obtain ⟨queue, hjoins, hqueue⟩ := s.registry.enqueue_joins task.id task.footprint c'.ref now
    rw [hnamed, hqueue, ← hpattern, ← hworker]
    exact ⟨rfl, Or.inr (Or.inr ⟨task, hfind, hidle, c', hc', ⟨p, hp, hsame ▸ hoverlap⟩, rfl, queue,
      hjoins, rfl⟩)⟩

namespace Sample

/-- The morning of a day. -/
def early : Instant := ⟨20000, 28800, 0⟩

/-- One claim is held, and a task waits for a worker that holds none. -/
def crowded : State where
  registry :=
    { claims := [⟨"src", "worker-T-1-1", "T-1", early⟩]
      queue := [⟨"T-2", ["src/api"], ⟨"worker-T-9-1", "T-9", "docs"⟩, early⟩] }

/-- Both tasks want files that the claim covers. -/
def crowdedBoard : Kanban where
  tasks :=
    [{ id := "T-2", footprint := ["src/api"] },
      { id := "T-3", footprint := ["tests", "src/lib/**"] }]

/-- The answer to an order for a task, and the documents after it. -/
def crowdedDispatch (taskId : String) : Except Failure Ticket × State × Kanban :=
  crowded.dispatch crowdedBoard ⟨taskId, "worker-new-1", [], 0⟩ "mock" "/wt" early

end Sample

/-- The task that waits is pointed at the claim, and the other one joins the queue behind it. -/
theorem crowded_dispatches_refused :
    (Sample.crowdedDispatch "T-2").1 = .error (.conflict "src" "worker-T-1-1") ∧
      (Sample.crowdedDispatch "T-3").1 = .error (.conflict "src" "worker-T-1-1") ∧
      (Sample.crowdedDispatch "T-2").2.2 = Sample.crowdedBoard ∧
      (Sample.crowdedDispatch "T-3").2.2 = Sample.crowdedBoard ∧
      (Sample.crowdedDispatch "T-2").2.1.registry.queue.map
          (fun e => (e.taskId, e.blocking.taskId)) = [("T-2", "T-1")] ∧
      (Sample.crowdedDispatch "T-3").2.1.registry.queue.map
          (fun e => (e.taskId, e.blocking.taskId)) = [("T-2", "T-9"), ("T-3", "T-1")] := by
  have hsecond : (Sample.crowdedDispatch "T-2").1 = .error (.conflict "src" "worker-T-1-1") := by
    decide +kernel
  have hthird : (Sample.crowdedDispatch "T-3").1 = .error (.conflict "src" "worker-T-1-1") := by
    decide +kernel
  exact ⟨hsecond, hthird, (refused_dispatch_only_queues (Prod.ext hsecond rfl)).1,
    (refused_dispatch_only_queues (Prod.ext hthird rfl)).1, by decide +kernel, by decide +kernel⟩

end Foreman

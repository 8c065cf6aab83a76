/-
# How the settling of an outcome can end

An outcome (`apply_outcome`) is refused for a worker nobody knows and for a worker whose task is
not in the backlog; otherwise the task and the worker get the statuses of the verdict, and the
worker's claims go.  `settle_end` says that these are all ends, and what each leaves behind;
`settle_eq` is the last of them, for a worker and a task that are known.

The task is looked for last, when the state is written already.  So an outcome that is refused
for its task leaves its traces: `refused_outcome_keeps_state_iff` says which one leaves none,
and its counterexample stands right behind it.

Nothing asks whether the worker is active.  An outcome of a worker that has been closed is
settled like any other, which is what `Foreman.Proofs.History.Finality` is about.
-/
import Foreman.Coordinator.Settle
import Foreman.Proofs.Footprint.Queue
import Foreman.Proofs.Kanban.Tasks
import Foreman.Proofs.State.Records
import Foreman.Proofs.Table

namespace Foreman
namespace State

/-! ## 1. What an outcome makes of the state

The state after an outcome in one piece, and the parts of it by name: what is remembered, the
metrics, the record, and the registry without the claims of the worker. -/

/-- The session that is known after an outcome. -/
def sessionAfter (w : Worker) (outcome : Outcome) : Option String :=
  match outcome.sessionId with
  | some id => some id
  | none => w.sessionId

/-- What is remembered of the task after an outcome of its worker. -/
def resumeAfter (s : State) (w : Worker) (outcome : Outcome) (retry : Config.Retry)
    (now : Instant) : Resume :=
  let known := s.resumeOf w.taskId
  remember
    { known with
      sessionId :=
        if (sessionAfter w outcome).isSome then sessionAfter w outcome else known.sessionId
      workspace := some w.workspace }
    outcome retry now

/-- What becomes of the task and of the worker. -/
def verdictOn (s : State) (w : Worker) (outcome : Outcome) (retry : Config.Retry)
    (now : Instant) : TaskStatus × WorkerStatus :=
  verdict outcome (s.resumeAfter w outcome retry now).attempts retry

/-- The metrics after an outcome. -/
def metricsAfter (s : State) (w : Worker) (outcome : Outcome) (retry : Config.Retry)
    (now : Instant) : Table Metrics :=
  match attemptMillis outcome w.startedAt now with
  | some ms =>
    s.metrics.insert w.taskId (((s.metrics.get? w.taskId).getD {}).record ms
      ((s.verdictOn w outcome retry now).1 = TaskStatus.done))
  | none => s.metrics

/-- The record of a worker at the end of its attempt. -/
def ended (status : WorkerStatus) (session : Option String) (w : Worker) : Worker :=
  { w with
    status := status
    pid := none
    sessionId := if session.isSome then session else w.sessionId }

/-- The state after an outcome of the worker `w`, found under `workerId`. -/
def settled (s : State) (workerId : String) (w : Worker) (outcome : Outcome)
    (retry : Config.Retry) (now : Instant) : State :=
  { s with
    resume := s.resume.insert w.taskId (s.resumeAfter w outcome retry now)
    metrics := s.metricsAfter w outcome retry now
    workers :=
      updateFirst workerId (ended (s.verdictOn w outcome retry now).2 (sessionAfter w outcome))
        s.workers
    registry := (s.registry.release workerId).1 }

/-- What is remembered after an outcome: it concerns the worker's task only. -/
theorem settled_resumeOf (s : State) (workerId : String) (w : Worker) (outcome : Outcome)
    (retry : Config.Retry) (now : Instant) (taskId : String) :
    (s.settled workerId w outcome retry now).resumeOf taskId =
      if taskId = w.taskId then s.resumeAfter w outcome retry now else s.resumeOf taskId := by
  rw [resumeOf, settled, Table.get?_insert]
  split
  · rfl
  · rfl

/-! ## 2. The three ends

The ends with what was found out on the way there. -/

/-- The ends of an outcome: the answer, the state and the backlog after it. -/
inductive SettleEnd (s : State) (k : Kanban) (workerId : String) (outcome : Outcome)
    (retry : Config.Retry) (now : Instant) : Except Failure Effect × State × Kanban → Prop
  /-- There is no such worker. -/
  | unknown : s.worker? workerId = none →
      SettleEnd s k workerId outcome retry now
        (.error (.workspace ("Unknown worker " ++ workerId)), s, k)
  /-- The worker's task is not in the backlog; the state has changed all the same. -/
  | homeless (w : Worker) (reason : String) : s.worker? workerId = some w →
      k.setStatus w.taskId (s.verdictOn w outcome retry now).1 = .error reason →
      SettleEnd s k workerId outcome retry now
        (.error (.kanban reason), s.settled workerId w outcome retry now, k)
  /-- The outcome is settled. -/
  | settled (w : Worker) (k' : Kanban) : s.worker? workerId = some w →
      k.setStatus w.taskId (s.verdictOn w outcome retry now).1 = .ok k' →
      SettleEnd s k workerId outcome retry now
        (.ok ⟨(s.verdictOn w outcome retry now).1, (s.registry.release workerId).2,
            candidate? k' w workerId outcome now⟩,
          s.settled workerId w outcome retry now, k')

/-- **There is no other end.** -/
theorem settle_end (s : State) (k : Kanban) (workerId : String) (outcome : Outcome)
    (retry : Config.Retry) (now : Instant) :
    SettleEnd s k workerId outcome retry now (s.settle k workerId outcome retry now) := by
  -- two look-ups can fail: that of the worker before any change, and that of the task behind all
  cases hw : s.worker? workerId with
  | none =>
    have heq : s.settle k workerId outcome retry now =
        (.error (.workspace ("Unknown worker " ++ workerId)), s, k) := by
      simp only [settle, hw]
    rw [heq]
    exact .unknown hw
  | some w =>
    cases hset : k.setStatus w.taskId (s.verdictOn w outcome retry now).1 with
    | error reason =>
      have heq : s.settle k workerId outcome retry now =
          (.error (.kanban reason), s.settled workerId w outcome retry now, k) := by
        simp only [settle, hw]
        split
        · rename_i hset'
          cases hset.symm.trans hset'
          cases hms : attemptMillis outcome w.startedAt now <;>
            simp only [settled, metricsAfter, hms] <;> rfl
        · rename_i hset'
          cases hset.symm.trans hset'
      rw [heq]
      exact .homeless w reason hw hset
    | ok k' =>
      have heq : s.settle k workerId outcome retry now =
          (.ok ⟨(s.verdictOn w outcome retry now).1, (s.registry.release workerId).2,
              candidate? k' w workerId outcome now⟩,
            s.settled workerId w outcome retry now, k') := by
        simp only [settle, hw]
        split
        · rename_i hset'
          cases hset.symm.trans hset'
        · rename_i hset'
          cases hset.symm.trans hset'
          cases hms : attemptMillis outcome w.startedAt now <;>
            simp only [settled, metricsAfter, hms] <;> rfl
      rw [heq]
      exact .settled w k' hw hset

/-- **The outcome of a known worker on a known task is settled**, and this is what it gives. -/
theorem settle_eq {s : State} {k : Kanban} {workerId : String} {w : Worker}
    (hw : s.worker? workerId = some w) (hids : k.HasDistinctIds)
    (htask : ∃ t ∈ k.tasks, t.id = w.taskId) (outcome : Outcome) (retry : Config.Retry)
    (now : Instant) :
    s.settle k workerId outcome retry now =
      let k' : Kanban :=
        { k with
          tasks := k.tasks.map (Kanban.restatus w.taskId (s.verdictOn w outcome retry now).1) }
      (.ok ⟨(s.verdictOn w outcome retry now).1, (s.registry.release workerId).2,
          candidate? k' w workerId outcome now⟩,
        s.settled workerId w outcome retry now, k') := by
  have hset := Kanban.setStatus_eq_ok hids htask (s.verdictOn w outcome retry now).1
  have hend := s.settle_end k workerId outcome retry now
  generalize s.settle k workerId outcome retry now = r at hend
  cases hend with
  | unknown hnone => cases hnone.symm.trans hw
  | homeless v reason hv hfail =>
    cases hv.symm.trans hw
    cases hfail.symm.trans hset
  | settled v k' hv hset' =>
    cases hv.symm.trans hw
    cases hset'.symm.trans hset
    rfl

/-! ## 3. The verdict

The verdict is a function of the outcome, the attempts so far and the budget. -/

/-- No verdict leaves the task in progress. -/
theorem verdict_task_ne (outcome : Outcome) (attempts : Nat) (retry : Config.Retry) :
    (verdict outcome attempts retry).1 ≠ .inProgress := by
  fun_cases verdict outcome attempts retry <;> simp

/-- No verdict leaves the worker its process slot. -/
theorem verdict_worker_inactive (outcome : Outcome) (attempts : Nat) (retry : Config.Retry) :
    (verdict outcome attempts retry).2.isActive = false := by
  fun_cases verdict outcome attempts retry <;> rfl

/-! ## 4. What a refused outcome changes

Each part of the state is compared with what it was.  The state is the same exactly if all of
them are. -/

/-- Every outcome but a cancellation counts an attempt. -/
theorem metricsAfter_eq_self_iff (s : State) (w : Worker) (outcome : Outcome)
    (retry : Config.Retry) (now : Instant) :
    s.metricsAfter w outcome retry now = s.metrics ↔ outcome.isCancelled = true := by
  have hcounted : ∀ ms, attemptMillis outcome w.startedAt now = some ms →
      s.metricsAfter w outcome retry now ≠ s.metrics := by
    intro ms hms hsame
    have hcount := congrArg (fun t => ((t.get? w.taskId).getD {}).attempts) hsame
    simp only [metricsAfter, hms, Table.get?_insert, if_true, Option.getD_some,
      Metrics.record] at hcount
    omega
  cases outcome with
  | cancelled session => simp [metricsAfter, attemptMillis, Outcome.isCancelled]
  | succeeded text session mergeable elapsed =>
    exact iff_of_false (hcounted _ rfl) (by simp [Outcome.isCancelled])
  | retryable cause reason session =>
    exact iff_of_false (hcounted _ rfl) (by simp [Outcome.isCancelled])
  | fatal reason session =>
    exact iff_of_false (hcounted _ rfl) (by simp [Outcome.isCancelled])

/-- The record after an outcome has the session that is known then. -/
theorem ended_eq (status : WorkerStatus) (w : Worker) (outcome : Outcome) :
    ended status (sessionAfter w outcome) w =
      { w with status := status, pid := none, sessionId := sessionAfter w outcome } := by
  unfold ended sessionAfter
  cases outcome.sessionId <;> cases w.sessionId <;> rfl

/-- What is remembered of a task whose worker's attempt was cancelled. -/
theorem resumeAfter_cancelled (s : State) (w : Worker) (session : Option String)
    (retry : Config.Retry) (now : Instant) :
    s.resumeAfter w (.cancelled session) retry now =
      { s.resumeOf w.taskId with
        sessionId := (sessionAfter w (.cancelled session)).or (s.resumeOf w.taskId).sessionId
        workspace := some w.workspace } := by
  rw [resumeAfter, remember]
  cases sessionAfter w (.cancelled session) <;> rfl

theorem sessionAfter_eq_self_iff (w : Worker) (outcome : Outcome) :
    sessionAfter w outcome = w.sessionId ↔
      ∀ id, outcome.sessionId = some id → w.sessionId = some id := by
  unfold sessionAfter
  cases outcome.sessionId with
  | none => simp
  | some id => simp [eq_comm]

/-- **A cancellation that is on record already**: the worker is abandoned, the session that the
cancellation brings is known, the task's next attempt is told of the worker's directory, and nobody
holds or waits for anything of the worker. -/
structure Forgone (s : State) (w : Worker) (sessionId : Option String) : Prop where
  abandoned : w.status = .abandoned
  stopped : w.pid = none
  known : ∀ id, sessionId = some id → w.sessionId = some id
  remembered : ∃ r, s.resume.get? w.taskId = some r ∧ r.workspace = some w.workspace ∧
    ∀ id, w.sessionId = some id → r.sessionId = some id
  unclaimed : ∀ c ∈ s.registry.claims, c.workerId ≠ w.id
  unawaited : ∀ e ∈ s.registry.queue, e.blocking.workerId ≠ w.id

/-- **An outcome changes the state, unless it is a cancellation that is on record already.** -/
theorem settled_eq_self_iff {s : State} (htable : s.resume.IsSorted) {workerId : String}
    {w : Worker} (hw : s.worker? workerId = some w) (outcome : Outcome) (retry : Config.Retry)
    (now : Instant) :
    s.settled workerId w outcome retry now = s ↔
      outcome.isCancelled = true ∧ s.Forgone w outcome.sessionId := by
  obtain ⟨-, rfl⟩ := worker?_mem hw
  -- a part of the state each: what is remembered, the metrics, the records, the claims, the queue
  have hparts : s.settled w.id w outcome retry now = s ↔
      s.resume.get? w.taskId = some (s.resumeAfter w outcome retry now) ∧
        outcome.isCancelled = true ∧
        ended (s.verdictOn w outcome retry now).2 (sessionAfter w outcome) w = w ∧
        (∀ c ∈ s.registry.claims, c.workerId ≠ w.id) ∧
        ∀ e ∈ s.registry.queue, e.blocking.workerId ≠ w.id := by
    rw [← htable.insert_eq_self_iff, ← s.metricsAfter_eq_self_iff w outcome retry now,
      ← updateFirst_eq_self_iff hw, ← Registry.release_eq_self_iff]
    constructor
    · intro hsame
      exact ⟨congrArg State.resume hsame, congrArg State.metrics hsame,
        congrArg State.workers hsame, congrArg State.registry hsame⟩
    · rintro ⟨hresume, hmetrics, hworkers, hregistry⟩
      rw [settled, hresume, hmetrics, hworkers, hregistry]
  rw [hparts, ended_eq]
  cases outcome with
  -- these are counted, so the metrics at least are others
  | succeeded | retryable | fatal => simp [Outcome.isCancelled]
  | cancelled session =>
    rw [resumeAfter_cancelled]
    constructor
    · rintro ⟨hget, -, hrecord, hclaims, hqueue⟩
      have hsession : sessionAfter w (.cancelled session) = w.sessionId :=
        congrArg Worker.sessionId hrecord
      refine ⟨rfl, (congrArg Worker.status hrecord).symm, (congrArg Worker.pid hrecord).symm,
        (sessionAfter_eq_self_iff _ _).mp hsession, ⟨_, hget, rfl, fun id hid => ?_⟩, hclaims,
        hqueue⟩
      rw [hsession, hid, Option.some_or]
    · rintro ⟨-, h⟩
      have hsession := (sessionAfter_eq_self_iff w (.cancelled session)).mpr h.known
      obtain ⟨r, hget, hworkspace, hremembered⟩ := h.remembered
      have hold : s.resumeOf w.taskId = r := by rw [resumeOf, hget, Option.getD_some]
      refine ⟨?_, rfl, ?_, h.unclaimed, h.unawaited⟩
      · rw [hget, hold, hsession, ← hworkspace]
        cases hid : w.sessionId with
        | none => rfl
        | some id => rw [Option.some_or, ← hremembered id hid]
      · have hverdict : (s.verdictOn w (.cancelled session) retry now).2 = w.status :=
          h.abandoned.symm
        rw [hverdict, hsession, ← h.stopped]

end State

/-- **An outcome that is refused leaves the backlog as it was, but hardly ever the state.**  It is
refused because its worker is unknown, and then nothing changes; or because the worker's task is not
in the backlog.  Then the state is what the outcome makes of it all the same, and that is the state
before only if the outcome is a cancellation that was on record already. -/
theorem refused_outcome_keeps_state_iff {s s' : State} {k k' : Kanban} {workerId : String}
    {outcome : Outcome} {retry : Config.Retry} {now : Instant} {failure : Failure}
    (htable : s.resume.IsSorted)
    (h : s.settle k workerId outcome retry now = (.error failure, s', k')) :
    ((s.worker? workerId = none ∧ failure = .workspace ("Unknown worker " ++ workerId)) ∨
        ∃ w, s.worker? workerId = some w ∧ k.find? w.taskId = none ∧
          failure = .kanban (Kanban.unknownTask w.taskId)) ∧
      k' = k ∧
      (s' = s ↔
        s.worker? workerId = none ∨
          ∃ w, s.worker? workerId = some w ∧ outcome.isCancelled = true ∧
            s.Forgone w outcome.sessionId) := by
  have hend := s.settle_end k workerId outcome retry now
  rw [h] at hend
  cases hend with
  | unknown hnone => exact ⟨Or.inl ⟨hnone, rfl⟩, rfl, iff_of_true rfl (Or.inl hnone)⟩
  | homeless w reason hw hset =>
    obtain ⟨hmissing, rfl⟩ := Kanban.setStatus_eq_error hset
    refine ⟨Or.inr ⟨w, hw, hmissing, rfl⟩, rfl, ?_⟩
    rw [State.settled_eq_self_iff htable hw]
    simp [hw]

namespace Sample

/-- The morning of a day. -/
def morning : Instant := ⟨20000, 28800, 0⟩

/-- A worker runs for a task that the backlog has lost. -/
def stray : State where
  registry := { claims := [⟨"src", "worker-T-9-1", "T-9", morning⟩] }
  workers :=
    [{ id := "worker-T-9-1", taskId := "T-9", workspace := "/wt/worker-T-9-1", backend := "claude",
       pid := some 1, startedAt := morning, sessionId := none, iteration := 1, status := .running }]

/-- Its attempt is cancelled, which is refused. -/
def strayed : State := (stray.settle {} "worker-T-9-1" (.cancelled none) {} morning).2.1

end Sample

/-- The same cancellation once more is refused as well, and this time nothing changes. -/
theorem repeated_cancellation_keeps_state :
    Sample.strayed.resume.IsSorted ∧ Sample.strayed ≠ Sample.stray ∧
      (Sample.strayed.settle {} "worker-T-9-1" (.cancelled none) {} Sample.morning).1 =
        .error (.kanban "Task T-9 not found in kanban") ∧
      (Sample.strayed.settle {} "worker-T-9-1" (.cancelled none) {} Sample.morning).2.1 =
        Sample.strayed := by
  have hsorted : Sample.strayed.resume.IsSorted := by decide +kernel
  have hrefused : (Sample.strayed.settle {} "worker-T-9-1" (.cancelled none) {} Sample.morning).1 =
      .error (.kanban "Task T-9 not found in kanban") := by decide +kernel
  have hforgone : Sample.strayed.Forgone (Sample.strayed.workers.headD default) none :=
    { abandoned := rfl
      stopped := rfl
      known := fun id hid => by cases hid
      remembered := ⟨_, rfl, rfl, fun id hid => by cases hid⟩
      unclaimed := by decide +kernel
      unawaited := by decide +kernel }
  have hkept := (refused_outcome_keeps_state_iff hsorted (Prod.ext hrefused rfl)).2.2
  exact ⟨hsorted, by decide +kernel, hrefused, hkept.mpr (Or.inr ⟨_, rfl, rfl, hforgone⟩)⟩

/-- A success that is refused: the worker has succeeded, its claim is gone and the success is
counted, although the task is not there. -/
theorem refused_success_changes_state :
    (Sample.stray.settle {} "worker-T-9-1" (.succeeded "done" none true ⟨0⟩) {} Sample.morning).1 =
        .error (.kanban "Task T-9 not found in kanban") ∧
      (Sample.stray.settle {} "worker-T-9-1" (.succeeded "done" none true ⟨0⟩) {}
        Sample.morning).2.1 ≠ Sample.stray :=
  ⟨by decide +kernel, by decide +kernel⟩

end Foreman

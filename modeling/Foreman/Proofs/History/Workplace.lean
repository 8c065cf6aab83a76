/-
# Where a task is worked on again

An attempt that was worth another one leaves its worker waiting, and the next attempt wakes it,
in the directory it worked in.  What is remembered of the task (`ResumeMeta`) names that
directory, the session that was open there and the number of attempts.  An attempt that was
given up leaves all of that remembered, but its worker is closed: the next attempt has a new
worker, with a directory of its own, and the ticket says all the same that it continues an
earlier one.

* `State.Lineage`: the records are in order, and of a task whose worker waits the directory of
  that worker is remembered.
* `Lineage.after`: every move that can happen keeps this, whether or not names are distinct.
* `ticket_in_place_iff`: so a ticket whose worker has worked before continues where it worked,
  and one with a new worker continues in place only if there is nothing to continue.
* `new_worker_not_in_place`: the case in which it does not.

Names need not be distinct here, since a chronicle does not make them so.  An outcome then goes
to the first record of its name, which may be another one than the worker it is meant for;
`Orderly` in `Foreman.Proofs.State.Lineage` keeps what is still true of such records.
-/
import Foreman.Proofs.History.Names
import Foreman.Proofs.State.Lineage
import Foreman.Run.Attempt

namespace Foreman

/-! ## 1. What is remembered

How an outcome and a dispatch change what is remembered of a directory. -/

namespace State

/-- No outcome changes which directory is remembered. -/
theorem remember_workspace (r : Resume) (outcome : Outcome) (retry : Config.Retry)
    (now : Instant) : (remember r outcome retry now).workspace = r.workspace := by
  cases outcome <;> rfl

theorem resumeAfter_workspace (s : State) (w : Worker) (outcome : Outcome) (retry : Config.Retry)
    (now : Instant) : (s.resumeAfter w outcome retry now).workspace = some w.workspace := by
  rw [resumeAfter, remember_workspace]

theorem abandonAll_workers_congr : ∀ {lost : List Worker} {s s' : State},
    s'.workers = s.workers → (s'.abandonAll lost).workers = (s.abandonAll lost).workers
  | [], _, _, h => h
  | w :: lost, s, s', h => by
    rw [abandonAll_cons, abandonAll_cons]
    exact abandonAll_workers_congr (congrArg (updateFirst w.id abandoned) h)

end State

/-! ## 2. What every move keeps

The two halves of the invariant go together: without the order of the records a second worker of
a task might wait in another directory. -/

namespace State

/-- Workers of one name work on one task. -/
def Named (s : State) : Prop :=
  ∀ v ∈ s.workers, ∀ w ∈ s.workers, v.id = w.id → v.taskId = w.taskId

/-- The directory a waiting worker works in is remembered of its task. -/
structure Lineage (s : State) : Prop where
  orderly : Orderly s.workers
  remembered : ∀ w ∈ s.workers, w.status = .awaitingRetry →
    (s.resumeOf w.taskId).workspace = some w.workspace

namespace Lineage

variable {s s' : State} {workerId : String} {f : Worker → Worker}

/-- Nothing is asked but what is remembered and the records. -/
theorem of_same (h : s.Lineage) (hworkers : s'.workers = s.workers)
    (hresume : s'.resume = s.resume) : s'.Lineage := by
  refine ⟨hworkers ▸ h.orderly, ?_⟩
  rw [hworkers]
  intro w hw hwaits
  rw [resumeOf, hresume]
  exact h.remembered w hw hwaits

/-- The first record of a name changes, and neither opens nor begins to wait. -/
theorem updateFirst (h : s.Lineage) (hworkers : s'.workers = State.updateFirst workerId f s.workers)
    (hid : ∀ w, (f w).id = w.id) (htask : ∀ w, (f w).taskId = w.taskId)
    (hplace : ∀ w, (f w).workspace = w.workspace) (hcount : ∀ w, w.iteration ≤ (f w).iteration)
    (hopen : ∀ v, s.worker? workerId = some v → (f v).status.isTerminal = false →
      v.status.isTerminal = false)
    (hwaits : ∀ v, (f v).status = .awaitingRetry → v.status = .awaitingRetry)
    (hresume : ∀ taskId, (s'.resumeOf taskId).workspace = (s.resumeOf taskId).workspace) :
    s'.Lineage := by
  refine ⟨?_, ?_⟩
  · rw [hworkers]
    refine h.orderly.updateFirst hid htask hcount fun v hv hvopen => ?_
    obtain ⟨hmem, hname⟩ := worker?_mem hv
    exact ⟨v, hmem, hname, rfl, hopen v hv hvopen⟩
  · rw [hworkers]
    intro u hu huwaits
    rw [hresume]
    rcases mem_updateFirst_shadowed h.orderly.shadowed hu with ⟨v, hv, rfl⟩ | ⟨hmem, -⟩
    · rw [htask, hplace]
      exact h.remembered v (worker?_mem hv).1 (hwaits v huwaits)
    · exact h.remembered u hmem huwaits

/-- Workers that are given up do not begin to wait. -/
theorem abandonAll (h : s.Lineage) (lost : List Worker) : (s.abandonAll lost).Lineage := by
  induction lost generalizing s with
  | nil => exact h
  | cons w lost ih =>
    have hnext : (s.abandon w.id).Lineage :=
      h.updateFirst (f := abandoned) rfl (fun _ => rfl) (fun _ => rfl) (fun _ => rfl)
        (fun _ => Nat.le_refl _) (fun _ _ hopen => by cases hopen) (fun _ hwaits => by cases hwaits)
        fun _ => rfl
    exact ih hnext

/-- **An outcome of an active worker leaves the directory of the first record of its name
remembered.**  No other worker of the task waits: it would have the name of the active one, and
whoever stands behind another of his name is active. -/
theorem settled (h : s.Lineage) (hnamed : s.Named) {w : Worker} (hw : s.worker? workerId = some w)
    (hattended : ∃ v ∈ s.workers, v.id = workerId ∧ v.status.isActive = true) (outcome : Outcome)
    (retry : Config.Retry) (now : Instant) : (s.settled workerId w outcome retry now).Lineage := by
  obtain ⟨v, hv, hvname, hvactive⟩ := hattended
  obtain ⟨hwmem, hwname⟩ := worker?_mem hw
  have hvtask : v.taskId = w.taskId := hnamed v hv w hwmem (hvname.trans hwname.symm)
  have hvopen := WorkerStatus.not_isTerminal_of_isActive hvactive
  refine ⟨?_, ?_⟩
  · refine h.orderly.updateFirst
      (f := ended (s.verdictOn w outcome retry now).2 (sessionAfter w outcome)) (fun _ => rfl)
      (fun _ => rfl) (fun _ => Nat.le_refl _) fun first hfirst _ => ?_
    cases hw.symm.trans hfirst
    exact ⟨v, hv, hvname, hvtask, hvopen⟩
  · intro u hu huwaits
    rw [settled_resumeOf]
    rcases mem_updateFirst_shadowed h.orderly.shadowed hu with ⟨first, hfirst, rfl⟩ | ⟨hmem, hname⟩
    · cases hw.symm.trans hfirst
      have htask : (ended (s.verdictOn w outcome retry now).2 (sessionAfter w outcome) w).taskId =
          w.taskId := rfl
      rw [if_pos htask]
      exact s.resumeAfter_workspace w outcome retry now
    · have hne : u.taskId ≠ w.taskId := by
        intro htask
        obtain ⟨hinactive, huopen⟩ := WorkerStatus.eq_awaitingRetry_iff.mp huwaits
        have hone := h.orderly.oneOpen u hmem v hv (htask.trans hvtask.symm) huopen hvopen
        rw [hname (hone.trans hvname)] at hinactive
        cases hinactive
      rw [if_neg hne]
      exact h.remembered u hmem huwaits

/-- **A task that is started keeps what is remembered.**  It wakes the worker that waits for it, or
it has no open worker and gets a new one. -/
theorem launched (h : s.Lineage) {task : Task} (hidle : s.hasActiveWorker task.id = false)
    (o : Order) (backend worktreeDir : String) (now : Instant) :
    (s.launched task o backend worktreeDir now).2.Lineage := by
  have hresume : ∀ taskId, ((s.launched task o backend worktreeDir now).2.resumeOf taskId) =
      s.resumeOf taskId := fun taskId => by rw [resumeOf, launched_resume, resumeOf]
  cases hretry : s.retryWorker? task.id with
  | some w =>
    obtain ⟨hmem, -, hwaits⟩ := retryWorker?_mem hretry
    obtain ⟨hinactive, hwopen⟩ := WorkerStatus.eq_awaitingRetry_iff.mp hwaits
    have hfirst : s.worker? w.id = some w := find?_of_inactive h.orderly.shadowed hmem hinactive
    refine h.updateFirst (f := fun v => wake v now)
      (launched_workers_of_some hretry o backend worktreeDir now) (fun _ => rfl) (fun _ => rfl)
      (fun _ => rfl) (fun _ => Nat.le_succ _) (fun v hv _ => ?_) (fun _ hwoken => by cases hwoken)
      fun taskId => by rw [hresume]
    cases hfirst.symm.trans hv
    exact hwopen
  | none =>
    have hworkers := launched_workers_of_none hretry o backend worktreeDir now
    refine ⟨?_, ?_⟩
    · rw [hworkers]
      exact h.orderly.append rfl (Nat.le_refl _) fun w hw => closed_of_idle hidle hretry hw
    · rw [hworkers]
      intro u hu huwaits
      rw [hresume]
      rcases List.mem_append.mp hu with hu | hu
      · exact h.remembered u hu huwaits
      · rw [List.mem_singleton.mp hu] at huwaits
        cases huwaits

/-- **A reset forgets the task, and leaves nobody waiting for it.** -/
theorem forget (h : s.Lineage) (taskId : String) : (s.forget taskId).Lineage := by
  have hworkers : (s.forget taskId).workers = (s.abandonAll (s.openWorkers taskId)).workers := by
    rw [forget_eq]
    exact abandonAll_workers_congr rfl
  have hresume : ∀ id, id ≠ taskId → (s.forget taskId).resumeOf id = s.resumeOf id := by
    intro id hne
    rw [forget_eq, resumeOf, abandonAll_resume, Table.get?_erase, if_neg hne, resumeOf]
  refine ⟨?_, ?_⟩
  · rw [hworkers]
    exact h.orderly.abandonAll
  · rw [hworkers]
    intro u hu huwaits
    rcases mem_abandonAll h.orderly.shadowed hu with hgone | ⟨hmem, hreached⟩
    · rw [hgone] at huwaits
      cases huwaits
    · obtain ⟨hinactive, huopen⟩ := WorkerStatus.eq_awaitingRetry_iff.mp huwaits
      have hne : u.taskId ≠ taskId := by
        intro htask
        have hlost : u ∈ s.openWorkers taskId :=
          List.mem_filter.mpr ⟨hmem, by simp [htask, huopen]⟩
        rw [hreached u hlost rfl] at hinactive
        cases hinactive
      rw [hresume u.taskId hne]
      exact h.remembered u hmem huwaits

end Lineage
end State

/-- **Every move that can happen keeps the lineage**, whether or not names are distinct. -/
theorem State.Lineage.after {b : Books} (h : b.state.Lineage) (hnamed : b.state.Named) {m : Move}
    (hattended : b.Attended m) : (b.after m).state.Lineage := by
  cases m with
  | beginPass now =>
    have hnote := State.noteTasks_eq { b.state with tick := b.state.tick + 1 } b.kanban.tasks now
    simp only [Books.after]
    rw [hnote]
    exact h.of_same rfl rfl
  | defer taskId footprint blocking now => exact h.of_same rfl rfl
  | markRunning workerId pid =>
    have hprofile := fun w => Worker.profile_eq_iff.mp (Desk.started_profile pid w)
    refine h.updateFirst rfl (fun _ => rfl) (fun _ => rfl) (fun _ => rfl) (fun _ => Nat.le_refl _)
      (fun v _ hopen => (hprofile v).2.2.2 ▸ hopen) (fun v hwaits => ?_) fun _ => rfl
    -- a start changes neither activity nor openness, which say together who waits
    rw [WorkerStatus.eq_awaitingRetry_iff, (hprofile v).2.2.1, (hprofile v).2.2.2] at hwaits
    exact WorkerStatus.eq_awaitingRetry_iff.mpr hwaits
  | recordSession workerId sessionId =>
    refine h.updateFirst (f := fun w => { w with sessionId := some sessionId })
      (congrArg (State.updateFirst workerId _) (Desk.noteSession_workers ..)) (fun _ => rfl)
      (fun _ => rfl) (fun _ => rfl) (fun _ => Nat.le_refl _) (fun _ _ hopen => hopen)
      (fun _ hwaits => hwaits) fun taskId => ?_
    exact Desk.noteSession_resumeOf Resume.workspace (fun _ _ => rfl) b.state workerId sessionId
      taskId
  | dispatch o backend worktreeDir now =>
    have hend := State.dispatch_end b.state b.kanban o backend worktreeDir now
    simp only [Books.after]
    generalize b.state.dispatch b.kanban o backend worktreeDir now = r at hend
    cases hend with
    | unknown | busy => exact h
    | blocked => exact h.of_same rfl rfl
    | started task k' hfind hidle => exact h.launched hidle o backend worktreeDir now
  | settle workerId outcome retry now =>
    have hend := State.settle_end b.state b.kanban workerId outcome retry now
    simp only [Books.after]
    generalize b.state.settle b.kanban workerId outcome retry now = r at hend
    cases hend with
    | unknown => exact h
    | homeless w reason hw | settled w k' hw =>
      exact h.settled hnamed hw hattended outcome retry now
  | reset taskId =>
    cases hreset : b.state.reset b.kanban taskId with
    | error => simpa only [Books.after, hreset] using h
    | ok r =>
      obtain ⟨t, -, -, -, hforget⟩ := State.reset_eq_ok hreset
      simp only [Books.after, hreset, hforget]
      exact h.forget taskId
  | restart alive => exact h.abandonAll _

namespace Chronicle

variable {k : Kanban} {alive : Nat → Bool} {b : Books} {ds : List Dated}
  {hires : List (String × Int)}

/-- A name says which task it was given for. -/
theorem named (h : Chronicle (Books.opened k alive) ds hires b) : b.state.Named := by
  have hfrom : ∀ w ∈ b.state.workers, ∃ hire ∈ hires, nameOf hire = (w.id, w.taskId) := by
    intro w hw
    have hmem : (w.id, w.taskId) ∈ b.state.roster := List.mem_map.mpr ⟨w, hw, rfl⟩
    rw [h.roster_eq] at hmem
    exact List.mem_map.mp hmem
  intro v hv w hw hname
  obtain ⟨x, hx, hxv⟩ := hfrom v hv
  obtain ⟨y, hy, hyw⟩ := hfrom w hw
  obtain ⟨hvname, hvtask⟩ := Prod.ext_iff.mp hxv
  obtain ⟨hwname, hwtask⟩ := Prod.ext_iff.mp hyw
  dsimp only [nameOf] at hvname hvtask hwname hwtask
  have hsame := (WorkerId.named_inj (h.counted x hx) (h.counted y hy)).mp
    (hvname.trans (hname.trans hwname.symm))
  exact hvtask.symm.trans (hsame.1.trans hwtask)

/-- A chronicle keeps it. -/
theorem lineage (h : Chronicle (Books.opened k alive) ds hires b) : b.state.Lineage := by
  induction h with
  | nil => exact ⟨State.Orderly.nil, fun w hw => absurd hw List.not_mem_nil⟩
  | snoc hold hd ih => exact ih.after hold.named hd.attended

end Chronicle

/-! ## 3. Tickets

A ticket has a worker that was woken, or a new one. -/

/-- A worker that is woken has worked before, and its directory is the one that is remembered. -/
theorem State.Lineage.woken {s : State} (h : s.Lineage) {task : Task} {w : Worker}
    (hretry : s.retryWorker? task.id = some w) (o : Order) (backend worktreeDir : String)
    (now : Instant) :
    1 < (s.launched task o backend worktreeDir now).1.iteration ∧
      (s.resumeOf task.id).workspace =
        some (s.launched task o backend worktreeDir now).1.workspace := by
  obtain ⟨hmem, htask, hwaits⟩ := State.retryWorker?_mem hretry
  have hinactive := (WorkerStatus.eq_awaitingRetry_iff.mp hwaits).1
  have hfirst : s.worker? w.id = some w :=
    State.find?_of_inactive h.orderly.shadowed hmem hinactive
  rw [State.launched_worker_of_some hretry hfirst, ← htask]
  exact ⟨Nat.lt_succ_of_le (h.orderly.counted w hmem), h.remembered w hmem hwaits⟩

namespace Ticket

/-- An attempt that continues an earlier one works where that one did. -/
def InPlace (t : Ticket) : Prop :=
  t.isRetry = true → ∀ place ∈ t.resume.workspace, t.worker.workspace = place

variable {t : Ticket}

theorem inPlace_of_remembered (h : t.resume.workspace = some t.worker.workspace) : t.InPlace := by
  intro _ place hplace
  rw [h] at hplace
  exact Option.some.inj hplace

/-- The first attempt of a worker is in place if there is nothing to continue, or if its directory
is the one that is remembered. -/
theorem inPlace_iff_of_first (h : t.worker.iteration = 1) :
    t.InPlace ↔
      t.resume.attempts = 0 ∨ ∀ place ∈ t.resume.workspace, place = t.worker.workspace := by
  have hretry : t.isRetry = true ↔ t.resume.attempts ≠ 0 := by
    simp [isRetry, h, Nat.pos_iff_ne_zero]
  rw [InPlace, hretry, Decidable.or_iff_not_imp_left]
  exact imp_congr_right fun _ => forall₂_congr fun _ _ => eq_comm

end Ticket

/-- **A woken worker continues in place, a new one only where there is nothing to continue.**  Of a
ticket at the end of any chronicle, whether or not names are distinct:

* if its worker has worked before, the directory that is remembered is that of the worker;
* it is in place exactly if its worker has worked before, or no attempt at the task was worth
  another one, or the directory that is remembered is the one the order gives the new worker. -/
theorem ticket_in_place_iff {k : Kanban} {alive : Nat → Bool} {ds : List Dated}
    {hires : List (String × Int)} {b : Books}
    (h : Chronicle (Books.opened k alive) ds hires b) {o : Order} {backend worktreeDir : String}
    {now : Instant} {ticket : Ticket}
    (hticket : (b.state.dispatch b.kanban o backend worktreeDir now).1 = .ok ticket) :
    (1 < ticket.worker.iteration → ticket.resume.workspace = some ticket.worker.workspace) ∧
    (ticket.InPlace ↔ 1 < ticket.worker.iteration ∨ ticket.resume.attempts = 0 ∨
      ∀ place ∈ ticket.resume.workspace, place = Path.join worktreeDir o.workerId) := by
  have hend := State.dispatch_end b.state b.kanban o backend worktreeDir now
  generalize b.state.dispatch b.kanban o backend worktreeDir now = r at hend hticket
  cases hend with
  | unknown | busy | blocked => cases hticket
  | started task k' hfind hidle =>
    cases hticket
    -- a worker that is woken has its directory on record; a new one has none of its own yet
    cases hretry : b.state.retryWorker? task.id with
    | some w =>
      obtain ⟨hagain, hplace⟩ := h.lineage.woken hretry o backend worktreeDir now
      exact ⟨fun _ => hplace, iff_of_true (Ticket.inPlace_of_remembered hplace) (Or.inl hagain)⟩
    | none =>
      have hworker := State.launched_worker_of_none hretry o backend worktreeDir now
      have hfirst : (b.state.launched task o backend worktreeDir now).1.iteration = 1 := by
        rw [hworker]
        rfl
      have hplace : (b.state.launched task o backend worktreeDir now).1.workspace =
          Path.join worktreeDir o.workerId := by
        rw [hworker]
        rfl
      have hnot : ¬ 1 < (b.state.launched task o backend worktreeDir now).1.iteration := by omega
      rw [Ticket.inPlace_iff_of_first hfirst]
      dsimp only
      rw [hplace]
      exact ⟨fun hagain => absurd hagain hnot, (or_iff_right hnot).symm⟩

/-! ## 4. An attempt that was given up in between

A task is tried, tried again by the same worker, given up, and planned once more. -/

namespace Sample

def onePm : Instant := ⟨20000, 46800, 0⟩

def twoPm : Instant := ⟨20000, 50400, 0⟩

/-- The first attempt has failed, and is worth another one. -/
def parked : Books := begun.after (endAt firstName (.retryable .rateLimited "429" none) noon).move

/-- The second attempt has begun. -/
def woken : Books := parked.after (startAt parked onePm).move

/-- The second attempt was given up. -/
def abandoned : Books := woken.after (endAt firstName (.cancelled none) onePm).move

/-- The ticket of the next attempt. -/
def ticketAt (b : Books) (moment : Instant) : Except Failure Ticket :=
  (b.state.dispatch b.kanban (orderAt b moment) "mock" "/wt" moment).1

/-- What a ticket says of the place: the worker's attempts and directory, and what is remembered. -/
def placeOf : Except Failure Ticket → Option (Nat × String × Nat × Option String)
  | .ok t => some (t.worker.iteration, t.worker.workspace, t.resume.attempts, t.resume.workspace)
  | .error _ => none

theorem parked_chronicle :
    Chronicle idle
      [startAt idle noon, endAt firstName (.retryable .rateLimited "429" none) noon]
      [("T-1", 1728043200)] parked :=
  begun_chronicle.snoc ⟨trivial, begun_attended _, by decide⟩

theorem abandoned_chronicle :
    Chronicle idle
      [startAt idle noon, endAt firstName (.retryable .rateLimited "429" none) noon,
        startAt parked onePm, endAt firstName (.cancelled none) onePm]
      [("T-1", 1728043200)] abandoned := by
  have hwoken : Chronicle idle
      [startAt idle noon, endAt firstName (.retryable .rateLimited "429" none) noon,
        startAt parked onePm] [("T-1", 1728043200)] woken :=
    parked_chronicle.snoc (admits_startAt (by decide) (by decide +kernel))
  have hactive : woken.Attended (endAt firstName (.cancelled none) onePm).move := by
    unfold endAt Books.Attended
    decide +kernel
  exact hwoken.snoc ⟨trivial, hactive, by decide⟩

end Sample

/-- The worker that was left waiting is woken, and continues where it worked. -/
theorem woken_worker_in_place :
    Chronicle Sample.idle
        [Sample.startAt Sample.idle Sample.noon,
          Sample.endAt Sample.firstName (.retryable .rateLimited "429" none) Sample.noon]
        [("T-1", 1728043200)] Sample.parked ∧
      ∃ ticket, Sample.ticketAt Sample.parked Sample.onePm = .ok ticket ∧
        Sample.placeOf (.ok ticket) =
          some (2, "/wt/worker-T-1-1728043200", 1, some "/wt/worker-T-1-1728043200") ∧
        ticket.InPlace := by
  have hplace : Sample.placeOf (Sample.ticketAt Sample.parked Sample.onePm) =
      some (2, "/wt/worker-T-1-1728043200", 1, some "/wt/worker-T-1-1728043200") := by
    decide +kernel
  refine ⟨Sample.parked_chronicle, ?_⟩
  cases hticket : Sample.ticketAt Sample.parked Sample.onePm with
  | error failure =>
    rw [hticket] at hplace
    cases hplace
  | ok ticket =>
    rw [hticket] at hplace
    have hagain : ticket.worker.iteration = 2 := congrArg Prod.fst (Option.some.inj hplace)
    have hiff := (ticket_in_place_iff Sample.parked_chronicle hticket).2
    exact ⟨ticket, rfl, hplace, hiff.mpr (Or.inl (by rw [hagain]; decide))⟩

/-- **After an attempt that was given up a new worker continues elsewhere.**  The ticket says that
it continues an earlier attempt, and remembers the directory of that attempt; its worker is a new
one, in an empty directory of its own. -/
theorem new_worker_not_in_place :
    Chronicle Sample.idle
        [Sample.startAt Sample.idle Sample.noon,
          Sample.endAt Sample.firstName (.retryable .rateLimited "429" none) Sample.noon,
          Sample.startAt Sample.parked Sample.onePm,
          Sample.endAt Sample.firstName (.cancelled none) Sample.onePm]
        [("T-1", 1728043200)] Sample.abandoned ∧
      Sample.abandoned.Admits (Sample.startAt Sample.abandoned Sample.twoPm) ∧
      ∃ ticket, Sample.ticketAt Sample.abandoned Sample.twoPm = .ok ticket ∧
        Sample.placeOf (.ok ticket) =
          some (1, "/wt/worker-T-1-1728050400", 1, some "/wt/worker-T-1-1728043200") ∧
        ¬ ticket.InPlace := by
  have hplace : Sample.placeOf (Sample.ticketAt Sample.abandoned Sample.twoPm) =
      some (1, "/wt/worker-T-1-1728050400", 1, some "/wt/worker-T-1-1728043200") := by
    decide +kernel
  refine ⟨Sample.abandoned_chronicle, Sample.admits_startAt (by decide) (by decide +kernel), ?_⟩
  cases hticket : Sample.ticketAt Sample.abandoned Sample.twoPm with
  | error failure =>
    rw [hticket] at hplace
    cases hplace
  | ok ticket =>
    rw [hticket] at hplace
    refine ⟨ticket, rfl, hplace, fun hin => ?_⟩
    simp only [Sample.placeOf, Option.some.injEq, Prod.mk.injEq] at hplace
    obtain ⟨-, hworks, hattempts, hremembered⟩ := hplace
    have hretry : ticket.isRetry = true := by simp [Ticket.isRetry, hattempts]
    have hsame := hin hretry _ hremembered
    rw [hworks] at hsame
    exact absurd hsame (by decide)

end Foreman

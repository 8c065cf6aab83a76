/-
# Which workers share a name

A history asks that every record it adds has a new name.  Nothing sees to that: an order names
its worker after the task and the second of the plan (`worker_id_for`), and a task that was
given up can be planned again in the same second.  A chronicle is a history that does not ask
for it.  Its moves are dated, and it notes, for each record that is added, the task and the
second of the plan.

* `Books.hire_after`: a move keeps the names and tasks of all records, or adds one at the end.
* `Chronicle.roster_eq`: so the records are named after the notes, one by one.
* `worker_ids_distinct_iff`: so names are distinct exactly if no task was given two records in
  one second, whatever was settled, reset or restarted in between.
* `same_second_shares_worker_id`: it does happen, without a clock that goes back.

That a name says which task and which second it was given for is `WorkerId.named_inj` in
`Foreman.Proofs.Worker.Names`: the second is a number behind the last dash, so it can be read
off the end of the name.
-/
import Foreman.Proofs.History.Frame
import Foreman.Proofs.History.Quiet
import Foreman.Proofs.Schedule.Plan
import Foreman.Proofs.Worker.Names

namespace Foreman

/-! ## 1. Records that are added

Of a record only its name and its task matter here, and no move changes either. -/

namespace State

/-- The names of the workers and their tasks. -/
def roster (s : State) : List (String × String) := s.workers.map fun w => (w.id, w.taskId)

/-- The names and tasks are decided by the profiles. -/
theorem roster_of_profiles {s s' : State}
    (h : s'.workers.map Worker.profile = s.workers.map Worker.profile) :
    s'.roster = s.roster := by
  have hprofiles : ∀ s : State,
      s.roster = (s.workers.map Worker.profile).map fun p => (p.1, p.2.1) := by
    intro s
    rw [roster, List.map_map]
    rfl
  rw [hprofiles, hprofiles, h]

/-- A change of a record keeps its name and its task. -/
theorem roster_updateFirst (s : State) {workerId : String} {f : Worker → Worker}
    (hid : ∀ w, (f w).id = w.id) (htask : ∀ w, (f w).taskId = w.taskId) :
    (updateFirst workerId f s.workers).map (fun w => (w.id, w.taskId)) = s.roster :=
  map_updateFirst (fun w => (w.id, w.taskId)) (fun w => Prod.ext (hid w) (htask w)) s.workers

/-- Workers that are given up keep their names and tasks. -/
theorem roster_abandonAll : ∀ (ws : List Worker) (s : State), (s.abandonAll ws).roster = s.roster
  | [], _ => rfl
  | w :: ws, s => by
    rw [abandonAll_cons, roster_abandonAll ws]
    exact s.roster_updateFirst (f := abandoned) (fun _ => rfl) fun _ => rfl

end State

namespace Books

/-- What a move does to the records: it adds one for a task with no open worker, or it keeps the
names and tasks of all. -/
inductive Hire (b : Books) (c : Books) : Move → Prop
  | none {m : Move} : c.state.roster = b.state.roster → Hire b c m
  | one (o : Order) (backend worktreeDir : String) (now : Instant) (task : Task) :
      b.kanban.find? o.taskId = some task → b.state.hasActiveWorker task.id = false →
      b.state.retryWorker? task.id = Option.none →
      c.state.workers =
        b.state.workers ++ [State.recruit o.workerId task.id backend worktreeDir now] →
      Hire b c (.dispatch o backend worktreeDir now)

/-- **A move adds at most one record, and only a dispatch does.** -/
theorem hire_after (b : Books) (m : Move) : Hire b (b.after m) m := by
  have hquiet : ∀ m : Move, m.Quiet → Hire b (b.after m) m := fun m hm =>
    .none (State.roster_of_profiles (b.unmoved_after hm).profiles)
  cases m with
  | beginPass | defer | markRunning | recordSession => exact hquiet _ trivial
  | dispatch o backend worktreeDir now =>
    have hend := State.dispatch_end b.state b.kanban o backend worktreeDir now
    simp only [after]
    generalize b.state.dispatch b.kanban o backend worktreeDir now = r at hend
    cases hend with
    | unknown | busy | blocked => exact .none rfl
    | started task k' hfind hidle hfree hset =>
      -- a worker that waits is woken and keeps its name; only without one a record is added
      cases hretry : b.state.retryWorker? task.id with
      | none =>
        exact .one o backend worktreeDir now task hfind hidle hretry
          (State.launched_workers_of_none hretry o backend worktreeDir now)
      | some w =>
        refine .none ?_
        rw [State.roster, State.launched_workers_of_some hretry]
        exact b.state.roster_updateFirst (f := fun v => State.wake v now) (fun _ => rfl)
          fun _ => rfl
  | settle workerId outcome retry now =>
    have hend := State.settle_end b.state b.kanban workerId outcome retry now
    simp only [after]
    generalize b.state.settle b.kanban workerId outcome retry now = r at hend
    have hsettled : ∀ w, (b.state.settled workerId w outcome retry now).roster = b.state.roster :=
      fun w => b.state.roster_updateFirst
        (f := State.ended (b.state.verdictOn w outcome retry now).2 (State.sessionAfter w outcome))
        (fun _ => rfl) fun _ => rfl
    cases hend with
    | unknown => exact .none rfl
    | homeless w | settled w => exact .none (hsettled w)
  | reset taskId =>
    cases hreset : b.state.reset b.kanban taskId with
    | error =>
      simp only [after, hreset]
      exact .none rfl
    | ok r =>
      obtain ⟨t, -, -, -, hforget⟩ := State.reset_eq_ok hreset
      simp only [after, hreset, hforget, State.forget_eq]
      exact .none (State.roster_abandonAll _ _)
  | restart alive => exact .none (State.roster_abandonAll _ _)

end Books

/-! ## 2. Chronicles

The moment of a move is that of the plan it comes from.  It may lie before the moment of an
earlier move, since a clock can be set back. -/

/-- A move, with the moment of the plan it comes from if it is a dispatch. -/
structure Dated where
  moment : Instant
  move : Move

namespace Books

/-- An order comes from a plan that is made at that moment for the documents as they are. -/
def PlannedAt (b : Books) (moment : Instant) : Move → Prop
  | .dispatch order _ _ _ => ∃ room weights plan,
    b.snapshot.Plans room moment weights plan ∧ order ∈ plan.dispatch
  | _ => True

/-- A dated move that can happen.  No clock shows a time before 1970. -/
structure Admits (b : Books) (d : Dated) : Prop where
  planned : b.PlannedAt d.moment d.move
  attended : b.Attended d.move
  counted : 0 ≤ d.moment.unixSeconds

/-- The records a move adds, each by its task and the second of the plan. -/
def hired (b : Books) (d : Dated) : List (String × Int) :=
  ((b.after d.move).state.workers.drop b.state.workers.length).map fun w =>
    (w.taskId, d.moment.unixSeconds)

end Books

/-- Dated moves made one after the other, and the records that were added. -/
inductive Chronicle (b : Books) : List Dated → List (String × Int) → Books → Prop
  | nil : Chronicle b [] [] b
  | snoc {ds : List Dated} {hires : List (String × Int)} {c : Books} {d : Dated} :
      Chronicle b ds hires c → c.Admits d →
      Chronicle b (ds ++ [d]) (hires ++ c.hired d) (c.after d.move)

/-- The name and the task of a record that was added. -/
def nameOf (hire : String × Int) : String × String := (WorkerId.named hire.1 hire.2, hire.1)

/-- An order for a task without a parked worker names it after the task and the second. -/
theorem Snapshot.workerIdFor_of_none {s : Snapshot} {t : Task}
    (h : s.retryWorker? t.id = none) (moment : Instant) :
    s.workerIdFor t moment = WorkerId.named t.id moment.unixSeconds := by
  rw [workerIdFor, h, WorkerId.create_eq_named]

/-- The records after a move that can happen are those before it and those it is noted for. -/
theorem Books.roster_after {b : Books} {d : Dated} (h : b.Admits d) :
    (b.after d.move).state.roster = b.state.roster ++ (b.hired d).map nameOf := by
  have hhire := b.hire_after d.move
  obtain ⟨moment, m⟩ := d
  obtain ⟨hplanned, -, -⟩ := h
  unfold hired
  dsimp only at hhire hplanned ⊢
  generalize b.after m = c at hhire
  cases hhire with
  | none hsame =>
    have hlength : c.state.workers.length = b.state.workers.length := by
      have hlengths := congrArg List.length hsame
      rwa [State.roster, State.roster, List.length_map, List.length_map] at hlengths
    rw [hsame, List.drop_of_length_le (Nat.le_of_eq hlength), List.map_nil, List.map_nil,
      List.append_nil]
  | one o backend worktreeDir now task hfind hidle hretry hworkers =>
    obtain ⟨room, weights, plan, hplan, ho⟩ := hplanned
    obtain ⟨t, -, htask, -, hname⟩ := hplan.dispatch_mem ho
    have hid : task.id = t.id := (Kanban.find?_mem hfind).2.trans htask
    have hparked : b.snapshot.retryWorker? t.id = none := hid ▸ hretry
    rw [Snapshot.workerIdFor_of_none hparked, ← hid] at hname
    rw [State.roster, hworkers, List.drop_left, List.map_append, State.roster]
    simp [nameOf, State.recruit, hname]

namespace Chronicle

variable {k : Kanban} {alive : Nat → Bool} {b c : Books} {ds : List Dated}
  {hires : List (String × Int)}

theorem counted (h : Chronicle b ds hires c) : ∀ hire ∈ hires, 0 ≤ hire.2 := by
  induction h with
  | nil => exact fun _ hmem => absurd hmem List.not_mem_nil
  | snoc _ hd ih =>
    intro hire hmem
    rcases List.mem_append.mp hmem with hmem | hmem
    · exact ih hire hmem
    · obtain ⟨w, -, rfl⟩ := List.mem_map.mp hmem
      exact hd.counted

/-- **The records are named after the notes, one by one.** -/
theorem roster_eq (h : Chronicle (Books.opened k alive) ds hires c) :
    c.state.roster = hires.map nameOf := by
  induction h with
  | nil => rfl
  | snoc _ hd ih => rw [Books.roster_after hd, ih, List.map_append]

end Chronicle

/-! ## 3. Distinct names

The names are an injective image of the notes. -/

/-- **Names are distinct exactly if no task was given two records in one second**, whatever was
settled, reset or restarted in between, and in whatever way the clock went. -/
theorem worker_ids_distinct_iff {k : Kanban} {alive : Nat → Bool} {ds : List Dated}
    {hires : List (String × Int)} {b : Books}
    (h : Chronicle (Books.opened k alive) ds hires b) :
    (b.state.workers.map Worker.id).Nodup ↔ hires.Nodup := by
  have hids : b.state.workers.map Worker.id =
      hires.map fun hire => WorkerId.named hire.1 hire.2 := by
    have hfst := congrArg (List.map Prod.fst) h.roster_eq
    rw [State.roster, List.map_map, List.map_map] at hfst
    exact hfst
  rw [hids]
  refine ⟨List.Nodup.of_map _, fun hnodup => hnodup.map_on ?_⟩
  intro x hx y hy hname
  exact Prod.ext_iff.mpr ((WorkerId.named_inj (h.counted x hx) (h.counted y hy)).mp hname)

/-! ## 4. A task that is planned again

A task is started, given up, and planned again: a second later, and in the same second. -/

namespace Sample

/-- The first order of a plan that is made at a moment. -/
def orderAt (b : Books) (moment : Instant) : Order :=
  (b.snapshot.select none moment {}).dispatch.headD default

/-- The dispatch of that order. -/
def startAt (b : Books) (moment : Instant) : Dated :=
  ⟨moment, .dispatch (orderAt b moment) "mock" "/wt" moment⟩

/-- The attempt of a worker ends. -/
def endAt (workerId : String) (outcome : Outcome) (moment : Instant) : Dated :=
  ⟨moment, .settle workerId outcome {} moment⟩

def aSecondLater : Instant := ⟨20000, 43201, 0⟩

/-- The name of the worker that is started first, at noon. -/
def firstName : String := "worker-T-1-1728043200"

/-- The first task was started at noon. -/
def begun : Books := idle.after (startAt idle noon).move

/-- Its worker was given up at once. -/
def dropped : Books := begun.after (endAt firstName (.cancelled none) noon).move

/-- The task was started again, at some moment. -/
def again (moment : Instant) : Books := dropped.after (startAt dropped moment).move

theorem orderAt_mem {b : Books} {moment : Instant}
    (hplan : (b.snapshot.select none moment {}).dispatch.isEmpty = false) :
    orderAt b moment ∈ (b.snapshot.select none moment {}).dispatch := by
  unfold orderAt
  cases h : (b.snapshot.select none moment {}).dispatch with
  | nil => simp [h] at hplan
  | cons o os => exact List.mem_cons_self

theorem admits_startAt {b : Books} {moment : Instant} (hcounted : 0 ≤ moment.unixSeconds)
    (hplan : (b.snapshot.select none moment {}).dispatch.isEmpty = false) :
    b.Admits (startAt b moment) :=
  ⟨⟨none, {}, _, Snapshot.plans_select .., orderAt_mem hplan⟩, trivial, hcounted⟩

theorem begun_chronicle : Chronicle idle [startAt idle noon] [("T-1", 1728043200)] begun :=
  Chronicle.nil.snoc (admits_startAt (by decide) (by decide +kernel))

theorem begun_attended (outcome : Outcome) :
    begun.Attended (endAt firstName outcome noon).move := by
  have hactive : ∃ w ∈ begun.state.workers, w.id = firstName ∧ w.status.isActive = true := by
    decide +kernel
  exact hactive

/-- A chronicle in which the task is started, given up and started again. -/
theorem again_chronicle (moment : Instant) (hcounted : 0 ≤ moment.unixSeconds)
    (hplan : (dropped.snapshot.select none moment {}).dispatch.isEmpty = false) :
    Chronicle idle
      [startAt idle noon, endAt firstName (.cancelled none) noon, startAt dropped moment]
      ([("T-1", 1728043200)] ++ dropped.hired (startAt dropped moment)) (again moment) := by
  have hdropped : Chronicle idle [startAt idle noon, endAt firstName (.cancelled none) noon]
      [("T-1", 1728043200)] dropped :=
    begun_chronicle.snoc ⟨trivial, begun_attended _, by decide⟩
  exact hdropped.snoc (admits_startAt hcounted hplan)

end Sample

/-- A task that is planned again a second later gets a worker with a name of its own. -/
theorem later_worker_id_distinct :
    Chronicle Sample.idle
        [Sample.startAt Sample.idle Sample.noon,
          Sample.endAt Sample.firstName (.cancelled none) Sample.noon,
          Sample.startAt Sample.dropped Sample.aSecondLater]
        [("T-1", 1728043200), ("T-1", 1728043201)] (Sample.again Sample.aSecondLater) ∧
      ((Sample.again Sample.aSecondLater).state.workers.map Worker.id).Nodup := by
  have hhired : Sample.dropped.hired (Sample.startAt Sample.dropped Sample.aSecondLater) =
      [("T-1", 1728043201)] := by decide +kernel
  have h := Sample.again_chronicle Sample.aSecondLater (by decide) (by decide +kernel)
  rw [hhired] at h
  exact ⟨h, (worker_ids_distinct_iff h).mpr (by decide)⟩

/-- **A task that is planned again in the same second gets a worker with the same name.**  The
clock never goes back, and the worker is given up while it is active.  A look-up finds the record
that was given up, and never the active one behind it. -/
theorem same_second_shares_worker_id :
    Chronicle Sample.idle
        [Sample.startAt Sample.idle Sample.noon,
          Sample.endAt Sample.firstName (.cancelled none) Sample.noon,
          Sample.startAt Sample.dropped Sample.noon]
        [("T-1", 1728043200), ("T-1", 1728043200)] (Sample.again Sample.noon) ∧
      ((Sample.again Sample.noon).state.workers.map fun w => (w.id, w.status)) =
        [(Sample.firstName, .abandoned), (Sample.firstName, .spawned)] ∧
      ((Sample.again Sample.noon).state.worker? Sample.firstName).map Worker.status =
        some .abandoned ∧
      ¬ ((Sample.again Sample.noon).state.workers.map Worker.id).Nodup := by
  have hhired : Sample.dropped.hired (Sample.startAt Sample.dropped Sample.noon) =
      [("T-1", 1728043200)] := by decide +kernel
  have h := Sample.again_chronicle Sample.noon (by decide) (by decide +kernel)
  rw [hhired] at h
  exact ⟨h, by decide +kernel, by decide +kernel, by decide +kernel⟩

end Foreman

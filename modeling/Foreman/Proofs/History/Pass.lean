/-
# A pass carries out its plan

The plan is made by `select_tasks` against one snapshot and carried out one order at a time, in
documents that every earlier order has changed, with messages of active workers in between.  Two
checks have to agree: the plan compares footprints as they are spelled in the backlog, the
dispatch compares them with the canonical spellings that are claimed.

`Stage` says what the documents look like between two moves of the pass.  Compared with the
beginning, the tasks of the orders carried out are in progress and their patterns are claimed,
and of all other tasks nothing has changed that a dispatch or the next plan looks at.  Deferrals
and messages change nothing of this kind at all (`Unmoved`).

* `Stage.dispatch`: the next order of the plan starts its task under the worker it names.
* `Stage.play`: so the stages follow one another through the whole pass.
* `Stage.eligibleTasks_eq_nil`: at its end no task may start, if the plan had room left.
* `pass_carries_out_plan`: no order is refused, and if the plan had room left no task may start
  afterwards.

The plan may be made by any routine that keeps to the contract of a `Sorter`.  What is used of
it is that its orders are a selection of the tasks that may start, of which no two collide and
none is taken twice; in which order they come is of no weight.  Whether there is a plan at all
is another matter: a routine may give up where scores and identifiers are no order, and where
they are one it does not.
-/
import Foreman.Proofs.History.Disjoint
import Foreman.Proofs.Schedule.Plan
import Mathlib.Data.List.Induction

namespace Foreman

/-! ## 1. Carrying out a plan

Which moves a pass makes.  Outcomes are not among them: the loop takes none before the plan is
carried out. -/

namespace Move

/-- The order of a dispatch. -/
def order? : Move → Option Order
  | .dispatch order _ _ _ => some order
  | _ => none

/-- What a deferral puts in the queue. -/
def deferral? : Move → Option Deferral
  | .defer taskId footprint blocking _ => some ⟨taskId, footprint, blocking⟩
  | _ => none

/-- A pass dispatches and defers, and meanwhile workers report that they run and where. -/
def InPass : Move → Prop
  | .dispatch _ _ _ _ | .defer _ _ _ _ | .markRunning _ _ | .recordSession _ _ => True
  | _ => False

/-- What a pass does besides its dispatches changes nothing of weight. -/
theorem InPass.quiet {m : Move} (h : m.InPass) (horder : m.order? = none) : m.Quiet := by
  cases m with
  | dispatch => exact absurd horder (by simp [order?])
  | beginPass | settle | reset | restart => exact h.elim
  | defer | markRunning | recordSession => trivial

end Move

/-- The moves carry out the plan: they make its deferrals and its orders, each in the plan's order,
with messages of workers anywhere between them. -/
structure Plan.CarriedOutBy (plan : Plan) (moves : List Move) : Prop where
  orders : moves.filterMap Move.order? = plan.dispatch
  deferrals : moves.filterMap Move.deferral? = plan.deferred
  within : ∀ m ∈ moves, m.InPass

/-! ## 2. The stages of a pass

The documents after some of the orders, set against those the plan was made for. -/

/-- The task, in progress if it is one of those started. -/
def Task.begun (started : List String) (t : Task) : Task :=
  if t.id ∈ started then { t with status := .inProgress } else t

@[simp] theorem Task.begun_id (started : List String) (t : Task) : (t.begun started).id = t.id := by
  unfold begun
  split <;> rfl

@[simp] theorem Task.begun_plain (started : List String) (t : Task) :
    (t.begun started).plain = t.plain := by
  unfold begun
  split <;> rfl

/-- A task that was not started is as it was. -/
theorem Task.begun_of_not_mem {started : List String} {t : Task} (h : t.id ∉ started) :
    t.begun started = t := if_neg h

/-- One task more is started. -/
theorem Task.begun_append (started : List String) (taskId : String) (t : Task) :
    t.begun (started ++ [taskId]) = Kanban.restatus taskId .inProgress (t.begun started) := by
  rw [Kanban.restatus, begun_id]
  unfold begun
  by_cases hnew : t.id = taskId
  · rw [if_pos hnew, if_pos (List.mem_append_right _ (List.mem_singleton.mpr hnew))]
    split <;> rfl
  · have hmem : t.id ∈ started ++ [taskId] ↔ t.id ∈ started := by simp [hnew]
    rw [if_neg hnew]
    simp only [hmem]

/-- The patterns an order claims. -/
def Order.claimed (o : Order) : List String := o.footprint.map Pattern.normalize

/-- The documents after the orders `done` of a pass that began with `start`. -/
structure Stage (start : Books) (done : List Order) (b : Books) : Prop where
  tasks : b.kanban.tasks = start.kanban.tasks.map (Task.begun (done.map Order.taskId))
  claims : b.state.registry.claims.map Claim.pattern =
    start.state.registry.claims.map Claim.pattern ++ done.flatMap Order.claimed
  /-- The workers of all other tasks are as they were. -/
  others : ∀ id ∉ done.map Order.taskId,
    (b.state.workersOf id).map Worker.profile = (start.state.workersOf id).map Worker.profile
  cooldown : ∀ id, (b.state.resumeOf id).earliestRetry = (start.state.resumeOf id).earliestRetry
  home : b.state.ParkedAtHome

/-- Only the end of the cooldown decides whether it is over. -/
theorem Resume.inCooldown_congr {r r' : Resume} (h : r'.earliestRetry = r.earliestRetry)
    (now : Instant) : r'.inCooldown now = r.inCooldown now := by
  rw [inCooldown, inCooldown, h]

/-- Whether a parked worker is at home is decided by the profiles. -/
theorem State.ParkedAtHome.of_profiles {s s' : State} (h : s.ParkedAtHome)
    (hw : s'.workers.map Worker.profile = s.workers.map Worker.profile) : s'.ParkedAtHome := by
  intro w hmem hstatus
  obtain ⟨v, hv, hvw⟩ := List.mem_map.mp (hw ▸ List.mem_map_of_mem hmem)
  rw [Worker.profile_eq_iff] at hvw
  have hpairs : s'.workers.map (fun w => (w.id, w.taskId)) =
      s.workers.map fun w => (w.id, w.taskId) := by
    have hfst := congrArg (List.map fun p : String × String × Bool × Bool => (p.1, p.2.1)) hw
    rw [List.map_map, List.map_map] at hfst
    exact hfst
  have hparked : v.status = .awaitingRetry := by
    have hactive := hvw.2.2.1
    have hterminal := hvw.2.2.2
    rw [hstatus] at hactive hterminal
    cases hvs : v.status <;> simp_all [WorkerStatus.isActive, WorkerStatus.isTerminal]
  rw [taskOf?_eq_find?, hpairs, ← taskOf?_eq_find?, ← hvw.1, ← hvw.2.1]
  exact h v hv hparked

namespace Stage

variable {start b c : Books} {done : List Order}

/-- Before the first order nothing has changed. -/
theorem initial (hacc : Accord start) : Stage start [] start := by
  refine ⟨?_, by simp, fun _ _ => rfl, fun _ => rfl, ?_⟩
  · have hsame : start.kanban.tasks.map (Task.begun []) = start.kanban.tasks.map id :=
      List.map_congr_left fun t _ => Task.begun_of_not_mem List.not_mem_nil
    rw [List.map_nil, hsame, List.map_id]
  · intro w hw _
    rw [State.taskOf?, (State.worker?_eq_some_iff hacc.tidy.distinct).mpr ⟨hw, rfl⟩]
    rfl

/-- A deferral or a message stays in the stage. -/
theorem unmoved (h : Stage start done b) (hc : Unmoved b c) : Stage start done c := by
  refine ⟨?_, ?_, fun id hid => ?_, fun id => ?_, h.home.of_profiles hc.profiles⟩
  · rw [hc.kanban, h.tasks]
  · rw [hc.claims, h.claims]
  · rw [State.map_profile_workersOf, hc.profiles, ← State.map_profile_workersOf, h.others id hid]
  · rw [hc.cooldown, h.cooldown]

/-- Nothing but statuses has changed. -/
theorem plainTasks_eq (h : Stage start done b) : b.kanban.plainTasks = start.kanban.plainTasks := by
  rw [Kanban.plainTasks, Kanban.plainTasks, h.tasks, List.map_map]
  exact List.map_congr_left fun t _ => Task.begun_plain _ t

/-- A task whose order is still to come has the active workers it had. -/
theorem hasActiveWorker_eq (h : Stage start done b) {id : String}
    (hid : id ∉ done.map Order.taskId) :
    b.state.hasActiveWorker id = start.state.hasActiveWorker id :=
  State.hasActiveWorker_eq_of_profiles (h.others id hid)

/-- A task whose order is still to come has the parked worker it had. -/
theorem retryWorker?_id (h : Stage start done b) {id : String} (hid : id ∉ done.map Order.taskId) :
    (b.state.retryWorker? id).map Worker.id = (start.state.retryWorker? id).map Worker.id := by
  have hfind : ∀ ws : List Worker,
      (ws.find? fun w => w.status = .awaitingRetry).map Worker.id =
        ((ws.map Worker.profile).find? fun p => !p.2.2.1 && !p.2.2.2).map Prod.fst := by
    intro ws
    have hparked : ((fun p : String × String × Bool × Bool => !p.2.2.1 && !p.2.2.2) ∘
        Worker.profile) = fun w => decide (w.status = .awaitingRetry) := by
      funext w
      cases hw : w.status <;>
        simp [Worker.profile, hw, WorkerStatus.isActive, WorkerStatus.isTerminal]
    rw [List.find?_map, Option.map_map, hparked]
    rfl
  rw [State.retryWorker?_eq_find?_workersOf, State.retryWorker?_eq_find?_workersOf, hfind, hfind,
    h.others id hid]

/-- A footprint is free if it was at the beginning and overlaps no order carried out. -/
theorem findConflict_eq_none_iff (h : Stage start done b)
    (hblank : ∀ o ∈ done, ∀ p ∈ o.footprint, Pattern.BlankFree p) {footprint : List String} :
    b.state.registry.findConflict footprint = none ↔
      start.state.registry.findConflict footprint = none ∧
        ∀ o ∈ done, Footprint.intersection? footprint o.footprint = none := by
  have hpatterns : ∀ r : Registry, r.findConflict footprint = none ↔
      ∀ p ∈ footprint, ∀ q ∈ r.claims.map Claim.pattern, Pattern.intersects p q = false := by
    intro r
    rw [Registry.findConflict, Registry.conflictAmong_eq_none_iff]
    simp only [List.forall_mem_map]
  -- claims are held in canonical spelling, which changes no overlap where no blank is inside
  have horder : ∀ o ∈ done, (∀ p ∈ footprint, ∀ q ∈ o.claimed, Pattern.intersects p q = false) ↔
      Footprint.intersection? footprint o.footprint = none := by
    intro o ho
    rw [Footprint.intersection?_eq_none_iff]
    refine forall₂_congr fun p _ => ?_
    rw [Order.claimed, List.forall_mem_map]
    exact forall₂_congr fun q hq => by rw [Pattern.intersects_normalize_right p (hblank o ho q hq)]
  rw [hpatterns, hpatterns, h.claims]
  constructor
  · intro hfree
    refine ⟨fun p hp q hq => hfree p hp q (List.mem_append_left _ hq), fun o ho => ?_⟩
    exact (horder o ho).mp fun p hp q hq => hfree p hp q
      (List.mem_append_right _ (List.mem_flatMap.mpr ⟨o, ho, hq⟩))
  · rintro ⟨hstart, hdone⟩ p hp q hq
    rcases List.mem_append.mp hq with hq | hq
    · exact hstart p hp q hq
    · obtain ⟨o, ho, hq⟩ := List.mem_flatMap.mp hq
      exact (horder o ho).mpr (hdone o ho) p hp q hq

/-- The documents after one order more. -/
theorem started (h : Stage start done b) (hids : b.kanban.HasDistinctIds) {t : Task}
    (ht : t ∈ b.kanban.tasks) {o : Order} (htask : o.taskId = t.id)
    (hfoot : o.footprint = t.footprint) (backend worktreeDir : String) (now : Instant) {k' : Kanban}
    (hset : b.kanban.setStatus t.id .inProgress = .ok k') :
    Stage start (done ++ [o]) ⟨(b.state.launched t o backend worktreeDir now).2, k'⟩ := by
  rw [Kanban.setStatus_eq_ok hids ⟨t, ht, rfl⟩] at hset
  cases hset
  have hdone : (done ++ [o]).map Order.taskId = done.map Order.taskId ++ [t.id] := by
    rw [List.map_append, ← htask]
    rfl
  refine ⟨?_, ?_, fun id hid => ?_, fun id => ?_, h.home.launched t o backend worktreeDir now⟩
  · rw [hdone]
    dsimp only
    rw [h.tasks, List.map_map]
    exact List.map_congr_left fun u _ => (Task.begun_append _ _ u).symm
  · have hnew : (Registry.claimsFor t.footprint (b.state.workerFor t.id o) t.id now).map
        Claim.pattern = o.claimed := by
      simp [Registry.claimsFor, Order.claimed, hfoot]
    rw [State.launched_registry, State.claimed_claims, List.map_append, h.claims, hnew,
      List.append_assoc, List.flatMap_append, List.flatMap_singleton]
  · rw [hdone, List.mem_append, List.mem_singleton, not_or] at hid
    rw [State.launched_workersOf h.home t o backend worktreeDir now hid.2, h.others id hid.1]
  · rw [State.resumeOf, State.launched_resume]
    exact h.cooldown id

/-- No task is done that was not done at the beginning. -/
theorem isDone (h : Stage start done b) {id : String} (hdone : b.snapshot.isDone id = true) :
    start.snapshot.isDone id = true := by
  have hfind : b.snapshot.task? id =
      (start.snapshot.task? id).map (Task.begun (done.map Order.taskId)) := by
    have hids : ((fun t : Task => decide (t.id = id)) ∘ Task.begun (done.map Order.taskId)) =
        fun t => decide (t.id = id) := by
      funext t
      simp
    have htasks : b.snapshot.tasks =
        start.snapshot.tasks.map (Task.begun (done.map Order.taskId)) := h.tasks
    rw [Snapshot.task?, htasks, List.find?_map, hids, Snapshot.task?]
  unfold Snapshot.isDone at hdone ⊢
  rw [hfind] at hdone
  cases hstart : start.snapshot.task? id with
  | none => simp [hstart] at hdone
  | some t =>
    rw [hstart, Option.map_some] at hdone
    simp only [decide_eq_true_eq] at hdone ⊢
    by_cases hin : t.id ∈ done.map Order.taskId
    · rw [Task.begun, if_pos hin] at hdone
      exact absurd hdone (by simp)
    · rwa [Task.begun_of_not_mem hin] at hdone

/-- **The next order of the plan starts its task under the worker it names.** -/
theorem dispatch (h : Stage start done b) (hids : start.kanban.HasDistinctIds)
    (hblank : ∀ o ∈ done, ∀ p ∈ o.footprint, Pattern.BlankFree p) {moment : Instant} {t : Task}
    (ht : t ∈ start.snapshot.eligibleTasks moment) {o : Order} (htask : o.taskId = t.id)
    (hfoot : o.footprint = t.footprint) (hworker : o.workerId = start.snapshot.workerIdFor t moment)
    (hnew : t.id ∉ done.map Order.taskId) (hapart : ∀ o' ∈ done, Snapshot.Apart o' o)
    (backend worktreeDir : String) (now : Instant) :
    (∃ ticket, (b.state.dispatch b.kanban o backend worktreeDir now).1 = .ok ticket ∧
      ticket.worker.id = o.workerId) ∧
    Stage start (done ++ [o]) (b.after (.dispatch o backend worktreeDir now)) := by
  obtain ⟨htasks, -, -, hidle, -, hfree⟩ := Snapshot.mem_eligibleTasks_iff.mp ht
  have hids' : b.kanban.HasDistinctIds := hids.of_plainTasks_eq h.plainTasks_eq
  have htb : t ∈ b.kanban.tasks := by
    rw [h.tasks]
    exact List.mem_map.mpr ⟨t, htasks, Task.begun_of_not_mem hnew⟩
  have hfind : b.kanban.find? o.taskId = some t :=
    (Kanban.find?_eq_some_iff hids').mpr ⟨htb, htask.symm⟩
  have hidle' : b.state.hasActiveWorker t.id = false := (h.hasActiveWorker_eq hnew).trans hidle
  -- what the orders before it have claimed is apart from it, by the plan
  have hfree' : b.state.registry.findConflict t.footprint = none :=
    (h.findConflict_eq_none_iff hblank).mpr ⟨hfree, fun o' ho' => hfoot ▸ hapart o' ho'⟩
  -- a worker that waited at the start still waits: only its own task's order wakes it
  have hname : b.state.workerFor t.id o = o.workerId := by
    have hsame := h.retryWorker?_id hnew
    unfold State.workerFor
    cases hretry : b.state.retryWorker? t.id with
    | none => rfl
    | some w =>
      rw [hretry, Option.map_some] at hsame
      obtain ⟨v, hv, hvw⟩ := Option.map_eq_some_iff.mp hsame.symm
      have hv' : start.snapshot.retryWorker? t.id = some v := hv
      rw [hworker, Snapshot.workerIdFor, hv']
      exact hvw.symm
  have hend := State.dispatch_end b.state b.kanban o backend worktreeDir now
  simp only [Books.after]
  generalize b.state.dispatch b.kanban o backend worktreeDir now = r at hend
  cases hend with
  | unknown hnone => exact absurd (hfind.symm.trans hnone) (by simp)
  | busy u hu hbusy =>
    cases hfind.symm.trans hu
    exact absurd (hidle'.symm.trans hbusy) (by simp)
  | blocked u held hu _ hheld =>
    cases hfind.symm.trans hu
    exact absurd (hfree'.symm.trans hheld) (by simp)
  | started u k' hu _ _ hset =>
    cases hfind.symm.trans hu
    refine ⟨⟨_, rfl, ?_⟩, h.started hids' htb htask hfoot backend worktreeDir now hset⟩
    exact (State.launched_id ..).trans hname

end Stage

/-! ## 3. The whole pass

The stages follow one another by induction over the moves; the orders that were carried out are
then a beginning of the plan. -/

/-- The orders of a plan claim no pattern with a blank, if the backlog has none. -/
theorem Kanban.BlankFree.order {b : Books} (h : b.kanban.BlankFree) {room : Option Nat}
    {moment : Instant} {w : Config.Scoring} {plan : Plan}
    (hplan : b.snapshot.Plans room moment w plan) {o : Order} (ho : o ∈ plan.dispatch) :
    ∀ p ∈ o.footprint, Pattern.BlankFree p := by
  obtain ⟨t, ht, -, hfoot, -⟩ := hplan.dispatch_mem ho
  rw [hfoot]
  exact h t (Snapshot.mem_eligibleTasks_iff.mp ht).1

theorem Books.play_append (b : Books) (moves more : List Move) :
    b.play (moves ++ more) = (b.play moves).play more := List.foldl_append

section Pass

variable {k : Kanban} {b : Books} (hids : k.HasDistinctIds) (hblank : k.BlankFree)
  (hreach : Reachable k b) {room : Option Nat} {moment : Instant} {w : Config.Scoring}
  {plan : Plan} (hplan : b.snapshot.Plans room moment w plan)

include hids hblank hreach hplan

/-- What the next order of the plan finds, whatever has been carried out before it. -/
theorem Stage.next {done : List Order} {o : Order} {rest : List Order}
    (hdue : plan.dispatch = done ++ o :: rest) {c : Books}
    (h : Stage b done c) (backend worktreeDir : String) (now : Instant) :
    (∃ ticket, (c.state.dispatch c.kanban o backend worktreeDir now).1 = .ok ticket ∧
      ticket.worker.id = o.workerId) ∧
    Stage b (done ++ [o]) (c.after (.dispatch o backend worktreeDir now)) := by
  have hids' : b.kanban.HasDistinctIds := hids.of_plainTasks_eq hreach.plainTasks_eq
  have hblank' : b.kanban.BlankFree := hblank.of_plainTasks_eq hreach.plainTasks_eq
  have hnodup : ((done ++ o :: rest).map Order.taskId).Nodup :=
    hdue ▸ hplan.dispatch_nodup hids'
  have hapart : (done ++ o :: rest).Pairwise Snapshot.Apart := hdue ▸ hplan.dispatch_apart
  have hblankDone : ∀ o' ∈ done, ∀ p ∈ o'.footprint, Pattern.BlankFree p := fun o' ho' =>
    hblank'.order hplan (hdue ▸ List.mem_append_left _ ho')
  have ho : o ∈ plan.dispatch := by
    rw [hdue]
    exact List.mem_append_right _ List.mem_cons_self
  obtain ⟨t, ht, htask, hfoot, hworker⟩ := hplan.dispatch_mem ho
  refine h.dispatch hids' hblankDone ht htask hfoot hworker ?_ ?_ backend worktreeDir now
  · rw [List.map_append, List.nodup_append] at hnodup
    intro hin
    exact hnodup.2.2 _ hin _ (by simp) htask.symm
  · exact fun o' ho' => (List.pairwise_append.mp hapart).2.2 o' ho' o List.mem_cons_self

/-- **The stages follow one another**, as far as the moves have come. -/
theorem Stage.play {moves : List Move} (hwithin : ∀ m ∈ moves, m.InPass) : ∀ {rest : List Order},
    plan.dispatch = moves.filterMap Move.order? ++ rest →
      Stage b (moves.filterMap Move.order?) (b.play moves) := by
  induction moves using List.reverseRecOn with
  | nil => exact fun _ => Stage.initial (hreach.accord hids)
  | append_singleton moves m ih =>
    intro rest hdue
    have hwithin' : ∀ m ∈ moves, m.InPass := fun m hm => hwithin m (List.mem_append_left _ hm)
    rw [List.filterMap_append] at hdue ⊢
    rw [Books.play_append]
    cases horder : m.order? with
    | none =>
      rw [List.filterMap_cons_none horder, List.filterMap_nil, List.append_nil] at hdue ⊢
      exact (ih hwithin' hdue).unmoved (Books.unmoved_after _ ((hwithin m (by simp)).quiet horder))
    | some o =>
      rw [List.filterMap_cons_some horder, List.filterMap_nil] at hdue ⊢
      rw [List.append_assoc, List.singleton_append] at hdue
      cases m with
      | dispatch o' backend worktreeDir now =>
        cases horder
        exact (Stage.next hids hblank hreach hplan hdue (ih hwithin' hdue) backend worktreeDir
          now).2
      | _ => exact absurd horder (by simp [Move.order?])

/-- A pass with room left leaves no task that may start. -/
theorem Stage.eligibleTasks_eq_nil {c : Books} (h : Stage b plan.dispatch c)
    (hroom : ∀ n ∈ room, plan.dispatch.length < n) : c.snapshot.eligibleTasks moment = [] := by
  have hblank' : b.kanban.BlankFree := hblank.of_plainTasks_eq hreach.plainTasks_eq
  have hids' : b.kanban.HasDistinctIds := hids.of_plainTasks_eq hreach.plainTasks_eq
  have hblankDone : ∀ o ∈ plan.dispatch, ∀ p ∈ o.footprint, Pattern.BlankFree p :=
    fun _ ho => hblank'.order hplan ho
  refine List.eq_nil_iff_forall_not_mem.mpr fun t' ht' => ?_
  obtain ⟨htasks, hwaits, hdeps, hidle, hcool, hfree⟩ := Snapshot.mem_eligibleTasks_iff.mp ht'
  have htasks' : t' ∈ b.kanban.tasks.map (Task.begun (plan.dispatch.map Order.taskId)) :=
    h.tasks ▸ htasks
  obtain ⟨t, ht, rfl⟩ := List.mem_map.mp htasks'
  -- a task that was started does not wait, so this one was not
  have hnew : t.id ∉ plan.dispatch.map Order.taskId := by
    intro hin
    rw [Task.begun, if_pos hin] at hwaits
    exact absurd hwaits (by simp [Snapshot.isWaiting])
  rw [Task.begun_of_not_mem hnew] at hwaits hdeps hidle hcool hfree
  obtain ⟨hfree, hapart⟩ := (h.findConflict_eq_none_iff hblankDone).mp hfree
  have ht' : t ∈ b.snapshot.eligibleTasks moment := by
    refine Snapshot.mem_eligibleTasks_iff.mpr ⟨ht, hwaits, ?_, ?_, ?_, hfree⟩
    · exact List.all_eq_true.mpr fun d hd => h.isDone (List.all_eq_true.mp hdeps d hd)
    · exact (h.hasActiveWorker_eq hnew).symm.trans hidle
    · rw [← hcool]
      exact Resume.inCooldown_congr (h.cooldown t.id).symm moment
  obtain ⟨o, ho, htask | hmeets⟩ := hplan.dispatch_covers hroom ht'
  · exact hnew (List.mem_map.mpr ⟨o, ho, htask⟩)
  · exact hmeets (hapart o ho)

/-- No order of the plan is refused, and a plan with room left leaves no task that may start. -/
theorem Plan.CarriedOutBy.succeeds {moves : List Move} (hmoves : plan.CarriedOutBy moves) :
    (∀ before after o backend worktreeDir now,
      moves = before ++ .dispatch o backend worktreeDir now :: after →
      ∃ ticket, ((b.play before).state.dispatch (b.play before).kanban o backend worktreeDir
        now).1 = .ok ticket ∧ ticket.worker.id = o.workerId) ∧
    ((∀ n ∈ room, plan.dispatch.length < n) →
      (b.play moves).snapshot.eligibleTasks moment = []) := by
  constructor
  · rintro before after o backend worktreeDir now rfl
    have hdue : plan.dispatch =
        before.filterMap Move.order? ++ o :: after.filterMap Move.order? := by
      rw [← hmoves.orders, List.filterMap_append]
      rfl
    have hstage := Stage.play hids hblank hreach hplan
      (fun m hm => hmoves.within m (List.mem_append_left _ hm)) hdue
    exact (Stage.next hids hblank hreach hplan hdue hstage backend worktreeDir now).1
  · intro hroom
    have hdue : plan.dispatch = moves.filterMap Move.order? ++ [] := by
      rw [hmoves.orders, List.append_nil]
    have hstage := Stage.play hids hblank hreach hplan hmoves.within hdue
    rw [hmoves.orders] at hstage
    exact hstage.eligibleTasks_eq_nil hids hblank hreach hplan hroom

end Pass

/-- **A pass carries out its plan and leaves nothing that could still start.**  On reachable
documents of a backlog with distinct identifiers and patterns without blanks, whatever room, time
and weights the plan was made with, whatever routine has ranked its tasks, and whatever messages of
workers come in between:

* every order starts its task, under the worker the order names;
* if fewer orders were planned than there was room for, no task may start afterwards;
* there is a plan, unless scores or identifiers put the tasks that may start in no order. -/
theorem pass_carries_out_plan {k : Kanban} {b : Books} (hids : k.HasDistinctIds)
    (hblank : k.BlankFree) (hreach : Reachable k b) (sort : Sorter) (room : Option Nat)
    (moment : Instant) (w : Config.Scoring) :
    (∀ plan moves, b.snapshot.selectBy sort room moment w = some plan → plan.CarriedOutBy moves →
      (∀ before after o backend worktreeDir now,
        moves = before ++ .dispatch o backend worktreeDir now :: after →
        ∃ ticket, ((b.play before).state.dispatch (b.play before).kanban o backend worktreeDir
          now).1 = .ok ticket ∧ ticket.worker.id = o.workerId) ∧
      ((∀ n ∈ room, plan.dispatch.length < n) →
        (b.play moves).snapshot.eligibleTasks moment = [])) ∧
    (IsOrderOn Snapshot.outranks (b.snapshot.scored moment w) →
      b.snapshot.selectBy sort room moment w = some (b.snapshot.select room moment w)) := by
  refine ⟨fun plan moves hplan hmoves => ?_, Snapshot.selectBy_eq sort⟩
  exact hmoves.succeeds hids hblank hreach ⟨sort, hplan⟩

namespace Sample

/-- The first task's worker. -/
def firstWorker : String := "worker-T-1-1728043200"

/-- A pass that starts the second task and puts off the third, while the first worker reports. -/
def pass : List Move :=
  [.markRunning firstWorker 4242, .defer "T-3" ["src/lib/**"] ⟨firstWorker, "T-1", "src"⟩ noon,
    startNext waiting, .recordSession firstWorker "s-1"]

theorem pass_carriesOut : (waiting.snapshot.select none noon {}).CarriedOutBy pass := by
  refine ⟨?_, by decide +kernel, fun m hm => ?_⟩
  · have hone : (waiting.snapshot.select none noon {}).dispatch.length = 1 := by decide +kernel
    obtain ⟨o, ho⟩ := List.length_eq_one_iff.mp hone
    have hnext : nextOrder waiting = o := by rw [nextOrder, ho, List.headD_cons]
    rw [ho, ← hnext]
    rfl
  · simp only [pass, List.mem_cons, List.not_mem_nil, or_false] at hm
    rcases hm with rfl | rfl | rfl | rfl <;> exact trivial

end Sample

/-- A pass with one order, one deferral and two messages, while a worker is active. -/
theorem waiting_pass_carries_out_plan :
    Sample.board.HasDistinctIds ∧ Sample.board.BlankFree ∧ Reachable Sample.board Sample.waiting ∧
      Sample.waiting.snapshot.selectBy .cautious none Sample.noon {} =
        some (Sample.waiting.snapshot.select none Sample.noon {}) ∧
      (Sample.waiting.snapshot.select none Sample.noon {}).CarriedOutBy Sample.pass ∧
      (∃ ticket, ((Sample.waiting.play (Sample.pass.take 2)).state.dispatch
          (Sample.waiting.play (Sample.pass.take 2)).kanban (Sample.nextOrder Sample.waiting) "mock"
          "/wt" Sample.noon).1 = .ok ticket ∧
        ticket.worker.id = (Sample.nextOrder Sample.waiting).workerId) ∧
      (Sample.waiting.play Sample.pass).snapshot.eligibleTasks Sample.noon = [] := by
  obtain ⟨hcarried, hplanned⟩ := pass_carries_out_plan Sample.board_hasDistinctIds
    Sample.board_blankFree Sample.waiting_reachable .cautious none Sample.noon {}
  have hplan := hplanned (by decide +kernel)
  obtain ⟨hstarts, hnothing⟩ := hcarried _ _ hplan Sample.pass_carriesOut
  exact ⟨Sample.board_hasDistinctIds, Sample.board_blankFree, Sample.waiting_reachable, hplan,
    Sample.pass_carriesOut, hstarts (Sample.pass.take 2) (Sample.pass.drop 3) _ _ _ _ rfl,
    hnothing (by simp)⟩

end Foreman

/-
# What comes before a start

A task starts only when its dependencies are done, and their branches have been offered to the
trunk by then.  The first is decided on a snapshot, and the order is given later in the same pass:
meanwhile the pass starts other tasks, which takes none away from those that are done.  The second
follows from where outcomes are settled: only while the loop waits, from where it comes by the
place that merges before the next pass.

* `Kanban.MayStart.started`: starting one task leaves every other one that may start as it is.
* `Cleared.step`: so the orders of a pass stay right until their turn comes.
* `Attested.step`: as long as the loop goes on, every result was accepted, and every merge was the
  merger's.
* `dependencies_before_start`: so whenever the coordinator is asked to start a task, each of its
  dependencies is done, and every branch that was yielded has been passed to the merger.

Three invariants are kept side by side (`InOrder`): the ledger of branches, the orders of the
pass, and what the history attests.  None needs the others for a step, and the theorem takes
from each what it says at the moment of a start.
-/
import Foreman.Proofs.History.Desk
import Foreman.Proofs.Merge.Report
import Foreman.Proofs.Run.Branches
import Foreman.Proofs.Run.Flights
import Foreman.Proofs.Schedule.Plan

namespace Foreman

/-! ## 1. What is passed to the integration

A branch may be offered and still be skipped; what counts is that its integration was tried. -/

namespace Merger

variable {σ : Type}

/-- The merger with a note of every candidate that is passed to its integration. -/
def noting (m : Merger σ) : Merger (σ × List Candidate) where
  integrate c w := let (result, world) := m.integrate c w.1; (result, world, w.2 ++ [c])
  cleanup c w := let (result, world) := m.cleanup c w.1; (result, world, w.2)

/-- What is noted are the candidates written down with their integrations. -/
theorem mergeAll_noting (m : Merger σ) (cands : List Candidate) (w : σ) :
    (m.noting.mergeAll cands (w, [])).2.2 = Candidate.mergeOrder cands := by
  have hstep := mergeEach_in_step (m := m.noting) (n := m.recording)
    (f := fun w => (w.1, w.2.filterMap Call.offered?))
    (fun c w => by simp [noting, recording, Call.offered?])
    (fun c w => by simp [noting, recording, List.filterMap_cons, Call.offered?])
    (Candidate.mergeOrder cands) (w, [])
  calc (m.noting.mergeAll cands (w, [])).2.2
      = (m.recording.mergeAll cands (w, [])).2.2.filterMap Call.offered? :=
        congrArg (fun r => r.2.2) hstep
    _ = Candidate.mergeOrder cands := (m.rounds_mergeEach _ w).offered

/-- **A merge passes exactly its candidates to the integration.** -/
theorem mem_noted_iff (m : Merger σ) (cands : List Candidate) (w : σ) (c : Candidate) :
    c ∈ (m.noting.mergeAll cands (w, [])).2.2 ↔ c ∈ cands := by
  rw [mergeAll_noting]
  exact (Candidate.mergeOrder_perm cands).mem_iff

end Merger

/-! ## 2. Tasks that may start

What a dependency asks for, on the backlog alone (`dependencies_done`). -/

namespace Kanban

variable {k k' : Kanban} {taskId other : String}

/-- The task is there, and done. -/
def IsDone (k : Kanban) (taskId : String) : Prop := ∃ t ∈ k.tasks, t.id = taskId ∧ t.status = .done

/-- The task is there, and waits for no other one. -/
def MayStart (k : Kanban) (taskId : String) : Prop :=
  ∃ t ∈ k.tasks, t.id = taskId ∧ t.status ≠ .done ∧ ∀ dep ∈ t.dependencies, k.IsDone dep

/-- **Starting a task leaves every other one that may start as it is**: a task that may start is
not done, so none that another waits for. -/
theorem MayStart.started (h : k.MayStart other) (hids : k.HasDistinctIds)
    (hstart : k.MayStart taskId) (hset : k.setStatus taskId .inProgress = .ok k') :
    k'.MayStart other := by
  obtain ⟨u, hu, huid, hopen, -⟩ := hstart
  rw [setStatus_eq_ok hids ⟨u, hu, huid⟩] at hset
  cases hset
  have hdone : ∀ dep, k.IsDone dep →
      IsDone { k with tasks := k.tasks.map (restatus taskId .inProgress) } dep := by
    rintro dep ⟨d, hd, rfl, hstatus⟩
    have hne : d.id ≠ taskId := by
      intro heq
      have hsame : d = u := Option.some.inj
        (((find?_eq_some_iff hids).mpr ⟨hd, heq⟩).symm.trans
          ((find?_eq_some_iff hids).mpr ⟨hu, huid⟩))
      exact hopen (hsame ▸ hstatus)
    have hkept : restatus taskId .inProgress d = d := if_neg hne
    exact ⟨d, List.mem_map.mpr ⟨d, hd, hkept⟩, rfl, hstatus⟩
  obtain ⟨t, ht, htid, hwaits, hdeps⟩ := h
  refine ⟨restatus taskId .inProgress t, List.mem_map_of_mem ht, ?_, ?_, ?_⟩
  · rw [restatus_id, htid]
  · unfold restatus
    split
    · exact fun heq => by cases heq
    · exact hwaits
  · have hsame : (restatus taskId .inProgress t).plain.dependencies = t.plain.dependencies :=
      congrArg Task.dependencies (restatus_plain taskId .inProgress t)
    rw [show (restatus taskId .inProgress t).dependencies = t.dependencies from hsame]
    exact fun dep hdep => hdone dep (hdeps dep hdep)

end Kanban

/-- **A plan starts only tasks that may start**, by the backlog it was made for. -/
theorem Snapshot.mayStart_of_selected {s : State} {k : Kanban} {room : Option Nat} {now : Instant}
    {w : Config.Scoring} {o : Order} (h : o ∈ ((Snapshot.of s k).select room now w).dispatch) :
    k.MayStart o.taskId := by
  obtain ⟨t, ht, hid, -, -⟩ := (plans_select ..).dispatch_mem h
  obtain ⟨hmem, hwaits, hdeps, -⟩ := mem_eligibleTasks_iff.mp ht
  refine ⟨t, hmem, hid.symm, fun hdone => ?_, fun dep hdep => ?_⟩
  · simp [isWaiting, hdone] at hwaits
  · have hisDone := List.all_eq_true.mp hdeps dep hdep
    unfold isDone task? at hisDone
    split at hisDone
    · rename_i d hfind
      exact ⟨d, List.mem_of_find?_eq_some hfind, by simpa using List.find?_some hfind,
        of_decide_eq_true hisDone⟩
    · cases hisDone

namespace Desk

variable {d : Desk} {c : DeskSettings} {now : Instant} {f : Faults}

/-- No command changes the backlog but in statuses. -/
theorem handle_plainTasks (d : Desk) (c : DeskSettings) (now : Instant) (f : Faults)
    (command : Command) :
    (d.handle c now f command).desk.kanban.plainTasks = d.kanban.plainTasks := by
  have hmove := d.handle_makes_move c now f command
  split at hmove
  · exact congrArg Kanban.plainTasks hmove.1
  · rcases hmove with hagrees | ⟨-, -, hsame⟩
    · exact (congrArg Kanban.plainTasks hagrees.1).trans (Books.plainTasks_after _ _)
    · exact congrArg (fun b : Books => b.kanban.plainTasks) hsame

/-- A command that neither starts a task nor settles a result leaves the backlog alone. -/
theorem handle_kanban {command : Command} (hdispatch : ∀ o, command ≠ .dispatch o)
    (hsettle : ∀ workerId outcome, command ≠ .settle workerId outcome) :
    (d.handle c now f command).desk.kanban = d.kanban := by
  have hmove := d.handle_makes_move c now f command
  cases command with
  | dispatch o => exact absurd rfl (hdispatch o)
  | settle workerId outcome => exact absurd rfl (hsettle workerId outcome)
  | snapshot | flush => exact hmove.1
  | beginPass | defer | markRunning | recordSession =>
    rcases hmove with hagrees | ⟨⟨o, ho⟩, -⟩
    · exact hagrees.1
    · cases ho

/-- A dispatch puts its task in progress, or leaves the backlog alone. -/
theorem dispatch_kanban (d : Desk) (c : DeskSettings) (now : Instant) (f : Faults) (o : Order) :
    (d.handle c now f (.dispatch o)).desk.kanban = d.kanban ∨
      d.kanban.setStatus o.taskId .inProgress =
        .ok (d.handle c now f (.dispatch o)).desk.kanban := by
  have hend := State.dispatch_end d.state d.kanban o c.backend c.worktreeDir now
  simp only [handle, Desk.dispatch]
  generalize d.state.dispatch d.kanban o c.backend c.worktreeDir now = r at hend
  cases hend with
  | unknown | busy => exact Or.inl rfl
  | blocked task held =>
    left
    rcases flushDispatch_agrees d ⟨d.kanban, _, d.dirty⟩ now f
      (.refused (.conflict held.pattern held.workerId)) with hagrees | ⟨-, hsame⟩
    · exact hagrees.1
    · exact congrArg Books.kanban hsame
  | started task k' hfind _ _ hset =>
    rw [(Kanban.find?_mem hfind).2] at hset
    rcases flushDispatch_agrees d ⟨k', _, true⟩ now f (.ticket _) with hagrees | ⟨-, hsame⟩
    · exact Or.inr (hset.trans (congrArg Except.ok hagrees.1.symm))
    · exact Or.inl (congrArg Books.kanban hsame)

/-- A result is accepted or refused. -/
theorem settle_reply (d : Desk) (c : DeskSettings) (now : Instant) (f : Faults) (workerId : String)
    (outcome : Outcome) :
    (∃ effect, (d.handle c now f (.settle workerId outcome)).reply = .effect effect) ∨
      ∃ failure, (d.handle c now f (.settle workerId outcome)).reply = .refused failure := by
  simp only [handle]
  generalize d.state.settle d.kanban workerId outcome c.retry now = r
  obtain ⟨result, s, k⟩ := r
  cases result with
  | error failure => exact Or.inr ⟨failure, rfl⟩
  | ok effect =>
    exact (flushThen_reply ⟨k, s, true⟩ now f (.effect effect)).imp_left fun h => ⟨effect, h⟩

end Desk

namespace Run

/-! ## 3. The orders of a pass

The orders were made on an earlier backlog, and have to be right for the present one. -/

/-- The orders that the present pass is still going to give. -/
def Phase.orders : Phase → List Order
  | .deferring _ orders _ => orders
  | .dispatching rest _ => rest
  | _ => []

namespace Loop

variable {σ : Type} {t : Terms} {s : Surroundings σ} {l l' : Loop σ} {now : Instant}

/-- After a pass there are no orders. -/
theorem afterPass_orders (l : Loop σ) (t : Terms) (p : Pass) : (l.afterPass t p).orders = [] := by
  unfold afterPass
  split
  · rfl
  · split
    · rfl
    · split <;> rfl

/-- The tasks of all orders may start. -/
structure Cleared (l : Loop σ) : Prop where
  distinct : l.desk.kanban.HasDistinctIds
  orders : ∀ o ∈ l.phase.orders, l.desk.kanban.MayStart o.taskId

namespace Cleared

theorem opened {desk : Desk} (h : desk.kanban.HasDistinctIds) (world : σ) :
    Cleared (Loop.opened world desk) := ⟨h, fun _ ho => absurd ho List.not_mem_nil⟩

/-- A step that leaves the backlog alone and adds no order. -/
theorem still (h : Cleared l) (hkanban : l'.desk.kanban = l.desk.kanban)
    (horders : ∀ o ∈ l'.phase.orders, o ∈ l.phase.orders) : Cleared l' := by
  refine ⟨hkanban ▸ h.distinct, fun o ho => ?_⟩
  rw [hkanban]
  exact h.orders o (horders o ho)

/-- A step after which there are no orders. -/
theorem emptied (h : Cleared l) (hplain : l'.desk.kanban.plainTasks = l.desk.kanban.plainTasks)
    (hnone : l'.phase.orders = []) : Cleared l' := by
  refine ⟨h.distinct.of_plainTasks_eq hplain, fun o ho => ?_⟩
  rw [hnone] at ho
  exact absurd ho List.not_mem_nil

/-- The orders of a plan are made on the backlog as it is. -/
theorem looking (h : Cleared l) (r : RateLimit) : Cleared (l.stepLooking t s now r).1 :=
  ⟨h.distinct, fun _ ho => Snapshot.mayStart_of_selected ho⟩

theorem deferring (h : Cleared l) {rest : List Deferral} {orders : List Order} {p : Pass}
    (hphase : l.phase = .deferring rest orders p) :
    Cleared (l.stepDeferring t s now rest orders p).1 := by
  have horders : l.phase.orders = orders := by rw [hphase]; rfl
  cases rest with
  | nil => exact h.still rfl fun o ho => horders ▸ ho
  | cons d rest =>
    have hkanban : (l.desk.handle t.desk now (s.faults l.world)
        (.defer d.taskId d.footprint d.blocking)).desk.kanban = l.desk.kanban :=
      Desk.handle_kanban nofun nofun
    unfold stepDeferring tell
    dsimp only
    split
    · exact h.still hkanban fun o ho => absurd ho List.not_mem_nil
    · exact h.still hkanban fun o ho => horders ▸ ho

/-- **An order that is given leaves the others right.** -/
theorem dispatching (h : Cleared l) {rest : List Order} {p : Pass}
    (hphase : l.phase = .dispatching rest p) : Cleared (l.stepDispatching t s now rest p).1 := by
  have horders : l.phase.orders = rest := by rw [hphase]; rfl
  cases rest with
  | nil => exact h.emptied rfl (l.afterPass_orders t p)
  | cons o rest =>
    have hmay : ∀ o' ∈ o :: rest, l.desk.kanban.MayStart o'.taskId := horders ▸ h.orders
    have hgiven : ∀ l' : Loop σ,
        l'.desk = (l.desk.handle t.desk now (s.faults l.world) (.dispatch o)).desk →
        (∀ o' ∈ l'.phase.orders, o' ∈ rest) → Cleared l' := by
      intro l' hdesk hrest
      refine ⟨?_, fun o' ho' => ?_⟩
      · rw [hdesk]
        exact h.distinct.of_plainTasks_eq (l.desk.handle_plainTasks _ _ _ _)
      · have hmay' := hmay o' (List.mem_cons_of_mem o (hrest o' ho'))
        rw [hdesk]
        rcases l.desk.dispatch_kanban t.desk now (s.faults l.world) o with hsame | hset
        · rwa [hsame]
        · exact hmay'.started h.distinct (hmay o List.mem_cons_self) hset
    unfold stepDispatching tell
    dsimp only
    split
    · exact hgiven _ rfl fun o' ho' => ho'
    · split
      · exact hgiven _ rfl fun o' ho' => absurd ho' List.not_mem_nil
      · exact hgiven _ rfl fun o' ho' => ho'
    · exact hgiven _ rfl fun o' ho' => ho'

/-- The loop's own next step keeps the orders right. -/
theorem proceed (h : Cleared l) (now : Instant) (r : RateLimit) :
    Cleared (l.proceed t s now r).1 := by
  unfold Loop.proceed
  cases hphase : l.phase with
  | top =>
    dsimp only
    unfold stepTop
    split
    · exact h.emptied rfl rfl
    · have hdesk := (merge_plain l s).2.1
      exact h.emptied (congrArg (fun d => d.kanban.plainTasks) hdesk) rfl
  | beginning =>
    have hplain := l.desk.handle_plainTasks t.desk now (s.faults l.world) .beginPass
    dsimp only
    unfold stepBeginning tell
    dsimp only
    split <;> exact h.emptied hplain rfl
  | looking => exact h.looking r
  | deferring rest orders p => exact h.deferring hphase
  | dispatching rest p => exact h.dispatching hphase
  | sleeping => exact h.emptied rfl rfl
  | waiting =>
    dsimp only
    split
    · exact h.emptied rfl rfl
    · exact h
  | draining first cause =>
    dsimp only
    unfold stepDraining
    split
    · exact h
    · split
      · exact h.emptied rfl rfl
      · split <;> exact h.emptied rfl rfl
      · exact h.emptied rfl rfl
  | flushing halt =>
    have hplain := l.desk.handle_plainTasks t.desk now (s.faults l.world) .flush
    dsimp only
    unfold stepFlushing tell
    dsimp only
    split <;> exact h.emptied hplain rfl
  | ended => exact h

/-- The result of a worker finds no orders, and leaves none. -/
theorem finished (h : Cleared l) (workerId : String) (result : Except Failure Outcome)
    (now : Instant) : Cleared (l.finished t s workerId result now).1 := by
  have hlands : ∀ f (l' : Loop σ), l'.desk = (l.settle t s f result now).2.1.desk →
      l'.phase.orders = [] → Cleared l' := by
    intro f l' hdesk hnone
    refine h.emptied ?_ hnone
    rw [hdesk, (settle_landed l t s f result now).desk]
    exact l.desk.handle_plainTasks _ _ _ _
  unfold Loop.finished
  split
  · rename_i f _ _
    split
    · rename_i l' acts heq
      exact hlands f _ (by rw [heq]; rfl) rfl
    · rename_i failure l' acts heq
      exact hlands f _ (by rw [heq]; rfl) rfl
  · rename_i first cause f _ _
    exact hlands f _ rfl rfl
  · exact h

/-- **Every step keeps the orders right**, whatever comes to the loop. -/
theorem step (h : Cleared l) (e : Event σ) : Cleared (l.step t s e).1 := by
  cases e with
  | proceed now r => exact h.proceed now r
  | finished workerId result now => exact h.finished workerId result now
  | message message now =>
    refine h.still ?_ fun o ho => ho
    cases message <;> exact Desk.handle_kanban nofun nofun
  | cancel => exact h.still rfl fun o ho => ho
  | graceOver =>
    simp only [Loop.step]
    split
    · exact h.still rfl fun o ho => ho
    · exact h
  | world => exact h.still rfl fun o ho => ho

end Cleared

end Loop

/-! ## 4. The history while the loop goes on

A result that is refused ends the run, so as long as passes follow, none was. -/

/-- Passes may still follow. -/
def Phase.goesOn : Phase → Bool
  | .draining .. | .flushing _ | .ended _ => false
  | _ => true

/-- The act neither settles a result nor merges branches. -/
def Act.Aside : Act → Prop
  | .offered _ _ | .told (.settle _ _) _ => False
  | _ => True

/-- Every merge of the history was the merger's, and as long as passes may follow, every result was
accepted. -/
structure Attested {σ : Type} (m : Merger σ) (acts : List Act) (phase : Phase) : Prop where
  merged : ∀ cands report, .offered cands report ∈ acts → ∃ w, report = (m.mergeAll cands w).1
  accepted : phase.goesOn = true → ∀ workerId outcome reply,
    .told (.settle workerId outcome) reply ∈ acts → ∃ effect, reply = .effect effect

namespace Attested

variable {σ : Type} {t : Terms} {s : Surroundings σ} {l : Loop σ} {now : Instant}
  {m : Merger σ} {acts : List Act}

theorem opened (m : Merger σ) : Attested m [] .top :=
  ⟨fun _ _ h => absurd h List.not_mem_nil, fun _ _ _ _ h => absurd h List.not_mem_nil⟩

/-- A step that settles nothing and merges nothing. -/
theorem aside (h : Attested m acts l.phase) {r : Loop.Step σ} (hacts : ∀ a ∈ r.2, a.Aside)
    (hgoes : r.1.phase.goesOn = true → l.phase.goesOn = true) :
    Attested m (acts ++ r.2) r.1.phase := by
  refine ⟨fun cands report hin => ?_, fun hon workerId outcome reply hin => ?_⟩
  · rcases List.mem_append.mp hin with hin | hin
    · exact h.merged cands report hin
    · exact (hacts _ hin).elim
  · rcases List.mem_append.mp hin with hin | hin
    · exact h.accepted (hgoes hon) workerId outcome reply hin
    · exact (hacts _ hin).elim

/-- What is offered to the merger comes with the merger's report. -/
theorem merge (h : Attested m acts l.phase) (hm : s.merger = some m)
    (hon : l.phase.goesOn = true) : Attested m (acts ++ (l.merge s).2) .beginning := by
  have hlast : ∀ a ∈ (l.merge s).2, ∃ cands w, a = .offered cands (m.mergeAll cands w).1 := by
    unfold Loop.merge
    split
    · exact fun a ha => absurd ha List.not_mem_nil
    · exact fun a ha => absurd ha List.not_mem_nil
    · rename_i m' hm' _
      cases hm.symm.trans hm'
      intro a ha
      exact ⟨l.pending, l.world, List.mem_singleton.mp ha⟩
  refine ⟨fun cands report hin => ?_, fun _ workerId outcome reply hin => ?_⟩
  · rcases List.mem_append.mp hin with hin | hin
    · exact h.merged cands report hin
    · obtain ⟨cands', w, heq⟩ := hlast _ hin
      cases heq
      exact ⟨w, rfl⟩
  · rcases List.mem_append.mp hin with hin | hin
    · exact h.accepted hon workerId outcome reply hin
    · obtain ⟨cands', w, heq⟩ := hlast _ hin
      cases heq

/-- **A result that is not accepted is the last thing before the run ends.** -/
theorem settled (h : Attested m acts l.phase) {new : List Act} {phase : Phase}
    (hnew : ∀ a ∈ new, a.Aside ∨ ∃ workerId outcome reply,
      a = .told (.settle workerId outcome) reply ∧
        (phase.goesOn = true → ∃ effect, reply = .effect effect))
    (hgoes : phase.goesOn = true → l.phase.goesOn = true) : Attested m (acts ++ new) phase := by
  refine ⟨fun cands report hin => ?_, fun hon workerId outcome reply hin => ?_⟩
  · rcases List.mem_append.mp hin with hin | hin
    · exact h.merged cands report hin
    · rcases hnew _ hin with haside | ⟨_, _, _, heq, _⟩
      · exact haside.elim
      · cases heq
  · rcases List.mem_append.mp hin with hin | hin
    · exact h.accepted (hgoes hon) workerId outcome reply hin
    · rcases hnew _ hin with haside | ⟨_, _, _, heq, haccepted⟩
      · exact haside.elim
      · cases heq
        exact haccepted hon

/-- The loop's own next step. -/
theorem proceed (h : Attested m acts l.phase) (hm : s.merger = some m) (now : Instant)
    (r : RateLimit) :
    Attested m (acts ++ (l.proceed t s now r).2) (l.proceed t s now r).1.phase := by
  unfold Loop.proceed
  cases hphase : l.phase with
  | top =>
    dsimp only
    unfold Loop.stepTop
    split
    · exact h.aside (by simp) fun _ => by rw [hphase]; rfl
    · exact h.merge hm (by rw [hphase]; rfl)
  | beginning =>
    dsimp only
    unfold Loop.stepBeginning Loop.tell
    dsimp only
    split <;> exact h.aside (by simp [Act.Aside]) fun _ => by rw [hphase]; rfl
  | looking =>
    refine h.aside ?_ fun _ => by rw [hphase]; rfl
    simp [Loop.stepLooking, Loop.tell, Desk.handle, Act.Aside]
  | deferring rest orders p =>
    refine h.aside ?_ fun _ => by rw [hphase]; rfl
    cases rest with
    | nil => simp [Loop.stepDeferring]
    | cons d rest =>
      dsimp only [Loop.stepDeferring]
      split <;> simp [Act.Aside]
  | dispatching rest p =>
    refine h.aside ?_ fun _ => by rw [hphase]; rfl
    cases rest with
    | nil => simp [Loop.stepDispatching]
    | cons o rest =>
      dsimp only [Loop.stepDispatching]
      split
      · simp [Act.Aside]
      · split <;> simp [Act.Aside]
      · simp [Act.Aside]
  | sleeping => exact h.aside (by simp) fun _ => by rw [hphase]; rfl
  | waiting =>
    refine h.aside ?_ fun _ => by rw [hphase]; rfl
    simp
  | draining first cause =>
    have hnone : (l.stepDraining first cause).2 = [] ∧
        (l.stepDraining first cause).1.phase.goesOn = false := by
      unfold Loop.stepDraining
      split
      · exact ⟨rfl, by rw [hphase]; rfl⟩
      · split
        · exact ⟨rfl, rfl⟩
        · split <;> exact ⟨rfl, rfl⟩
        · exact ⟨rfl, rfl⟩
    exact h.aside (by simp [hnone.1]) fun hon => by rw [hnone.2] at hon; cases hon
  | flushing halt =>
    dsimp only
    unfold Loop.stepFlushing Loop.tell
    dsimp only
    split <;> exact h.aside (by simp [Act.Aside]) fun hon => by cases hon
  | ended => exact h.aside (by simp) fun hon => hon

/-- A result of which no failure comes was accepted. -/
theorem settle_told (l : Loop σ) (t : Terms) (s : Surroundings σ) (f : Flight)
    (result : Except Failure Outcome) (now : Instant) :
    ∃ workerId outcome reply,
      (l.settle t s f result now).2.2 = [.told (.settle workerId outcome) reply] ∧
      ((l.settle t s f result now).1 = none → ∃ effect, reply = .effect effect) := by
  have hreply := l.desk.settle_reply t.desk now (s.faults l.world) f.workerId
    (Loop.outcomeOf result)
  unfold Loop.settle Loop.tell
  dsimp only
  rcases hreply with ⟨effect, heq⟩ | ⟨failure, heq⟩
  · rw [heq]
    exact ⟨_, _, _, rfl, fun _ => ⟨effect, rfl⟩⟩
  · rw [heq]
    exact ⟨_, _, _, rfl, fun hnone => by cases hnone⟩

/-- The result of a worker. -/
theorem finished (h : Attested m acts l.phase) (workerId : String)
    (result : Except Failure Outcome) (now : Instant) :
    Attested m (acts ++ (l.finished t s workerId result now).2)
      (l.finished t s workerId result now).1.phase := by
  unfold Loop.finished
  split
  · rename_i f hphase _
    obtain ⟨name, outcome, reply, hacts, haccepted⟩ := settle_told l t s f result now
    generalize l.settle t s f result now = r at hacts haccepted
    obtain ⟨failure?, l', new⟩ := r
    dsimp only at hacts haccepted
    subst hacts
    cases failure? with
    | none =>
      refine h.settled (fun a ha => Or.inr ?_) fun _ => by rw [hphase]; rfl
      exact ⟨name, outcome, reply, List.mem_singleton.mp ha, fun _ => haccepted rfl⟩
    | some failure =>
      refine h.settled (fun a ha => ?_) fun hon => by cases hon
      rcases List.mem_cons.mp ha with rfl | ha
      · exact Or.inr ⟨name, outcome, reply, rfl, fun hon => by cases hon⟩
      · cases List.mem_singleton.mp ha
        exact Or.inl trivial
  · rename_i first cause f hphase _
    obtain ⟨name, outcome, reply, hacts, -⟩ := settle_told l t s f result now
    generalize l.settle t s f result now = r at hacts
    obtain ⟨failure?, l', new⟩ := r
    dsimp only at hacts
    subst hacts
    refine h.settled (fun a ha => Or.inr ?_) fun hon => by cases hon
    exact ⟨name, outcome, reply, List.mem_singleton.mp ha, fun hon => by cases hon⟩
  · exact h.aside (by simp) fun hon => hon

/-- **Every step is attested**, whatever comes to the loop. -/
theorem step (h : Attested m acts l.phase) (hm : s.merger = some m) (e : Event σ) :
    Attested m (acts ++ (l.step t s e).2) (l.step t s e).1.phase := by
  cases e with
  | proceed now r => exact h.proceed hm now r
  | finished workerId result now => exact h.finished workerId result now
  | message message now =>
    refine h.aside ?_ fun hon => hon
    cases message <;> simp [Loop.step, Message.command, Act.Aside]
  | cancel => exact h.aside (by simp [Loop.step]) fun hon => hon
  | graceOver =>
    simp only [Loop.step]
    split
    · refine h.aside ?_ fun hon => hon
      split <;> simp [Act.Aside]
    · exact h.aside (by simp) fun hon => hon
  | world => exact h.aside (by simp [Loop.step]) fun hon => hon

end Attested

/-! ## 5. What comes before a start

The three invariants at the moment at which the coordinator is asked. -/

/-- The candidate was passed to the integration, in one of the merges of the history. -/
def Integrated {σ : Type} (m : Merger σ) (acts : List Act) (c : Candidate) : Prop :=
  ∃ cands w, .offered cands (m.mergeAll cands w).1 ∈ acts ∧
    c ∈ (m.noting.mergeAll cands (w, [])).2.2

namespace Loop

variable {σ : Type} {t : Terms} {s : Surroundings σ} {l : Loop σ} {m : Merger σ}

/-- What a run keeps up: its ledger, its orders and its history. -/
structure InOrder (m : Merger σ) (r : Step σ) : Prop where
  ledger : Ledger r.2 r.1
  cleared : Cleared r.1
  attested : Attested m r.2 r.1.phase

/-- Every run keeps all three. -/
theorem InOrder.run {world : σ} {desk : Desk} (hids : desk.kanban.HasDistinctIds)
    (hm : s.merger = some m) (events : List (Event σ)) :
    InOrder m ((Loop.opened world desk).run t s events) := by
  induction events using List.reverseRecOn with
  | nil => exact ⟨Ledger.opened world desk, Cleared.opened hids world, Attested.opened m⟩
  | append_singleton events e ih =>
    rw [run_append_singleton]
    exact ⟨ih.ledger.step hm e, ih.cleared.step e, ih.attested.step hm e⟩

/-- A branch that was offered was passed to the integration. -/
theorem InOrder.integrated {r : Step σ} (h : InOrder m r) {c : Candidate} (hc : c ∈ offered r.2) :
    Integrated m r.2 c := by
  obtain ⟨a, ha, hca⟩ := List.mem_flatMap.mp hc
  cases a with
  | offered cands report =>
    obtain ⟨w, rfl⟩ := h.attested.merged cands report ha
    exact ⟨cands, w, ha, (m.mem_noted_iff cands w c).mpr hca⟩
  | told | stopped => exact absurd hca List.not_mem_nil

/-- The loop asks for a start of its own accord only where the next order of its pass stands. -/
theorem phase_of_asked_proceed {o : Order} {reply : Reply}
    (h : .told (.dispatch o) reply ∈ (l.proceed t s now r).2) :
    ∃ rest p, l.phase = .dispatching (o :: rest) p := by
  unfold Loop.proceed at h
  cases hphase : l.phase with
  | dispatching rest p =>
    rw [hphase] at h
    cases rest with
    | nil => simp [stepDispatching] at h
    | cons o' rest =>
      have heq : o' = o := by
        simp only [stepDispatching, tell] at h
        split at h
        · simp_all
        · split at h <;> simp_all
        · simp_all
      exact ⟨rest, p, by rw [heq]⟩
  -- the other phases ask the coordinator for something else, or for nothing
  | top =>
    rw [hphase] at h
    simp only [stepTop, Loop.merge] at h
    split at h
    · simp at h
    · split at h <;> simp at h
  | beginning =>
    rw [hphase] at h
    simp only [stepBeginning, tell] at h
    split at h <;> simp at h
  | looking =>
    rw [hphase] at h
    simp [stepLooking, tell, Desk.handle] at h
  | deferring rest orders p =>
    rw [hphase] at h
    cases rest with
    | nil => simp [stepDeferring] at h
    | cons d rest =>
      simp only [stepDeferring, tell] at h
      split at h <;> simp at h
  | sleeping | waiting | ended =>
    rw [hphase] at h
    exact absurd h List.not_mem_nil
  | draining first cause =>
    rw [hphase] at h
    simp only [stepDraining] at h
    split at h
    · simp at h
    · split at h <;> simp at h
  | flushing halt =>
    rw [hphase] at h
    simp only [stepFlushing, tell] at h
    split at h <;> simp at h

/-- No start is asked for when a worker is back: its outcome is all that is told. -/
theorem finished_asks_no_start {workerId : String} {result : Except Failure Outcome} {o : Order}
    {reply : Reply} : .told (.dispatch o) reply ∉ (l.finished t s workerId result now).2 := by
  intro h
  unfold Loop.finished at h
  split at h
  · rename_i f _ _
    obtain ⟨name, outcome, reply', hacts, -⟩ := Attested.settle_told l t s f result now
    generalize l.settle t s f result now = r at hacts h
    obtain ⟨failure?, l', new⟩ := r
    dsimp only at hacts
    subst hacts
    cases failure? <;> simp at h
  · rename_i first cause f _ _
    obtain ⟨name, outcome, reply', hacts, -⟩ := Attested.settle_told l t s f result now
    rw [hacts] at h
    simp at h
  · exact absurd h List.not_mem_nil

/-- A task is started by the pass that gives its order. -/
theorem phase_of_asked {e : Event σ} {o : Order} {reply : Reply}
    (h : .told (.dispatch o) reply ∈ (l.step t s e).2) :
    ∃ rest p, l.phase = .dispatching (o :: rest) p := by
  cases e with
  | proceed now r => exact phase_of_asked_proceed h
  | finished workerId result now => exact absurd h finished_asks_no_start
  | message message now =>
    cases message <;> simp [Loop.step, Message.command] at h
  | cancel | world => exact absurd h List.not_mem_nil
  | graceOver =>
    simp only [Loop.step] at h
    split at h
    · split at h <;> simp at h
    · exact absurd h List.not_mem_nil

end Loop

/-- **What a task depends on is done and was offered to the trunk before the task starts.**  Take
any run with a merger, over a backlog whose identifiers are distinct, and whatever comes to it.
Whenever the coordinator is asked to start a task,

* the task is in the backlog, and so are all its dependencies, which are done;
* every result that was settled so far was accepted, and the branch it yielded, if it did, has been
  passed to the merger's integration. -/
theorem dependencies_before_start {σ : Type} {t : Terms} {s : Surroundings σ} {m : Merger σ}
    (hm : s.merger = some m) (world : σ) {desk : Desk} (hids : desk.kanban.HasDistinctIds)
    (events : List (Event σ)) (e : Event σ) {o : Order} {reply : Reply}
    (hasked : .told (.dispatch o) reply ∈
      (((Loop.opened world desk).run t s events).1.step t s e).2) :
    let r := (Loop.opened world desk).run t s events
    ∃ task, r.1.desk.kanban.find? o.taskId = some task ∧
      (∀ dep ∈ task.dependencies,
        ∃ d, r.1.desk.kanban.find? dep = some d ∧ d.status = .done) ∧
      ∀ workerId outcome reply, .told (.settle workerId outcome) reply ∈ r.2 →
        ∃ effect, reply = .effect effect ∧ ∀ c ∈ effect.merge, Integrated m r.2 c := by
  intro r
  have horder : Loop.InOrder m r := Loop.InOrder.run hids hm events
  have hasked' : .told (.dispatch o) reply ∈ (r.1.step t s e).2 := hasked
  clear_value r
  obtain ⟨l, acts⟩ := r
  obtain ⟨rest, p, hphase⟩ := Loop.phase_of_asked hasked'
  have hdistinct : l.desk.kanban.HasDistinctIds := horder.cleared.distinct
  have hfind : ∀ {taskId task}, task ∈ l.desk.kanban.tasks → task.id = taskId →
      l.desk.kanban.find? taskId = some task :=
    fun hmem hid => (Kanban.find?_eq_some_iff hdistinct).mpr ⟨hmem, hid⟩
  have hmay : l.desk.kanban.MayStart o.taskId := by
    refine horder.cleared.orders o ?_
    rw [hphase]
    exact List.mem_cons_self
  have hdrained : leftOver acts = [] := by
    have hfits := horder.ledger.fits
    unfold Loop.Fits at hfits
    rw [hphase] at hfits
    exact horder.ledger.queue.symm.trans hfits
  have hoffered : yielded acts = offered acts := by
    rw [horder.ledger.total, hdrained, List.append_nil]
  obtain ⟨task, hmem, hid, -, hdeps⟩ := hmay
  refine ⟨task, hfind hmem hid, fun dep hdep => ?_, fun workerId outcome reply htold => ?_⟩
  · obtain ⟨d, hd, hdid, hstatus⟩ := hdeps dep hdep
    exact ⟨d, hfind hd hdid, hstatus⟩
  · have hon : l.phase.goesOn = true := by rw [hphase]; rfl
    obtain ⟨effect, rfl⟩ := horder.attested.accepted hon workerId outcome reply htold
    refine ⟨effect, rfl, fun c hc => horder.integrated ?_⟩
    rw [← hoffered]
    exact List.mem_flatMap.mpr ⟨_, htold, Option.mem_toList.mpr hc⟩

namespace Sample

/-- The second task depends on the first. -/
def chained : Desk where
  kanban := { tasks := [{ id := "T-1", footprint := ["src"] },
    { id := "T-2", footprint := ["docs"], dependencies := ["T-1"] }] }
  state := {}

/-- The first task is done, and the next pass is about to give its first order. -/
def upToSecond : List (Event (List String)) := started ++ [done, go, go, go, go]

def beforeSecond : Loop.Step (List String) :=
  (Loop.opened [] chained).run terms surroundings upToSecond

/-- The order that an act gives. -/
def given? : Act → Option Order
  | .told (.dispatch o) _ => some o
  | _ => none

end Sample

/-- The second task is started when the first one is done, and by then its branch has been passed
to the integration. -/
theorem second_starts_after_first :
    Sample.chained.kanban.HasDistinctIds ∧
      (∃ o reply, .told (.dispatch o) reply ∈
          (Sample.beforeSecond.1.step Sample.terms Sample.surroundings Sample.go).2 ∧
        o.taskId = "T-2" ∧
        ∃ task, Sample.beforeSecond.1.desk.kanban.find? o.taskId = some task ∧
          ∀ dep ∈ task.dependencies,
            ∃ d, Sample.beforeSecond.1.desk.kanban.find? dep = some d ∧ d.status = .done) ∧
      (yielded Sample.beforeSecond.2).map Candidate.taskId = ["T-1"] ∧
      Sample.beforeSecond.1.world = ["integrate T-1", "cleanup T-1"] := by
  have hids : Sample.chained.kanban.HasDistinctIds := by decide +kernel
  have hgiven : ((Sample.beforeSecond.1.step Sample.terms Sample.surroundings Sample.go).2.findSome?
      Sample.given?).map Order.taskId = some "T-2" := by decide +kernel
  refine ⟨hids, ?_, by decide +kernel, by decide +kernel⟩
  obtain ⟨o, ho, hid⟩ := Option.map_eq_some_iff.mp hgiven
  obtain ⟨a, ha, hao⟩ := List.exists_of_findSome?_eq_some ho
  cases a with
  | offered | stopped => cases hao
  | told command reply =>
    cases command with
    | dispatch o' =>
      cases hao
      obtain ⟨task, hfind, hdeps, -⟩ := dependencies_before_start rfl [] hids Sample.upToSecond
        Sample.go ha
      exact ⟨o, reply, ha, hid, task, hfind, hdeps⟩
    | _ => cases hao

end Run
end Foreman

/-
# The account of a run

A run counts its dispatches and retries, and lists the tasks that were completed and those that
failed.  Each dispatch comes to one end: its task is done, it has failed, it is to be tried again,
or the attempt was cancelled.  So the counts balance, up to the workers in flight; and since only a
task that waits is ever started, none is listed twice, nor on both lists.

* `Tally.Balances`: the account agrees with the backlog and the flights.
* `Tally.Balances.starts`, `Tally.Balances.lands`: a start and an end keep it so.
* `Accounted.step`: hence every step does, and dispatches stay within the cap.
* `run_balances`: so the account of a run that ends well balances without any worker in flight.

The account is `RunSummary`; the number of cancellations is not in it and is taken from the
history.  The balance is kept from step to step together with what it rests on: that a flight
knows its task, that its task is in progress, and that the orders still to be given are for
tasks that are neither done nor failed.
-/
import Foreman.Proofs.Run.Advance
import Foreman.Proofs.Run.Slots

namespace Foreman

/-! ## 1. Lists of tasks of one status

A list of tasks that have one status stays right if other tasks get other ones. -/

/-- The names are those of different tasks of that status. -/
structure Kanban.Lists (k : Kanban) (status : TaskStatus) (ids : List String) : Prop where
  nodup : ids.Nodup
  status : ∀ id ∈ ids, k.statusOf? id = some status

namespace Kanban.Lists

variable {k k' : Kanban} {status other : TaskStatus} {ids more : List String} {taskId : String}

theorem nil (k : Kanban) (status : TaskStatus) : k.Lists status [] :=
  ⟨List.nodup_nil, fun _ h => absurd h List.not_mem_nil⟩

theorem sublist (h : k.Lists status ids) (hsub : more.Sublist ids) : k.Lists status more :=
  ⟨h.nodup.sublist hsub, fun id hid => h.status id (hsub.subset hid)⟩

theorem perm (h : k.Lists status ids) (hperm : more.Perm ids) : k.Lists status more :=
  ⟨hperm.nodup_iff.mpr h.nodup, fun id hid => h.status id (hperm.subset hid)⟩

theorem not_mem (h : k.Lists status ids) (hstatus : k.statusOf? taskId = some other)
    (hne : other ≠ status) : taskId ∉ ids := fun hmem =>
  hne (Option.some.inj (hstatus.symm.trans (h.status taskId hmem)))

theorem disjoint (h : k.Lists status ids) (hmore : k.Lists other more) (hne : other ≠ status) :
    List.Disjoint ids more := fun id hid hid' => h.not_mem (hmore.status id hid') hne hid

/-- A task that is not listed gets another status. -/
theorem skip (h : k.Lists status ids) (hset : k.setStatus taskId other = .ok k')
    (hmem : taskId ∉ ids) : k'.Lists status ids := by
  refine ⟨h.nodup, fun id hid => ?_⟩
  rw [statusOf?_setStatus hset, if_neg fun heq : id = taskId => hmem (heq ▸ hid)]
  exact h.status id hid

/-- A task that is not listed gets the status, and is listed. -/
theorem add (h : k.Lists status ids) (hset : k.setStatus taskId status = .ok k')
    (hmem : taskId ∉ ids) : k'.Lists status (ids ++ [taskId]) := by
  refine ⟨List.concat_eq_append ▸ h.nodup.concat hmem, fun id hid => ?_⟩
  rcases List.mem_append.mp hid with hid | hid
  · exact (h.skip hset hmem).status id hid
  · rw [statusOf?_setStatus hset, if_pos (List.mem_singleton.mp hid)]

end Kanban.Lists

namespace Run

/-! ## 2. The tally

The arithmetic of starts and ends, apart from the loop. -/

namespace Tally

/-- The tally agrees with the flights and the backlog. -/
structure Balances (x : Tally) (cancelled : Nat) (k : Kanban) (flights : List Flight) : Prop where
  /-- Each dispatch has come to its end, or is in flight. -/
  total : x.dispatched =
    x.completed.length + x.failed.length + x.retries + cancelled + flights.length
  completed : k.Lists .done x.completed
  failed : k.Lists .failed x.failed
  flying : k.Lists .inProgress (flights.map Flight.taskId)

/-- What becomes of the tally when the attempt at a task ends with a status for it.  The number is
1 for an attempt that was cancelled. -/
inductive Booked (x : Tally) (taskId : String) : TaskStatus → Nat → Tally → Prop
  | completed : Booked x taskId .done 0 { x with completed := x.completed ++ [taskId] }
  | failed : Booked x taskId .failed 0 { x with failed := x.failed ++ [taskId] }
  | retried : Booked x taskId .pending 0 { x with retries := x.retries + 1 }
  | cancelled : Booked x taskId .pending 1 x

variable {x y : Tally} {cancelled n : Nat} {k k' : Kanban} {flights : List Flight}

/-- What becomes of an attempt is no dispatch. -/
theorem Booked.dispatched {taskId : String} {status : TaskStatus}
    (h : Booked x taskId status n y) : y.dispatched = x.dispatched := by
  cases h <;> rfl

/-- **A task that is started is in flight**, and on no list. -/
theorem Balances.starts (h : x.Balances cancelled k flights) {f : Flight} {status : TaskStatus}
    (hset : k.setStatus f.taskId .inProgress = .ok k')
    (hstatus : k.statusOf? f.taskId = some status) (hopen : status.isTerminal = false)
    (hground : f.taskId ∉ flights.map Flight.taskId) :
    Balances { x with dispatched := x.dispatched + 1 } cancelled k' (flights ++ [f]) := by
  have hdone : status ≠ .done := fun heq => by rw [heq] at hopen; cases hopen
  have hfailed : status ≠ .failed := fun heq => by rw [heq] at hopen; cases hopen
  refine ⟨?_, h.completed.skip hset (h.completed.not_mem hstatus hdone),
    h.failed.skip hset (h.failed.not_mem hstatus hfailed), ?_⟩
  · have htotal := h.total
    rw [List.length_append, List.length_singleton]
    dsimp only
    omega
  · rw [List.map_append]
    exact h.flying.add hset hground

/-- **A flight that lands is booked**, in one of four ways. -/
theorem Balances.lands (h : x.Balances cancelled k flights) {f : Flight} (hf : f ∈ flights)
    {status : TaskStatus} (hset : k.setStatus f.taskId status = .ok k')
    (hbooked : Booked x f.taskId status n y) :
    y.Balances (cancelled + n) k' (flights.erase f) := by
  have hflew : k.statusOf? f.taskId = some .inProgress :=
    h.flying.status _ (List.mem_map_of_mem hf)
  have hcompleted : f.taskId ∉ x.completed := h.completed.not_mem hflew (by decide)
  have hfailed : f.taskId ∉ x.failed := h.failed.not_mem hflew (by decide)
  -- nobody else is in flight for the task
  have hlanded : f.taskId ∉ (flights.erase f).map Flight.taskId := by
    have hnodup := ((List.perm_cons_erase hf).map Flight.taskId).nodup_iff.mp h.flying.nodup
    rw [List.map_cons, List.nodup_cons] at hnodup
    exact hnodup.1
  have hflying : k'.Lists .inProgress ((flights.erase f).map Flight.taskId) :=
    (h.flying.sublist (List.erase_sublist.map _)).skip hset hlanded
  have htotal := h.total
  have hless := List.length_erase_of_mem hf
  have hpos := List.length_pos_of_mem hf
  cases hbooked with
  | completed =>
    refine ⟨?_, h.completed.add hset hcompleted, h.failed.skip hset hfailed, hflying⟩
    rw [List.length_append, List.length_singleton]
    dsimp only
    omega
  | failed =>
    refine ⟨?_, h.completed.skip hset hcompleted, h.failed.add hset hfailed, hflying⟩
    rw [List.length_append, List.length_singleton]
    dsimp only
    omega
  | retried =>
    refine ⟨?_, h.completed.skip hset hcompleted, h.failed.skip hset hfailed, hflying⟩
    dsimp only
    omega
  | cancelled =>
    refine ⟨?_, h.completed.skip hset hcompleted, h.failed.skip hset hfailed, hflying⟩
    omega

end Tally

namespace Summary

/-- Where no name stands twice, none is dropped. -/
theorem dedup_eq_self : ∀ {ids : List String}, ids.Nodup → dedup ids = ids
  | [], _ => rfl
  | [_], _ => rfl
  | a :: b :: rest, h => by
    rw [List.nodup_cons] at h
    have hne : a ≠ b := fun heq => h.1 (heq ▸ List.mem_cons_self)
    rw [dedup, if_neg hne, dedup_eq_self h.2]

/-- Without a task that is named twice the lists are only sorted at the end. -/
theorem dedup_sort_perm {ids : List String} (h : ids.Nodup) :
    (dedup (TaskId.sort ids)).Perm ids := by
  have hsorted : (TaskId.sort ids).Perm ids := sortBy_perm _ _
  rw [dedup_eq_self (hsorted.nodup_iff.mpr h)]
  exact hsorted

/-- **An account that balances does so when it is closed.** -/
theorem close_balances {s : Summary} {cancelled : Nat} {k : Kanban} {flights : List Flight}
    (h : s.tally.Balances cancelled k flights) (halt : Halt) :
    (s.close halt).tally.Balances cancelled k flights := by
  have hcompleted : (s.close halt).completed.Perm s.completed := dedup_sort_perm h.completed.nodup
  have hfailed : (s.close halt).failed.Perm s.failed := dedup_sort_perm h.failed.nodup
  refine ⟨?_, h.completed.perm hcompleted, h.failed.perm hfailed, h.flying⟩
  calc s.dispatched
      = s.completed.length + s.failed.length + s.retries + cancelled + flights.length := h.total
    _ = (s.close halt).completed.length + (s.close halt).failed.length + s.retries + cancelled +
        flights.length := by rw [hcompleted.length_eq, hfailed.length_eq]

end Summary

namespace Loop

variable {σ : Type} {t : Terms} {s : Surroundings σ} {l l' : Loop σ} {acts new : List Act}
  {now : Instant}

/-! ## 3. Every step keeps the account

By the four cases of `Advance`. -/

/-- A plan is made for the dispatches that are left under the cap. -/
theorem capacity_le_cap (l : Loop σ) (t : Terms) (r : RateLimit) {cap : Nat} (hcap : cap ∈ t.cap) :
    l.capacity t r ≤ cap - l.summary.dispatched := by
  unfold capacity
  split
  · exact Nat.zero_le _
  · rw [Option.mem_def.mp hcap]
    exact Nat.min_le_right _ _

/-- The verdict on an outcome is booked as the outcome is. -/
theorem account_booked (l : Loop σ) (workerId taskId : String) (outcome : Outcome)
    {effect : Effect} (hverdict : ∃ attempts retry,
      effect.taskStatus = (State.verdict outcome attempts retry).1) :
    l.summary.tally.Booked taskId effect.taskStatus
      (cancellations [.told (.settle workerId outcome) (.effect effect)])
      (l.account taskId outcome effect).summary.tally := by
  obtain ⟨attempts, retry, hstatus⟩ := hverdict
  cases outcome with
  | succeeded =>
    rw [hstatus]
    exact .completed
  | fatal =>
    rw [hstatus]
    exact .failed
  | cancelled =>
    rw [hstatus]
    exact .cancelled
  | retryable =>
    unfold account
    rw [hstatus]
    simp only [State.verdict]
    split
    · exact .failed
    · exact .retried

/-- The account of the loop is right, and its orders are for tasks that may still be started. -/
structure Accounted (t : Terms) (acts : List Act) (l : Loop σ) : Prop where
  distinct : l.desk.kanban.HasDistinctIds
  tally : l.summary.tally.Balances (cancellations acts) l.desk.kanban l.flights
  /-- Each flight's worker works on its task. -/
  crewed : ∀ f ∈ l.flights, l.desk.state.taskOf? f.workerId = some f.taskId
  capped : ∀ cap ∈ t.cap, l.summary.dispatched + l.phase.orders.length ≤ cap
  waiting : ∀ o ∈ l.phase.orders, ∃ status,
    l.desk.kanban.statusOf? o.taskId = some status ∧ status.isTerminal = false
  closed : l.Closed

namespace Accounted

/-- At the beginning nothing is in the account. -/
theorem opened {desk : Desk} (hids : desk.kanban.HasDistinctIds) (t : Terms) (world : σ) :
    Accounted t [] (Loop.opened world desk) :=
  ⟨hids, ⟨rfl, .nil _ _, .nil _ _, .nil _ _⟩, fun _ hf => absurd hf List.not_mem_nil,
    fun _ _ => Nat.zero_le _, fun _ ho => absurd ho List.not_mem_nil, closed_of_open rfl⟩

/-- A step that starts and settles nobody. -/
theorem rests (h : Accounted t acts l) (hrests : Rests l l') (hnew : cancellations new = 0) :
    Accounted t (acts ++ new) l' := by
  obtain ⟨hdesk, hflights, htally, horders, hclosed⟩ := hrests
  refine ⟨hdesk.kanban ▸ h.distinct, ?_, ?_, fun cap hcap => ?_, fun o ho => ?_, hclosed h.closed⟩
  · rw [htally, hdesk.kanban, hflights, cancellations_append, hnew]
    exact h.tally
  · rw [hflights]
    intro f hf
    rw [State.taskOf?_of_profiles hdesk.profiles]
    exact h.crewed f hf
  · have hsame : l'.summary.dispatched = l.summary.dispatched := congrArg Tally.dispatched htally
    rw [hsame]
    exact Nat.le_trans (Nat.add_le_add_left horders.length_le _) (h.capped cap hcap)
  · rw [hdesk.kanban]
    exact h.waiting o (horders.subset ho)

/-- **A plan keeps the cap, and is made of tasks that wait.** -/
theorem plans (h : Accounted t acts l) (r : RateLimit) :
    Accounted t (acts ++ (l.stepLooking t s now r).2) (l.stepLooking t s now r).1 := by
  refine ⟨h.distinct, ?_, h.crewed, fun cap hcap => ?_, fun o ho => ?_,
    closed_of_open rfl⟩
  · rw [cancellations_append]
    exact h.tally
  · have hfits := ((Snapshot.of l.desk.state l.desk.kanban).plans_select (some (l.capacity t r))
      now t.scoring).dispatch_length_le rfl
    have hleft := l.capacity_le_cap t r hcap
    have hbefore := h.capped cap hcap
    calc l.summary.dispatched + List.length _
        ≤ l.summary.dispatched + (cap - l.summary.dispatched) :=
          Nat.add_le_add_left (Nat.le_trans hfits hleft) _
      _ ≤ cap := by omega
  · obtain ⟨task, helig, hid, -⟩ := (Snapshot.plans_select ..).dispatch_mem ho
    obtain ⟨hmem, hwaits, -⟩ := Snapshot.mem_eligibleTasks_iff.mp helig
    have hfind : l.desk.kanban.find? task.id = some task :=
      (Kanban.find?_eq_some_iff h.distinct).mpr ⟨hmem, rfl⟩
    refine ⟨task.status, ?_, ?_⟩
    · rw [hid]
      exact congrArg (Option.map Task.status) hfind
    · unfold Snapshot.isWaiting at hwaits
      cases hstatus : task.status <;> simp_all [TaskStatus.isTerminal]

/-- A task with a worker in flight is busy. -/
theorem busy (h : Accounted t acts l) (hcrew : Crew t [] l) (hdistinct : l.Distinct) {f : Flight}
    (hf : f ∈ l.flights) : l.desk.state.hasActiveWorker f.taskId = true := by
  have hmem : f.workerId ∈ l.desk.state.activeIds := by
    rw [hcrew.manned.mem_iff, List.append_nil]
    exact List.mem_map_of_mem hf
  obtain ⟨w, hw, hid, hactive⟩ := mem_activeNames.mp hmem
  have hfirst : l.desk.state.worker? f.workerId = some w :=
    (State.worker?_eq_some_iff hdistinct).mpr ⟨hw, hid⟩
  have htask := h.crewed f hf
  rw [State.taskOf?, hfirst, Option.map_some, Option.some_inj] at htask
  exact State.hasActiveWorker_iff.mpr ⟨w, hw, htask, hactive⟩

/-- **An order that is accepted is one dispatch more, and one flight.** -/
theorem starts (h : Accounted t acts l) (hcrew : Crew t [] l) {o : Order} {rest : List Order}
    {p : Pass} {ticket : Ticket} (hphase : l.phase = .dispatching (o :: rest) p)
    (hreply : (l.desk.handle t.desk now (s.faults l.world) (.dispatch o)).reply = .ticket ticket)
    (hbefore : l.Distinct) (hafter : (l.stepDispatching t s now (o :: rest) p).1.Distinct) :
    Accounted t (acts ++ (l.stepDispatching t s now (o :: rest) p).2)
      (l.stepDispatching t s now (o :: rest) p).1 := by
  unfold stepDispatching tell at hafter ⊢
  dsimp only at hafter ⊢
  rw [hreply] at hafter ⊢
  dsimp only at hafter ⊢
  have hstarts := Desk.dispatch_starts hreply hbefore hafter
  have horders : l.phase.orders = o :: rest := by rw [hphase]; rfl
  obtain ⟨status, hstatus, hopen⟩ := h.waiting o (horders ▸ List.mem_cons_self)
  -- the task is not in flight yet, as a task in flight has an active worker
  have hground : o.taskId ∉ l.flights.map Flight.taskId := by
    intro hmem
    obtain ⟨f, hf, hid⟩ := List.mem_map.mp hmem
    have hbusy := h.busy hcrew hbefore hf
    rw [hid, hstarts.idle] at hbusy
    cases hbusy
  have htally := h.tally.starts (f := ⟨ticket.worker.id, o.taskId⟩) hstarts.kanban hstatus hopen
    hground
  refine ⟨h.distinct.of_plainTasks_eq (Kanban.plainTasks_setStatus hstarts.kanban), ?_, ?_,
    fun cap hcap => ?_, fun o' ho' => ?_, closed_of_open rfl⟩
  · rw [cancellations_append, hstarts.task]
    exact htally
  · intro f hf
    rcases List.mem_append.mp hf with hf | hf
    · exact hstarts.others (h.crewed f hf)
    · cases List.mem_singleton.mp hf
      rw [hstarts.task]
      exact hstarts.worker
  · have hroom := h.capped cap hcap
    rw [horders, List.length_cons] at hroom
    show l.summary.dispatched + 1 + rest.length ≤ cap
    omega
  · obtain ⟨before, hwas, hwaits⟩ := h.waiting o' (horders ▸ List.mem_cons_of_mem o ho')
    by_cases hsame : o'.taskId = o.taskId
    · exact ⟨.inProgress, by rw [Kanban.statusOf?_setStatus hstarts.kanban, if_pos hsame], rfl⟩
    · exact ⟨before, by rw [Kanban.statusOf?_setStatus hstarts.kanban, if_neg hsame, hwas], hwaits⟩

/-- **A result that is settled ends one flight, and is booked.** -/
theorem lands (h : Accounted t acts l) (hwritten : s.faults l.world = {}) {f : Flight}
    (hf : f ∈ l.flights) {phase : Phase} {stopping : Bool} {result : Except Failure Outcome}
    (horders : phase.orders = []) (hopen : phase.endsWell = false)
    (hnew : cancellations new = 0) :
    Accounted t (acts ++ ((l.settle t s f result now).2.2 ++ new))
      { (l.settle t s f result now).2.1 with phase := phase, stopping := stopping } := by
  have hflew : l.desk.kanban.statusOf? f.taskId = some .inProgress :=
    h.tally.flying.status _ (List.mem_map_of_mem hf)
  obtain ⟨effect, hreply, hsettles⟩ :=
    Desk.settle_accepted (h.crewed f hf) hflew t.desk now (outcomeOf result)
  have hbooked := account_booked { l with
      flights := l.flights.erase f
      desk := (l.desk.handle t.desk now {} (.settle f.workerId (outcomeOf result))).desk
      world := (l.desk.handle t.desk now {} (.settle f.workerId (outcomeOf result))).writes.foldl
        s.carryOut l.world } f.workerId f.taskId (outcomeOf result) hsettles.verdict
  unfold settle tell
  dsimp only
  rw [hwritten, hreply]
  dsimp only
  have hbalances := h.tally.lands hf hsettles.kanban hbooked
  refine ⟨?_, ?_, ?_, fun cap hcap => ?_, fun o ho => ?_, closed_of_open hopen⟩
  · rw [account_desk]
    exact h.distinct.of_plainTasks_eq (Kanban.plainTasks_setStatus hsettles.kanban)
  · rw [account_desk, account_flights, cancellations_append, cancellations_append, hnew,
      Nat.add_zero]
    exact hbalances
  · rw [account_desk, account_flights]
    intro f' hf'
    rw [hsettles.others]
    exact h.crewed f' (List.mem_of_mem_erase hf')
  · rw [horders]
    exact (Nat.le_of_eq hbooked.dispatched).trans (Nat.le_of_add_right_le (h.capped cap hcap))
  · rw [horders] at ho
    exact absurd ho List.not_mem_nil

/-- The account that a run ends with agrees with the backlog and the flights. -/
theorem ended (h : Accounted t acts l) {summary : Summary}
    (hphase : l.phase = .ended (.ok summary)) :
    summary.tally.Balances (cancellations acts) l.desk.kanban l.flights := by
  obtain ⟨halt, htally⟩ := h.closed summary hphase
  rw [htally]
  exact Summary.close_balances h.tally halt

/-- **Every step keeps the account**, whatever comes to the loop. -/
theorem step (h : Accounted t acts l) (hcrew : Crew t [] l) (e : Event σ) (hbefore : l.Distinct)
    (hafter : (l.step t s e).1.Distinct) (hwritten : s.faults l.world = {}) :
    Accounted t (acts ++ (l.step t s e).2) (l.step t s e).1 := by
  have hadvance := step_advance l t s e
  generalize l.step t s e = r at hadvance hafter
  cases hadvance with
  | rests hrests hnew => exact h.rests hrests hnew
  | plans now r => exact h.plans r
  | starts now hphase hreply => exact h.starts hcrew hphase hreply hbefore hafter
  | lands result now phase stopping new hf horders hopen hnew =>
    exact h.lands hwritten hf horders hopen hnew

/-- **So does every run** that begins with no active worker, in which no two workers ever have one
name and nothing ever keeps the documents from being written. -/
theorem run {world : σ} {desk : Desk} (hids : desk.kanban.HasDistinctIds)
    (hidle : desk.state.activeIds = []) (events : List (Event σ))
    (hdistinct : ∀ early, early <+: events →
      ((Loop.opened world desk).run t s early).1.Distinct)
    (hwritten : ∀ early, early <+: events →
      s.faults ((Loop.opened world desk).run t s early).1.world = {}) :
    Accounted t ((Loop.opened world desk).run t s events).2
      ((Loop.opened world desk).run t s events).1 := by
  induction events using List.reverseRecOn with
  | nil => exact Accounted.opened hids t world
  | append_singleton events e ih =>
    have hearlier : ∀ {early}, early <+: events → early <+: events ++ [e] :=
      fun hearly => hearly.trans (List.prefix_append _ _)
    have hold := ih (fun early hearly => hdistinct early (hearlier hearly))
      fun early hearly => hwritten early (hearlier hearly)
    have hcrew := (Crew.opened t world desk).run (s := s) events fun early hearly =>
      hdistinct early (hearlier hearly)
    rw [hidle] at hcrew
    have hafter := hdistinct _ (List.prefix_refl _)
    rw [run_append_singleton] at hafter ⊢
    exact hold.step hcrew e (hdistinct events (List.prefix_append _ _)) hafter
      (hwritten events (List.prefix_append _ _))

end Accounted
end Loop

/-! ## 4. The account of a run that ends well

The account is closed at the end: the lists are sorted, and each task in them is named once,
which changes nothing, since none stood there twice. -/

/-- **The account of a run balances.**  Take a run over a backlog whose identifiers are distinct,
which begins with no active worker, in which no two workers ever have one name and nothing ever
keeps the documents from being written; whatever comes to it, and in whatever order.

* At every moment the dispatches keep the cap, if there is one, and the flights the limit.
* When it ends well, each dispatch is accounted for by a task that was completed, one that failed,
  a retry or an attempt that was cancelled; no task is listed twice, nor as both completed and
  failed; and the backlog has the completed ones as done and the failed ones as failed. -/
theorem run_balances {σ : Type} {t : Terms} {s : Surroundings σ} (world : σ) {desk : Desk}
    (hids : desk.kanban.HasDistinctIds) (hidle : desk.state.activeCount = 0)
    (events : List (Event σ))
    (hdistinct : ∀ early, early <+: events →
      ((Loop.opened world desk).run t s early).1.Distinct)
    (hwritten : ∀ early, early <+: events →
      s.faults ((Loop.opened world desk).run t s early).1.world = {}) :
    let r := (Loop.opened world desk).run t s events
    (∀ cap ∈ t.cap, r.1.summary.dispatched ≤ cap) ∧ r.1.flights.length ≤ t.limit ∧
      ∀ summary, r.1.result? = some (.ok summary) →
        summary.dispatched = summary.completed.length + summary.failed.length + summary.retries +
            cancellations r.2 ∧
          summary.completed.Nodup ∧ summary.failed.Nodup ∧
          List.Disjoint summary.completed summary.failed ∧
          (∀ id ∈ summary.completed, r.1.desk.kanban.statusOf? id = some .done) ∧
          ∀ id ∈ summary.failed, r.1.desk.kanban.statusOf? id = some .failed := by
  intro r
  -- three invariants of the run; the balance is the first, read off where no flight is left
  have hnone : desk.state.activeIds = [] :=
    List.eq_nil_of_length_eq_zero ((State.activeCount_eq _).symm.trans hidle)
  have haccounted : Loop.Accounted t r.2 r.1 :=
    Loop.Accounted.run hids hnone events hdistinct hwritten
  have hcrew : Loop.Crew t desk.state.activeIds r.1 :=
    (Loop.Crew.opened t world desk).run events hdistinct
  have hroll : Loop.Roll r.2 r.1 := (Loop.Roll.opened world desk).run events
  clear_value r
  refine ⟨fun cap hcap => Nat.le_of_add_right_le (haccounted.capped cap hcap),
    Nat.le_of_add_right_le hcrew.room, fun summary hended => ?_⟩
  have hphase := Loop.phase_of_result? hended
  have hlanded : r.1.flights = [] := by
    have hstage := hroll.stage
    rw [Loop.Stage, hphase] at hstage
    exact hstage.2
  have hbalances := haccounted.ended hphase
  have htotal := hbalances.total
  rw [hlanded, List.length_nil, Nat.add_zero] at htotal
  exact ⟨htotal, hbalances.completed.nodup, hbalances.failed.nodup,
    hbalances.completed.disjoint hbalances.failed (by decide), hbalances.completed.status,
    hbalances.failed.status⟩

namespace Sample

/-- Three tasks that do not touch each other. -/
def trio : Desk where
  kanban := { tasks := [{ id := "T-1", footprint := ["a"] }, { id := "T-2", footprint := ["b"] },
    { id := "T-3", footprint := ["c"] }] }
  state := {}

/-- One worker at a time, and four dispatches. -/
def fourTerms : Terms := { terms with cap := some 4 }

/-- The steps of a pass that starts one task, at noon of that day. -/
def passOn (day : Int) : List (Event (List String)) :=
  List.replicate 6 (.proceed ⟨day, 43200, 0⟩ .available)

def returns (workerId : String) (outcome : Outcome) : Event (List String) :=
  .finished workerId (.ok outcome) noon

/-- The first task is to be tried again, the second fails, the first is done the next day, and the
third is cancelled when the run is asked to end. -/
def mixed : List (Event (List String)) :=
  passOn 20000 ++ [returns "worker-T-1-1728043200" (.retryable .rateLimited "429" none)] ++
    passOn 20000 ++ [returns "worker-T-2-1728043200" (.fatal "no such file" none)] ++
    passOn 20001 ++ [returns "worker-T-1-1728043200" (.succeeded "done" none false ⟨0⟩)] ++
    passOn 20001 ++ [.cancel, go, go, returns "worker-T-3-1728129600" (.cancelled none), go, go]

def mixedRun (events : List (Event (List String))) : Loop.Step (List String) :=
  (Loop.opened [] trio).run fourTerms surroundings events

def mixedAccount : Summary where
  dispatched := 4
  completed := ["T-1"]
  failed := ["T-2"]
  retries := 1
  halt := .shutdownRequested

end Sample

/-- Four dispatches that come to four different ends. -/
theorem mixed_run_balances :
    Sample.trio.kanban.HasDistinctIds ∧ Sample.trio.state.activeCount = 0 ∧
      (∀ early, early <+: Sample.mixed → (Sample.mixedRun early).1.Distinct) ∧
      (∀ early, early <+: Sample.mixed →
        Sample.surroundings.faults (Sample.mixedRun early).1.world = {}) ∧
      (Sample.mixedRun Sample.mixed).1.result? = some (.ok Sample.mixedAccount) ∧
      Sample.mixedAccount.dispatched = Sample.mixedAccount.completed.length +
        Sample.mixedAccount.failed.length + Sample.mixedAccount.retries +
        cancellations (Sample.mixedRun Sample.mixed).2 ∧
      (Sample.mixedRun Sample.mixed).1.desk.kanban.statusOf? "T-1" = some .done ∧
      (Sample.mixedRun Sample.mixed).1.desk.kanban.statusOf? "T-2" = some .failed := by
  have hids : Sample.trio.kanban.HasDistinctIds := by decide
  have hall : ∀ early ∈ Sample.mixed.inits, (Sample.mixedRun early).1.Distinct := by
    decide +kernel
  have hdistinct : ∀ early, early <+: Sample.mixed → (Sample.mixedRun early).1.Distinct :=
    fun early hearly => hall early ((List.mem_inits early _).mpr hearly)
  have hwritten : ∀ early, early <+: Sample.mixed →
      Sample.surroundings.faults (Sample.mixedRun early).1.world = {} := fun _ _ => rfl
  have hended : (Sample.mixedRun Sample.mixed).1.result? = some (.ok Sample.mixedAccount) := by
    decide +kernel
  unfold Sample.mixedRun at hdistinct hwritten hended ⊢
  have hbalances := run_balances [] hids rfl Sample.mixed hdistinct hwritten
  obtain ⟨htotal, -, -, -, hdone, hfailed⟩ := hbalances.2.2 _ hended
  exact ⟨hids, rfl, hdistinct, hwritten, hended, htotal, hdone _ List.mem_cons_self,
    hfailed _ List.mem_cons_self⟩

end Run
end Foreman

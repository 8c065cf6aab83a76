/-
# What one step of a run does

A step has many forms, but as far as workers and their tasks are concerned there are four: it makes
a plan, it starts the worker of one order, it settles the result of one worker, or it does none of
these.  `Advance` lists them, and `step_advance` says that there is no fifth, so that what a run
keeps is proved by four cases.

* `Desk.quiet_unchanged`, `Desk.dispatch_unchanged`: which commands leave backlog and workers alone.
* `Desk.dispatch_starts`: what a dispatch that is accepted does to them.
* `Desk.settle_accepted`: a known worker's result is accepted, if it can be written.

It is the inversion lemma of the run loop.  The phases, and the two ways in which a result comes
in, are taken apart here and not again.  What an accepted order and an accepted result have done
to the documents is carried along in `Starts` and `Settles`, so the four cases can be used
without a look at the coordinator either.
-/
import Foreman.Proofs.History.Active
import Foreman.Proofs.History.Standing
import Foreman.Proofs.Run.Precedence

namespace Foreman

/-! ## 1. The task of a worker

A flight names its worker and its task, and has to be right about both as long as it lasts. -/

namespace State

variable {s s' : State}

/-- Which task a worker works on is decided by the profiles. -/
theorem taskOf?_of_profiles (h : s'.workers.map Worker.profile = s.workers.map Worker.profile)
    (name : String) : s'.taskOf? name = s.taskOf? name := by
  have hpairs : ∀ s : State, s.workers.map (fun w => (w.id, w.taskId)) =
      (s.workers.map Worker.profile).map fun p => (p.1, p.2.1) := by
    intro s
    rw [List.map_map]
    rfl
  rw [taskOf?_eq_find?, taskOf?_eq_find?, hpairs, hpairs, h]

/-- A started task leaves every worker its task. -/
theorem launched_taskOf? {name taskId : String} (h : s.taskOf? name = some taskId) (task : Task)
    (o : Order) (backend worktreeDir : String) (now : Instant) :
    (s.launched task o backend worktreeDir now).2.taskOf? name = some taskId := by
  cases hretry : s.retryWorker? task.id with
  | some w =>
    rw [taskOf?, worker?, launched_workers_of_some hretry]
    exact (s.taskOf?_updateWorker (f := fun v => wake v now) (fun _ => rfl) (fun _ => rfl)
      name).trans h
  | none =>
    obtain ⟨w, hw, hwt⟩ := Option.map_eq_some_iff.mp h
    rw [worker?] at hw
    rw [taskOf?, worker?, launched_workers_of_none hretry, List.find?_append, hw, Option.some_or,
      Option.map_some, hwt]

/-- The worker of a started task works on it. -/
theorem launched_taskOf?_self {task : Task} {o : Order} {backend worktreeDir : String}
    {now : Instant} (hbefore : (s.workers.map Worker.id).Nodup)
    (hafter : ((s.launched task o backend worktreeDir now).2.workers.map Worker.id).Nodup) :
    (s.launched task o backend worktreeDir now).2.taskOf?
      (s.launched task o backend worktreeDir now).1.id = some task.id := by
  rw [launched_id, workerFor]
  cases hretry : s.retryWorker? task.id with
  | some w =>
    obtain ⟨hmem, htask, -⟩ := retryWorker?_mem hretry
    have hfirst : s.worker? w.id = some w := (worker?_eq_some_iff hbefore).mpr ⟨hmem, rfl⟩
    refine launched_taskOf? ?_ task o backend worktreeDir now
    rw [taskOf?, hfirst, Option.map_some, htask]
  | none =>
    have hnew : recruit o.workerId task.id backend worktreeDir now ∈
        (s.launched task o backend worktreeDir now).2.workers := by
      rw [launched_workers_of_none hretry]
      exact List.mem_append_right _ List.mem_cons_self
    have hfirst := (worker?_eq_some_iff hafter).mpr ⟨hnew, rfl⟩
    exact congrArg (Option.map Worker.taskId) hfirst

end State

/-! ## 2. Commands

The commands of the coordinator as a run needs them: what they change of the backlog and of the
workers, and which are accepted. -/

namespace Desk

/-- The backlog is the same, and the workers are but for what does not matter of them. -/
structure Unchanged (d d' : Desk) : Prop where
  kanban : d'.kanban = d.kanban
  profiles : d'.state.workers.map Worker.profile = d.state.workers.map Worker.profile

theorem Unchanged.refl (d : Desk) : Unchanged d d := ⟨rfl, rfl⟩

variable {d : Desk} {c : DeskSettings} {now : Instant} {f : Faults}

theorem Agrees.workers {b b' : Books} (h : Agrees b b') : b'.state.workers = b.state.workers := by
  rcases h.2 with heq | ⟨moment, heq⟩
  · rw [heq]
  · rw [heq]
    rfl

theorem Agrees.unchanged {d' : Desk} (h : Agrees d.books d'.books) : Unchanged d d' :=
  ⟨h.1, congrArg (List.map Worker.profile) h.workers⟩

theorem unchanged_of_books {d' : Desk} (h : d'.books = d.books) : Unchanged d d' :=
  Agrees.unchanged (h ▸ Agrees.refl _)

/-- A command that neither dispatches nor settles changes nothing that matters. -/
theorem quiet_unchanged {command : Command} (hquiet : ∀ m ∈ command.move? c now, m.Quiet) :
    Unchanged d (d.handle c now f command).desk := by
  have hmove := d.handle_makes_move c now f command
  cases hm : command.move? c now with
  | none =>
    rw [hm] at hmove
    exact hmove.unchanged
  | some m =>
    rw [hm] at hmove
    rcases hmove with hagrees | ⟨-, -, hsame⟩
    · have hmoved := d.books.unmoved_after (hquiet m hm)
      exact ⟨hagrees.1.trans hmoved.kanban,
        (congrArg (List.map Worker.profile) hagrees.workers).trans hmoved.profiles⟩
    · exact unchanged_of_books hsame

/-- A dispatch without a ticket changes nothing that matters. -/
theorem dispatch_unchanged {o : Order}
    (h : ∀ ticket, (d.handle c now f (.dispatch o)).reply ≠ .ticket ticket) :
    Unchanged d (d.handle c now f (.dispatch o)).desk := by
  have hend := State.dispatch_end d.state d.kanban o c.backend c.worktreeDir now
  simp only [handle, dispatch] at h ⊢
  generalize d.state.dispatch d.kanban o c.backend c.worktreeDir now = r at hend h
  cases hend with
  | unknown | busy => exact Unchanged.refl d
  | blocked task held =>
    dsimp only at h ⊢
    rcases flushDispatch_end d _ now f _ with ⟨-, hagrees⟩ | ⟨-, hsame⟩
    · exact ⟨hagrees.1, congrArg (List.map Worker.profile) hagrees.workers⟩
    · exact unchanged_of_books hsame
  | started task k' =>
    dsimp only at h ⊢
    rcases flushDispatch_end d _ now f _ with ⟨hreply, -⟩ | ⟨-, hsame⟩
    · exact absurd hreply (h _)
    · exact unchanged_of_books hsame

/-- What an accepted order has done: its task, on which nobody worked, is in progress, and is the
task of the ticket's worker. -/
structure Starts (d : Desk) (o : Order) (ticket : Ticket) (d' : Desk) : Prop where
  task : ticket.task.id = o.taskId
  idle : d.state.hasActiveWorker o.taskId = false
  kanban : d.kanban.setStatus o.taskId .inProgress = .ok d'.kanban
  worker : d'.state.taskOf? ticket.worker.id = some o.taskId
  others : ∀ {name taskId}, d.state.taskOf? name = some taskId →
    d'.state.taskOf? name = some taskId

/-- **A dispatch that is accepted starts its order.** -/
theorem dispatch_starts {o : Order} {ticket : Ticket}
    (h : (d.handle c now f (.dispatch o)).reply = .ticket ticket)
    (hbefore : (d.state.workers.map Worker.id).Nodup)
    (hafter : ((d.handle c now f (.dispatch o)).desk.state.workers.map Worker.id).Nodup) :
    Starts d o ticket (d.handle c now f (.dispatch o)).desk := by
  have hend := State.dispatch_end d.state d.kanban o c.backend c.worktreeDir now
  simp only [handle, dispatch] at h hafter ⊢
  generalize d.state.dispatch d.kanban o c.backend c.worktreeDir now = r at hend h hafter
  cases hend with
  | unknown | busy => cases h
  | blocked task held =>
    dsimp only at h
    rcases flushDispatch_end d _ now f _ with ⟨hreply, -⟩ | ⟨⟨failure, hreply⟩, -⟩
    · cases hreply.symm.trans h
    · cases hreply.symm.trans h
  | started task k' hfind hidle _ hset =>
    have hid := (Kanban.find?_mem hfind).2
    have hwritten := flushDispatch_end d
      ⟨k', (d.state.launched task o c.backend c.worktreeDir now).2, true⟩ now f
      (.ticket ⟨(d.state.launched task o c.backend c.worktreeDir now).1,
        { task with status := .inProgress }, d.state.resumeOf task.id⟩)
    dsimp only at h hafter ⊢
    -- a dispatch that cannot be written is taken back, and then it is refused
    generalize flushDispatch d _ now f _ = answer at hwritten h hafter ⊢
    rcases hwritten with ⟨hreply, hagrees⟩ | ⟨⟨failure, hreply⟩, -⟩
    · cases hreply.symm.trans h
      have hworkers : answer.desk.state.workers =
          (d.state.launched task o c.backend c.worktreeDir now).2.workers := hagrees.workers
      have htaskOf := State.taskOf?_of_profiles (congrArg (List.map Worker.profile) hworkers)
      rw [hworkers] at hafter
      refine ⟨hid, hid ▸ hidle, ?_, ?_, fun htask => ?_⟩
      · rw [← hid, hset]
        exact congrArg Except.ok hagrees.1.symm
      · rw [← hid]
        exact (htaskOf _).trans (State.launched_taskOf?_self hbefore hafter)
      · exact (htaskOf _).trans
          (State.launched_taskOf? htask task o c.backend c.worktreeDir now)
    · cases hreply.symm.trans h

/-- What an accepted result has done: the task has the status of the verdict. -/
structure Settles (d : Desk) (taskId : String) (outcome : Outcome) (effect : Effect) (d' : Desk) :
    Prop where
  verdict : ∃ attempts retry, effect.taskStatus = (State.verdict outcome attempts retry).1
  kanban : d.kanban.setStatus taskId effect.taskStatus = .ok d'.kanban
  others : ∀ name, d'.state.taskOf? name = d.state.taskOf? name

/-- **The result of a known worker on a known task is accepted**, if nothing keeps it from being
written. -/
theorem settle_accepted {workerId taskId : String} {status : TaskStatus}
    (hworker : d.state.taskOf? workerId = some taskId)
    (htask : d.kanban.statusOf? taskId = some status) (c : DeskSettings) (now : Instant)
    (outcome : Outcome) :
    ∃ effect, (d.handle c now {} (.settle workerId outcome)).reply = .effect effect ∧
      Settles d taskId outcome effect (d.handle c now {} (.settle workerId outcome)).desk := by
  obtain ⟨w, hw, rfl⟩ := Option.map_eq_some_iff.mp hworker
  obtain ⟨task, hfind, -⟩ := Option.map_eq_some_iff.mp htask
  have hend := State.settle_end d.state d.kanban workerId outcome c.retry now
  simp only [handle]
  generalize d.state.settle d.kanban workerId outcome c.retry now = r at hend
  cases hend with
  | unknown hnone => cases hnone.symm.trans hw
  -- the task is on the backlog, so its status can be set
  | homeless v reason hv hfail =>
    cases hv.symm.trans hw
    obtain ⟨k', hk'⟩ := Kanban.exists_setStatus (Kanban.find?_mem hfind)
      (d.state.verdictOn w outcome c.retry now).1
    cases hfail.symm.trans hk'
  | settled v k' hv hset =>
    cases hv.symm.trans hw
    dsimp only
    have hflush := (⟨k', d.state.settled workerId w outcome c.retry now, true⟩ : Desk).flush_ok now
    have hagrees := (⟨k', d.state.settled workerId w outcome c.retry now, true⟩ :
      Desk).flush_agrees now {}
    unfold flushThen
    generalize (⟨k', d.state.settled workerId w outcome c.retry now, true⟩ : Desk).flush now {} = r
      at hflush hagrees
    obtain ⟨failure?, d', writes⟩ := r
    cases hflush
    refine ⟨_, rfl, ⟨_, c.retry, rfl⟩, ?_, fun name => ?_⟩
    · exact hset.trans (congrArg Except.ok hagrees.1.symm)
    · refine (State.taskOf?_of_profiles (congrArg (List.map Worker.profile) hagrees.workers)
        name).trans ?_
      exact d.state.taskOf?_updateWorker (f := State.ended _ _) (fun _ => rfl) (fun _ => rfl) name

end Desk

namespace Run

/-! ## 3. What a run counts

The part of the account that has to balance, and the cancellations, which are in no account. -/

/-- What an account counts. -/
structure Tally where
  dispatched : Nat
  completed : List String
  failed : List String
  retries : Nat

def Summary.tally (s : Summary) : Tally := ⟨s.dispatched, s.completed, s.failed, s.retries⟩

/-- A result that was accepted as a cancellation. -/
def Act.isCancellation : Act → Bool
  | .told (.settle _ (.cancelled _)) (.effect _) => true
  | _ => false

/-- How many results were accepted as cancellations. -/
def cancellations (acts : List Act) : Nat := acts.countP Act.isCancellation

theorem cancellations_append (acts more : List Act) :
    cancellations (acts ++ more) = cancellations acts + cancellations more := List.countP_append

/-- The run has ended well. -/
def Phase.endsWell : Phase → Bool
  | .ended (.ok _) => true
  | _ => false

namespace Loop

variable {σ : Type} {t : Terms} {s : Surroundings σ} {l l' : Loop σ} {now : Instant}

/-! ## 4. Steps

Each phase of the loop is one of the four cases. -/

/-- A run that has ended well gives the account it has come to. -/
def Closed (l : Loop σ) : Prop :=
  ∀ summary, l.phase = .ended (.ok summary) → ∃ halt, summary.tally = (l.summary.close halt).tally

theorem closed_of_open (h : l.phase.endsWell = false) : l.Closed := by
  intro summary hended
  rw [hended] at h
  cases h

/-- Nobody is started or settled, and no order is added. -/
structure Rests (l l' : Loop σ) : Prop where
  desk : Desk.Unchanged l.desk l'.desk
  flights : l'.flights = l.flights
  tally : l'.summary.tally = l.summary.tally
  orders : l'.phase.orders <:+ l.phase.orders
  closed : l.Closed → l'.Closed

/-- What a step can do. -/
inductive Advance (t : Terms) (s : Surroundings σ) (l : Loop σ) : Step σ → Prop
  | rests {l' : Loop σ} {new : List Act} : Rests l l' → cancellations new = 0 →
      Advance t s l (l', new)
  /-- A plan is made. -/
  | plans (now : Instant) (r : RateLimit) : Advance t s l (l.stepLooking t s now r)
  /-- An order is accepted. -/
  | starts {o : Order} {rest : List Order} {p : Pass} {ticket : Ticket} (now : Instant) :
      l.phase = .dispatching (o :: rest) p →
      (l.desk.handle t.desk now (s.faults l.world) (.dispatch o)).reply = .ticket ticket →
      Advance t s l (l.stepDispatching t s now (o :: rest) p)
  /-- The result of a worker is settled, whatever follows from it. -/
  | lands {f : Flight} (result : Except Failure Outcome) (now : Instant) (phase : Phase)
      (stopping : Bool) (new : List Act) : f ∈ l.flights → phase.orders = [] →
      phase.endsWell = false → cancellations new = 0 →
      Advance t s l ({ (l.settle t s f result now).2.1 with phase := phase, stopping := stopping },
        (l.settle t s f result now).2.2 ++ new)

namespace Rests

theorem refl (l : Loop σ) : Rests l l :=
  ⟨Desk.Unchanged.refl _, rfl, rfl, List.suffix_refl _, id⟩

/-- The loop goes on with another phase, in which there are no orders and the run is not over. -/
theorem goesTo (hdesk : Desk.Unchanged l.desk l'.desk) (hflights : l'.flights = l.flights)
    (htally : l'.summary.tally = l.summary.tally) (horders : l'.phase.orders = [])
    (hopen : l'.phase.endsWell = false) : Rests l l' :=
  ⟨hdesk, hflights, htally, horders ▸ List.nil_suffix, fun _ => closed_of_open hopen⟩

/-- The loop stays in its phase. -/
theorem stays (hdesk : Desk.Unchanged l.desk l'.desk) (hflights : l'.flights = l.flights)
    (hsummary : l'.summary = l.summary) (hphase : l'.phase = l.phase) : Rests l l' := by
  have horders : l'.phase.orders = l.phase.orders := congrArg Phase.orders hphase
  refine ⟨hdesk, hflights, congrArg _ hsummary, horders ▸ List.suffix_refl _, fun h => ?_⟩
  unfold Closed
  rw [hphase, hsummary]
  exact h

end Rests

theorem afterPass_endsWell (l : Loop σ) (t : Terms) (p : Pass) :
    (l.afterPass t p).endsWell = false := by
  unfold afterPass
  split
  · rfl
  · split
    · rfl
    · split <;> rfl

theorem merge_tally (l : Loop σ) (s : Surroundings σ) :
    (l.merge s).1.summary.tally = l.summary.tally := by
  unfold merge
  split <;> rfl

/-- Nor does putting a task off. -/
theorem deferring_advance {rest : List Deferral} {orders : List Order} {p : Pass}
    (hphase : l.phase = .deferring rest orders p) :
    Advance t s l (l.stepDeferring t s now rest orders p) := by
  have horders : l.phase.orders = orders := by rw [hphase]; rfl
  cases rest with
  | nil =>
    refine .rests ⟨Desk.Unchanged.refl _, rfl, rfl, ?_, fun _ => closed_of_open rfl⟩ rfl
    rw [horders]
    exact List.suffix_refl _
  | cons d rest =>
    have hdesk : Desk.Unchanged l.desk (l.desk.handle t.desk now (s.faults l.world)
        (.defer d.taskId d.footprint d.blocking)).desk :=
      Desk.quiet_unchanged (by simp [Command.move?, Move.Quiet])
    unfold stepDeferring tell
    dsimp only
    split
    · exact .rests (.goesTo hdesk rfl rfl rfl rfl) rfl
    · refine .rests ⟨hdesk, rfl, rfl, ?_, fun _ => closed_of_open rfl⟩ rfl
      rw [horders]
      exact List.suffix_refl _

/-- An order is accepted, or nobody is started. -/
theorem dispatching_advance {rest : List Order} {p : Pass}
    (hphase : l.phase = .dispatching rest p) :
    Advance t s l (l.stepDispatching t s now rest p) := by
  cases rest with
  | nil =>
    exact .rests (.goesTo (Desk.Unchanged.refl _) rfl rfl (l.afterPass_orders t p)
      (l.afterPass_endsWell t p)) rfl
  | cons o rest =>
    have horders : l.phase.orders = o :: rest := by rw [hphase]; rfl
    by_cases hticket :
        ∃ ticket, (l.desk.handle t.desk now (s.faults l.world) (.dispatch o)).reply = .ticket ticket
    · obtain ⟨ticket, hticket⟩ := hticket
      exact .starts now hphase hticket
    · have hdesk := Desk.dispatch_unchanged fun ticket hreply => hticket ⟨ticket, hreply⟩
      have hgoesOn : ∀ l' : Loop σ,
          l'.desk = (l.desk.handle t.desk now (s.faults l.world) (.dispatch o)).desk →
          l'.flights = l.flights → l'.summary = l.summary → l'.phase = .dispatching rest p →
          Rests l l' := by
        intro l' hdesk' hflights hsummary hphase'
        refine ⟨hdesk' ▸ hdesk, hflights, by rw [hsummary], ?_, fun _ _ hended => ?_⟩
        · rw [horders, hphase']
          exact List.suffix_cons o rest
        · cases hphase'.symm.trans hended
      unfold stepDispatching tell
      dsimp only
      split
      · rename_i ticket hreply
        exact absurd ⟨ticket, hreply⟩ hticket
      · split
        · exact .rests (.goesTo hdesk rfl rfl rfl rfl) rfl
        · exact .rests (hgoesOn _ rfl rfl rfl rfl) rfl
      · exact .rests (hgoesOn _ rfl rfl rfl rfl) rfl

/-- The end of a run starts and settles nobody. -/
theorem flushing_advance (halt : Halt) : Advance t s l (l.stepFlushing t s now halt) := by
  have hdesk : Desk.Unchanged l.desk (l.desk.handle t.desk now (s.faults l.world) .flush).desk :=
    Desk.quiet_unchanged (by simp [Command.move?])
  unfold stepFlushing tell
  dsimp only
  split
  · exact .rests (.goesTo hdesk rfl rfl rfl rfl) rfl
  · refine .rests ⟨hdesk, rfl, rfl, List.nil_suffix, fun _ summary hended => ?_⟩ rfl
    cases hended
    exact ⟨halt, rfl⟩

/-- The loop's own next step is one of the four. -/
theorem proceed_advance (l : Loop σ) (t : Terms) (s : Surroundings σ) (now : Instant)
    (r : RateLimit) : Advance t s l (l.proceed t s now r) := by
  -- most phases only go on to another one, in which no orders are open
  have hgoesTo : ∀ phase : Phase, phase.orders = [] → phase.endsWell = false →
      Advance t s l (l.goTo phase, []) := fun _ horders hopen =>
    .rests (.goesTo (Desk.Unchanged.refl _) rfl rfl horders hopen) rfl
  unfold proceed
  cases hphase : l.phase with
  | top =>
    dsimp only
    unfold stepTop
    split
    · exact hgoesTo _ rfl rfl
    · obtain ⟨hflights, hdesk, hplain⟩ := merge_plain l s
      have hsame : Desk.Unchanged l.desk (l.merge s).1.desk := by
        rw [hdesk]
        exact Desk.Unchanged.refl _
      refine .rests (.goesTo hsame hflights (merge_tally l s) rfl rfl) ?_
      refine List.countP_eq_zero.mpr fun a ha => ?_
      have hsettled := (hplain a ha).settled
      fun_cases Act.isCancellation a <;> simp_all [Act.settled]
  | beginning =>
    have hdesk : Desk.Unchanged l.desk
        (l.desk.handle t.desk now (s.faults l.world) .beginPass).desk :=
      Desk.quiet_unchanged (by simp [Command.move?, Move.Quiet])
    dsimp only
    unfold stepBeginning tell
    dsimp only
    split <;> exact .rests (.goesTo hdesk rfl rfl rfl rfl) rfl
  | looking => exact .plans now r
  | deferring rest orders p => exact deferring_advance hphase
  | dispatching rest p => exact dispatching_advance hphase
  | sleeping => exact hgoesTo _ rfl rfl
  | waiting =>
    dsimp only
    split
    · exact hgoesTo _ rfl rfl
    · exact .rests (Rests.refl l) rfl
  | draining first cause =>
    dsimp only
    unfold stepDraining
    split
    · exact .rests (Rests.refl l) rfl
    · split
      · exact hgoesTo _ rfl rfl
      · split <;> exact hgoesTo _ rfl rfl
      · exact hgoesTo _ rfl rfl
  | flushing halt => exact flushing_advance halt
  | ended => exact .rests (Rests.refl l) rfl

/-- A result lands a flight, or nobody waits for it. -/
theorem finished_advance (l : Loop σ) (t : Terms) (s : Surroundings σ) (workerId : String)
    (result : Except Failure Outcome) (now : Instant) :
    Advance t s l (l.finished t s workerId result now) := by
  unfold finished
  split
  · rename_i f _ hfind
    have hf : f ∈ l.flights := List.mem_of_find?_eq_some hfind
    split
    · rename_i l' acts heq
      have hlands : Advance t s l _ := .lands result now .top l'.stopping [] hf rfl rfl rfl
      rw [heq, List.append_nil] at hlands
      exact hlands
    · rename_i failure l' acts heq
      have hlands : Advance t s l _ :=
        .lands result now (.draining none (some failure)) true [.stopped] hf rfl rfl rfl
      rw [heq] at hlands
      exact hlands
  · rename_i first cause f _ hfind
    have hf : f ∈ l.flights := List.mem_of_find?_eq_some hfind
    have hlands : Advance t s l _ :=
      .lands result now (.draining (first.or (l.settle t s f result now).1) cause)
        (l.settle t s f result now).2.1.stopping [] hf rfl rfl rfl
    rw [List.append_nil] at hlands
    exact hlands
  · exact .rests (Rests.refl l) rfl

/-- **There is nothing else that a step can do**, whatever comes to the loop and in whatever
phase it is. -/
theorem step_advance (l : Loop σ) (t : Terms) (s : Surroundings σ) (e : Event σ) :
    Advance t s l (l.step t s e) := by
  cases e with
  | proceed now r => exact proceed_advance l t s now r
  | finished workerId result now => exact finished_advance l t s workerId result now
  | message message now =>
    have hquiet : ∀ m ∈ message.command.move? t.desk now, m.Quiet := by
      cases message <;> simp [Message.command, Command.move?, Move.Quiet]
    have hnew : ∀ reply, cancellations [.told message.command reply] = 0 := by
      cases message <;> exact fun _ => rfl
    exact .rests (.stays (Desk.quiet_unchanged hquiet) rfl rfl rfl) (hnew _)
  | cancel => exact .rests (.stays (Desk.Unchanged.refl _) rfl rfl rfl) rfl
  | graceOver =>
    simp only [step]
    split
    · refine .rests (.stays (Desk.Unchanged.refl _) rfl rfl rfl) ?_
      split <;> rfl
    · exact .rests (Rests.refl l) rfl
  | world => exact .rests (.stays (Desk.Unchanged.refl _) rfl rfl rfl) rfl

end Loop
end Run
end Foreman

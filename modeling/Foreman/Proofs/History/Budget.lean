/-
# The retry budget

An attempt that was worth another one costs an attempt, and the failed attempt that spends the
last one fails the task.  The count outlives the worker's record, a plan never looks at it, and
an attempt that is cancelled or lost costs nothing.  So the bound on the attempts of a task
rests on three things that hold together (`Standing.Sound`): the count, the status that goes
with the last attempt, and that an active worker's task is in progress.

The budget is `max_skip_retries` of the configuration, which `apply_outcome` compares with the
attempts that `ResumeMeta` remembers.

What bounds the starts is `Standing.room`, the attempts that are left less the one under way: a
start takes one of them, an outcome that is not cancelled gives none back.

A `Course` is a history that also says which orders are still to be carried out.  A plain
history would not do.  There every order comes from a plan for the documents of the same moment;
in a run a plan is made once and carried out order by order, and between two orders an outcome
may come in that spends a task's last attempt.  So a course remembers the plan, and forgets it
as soon as anything happens but what a pass does and what workers report meanwhile.

* `Course.solvent`: along a course every task stands soundly, and an order that is due finds its
  task waiting, or at work already.
* `Course.starts_add_room_le`: a stretch takes its starts out of the room there was.
* `Course.failed_until_reset`: a task that has failed is not started before its reset.
* `retries_within_budget`: so attempts stay within the budget, a task that has spent it has
  failed and is not started again before its reset, and a stretch that returns no attempts
  starts the task no more often than there are attempts left.
-/
import Foreman.Proofs.History.Pass
import Foreman.Proofs.History.Standing
import Foreman.Proofs.History.Workplace

namespace Foreman

/-! ## 1. Histories with plans

A course from `b` to `c` has the moves in between, and the orders that are due at both ends. -/

/-- The most attempts of a task, where an outcome may be worth another one. -/
def Move.Within (budget : Nat) : Move → Prop
  | .settle _ _ retry _ => retry.maxSkipRetries = budget
  | _ => True

/-- **A history with plans**: from `b`, where the orders `due` are still to be carried out, moves
lead to `c`, where the orders `due'` are.  A plan is made for the documents as they are, and holds
for one pass: until anything happens but what a pass does and what workers report meanwhile. -/
inductive Course (budget : Nat) (b : Books) (due : List Order) :
    List Move → Books → List Order → Prop
  | nil : Course budget b due [] b due
  /-- A plan is made. -/
  | plan {moves : List Move} {c : Books} {due' : List Order} {room : Option Nat}
      {moment : Instant} {weights : Config.Scoring} {plan : Plan} :
      Course budget b due moves c due' → c.snapshot.Plans room moment weights plan →
      Course budget b due moves c plan.dispatch
  /-- A move of the pass; an order that is carried out is one of the plan's. -/
  | pass {moves : List Move} {c : Books} {due' : List Order} {m : Move} :
      Course budget b due moves c due' → m.InPass → c.Fresh m → (∀ o ∈ m.order?, o ∈ due') →
      Course budget b due (moves ++ [m]) (c.after m) due'
  /-- Any other move. -/
  | other {moves : List Move} {c : Books} {due' : List Order} {m : Move} :
      Course budget b due moves c due' → m.order? = none → c.Attended m → c.Fresh m →
      m.Within budget → Course budget b due (moves ++ [m]) (c.after m) []

namespace Books

/-- How often a task is started. -/
def starts (b : Books) (taskId : String) : List Move → Nat
  | [] => 0
  | m :: moves => (b.Starts taskId m).toNat + (b.after m).starts taskId moves

/-- The move returns an attempt at the task: it is cancelled, its worker is lost in a restart, or
the task is reset. -/
def Returns (b : Books) (taskId : String) : Move → Prop
  | .settle workerId (.cancelled _) _ _ =>
    ∃ w ∈ b.state.workers, w.id = workerId ∧ w.taskId = taskId
  | .reset id => id = taskId
  | .restart alive => b.Loses taskId alive
  | _ => False

/-- No move returns an attempt at the task. -/
def Undisturbed (b : Books) (taskId : String) : List Move → Prop
  | [] => True
  | m :: moves => ¬ b.Returns taskId m ∧ (b.after m).Undisturbed taskId moves

end Books

/-! ## 2. Sound standings

What has to hold of a task so that it keeps within its budget, as a fact about its standing
alone.  The step from one standing to the next is `Books.Turn`. -/

namespace Standing

/-- A plan may start the task. -/
def Waiting (x : Standing) : Prop := x.status = some .pending ∨ x.status = some .blocked

/-- The attempts of a task, its status and its worker agree. -/
structure Sound (budget : Nat) (x : Standing) : Prop where
  within : x.attempts ≤ budget
  /-- Whoever has spent the last attempt has failed. -/
  spent : x.attempts = budget → x.status = some .failed
  active : x.active = true → x.status = some .inProgress

/-- The attempts that may still be started. -/
def room (budget : Nat) (x : Standing) : Nat :=
  if x.status = some .done ∨ x.status = some .failed then 0
  else budget - x.attempts - x.active.toNat

/-- A task that is done or has failed has no room. -/
theorem room_of_closed {budget : Nat} {x : Standing}
    (h : x.status = some .done ∨ x.status = some .failed) : x.room budget = 0 := if_pos h

/-- Any other task has its attempts, less those made and the one under way. -/
theorem room_of_open {budget : Nat} {x : Standing}
    (h : ¬ (x.status = some .done ∨ x.status = some .failed)) :
    x.room budget = budget - x.attempts - x.active.toNat := if_neg h

/-- There is never more room than attempts are left. -/
theorem room_le (budget : Nat) (x : Standing) : x.room budget ≤ budget - x.attempts := by
  unfold room
  split <;> omega

namespace Sound

variable {budget : Nat} {x : Standing}

/-- A task that waits has an attempt left. -/
theorem lt_of_waiting (h : x.Sound budget) (hwaits : x.Waiting) : x.attempts < budget := by
  refine Nat.lt_of_le_of_ne h.within fun heq => ?_
  rcases hwaits with hs | hs <;> cases hs.symm.trans (h.spent heq)

/-- So has one that is under way. -/
theorem lt_of_active (h : x.Sound budget) (hactive : x.active = true) : x.attempts < budget := by
  refine Nat.lt_of_le_of_ne h.within fun heq => ?_
  cases (h.active hactive).symm.trans (h.spent heq)

end Sound
end Standing

/-! ## 3. One move

The three facts on one move, by the cases of what it can do to the task. -/

section Move

variable {budget : Nat} {b : Books} {taskId : String} {m : Move} {y : Standing}
  (hsound : (b.standing taskId).Sound budget)
  (hstart : b.Starts taskId m = true → (b.standing taskId).Waiting)

include hsound hstart

/-- **A move keeps a sound standing sound**, if only a task that waits is started. -/
theorem Standing.Sound.after (hbudget : 1 ≤ budget) (hwithin : m.Within budget)
    (h : b.Turn taskId m y) : y.Sound budget := by
  cases h with
  | still => exact hsound
  | started o backend worktreeDir now _ hstarts =>
    have hlt := hsound.lt_of_waiting (hstart hstarts)
    exact ⟨hsound.within, fun heq => absurd heq (Nat.ne_of_lt hlt), fun _ => rfl⟩
  | settled w outcome retry now _ _ hactive =>
    have hlt := hsound.lt_of_active hactive
    cases outcome with
    | succeeded | fatal | cancelled =>
      exact ⟨Nat.le_of_lt hlt, fun heq => absurd heq (Nat.ne_of_lt hlt), fun e => by cases e⟩
    | retryable cause reason sessionId =>
      refine ⟨hlt, fun heq => ?_, fun e => by cases e⟩
      -- the attempt that spends the last one fails the task
      have hlast : retry.maxSkipRetries ≤ (b.standing taskId).attempts + 1 :=
        hwithin.trans heq.symm ▸ Nat.le_refl _
      simp [Standing.settled, Outcome.cost, State.verdict, hlast]
  | forgotten =>
    exact ⟨Nat.zero_le _, fun heq => absurd heq (Nat.ne_of_lt hbudget), fun e => by cases e⟩
  | restarted alive stays hstays =>
    refine ⟨hsound.within, fun heq => ?_, fun hactive => ?_⟩
    · have hfailed := hsound.spent heq
      simp [Standing.restarted, hfailed]
    · have hprogress := hsound.active (hstays.mp hactive).1
      have hstill : stays = true := hactive
      simp [Standing.restarted, hprogress, hstill]

/-- **A start takes one of the attempts there is room for**, and no other move that returns none
gives one back. -/
theorem Standing.Sound.starts_add_room_le (hreturns : ¬ b.Returns taskId m)
    (h : b.Turn taskId m y) :
    (b.Starts taskId m).toNat + y.room budget ≤ (b.standing taskId).room budget := by
  cases h with
  | still hstill =>
    rw [hstill]
    exact Nat.le_of_eq (Nat.zero_add _)
  | started o backend worktreeDir now _ hstarts hidle =>
    have hwaits := hstart hstarts
    have hlt := hsound.lt_of_waiting hwaits
    have hopen : ¬ ((b.standing taskId).status = some .done ∨
        (b.standing taskId).status = some .failed) := by
      rcases hwaits with hs | hs <;> simp [hs]
    rw [hstarts, Standing.room_of_open hopen, hidle,
      Standing.room_of_open (x := (b.standing taskId).started) (by simp [Standing.started])]
    simp only [Standing.started, Bool.toNat_true, Bool.toNat_false]
    omega
  | settled w outcome retry now hw htask hactive =>
    have hprogress := hsound.active hactive
    rw [Standing.room_of_open (x := b.standing taskId) (by simp [hprogress]), hactive]
    cases outcome with
    | succeeded => rw [Standing.room_of_closed (.inl rfl)]; exact Nat.zero_le _
    | fatal => rw [Standing.room_of_closed (.inr rfl)]; exact Nat.zero_le _
    | cancelled => exact absurd ⟨w, hw, rfl, htask⟩ hreturns
    | retryable cause reason sessionId =>
      -- what the outcome costs is what the worker has held
      have hle : ((b.standing taskId).settled (.retryable cause reason sessionId) retry).room
          budget ≤ budget - ((b.standing taskId).attempts + 1) := Standing.room_le _ _
      exact Nat.le_trans (Nat.le_of_eq (Nat.zero_add _)) hle
  | forgotten => exact absurd rfl hreturns
  | restarted alive stays hstays =>
    have hsame : stays = (b.standing taskId).active := by
      rw [Bool.eq_iff_iff, hstays]
      exact and_iff_left hreturns
    refine Nat.le_trans (Nat.le_of_eq (Nat.zero_add _)) ?_
    rw [hsame]
    by_cases hclosed : (b.standing taskId).status = some .done ∨
        (b.standing taskId).status = some .failed
    · have hkept : ((b.standing taskId).restarted (b.standing taskId).active).status =
          (b.standing taskId).status := by
        rcases hclosed with hs | hs <;> simp [Standing.restarted, hs]
      rw [Standing.room_of_closed (hkept ▸ hclosed)]
      exact Nat.zero_le _
    · rw [Standing.room_of_open hclosed]
      unfold Standing.room
      split
      · exact Nat.zero_le _
      · exact Nat.le_refl _

/-- A task that has failed stays so until its reset, and is not started. -/
theorem Standing.Sound.failed_after (hfailed : (b.standing taskId).status = some .failed)
    (hreset : m ≠ .reset taskId) (h : b.Turn taskId m y) :
    b.Starts taskId m = false ∧ y.status = some .failed := by
  cases h with
  | still hstill => exact ⟨hstill, hfailed⟩
  | started o backend worktreeDir now _ hstarts =>
    rcases hstart hstarts with hs | hs <;> cases hs.symm.trans hfailed
  | settled w outcome retry now _ _ hactive => cases (hsound.active hactive).symm.trans hfailed
  | forgotten => exact absurd rfl hreset
  | restarted => exact ⟨rfl, by simp [Standing.restarted, hfailed]⟩

end Move

/-! ## 4. All histories

`Solvent` is the invariant of a course: the facts on single tasks for all of them, and what the
orders that are due find. -/

/-- Every task stands soundly, and what is still to be carried out finds its task waiting, or at
work already. -/
structure Solvent (budget : Nat) (b : Books) (due : List Order) : Prop where
  distinct : b.kanban.HasDistinctIds
  tidy : Tidy b.kanban b.state
  sound : ∀ taskId, (b.standing taskId).Sound budget
  due : ∀ o ∈ due, (b.standing o.taskId).active = true ∨ (b.standing o.taskId).Waiting

namespace Solvent

variable {budget : Nat} {b : Books} {due : List Order} {m : Move}

/-- Only a task that waits is started. -/
theorem waiting_of_starts (h : Solvent budget b due) (hattended : b.Attended m) (hfresh : b.Fresh m)
    (horder : ∀ o ∈ m.order?, o ∈ due) {taskId : String} (hstarts : b.Starts taskId m = true) :
    (b.standing taskId).Waiting := by
  have hturn := Books.turn_after h.tidy h.distinct hattended hfresh taskId
  generalize (b.after m).standing taskId = y at hturn
  cases hturn with
  | still hstill => cases hstill.symm.trans hstarts
  | started o backend worktreeDir now htask _ hidle =>
    rcases h.due o (horder o rfl) with hactive | hwaits
    · cases (htask ▸ hidle).symm.trans hactive
    · exact htask ▸ hwaits
  | settled | forgotten | restarted => cases hstarts

/-- A move of any kind.  Afterwards nothing is due. -/
theorem after (h : Solvent budget b due) (hbudget : 1 ≤ budget) (hattended : b.Attended m)
    (hfresh : b.Fresh m) (hwithin : m.Within budget) (horder : ∀ o ∈ m.order?, o ∈ due) :
    Solvent budget (b.after m) [] := by
  refine ⟨h.distinct.of_plainTasks_eq (b.plainTasks_after m), h.tidy.after hattended hfresh,
    fun taskId => ?_, fun _ ho => absurd ho List.not_mem_nil⟩
  exact (h.sound taskId).after (h.waiting_of_starts hattended hfresh horder) hbudget hwithin
    (Books.turn_after h.tidy h.distinct hattended hfresh taskId)

/-- In a pass an order that is due stays so until it is carried out. -/
theorem after_pass (h : Solvent budget b due) (hbudget : 1 ≤ budget) (hm : m.InPass)
    (hattended : b.Attended m) (hfresh : b.Fresh m) (hwithin : m.Within budget)
    (horder : ∀ o ∈ m.order?, o ∈ due) : Solvent budget (b.after m) due := by
  have hafter := h.after hbudget hattended hfresh hwithin horder
  refine ⟨hafter.distinct, hafter.tidy, hafter.sound, fun o ho => ?_⟩
  have hturn := Books.turn_after h.tidy h.distinct hattended hfresh o.taskId
  generalize (b.after m).standing o.taskId = y at hturn
  cases hturn with
  | still => exact h.due o ho
  | started => exact .inl rfl
  | settled | forgotten | restarted => exact hm.elim

/-- The orders of a plan find their tasks waiting. -/
theorem plan (h : Solvent budget b due) {room : Option Nat} {moment : Instant}
    {weights : Config.Scoring} {plan : Plan} (hplan : b.snapshot.Plans room moment weights plan) :
    Solvent budget b plan.dispatch := by
  refine ⟨h.distinct, h.tidy, h.sound, fun o ho => .inr ?_⟩
  obtain ⟨t, ht, htask, -, -⟩ := hplan.dispatch_mem ho
  obtain ⟨hmem, hwaits, -⟩ := Snapshot.mem_eligibleTasks_iff.mp ht
  have hstatus : (b.standing o.taskId).status = some t.status := by
    rw [htask]
    exact congrArg (Option.map Task.status) ((Kanban.find?_eq_some_iff h.distinct).mpr ⟨hmem, rfl⟩)
  simpa [Standing.Waiting, hstatus, Snapshot.isWaiting] using hwaits

/-- Nobody has tried anything yet. -/
theorem initial (hbudget : 1 ≤ budget) {k : Kanban} (hids : k.HasDistinctIds) :
    Solvent budget ⟨{}, k⟩ [] := by
  refine ⟨hids, Tidy.empty k, fun taskId => ⟨Nat.zero_le _, fun heq => ?_, fun hactive => ?_⟩,
    fun _ ho => absurd ho List.not_mem_nil⟩
  · exact absurd heq (Nat.ne_of_lt hbudget)
  · cases hactive

end Solvent

namespace Books

/-- The starts of a stretch that is one move longer. -/
theorem starts_append_singleton (b : Books) (taskId : String) (moves : List Move) (m : Move) :
    b.starts taskId (moves ++ [m]) =
      b.starts taskId moves + ((b.play moves).Starts taskId m).toNat := by
  induction moves generalizing b with
  | nil => exact Nat.add_comm _ _
  | cons m' moves ih =>
    rw [List.cons_append, starts, starts, ih, Nat.add_assoc]
    rfl

theorem undisturbed_append_singleton (b : Books) (taskId : String) (moves : List Move) (m : Move) :
    b.Undisturbed taskId (moves ++ [m]) ↔
      b.Undisturbed taskId moves ∧ ¬ (b.play moves).Returns taskId m := by
  induction moves generalizing b with
  | nil => simp [Undisturbed, play]
  | cons m' moves ih =>
    rw [List.cons_append, Undisturbed, Undisturbed, ih, and_assoc]
    rfl

end Books

namespace Course

variable {budget : Nat} {b c : Books} {due due' : List Order} {moves : List Move}

/-- The documents at the end are those after the moves. -/
theorem play (h : Course budget b due moves c due') : c = b.play moves := by
  induction h with
  | nil => rfl
  | plan _ _ ih => exact ih
  | pass _ _ _ _ ih | other _ _ _ _ _ ih => rw [Books.play_append, ← ih]; rfl

/-- **What holds at the beginning and is kept by every move of a course holds at its end.**  At
every move the tasks stand soundly. -/
theorem invariant {P : List Move → Books → Prop} (hbudget : 1 ≤ budget) (hnil : P [] b)
    (hmove : ∀ moves due' m, Solvent budget (b.play moves) due' → (b.play moves).Attended m →
      (b.play moves).Fresh m → (∀ o ∈ m.order?, o ∈ due') → P moves (b.play moves) →
        P (moves ++ [m]) ((b.play moves).after m))
    (h : Course budget b due moves c due') (hsolvent : Solvent budget b due) :
    Solvent budget c due' ∧ P moves c := by
  induction h with
  | nil => exact ⟨hsolvent, hnil⟩
  | plan _ hplan ih => exact ⟨ih.1.plan hplan, ih.2⟩
  | @pass moves c due' m h hm hfresh horder ih =>
    have hattended : c.Attended m := by
      cases m <;> first | exact hm.elim | exact trivial
    have hwithin : m.Within budget := by
      cases m <;> first | exact hm.elim | exact trivial
    obtain rfl := h.play
    exact ⟨ih.1.after_pass hbudget hm hattended hfresh hwithin horder,
      hmove _ _ _ ih.1 hattended hfresh horder ih.2⟩
  | @other moves c due' m h hnone hattended hfresh hwithin ih =>
    have horder : ∀ o ∈ m.order?, o ∈ due' := by
      rw [hnone]
      exact fun _ ho => absurd ho (Option.not_mem_none _)
    obtain rfl := h.play
    exact ⟨ih.1.after hbudget hattended hfresh hwithin horder,
      hmove _ _ _ ih.1 hattended hfresh horder ih.2⟩

/-- The invariant along a course. -/
theorem solvent (h : Course budget b due moves c due') (hbudget : 1 ≤ budget)
    (hsolvent : Solvent budget b due) : Solvent budget c due' :=
  (h.invariant (P := fun _ _ => True) hbudget trivial (fun _ _ _ _ _ _ _ _ => trivial) hsolvent).1

/-- **A stretch takes its starts out of the room there was**, if it returns no attempts. -/
theorem starts_add_room_le (h : Course budget b due moves c due') (hbudget : 1 ≤ budget)
    (hsolvent : Solvent budget b due) {taskId : String} :
    b.Undisturbed taskId moves → b.starts taskId moves + (c.standing taskId).room budget ≤
      (b.standing taskId).room budget := by
  refine (h.invariant (P := fun moves c => b.Undisturbed taskId moves →
    b.starts taskId moves + (c.standing taskId).room budget ≤ (b.standing taskId).room budget)
    hbudget (fun _ => Nat.le_of_eq (Nat.zero_add _)) ?_ hsolvent).2
  intro moves due' m hc hattended hfresh horder ih hquiet
  obtain ⟨hbefore, hlast⟩ := (b.undisturbed_append_singleton taskId moves m).mp hquiet
  have hmove := (hc.sound taskId).starts_add_room_le
    (hc.waiting_of_starts hattended hfresh horder) hlast
    (Books.turn_after hc.tidy hc.distinct hattended hfresh taskId)
  rw [b.starts_append_singleton taskId moves m, Nat.add_assoc]
  exact Nat.le_trans (Nat.add_le_add_left hmove _) (ih hbefore)

/-- **A task that has failed is not started before its reset**, and stays failed. -/
theorem failed_until_reset (h : Course budget b due moves c due') (hbudget : 1 ≤ budget)
    (hsolvent : Solvent budget b due) {taskId : String}
    (hfailed : (b.standing taskId).status = some .failed) :
    .reset taskId ∉ moves →
      b.starts taskId moves = 0 ∧ (c.standing taskId).status = some .failed := by
  refine (h.invariant (P := fun moves c => .reset taskId ∉ moves →
    b.starts taskId moves = 0 ∧ (c.standing taskId).status = some .failed)
    hbudget (fun _ => ⟨rfl, hfailed⟩) ?_ hsolvent).2
  intro moves due' m hc hattended hfresh horder ih hquiet
  rw [List.mem_append, List.mem_singleton, not_or] at hquiet
  obtain ⟨hnone, hstill⟩ := ih hquiet.1
  obtain ⟨hidle, hafter⟩ := (hc.sound taskId).failed_after
    (hc.waiting_of_starts hattended hfresh horder) hstill (Ne.symm hquiet.2)
    (Books.turn_after hc.tidy hc.distinct hattended hfresh taskId)
  rw [b.starts_append_singleton taskId moves m, hnone, hidle]
  exact ⟨rfl, hafter⟩

end Course

/-- **Retries stay within their budget.**  Let a backlog with distinct identifiers be worked on from
an empty state, with the same budget of at least one attempt for every outcome, and look at any
moment of that history and at any stretch that follows it.  For every task

* no more attempts are remembered than the budget has;
* if they are as many, the task has failed, and it is not started in the stretch without a reset
  of it;
* if the stretch returns none of its attempts, it is started in it no more often than there are
  attempts left. -/
theorem retries_within_budget {budget : Nat} (hbudget : 1 ≤ budget) {k : Kanban}
    (hids : k.HasDistinctIds) {moves stretch : List Move} {b c : Books} {due due' : List Order}
    (h : Course budget ⟨{}, k⟩ [] moves b due) (hstretch : Course budget b due stretch c due')
    (taskId : String) :
    (b.state.resumeOf taskId).attempts ≤ budget ∧
      ((b.state.resumeOf taskId).attempts = budget →
        b.kanban.statusOf? taskId = some .failed ∧
          (.reset taskId ∉ stretch → b.starts taskId stretch = 0)) ∧
      (b.Undisturbed taskId stretch →
        b.starts taskId stretch ≤ budget - (b.state.resumeOf taskId).attempts) := by
  have hsolvent := h.solvent hbudget (Solvent.initial hbudget hids)
  have hsound := hsolvent.sound taskId
  refine ⟨hsound.within, fun hspent => ⟨hsound.spent hspent, fun hreset => ?_⟩, fun hreturns => ?_⟩
  · exact (hstretch.failed_until_reset hbudget hsolvent (hsound.spent hspent) hreset).1
  · calc b.starts taskId stretch
        ≤ b.starts taskId stretch + (c.standing taskId).room budget := Nat.le_add_right _ _
      _ ≤ (b.standing taskId).room budget := hstretch.starts_add_room_le hbudget hsolvent hreturns
      _ ≤ budget - (b.state.resumeOf taskId).attempts := Standing.room_le budget _

namespace Sample

/-- The second attempt has failed as well. -/
def retried : Books := woken.after (endAt firstName (.retryable .rateLimited "429" none) onePm).move

/-- The third attempt has failed, and was the last one. -/
def spent : Books :=
  (retried.after (startAt retried twoPm).move).after
    (endAt firstName (.retryable .rateLimited "429" none) twoPm).move

/-- The first attempt fails. -/
def firstTry : List Move :=
  [.restart fun _ => false, (startAt idle noon).move,
    (endAt firstName (.retryable .rateLimited "429" none) noon).move]

/-- Two more do. -/
def otherTries : List Move :=
  [(startAt parked onePm).move, (endAt firstName (.retryable .rateLimited "429" none) onePm).move,
    (startAt retried twoPm).move, (endAt firstName (.retryable .rateLimited "429" none) twoPm).move]

/-- A plan is made, and its first order is carried out. -/
theorem course_startAt {b c : Books} {due due' : List Order} {moves : List Move}
    (h : Course 3 b due moves c due') (moment : Instant)
    (hplan : (c.snapshot.select none moment {}).dispatch.isEmpty = false)
    (hfresh : c.Fresh (startAt c moment).move) :
    Course 3 b due (moves ++ [(startAt c moment).move]) (c.after (startAt c moment).move)
      (c.snapshot.select none moment {}).dispatch := by
  refine (h.plan (Snapshot.plans_select ..)).pass trivial hfresh fun o ho => ?_
  cases ho
  exact orderAt_mem hplan

/-- The attempt of the first worker ends. -/
theorem course_endAt {b c : Books} {due due' : List Order} {moves : List Move}
    (h : Course 3 b due moves c due') (outcome : Outcome) (moment : Instant)
    (hworks : ∃ w ∈ c.state.workers, w.id = firstName ∧ w.status.isActive = true)
    (hfresh : c.Fresh (endAt firstName outcome moment).move) :
    Course 3 b due (moves ++ [(endAt firstName outcome moment).move])
      (c.after (endAt firstName outcome moment).move) [] :=
  h.other rfl hworks hfresh rfl

theorem firstTry_course : Course 3 ⟨{}, board⟩ [] firstTry parked [] := by
  have hidle : Course 3 ⟨{}, board⟩ [] [.restart fun _ => false] idle [] :=
    .other .nil rfl trivial (by decide) trivial
  have hbegun := course_startAt hidle noon (by decide +kernel) (by decide +kernel)
  exact course_endAt hbegun _ noon (by decide +kernel) (by decide +kernel)

theorem otherTries_course : Course 3 parked [] otherTries spent [] := by
  have hwoken := course_startAt (.nil : Course 3 parked [] [] parked []) onePm (by decide +kernel)
    (by decide +kernel)
  have hretried := course_endAt hwoken (.retryable .rateLimited "429" none) onePm
    (by decide +kernel) (by decide +kernel)
  have hlast := course_startAt hretried twoPm (by decide +kernel) (by decide +kernel)
  exact course_endAt hlast _ twoPm (by decide +kernel) (by decide +kernel)

end Sample

/-- After one failed attempt of three the task is started twice more, and then has failed. -/
theorem three_tries_spend_budget :
    Course 3 ⟨{}, Sample.board⟩ [] Sample.firstTry Sample.parked [] ∧
      Course 3 Sample.parked [] Sample.otherTries Sample.spent [] ∧
      Sample.parked.Undisturbed "T-1" Sample.otherTries ∧
      Sample.parked.starts "T-1" Sample.otherTries = 2 ∧
      Sample.parked.starts "T-1" Sample.otherTries ≤
        3 - (Sample.parked.state.resumeOf "T-1").attempts ∧
      Sample.parked.standing "T-1" = ⟨some .pending, 1, false⟩ ∧
      Sample.spent.standing "T-1" = ⟨some .failed, 3, false⟩ := by
  have hundisturbed : Sample.parked.Undisturbed "T-1" Sample.otherTries :=
    ⟨id, id, id, id, trivial⟩
  have hbound := (retries_within_budget (by decide) Sample.board_hasDistinctIds
    Sample.firstTry_course Sample.otherTries_course "T-1").2.2 hundisturbed
  exact ⟨Sample.firstTry_course, Sample.otherTries_course, hundisturbed, by decide +kernel, hbound,
    by decide +kernel, by decide +kernel⟩

end Foreman

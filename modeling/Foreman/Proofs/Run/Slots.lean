/-
# How many workers are active in a run

The limit is kept by the loop's own count: a pass may start as many tasks as there are slots that
no flight takes.  The documents count active records.  The two counts are fed by the same commands
and differ by what the run began with: the records that a restart found with a live process are
active, and no flight stands for them.

`Crew` compares the two, by name.

* `Crew.step`: every step keeps the active records those in flight and those of the start, and the
  flights within the limit.
* `active_workers_in_run`: so the documented limit is kept by every run that begins with no active
  record, and exceeded by as many as the flights and the records of the start are too many.

Names have to be distinct for this.  An outcome reaches the first record of a name, so a second one
stays active when its flight has landed.

The loop's own count is the number of its flights (`has_capacity`, with the length of the join
set).  The documented limit is one on the records that are spawned or running.  That the two
agree at a run without active records of earlier ones is `active_workers_in_run`; that they do
not agree otherwise is `survivor_takes_no_slot`.
-/
import Foreman.Proofs.History.Active
import Foreman.Proofs.Run.Flights
import Foreman.Proofs.Schedule.Plan
import Mathlib.Data.List.Infix

namespace Foreman
namespace Run

/-! ## 1. The crew

The invariant, by name, and its proof step by step. -/

namespace Loop

variable {σ : Type} {t : Terms} {s : Surroundings σ} {l l' : Loop σ} {now : Instant}
  {others : List String}

/-- How many tasks the plan of the present pass may still start. -/
def planned (l : Loop σ) : Nat :=
  match l.phase with
  | .deferring _ orders _ => orders.length
  | .dispatching rest _ => rest.length
  | _ => 0

/-- No two workers have one name. -/
def Distinct (l : Loop σ) : Prop := (l.desk.state.workers.map Worker.id).Nodup

instance (l : Loop σ) : Decidable l.Distinct := inferInstanceAs (Decidable (List.Nodup _))

/-- The active workers are those in flight and some others, and the flights keep the limit. -/
structure Crew (t : Terms) (others : List String) (l : Loop σ) : Prop where
  manned : l.desk.state.activeIds.Perm (l.flights.map Flight.workerId ++ others)
  room : l.flights.length + l.planned ≤ t.limit

/-- A plan is made for the slots that no flight takes. -/
theorem capacity_le (l : Loop σ) (t : Terms) (r : RateLimit) :
    l.capacity t r ≤ t.limit - l.flights.length := by
  unfold capacity
  split
  · exact Nat.zero_le _
  · split
    · exact Nat.min_le_left _ _
    · exact Nat.le_refl _

namespace Crew

/-- At the start nobody is in flight. -/
theorem opened (t : Terms) (world : σ) (desk : Desk) :
    Crew t desk.state.activeIds (Loop.opened world desk) :=
  ⟨List.Perm.refl _, Nat.zero_le _⟩

/-- A step that starts and settles nobody, and plans no more than there is room for. -/
theorem still (h : Crew t others l) (hactive : l'.desk.state.activeIds = l.desk.state.activeIds)
    (hflights : l'.flights = l.flights) (hplanned : l'.planned ≤ l.planned) :
    Crew t others l' := by
  refine ⟨?_, ?_⟩
  · rw [hactive, hflights]
    exact h.manned
  · rw [hflights]
    exact Nat.le_trans (Nat.add_le_add_left hplanned _) h.room

/-- A command that neither dispatches nor settles leaves the crew as it is. -/
theorem told (h : Crew t others l) {command : Command}
    (hquiet : ∀ m ∈ command.move? t.desk now, m.Quiet)
    (hdesk : l'.desk = (l.desk.handle t.desk now (s.faults l.world) command).desk)
    (hflights : l'.flights = l.flights) (hplanned : l'.planned ≤ l.planned) :
    Crew t others l' :=
  h.still (by rw [hdesk]; exact Desk.quiet_activeIds hquiet) hflights hplanned

/-- A plan is made for the slots that no flight takes. -/
theorem looking (h : Crew t others l) (r : RateLimit) :
    Crew t others (l.stepLooking t s now r).1 := by
  have hroom := h.room
  have hfits := ((Snapshot.of l.desk.state l.desk.kanban).plans_select (some (l.capacity t r)) now
    t.scoring).dispatch_length_le rfl
  have hcapacity := l.capacity_le t r
  refine ⟨h.manned, ?_⟩
  calc l.flights.length + List.length _
      ≤ l.flights.length + (t.limit - l.flights.length) :=
        Nat.add_le_add_left (Nat.le_trans hfits hcapacity) _
    _ ≤ t.limit := by omega

theorem deferring (h : Crew t others l) {rest : List Deferral} {orders : List Order} {p : Pass}
    (hphase : l.phase = .deferring rest orders p) :
    Crew t others (l.stepDeferring t s now rest orders p).1 := by
  have hplanned : l.planned = orders.length := by rw [planned, hphase]
  cases rest with
  | nil => exact h.still rfl rfl (Nat.le_of_eq hplanned.symm)
  | cons d rest =>
    have hquiet : ∀ m ∈ (Command.defer d.taskId d.footprint d.blocking).move? t.desk now,
        m.Quiet := by simp [Command.move?, Move.Quiet]
    unfold stepDeferring tell
    dsimp only
    split
    · exact h.told hquiet rfl rfl (Nat.zero_le _)
    · exact h.told hquiet rfl rfl (Nat.le_of_eq hplanned.symm)

/-- **A dispatch that is accepted takes one of the slots the plan was made for.** -/
theorem dispatching (h : Crew t others l) (hdistinct : l.Distinct) {rest : List Order} {p : Pass}
    (hphase : l.phase = .dispatching rest p) :
    Crew t others (l.stepDispatching t s now rest p).1 := by
  have hplanned : l.planned = rest.length := by rw [planned, hphase]
  cases rest with
  | nil =>
    refine h.still rfl rfl ?_
    simp only [stepDispatching]
    unfold afterPass
    split
    · exact Nat.zero_le _
    · split
      · exact Nat.zero_le _
      · split <;> exact Nat.zero_le _
  | cons o rest =>
    have hdispatch := Desk.dispatch_activeIds hdistinct t.desk now (s.faults l.world) o
    unfold stepDispatching tell
    dsimp only
    split
    · rename_i ticket hreply
      rcases hdispatch with ⟨ticket', hreply', hperm⟩ | ⟨hnone, -⟩
      -- the worker is new among those at work, and its order is no longer among the planned
      · cases hreply.symm.trans hreply'
        refine ⟨?_, ?_⟩
        · refine hperm.trans ((h.manned.cons _).trans ?_)
          simp only [List.map_append, List.map_cons, List.map_nil, List.append_assoc,
            List.singleton_append]
          exact List.perm_middle.symm
        · have hroom := h.room
          rw [hplanned, List.length_cons] at hroom
          show (l.flights ++ [_]).length + rest.length ≤ t.limit
          rw [List.length_append, List.length_singleton]
          omega
      · exact absurd hreply (hnone ticket)
    · rename_i failure hreply
      rcases hdispatch with ⟨ticket, hticket, -⟩ | ⟨-, hsame⟩
      · cases hreply.symm.trans hticket
      · split
        · exact h.still hsame rfl (Nat.zero_le _)
        · exact h.still hsame rfl (by rw [hplanned]; exact Nat.le_succ _)
    · rename_i hnone _
      rcases hdispatch with ⟨ticket, hticket, -⟩ | ⟨-, hsame⟩
      · exact absurd hticket (hnone ticket)
      · exact h.still hsame rfl (by rw [hplanned]; exact Nat.le_succ _)

/-- **A flight that lands frees its slot.** -/
theorem lands (h : Crew t others l) (hdistinct : l.Distinct) {f : Flight} (hf : f ∈ l.flights)
    {outcome : Outcome}
    (hdesk : l'.desk =
      (l.desk.handle t.desk now (s.faults l.world) (.settle f.workerId outcome)).desk)
    (hflights : l'.flights = l.flights.erase f) (hplanned : l'.planned = 0) :
    Crew t others l' := by
  have hcrew : l.desk.state.activeIds.Perm
      (f.workerId :: ((l.flights.erase f).map Flight.workerId ++ others)) :=
    h.manned.trans (((List.perm_cons_erase hf).map Flight.workerId).append_right others)
  have hactive : f.workerId ∈ l.desk.state.activeIds := hcrew.mem_iff.mpr List.mem_cons_self
  have hsettled := Desk.settle_activeIds hdistinct t.desk now (s.faults l.world) hactive outcome
  refine ⟨?_, ?_⟩
  · rw [hdesk, hflights]
    exact (hsettled.symm.trans hcrew).cons_inv
  · have hless := List.length_erase_of_mem hf
    have hroom := h.room
    rw [hflights, hplanned]
    omega

/-- The loop's own next step keeps the crew. -/
theorem proceed (h : Crew t others l) (hdistinct : l.Distinct) (now : Instant) (r : RateLimit) :
    Crew t others (l.proceed t s now r).1 := by
  unfold Loop.proceed
  cases hphase : l.phase with
  | top =>
    dsimp only
    unfold stepTop
    split
    · exact h.still rfl rfl (Nat.zero_le _)
    · obtain ⟨hflights, hdesk, -⟩ := merge_plain l s
      exact h.still (congrArg (fun d => d.state.activeIds) hdesk) hflights (Nat.zero_le _)
  | beginning =>
    dsimp only
    unfold stepBeginning tell
    dsimp only
    have hquiet : ∀ m ∈ Command.beginPass.move? t.desk now, m.Quiet := by
      simp [Command.move?, Move.Quiet]
    split
    · exact h.told hquiet rfl rfl (Nat.zero_le _)
    · exact h.told hquiet rfl rfl (Nat.zero_le _)
  | looking => exact h.looking r
  | deferring rest orders p => exact h.deferring hphase
  | dispatching rest p => exact h.dispatching hdistinct hphase
  | sleeping => exact h.still rfl rfl (Nat.zero_le _)
  | waiting =>
    dsimp only
    split
    · exact h.still rfl rfl (Nat.zero_le _)
    · exact h
  | draining first cause =>
    dsimp only
    unfold stepDraining
    split
    · exact h
    · split
      · exact h.still rfl rfl (Nat.zero_le _)
      · split <;> exact h.still rfl rfl (Nat.zero_le _)
      · exact h.still rfl rfl (Nat.zero_le _)
  | flushing halt =>
    dsimp only
    unfold stepFlushing tell
    dsimp only
    have hquiet : ∀ m ∈ Command.flush.move? t.desk now, m.Quiet := by simp [Command.move?]
    split
    · exact h.told hquiet rfl rfl (Nat.zero_le _)
    · exact h.told hquiet rfl rfl (Nat.zero_le _)
  | ended => exact h

/-- The result of a worker keeps the crew, in whatever phase it comes. -/
theorem finished (h : Crew t others l) (hdistinct : l.Distinct) (workerId : String)
    (result : Except Failure Outcome) (now : Instant) :
    Crew t others (l.finished t s workerId result now).1 := by
  unfold Loop.finished
  split
  · rename_i f hphase hfind
    have hf : f ∈ l.flights := List.mem_of_find?_eq_some hfind
    have hlanded := settle_landed l t s f result now
    generalize l.settle t s f result now = r at hlanded
    obtain ⟨failure?, l', acts⟩ := r
    cases failure? with
    | none => exact h.lands hdistinct hf hlanded.desk hlanded.flights rfl
    | some failure => exact h.lands hdistinct hf hlanded.desk hlanded.flights rfl
  · rename_i first cause f hphase hfind
    have hf : f ∈ l.flights := List.mem_of_find?_eq_some hfind
    have hlanded := settle_landed l t s f result now
    exact h.lands hdistinct hf hlanded.desk hlanded.flights rfl
  · exact h

/-- **Every step keeps the crew**, whatever comes to the loop. -/
theorem step (h : Crew t others l) (hdistinct : l.Distinct) (e : Event σ) :
    Crew t others (l.step t s e).1 := by
  cases e with
  | proceed now r => exact h.proceed hdistinct now r
  | finished workerId result now => exact h.finished hdistinct workerId result now
  | message message now =>
    have hquiet : ∀ m ∈ message.command.move? t.desk now, m.Quiet := by
      cases message <;> simp [Message.command, Command.move?, Move.Quiet]
    exact h.told hquiet rfl rfl (Nat.le_refl _)
  | cancel => exact h.still rfl rfl (Nat.le_refl _)
  | graceOver =>
    simp only [Loop.step]
    split
    · exact h.still rfl rfl (Nat.le_refl _)
    · exact h
  | world => exact h.still rfl rfl (Nat.le_refl _)

/-- **So does every run** in which no two workers ever have one name. -/
theorem run (h : Crew t others l) (events : List (Event σ))
    (hdistinct : ∀ early, early <+: events → (l.run t s early).1.Distinct) :
    Crew t others (l.run t s events).1 := by
  induction events using List.reverseRecOn with
  | nil => exact h
  | append_singleton events e ih =>
    rw [run_append_singleton]
    have hold := ih fun early hearly => hdistinct early (hearly.trans (List.prefix_append _ _))
    exact hold.step (hdistinct events (List.prefix_append _ _)) e

end Crew
end Loop

/-! ## 2. The limit

From names to numbers. -/

/-- **The active workers of a run are those in flight and those that were active at its start.**
At every moment of a run in which no two workers ever have one name, and so right after each
dispatch that is accepted:

* the active workers are, by name, the workers in flight and the workers active at the start;
* the workers in flight keep the limit;
* so the active workers keep it exactly if those in flight leave room for those of the start, and
  always if there were none. -/
theorem active_workers_in_run {σ : Type} {t : Terms} {s : Surroundings σ} (world : σ)
    (desk : Desk) (events : List (Event σ))
    (hdistinct : ∀ early, early <+: events →
      ((Loop.opened world desk).run t s early).1.Distinct) :
    (((Loop.opened world desk).run t s events).1.desk.state.activeIds).Perm
        (((Loop.opened world desk).run t s events).1.flights.map Flight.workerId ++
          desk.state.activeIds) ∧
      ((Loop.opened world desk).run t s events).1.flights.length ≤ t.limit ∧
      (((Loop.opened world desk).run t s events).1.desk.state.activeCount ≤ t.limit ↔
        ((Loop.opened world desk).run t s events).1.flights.length + desk.state.activeCount ≤
          t.limit) ∧
      (desk.state.activeCount = 0 →
        ((Loop.opened world desk).run t s events).1.desk.state.activeCount ≤ t.limit) := by
  obtain ⟨hmanned, hroom⟩ := (Loop.Crew.opened t world desk).run (s := s) events hdistinct
  generalize ((Loop.opened world desk).run t s events).1 = l at hmanned hroom
  have hcount : l.desk.state.activeCount = l.flights.length + desk.state.activeCount := by
    rw [State.activeCount_eq, State.activeCount_eq, hmanned.length_eq, List.length_append,
      List.length_map]
  have hflights : l.flights.length ≤ t.limit := Nat.le_trans (Nat.le_add_right _ _) hroom
  refine ⟨hmanned, hflights, by rw [hcount], fun hnone => ?_⟩
  rw [hcount, hnone]
  exact hflights

/-! ## 3. A worker of an earlier run

One slot, and a worker that is alive when the run begins, or is not. -/

namespace Sample

/-- The record of a worker that an earlier run started. -/
def survivor : Worker where
  id := "worker-T-1-1700000000"
  taskId := "T-1"
  workspace := "/wt/worker-T-1-1700000000"
  backend := "mock"
  pid := some 1
  startedAt := noon
  sessionId := none
  iteration := 1
  status := .running

/-- The documents an earlier run left behind: its worker is on the first of two tasks. -/
def left : Books where
  kanban := { tasks :=
    [{ id := "T-1", status := .inProgress, footprint := ["a"] },
      { id := "T-2", footprint := ["b"] }] }
  state := { workers := [survivor], registry := { claims := [⟨"a", survivor.id, "T-1", noon⟩] } }

/-- The desk of a run that begins after the restart; `alive` tells which processes still run. -/
def inherited (alive : Nat → Bool) : Desk where
  kanban := (left.after (.restart alive)).kanban
  state := (left.after (.restart alive)).state

/-- The first pass, up to its first dispatch. -/
def firstPass : List (Event (List String)) := [go, go, go, go, go]

/-- The first pass of a run with one slot. -/
def begun (alive : Nat → Bool) : Loop.Step (List String) :=
  (Loop.opened [] (inherited alive)).run terms surroundings firstPass

end Sample

/-- If the worker of the earlier run is dead, the first dispatch takes the only slot. -/
theorem slots_after_crash :
    (∀ early, early <+: Sample.firstPass →
      ((Loop.opened [] (Sample.inherited fun _ => false)).run Sample.terms Sample.surroundings
        early).1.Distinct) ∧
      started (Sample.begun fun _ => false).2 = ["worker-T-1-1728043200"] ∧
      (Sample.begun fun _ => false).1.desk.state.activeCount ≤ Sample.terms.limit := by
  have hall : ∀ early ∈ Sample.firstPass.inits,
      ((Loop.opened [] (Sample.inherited fun _ => false)).run Sample.terms Sample.surroundings
        early).1.Distinct := by decide +kernel
  have hdistinct : ∀ early, early <+: Sample.firstPass →
      ((Loop.opened [] (Sample.inherited fun _ => false)).run Sample.terms Sample.surroundings
        early).1.Distinct :=
    fun early hearly => hall early ((List.mem_inits early _).mpr hearly)
  obtain ⟨-, -, -, hlimit⟩ :=
    active_workers_in_run [] (Sample.inherited fun _ => false) Sample.firstPass hdistinct
  have hnone : (Sample.inherited fun _ => false).state.activeCount = 0 := by decide +kernel
  refine ⟨hdistinct, by decide +kernel, ?_⟩
  unfold Sample.begun
  exact hlimit hnone

/-- **A worker of an earlier run that is alive takes no slot.**  The restart keeps it, as the
active worker of its task, and the first pass fills the only slot with the other task. -/
theorem survivor_takes_no_slot :
    Sample.terms.limit = 1 ∧
      (Sample.inherited fun _ => true).state.workers = [Sample.survivor] ∧
      started (Sample.begun fun _ => true).2 = ["worker-T-2-1728043200"] ∧
      (Sample.begun fun _ => true).1.desk.state.activeCount = 2 := by
  refine ⟨rfl, ?_, ?_, ?_⟩ <;> decide +kernel

end Run
end Foreman

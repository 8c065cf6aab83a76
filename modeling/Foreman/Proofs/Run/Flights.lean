/-
# What becomes of the workers of a run

A dispatch that is accepted starts a worker, and the worker's outcome is handed to the coordinator
when the loop takes its result.  A loop that is about to end waits for its workers first: when it
is asked to end, when a dispatch halts it, when the settling of a result fails, and when nothing
is left to do.  At three commands it does not wait.  If a pass cannot be opened, a snapshot is not
given or a task cannot be put off, the run is over there and then, and no outcome is ever handed
in for a worker that is still in flight.

`Roll` compares the history of a run with the flights the loop holds.

* `Roll.step`: every step keeps the roll, whatever comes to the loop.
* `crew_settled_iff`: so a run that has ended has handed in an outcome for each worker it started
  exactly if it never gave up while a worker was in flight, and one that ends well always has.

A run that is given up at one of these three commands ends with a bare failure.  Its workers go
on, and so do their records: whatever they come to, the documents have them as active until the
next restart finds their processes gone.
-/
import Foreman.Proofs.Run.Branches

namespace Foreman

/-- The commands that prepare a pass: a refusal of one of them ends the run there and then. -/
def Command.preparesPass : Command → Bool
  | .beginPass | .snapshot | .defer _ _ _ => true
  | _ => false

namespace Run

/-! ## 1. Workers in the history of a run

Who was started and who was settled, and at which acts a run is given up. -/

namespace Act

/-- The worker that is started by a dispatch the coordinator accepts. -/
def started : Act → List String
  | .told (.dispatch _) (.ticket ticket) => [ticket.worker.id]
  | _ => []

/-- The worker for which an outcome is handed to the coordinator. -/
def settled : Act → List String
  | .told (.settle workerId _) _ => [workerId]
  | _ => []

/-- A refusal at which the loop ends without a look at its workers. -/
def givesUp : Act → Bool
  | .told command (.refused _) => command.preparesPass
  | _ => false

/-- The act starts no worker, settles none, and does not give the run up. -/
structure Plain (act : Act) : Prop where
  started : act.started = []
  settled : act.settled = []
  goesOn : act.givesUp = false

theorem plain_stopped : Plain stopped := ⟨rfl, rfl, rfl⟩

theorem plain_offered (candidates : List Candidate) (report : MergeReport) :
    Plain (offered candidates report) := ⟨rfl, rfl, rfl⟩

/-- A command that prepares a pass is plain unless it is refused. -/
theorem plain_prepared {command : Command} {reply : Reply} (h : command.preparesPass = true)
    (hreply : ∀ failure, reply ≠ .refused failure) : Plain (told command reply) := by
  refine ⟨?_, ?_, ?_⟩
  · cases command <;> first | rfl | cases h
  · cases command <;> first | rfl | cases h
  · cases reply with
    | refused failure => exact absurd rfl (hreply failure)
    | _ => rfl

/-- A command that neither prepares a pass nor starts or settles a worker is always plain. -/
theorem plain_other {command : Command} {reply : Reply} (h : command.preparesPass = false)
    (hdispatch : ∀ order, command ≠ .dispatch order)
    (hsettle : ∀ workerId outcome, command ≠ .settle workerId outcome) :
    Plain (told command reply) := by
  refine ⟨?_, ?_, ?_⟩
  · cases command with
    | dispatch order => exact absurd rfl (hdispatch order)
    | _ => rfl
  · cases command with
    | settle workerId outcome => exact absurd rfl (hsettle workerId outcome)
    | _ => rfl
  · cases reply with
    | refused failure => exact h
    | _ => rfl

theorem plain_flush (reply : Reply) : Plain (told .flush reply) :=
  plain_other rfl (by simp) (by simp)

theorem plain_message (m : Message) (reply : Reply) : Plain (told m.command reply) := by
  cases m with
  | running => exact plain_other rfl (by simp [Message.command]) (by simp [Message.command])
  | session => exact plain_other rfl (by simp [Message.command]) (by simp [Message.command])

/-- A dispatch that gets no ticket starts nobody. -/
theorem plain_dispatch {order : Order} {reply : Reply} (h : ∀ ticket, reply ≠ .ticket ticket) :
    Plain (told (.dispatch order) reply) := by
  cases reply with
  | ticket ticket => exact absurd rfl (h ticket)
  | _ => exact ⟨rfl, rfl, rfl⟩

/-- The settling of a result never gives the run up. -/
theorem settle_goesOn (workerId : String) (outcome : Outcome) (reply : Reply) :
    (told (.settle workerId outcome) reply).givesUp = false := by
  cases reply <;> rfl

end Act

/-- The workers that a run started, in order. -/
def started (acts : List Act) : List String := acts.flatMap Act.started

/-- The workers for which a run handed in an outcome, in order. -/
def settled (acts : List Act) : List String := acts.flatMap Act.settled

/-- The run was not given up. -/
def Calm (acts : List Act) : Prop := ∀ a ∈ acts, a.givesUp = false

/-- Whenever the run was given up, an outcome had been handed in for each worker it had started. -/
def NoneDropped (acts : List Act) : Prop :=
  ∀ before act, before ++ [act] <+: acts → act.givesUp = true →
    (started before).Perm (settled before)

section Histories

variable {acts more : List Act} {act : Act}

/-- The workers of a longer history. -/
theorem started_append : started (acts ++ more) = started acts ++ started more :=
  List.flatMap_append

theorem settled_append : settled (acts ++ more) = settled acts ++ settled more :=
  List.flatMap_append

theorem started_eq_nil (h : ∀ a ∈ more, a.Plain) : started more = [] :=
  List.flatMap_eq_nil_iff.mpr fun a ha => (h a ha).started

theorem settled_eq_nil (h : ∀ a ∈ more, a.Plain) : settled more = [] :=
  List.flatMap_eq_nil_iff.mpr fun a ha => (h a ha).settled

theorem calm_nil : Calm [] := fun _ ha => absurd ha List.not_mem_nil

theorem calm_append : Calm (acts ++ more) ↔ Calm acts ∧ Calm more := List.forall_mem_append

theorem calm_of_plain (h : ∀ a ∈ more, a.Plain) : Calm more := fun a ha => (h a ha).goesOn

theorem Calm.noneDropped (h : Calm acts) : NoneDropped acts := by
  intro before act hearly hgives
  have hgoes := h act (hearly.subset (List.mem_append_right _ List.mem_cons_self))
  exact absurd hgives (Bool.eq_false_iff.mp hgoes)

theorem noneDropped_append_singleton :
    NoneDropped (acts ++ [act]) ↔
      NoneDropped acts ∧ (act.givesUp = true → (started acts).Perm (settled acts)) := by
  constructor
  · intro h
    exact ⟨fun before a hearly => h before a (hearly.trans (List.prefix_append _ _)),
      h acts act (List.prefix_refl _)⟩
  · rintro ⟨hold, hnew⟩ before a hearly hgives
    rcases List.prefix_concat_iff.mp hearly with heq | hearly
    · obtain ⟨rfl, hlast⟩ := List.append_inj' heq rfl
      cases hlast
      exact hnew hgives
    · exact hold before a hearly hgives

theorem noneDropped_append (h : Calm more) : NoneDropped (acts ++ more) ↔ NoneDropped acts := by
  induction more using List.reverseRecOn with
  | nil => rw [List.append_nil]
  | append_singleton more act ih =>
    obtain ⟨hmore, hact⟩ := calm_append.mp h
    rw [← List.append_assoc, noneDropped_append_singleton, ih hmore]
    exact and_iff_left fun hgives =>
      absurd hgives (Bool.eq_false_iff.mp (hact act List.mem_cons_self))

end Histories

/-! ## 2. The roll

The invariant, and how a start, an end and a refusal change it. -/

namespace Loop

variable {σ : Type} {t : Terms} {s : Surroundings σ} {l l' : Loop σ} {acts new : List Act}

/-- What a phase says of the history: only a run that was given up holds flights at its end. -/
def Stage (acts : List Act) (l : Loop σ) : Prop :=
  match l.phase with
  | .ended (.error _) => NoneDropped acts ↔ l.flights = []
  | .ended (.ok _) | .flushing _ => Calm acts ∧ l.flights = []
  | _ => Calm acts

/-- The flights of the loop agree with the history of the run. -/
structure Roll (acts : List Act) (l : Loop σ) : Prop where
  /-- The workers started are those settled and those in flight. -/
  crew : (started acts).Perm (settled acts ++ l.flights.map Flight.workerId)
  stage : l.Stage acts

/-- Acts that leave the workers alone leave the roll as it is. -/
theorem crew_plain (h : (started acts).Perm (settled acts ++ l.flights.map Flight.workerId))
    (hnew : ∀ a ∈ new, a.Plain) (hflights : l'.flights = l.flights) :
    (started (acts ++ new)).Perm (settled (acts ++ new) ++ l'.flights.map Flight.workerId) := by
  rw [started_append, settled_append, started_eq_nil hnew, settled_eq_nil hnew, hflights,
    List.append_nil, List.append_nil]
  exact h

/-- Each worker that was started is settled exactly if none is in flight. -/
theorem started_perm_settled_iff
    (h : (started acts).Perm (settled acts ++ l.flights.map Flight.workerId)) :
    (started acts).Perm (settled acts) ↔ l.flights = [] := by
  constructor
  · intro hperm
    have hlength := (h.symm.trans hperm).length_eq
    rw [List.length_append, List.length_map] at hlength
    exact List.eq_nil_of_length_eq_zero (by omega)
  · intro hnone
    rw [hnone, List.map_nil, List.append_nil] at h
    exact h

/-- The account of an outcome touches the summary and the queue of branches only. -/
theorem account_eq (l : Loop σ) (taskId : String) (outcome : Outcome) (effect : Effect) :
    ∃ summary pending,
      l.account taskId outcome effect = { l with summary := summary, pending := pending } := by
  unfold account
  dsimp only
  split
  · exact ⟨_, _, rfl⟩
  · split <;> exact ⟨_, _, rfl⟩
  · exact ⟨_, _, rfl⟩
  · exact ⟨_, _, rfl⟩

theorem account_flights (l : Loop σ) (taskId : String) (outcome : Outcome) (effect : Effect) :
    (l.account taskId outcome effect).flights = l.flights := by
  obtain ⟨summary, pending, h⟩ := l.account_eq taskId outcome effect
  rw [h]

theorem account_desk (l : Loop σ) (taskId : String) (outcome : Outcome) (effect : Effect) :
    (l.account taskId outcome effect).desk = l.desk := by
  obtain ⟨summary, pending, h⟩ := l.account_eq taskId outcome effect
  rw [h]

/-- The loop that settles a result: one flight has landed, and the coordinator has been told. -/
structure Landed (t : Terms) (s : Surroundings σ) (l : Loop σ) (f : Flight) (outcome : Outcome)
    (now : Instant) (r : Step σ) : Prop where
  acts : ∃ reply, r.2 = [.told (.settle f.workerId outcome) reply]
  flights : r.1.flights = l.flights.erase f
  desk : r.1.desk =
    (l.desk.handle t.desk now (s.faults l.world) (.settle f.workerId outcome)).desk

/-- To settle a result is to land its flight. -/
theorem settle_landed (l : Loop σ) (t : Terms) (s : Surroundings σ) (f : Flight)
    (result : Except Failure Outcome) (now : Instant) :
    Landed t s l f (outcomeOf result) now (l.settle t s f result now).2 := by
  unfold settle tell
  dsimp only
  split
  · exact ⟨⟨_, rfl⟩, account_flights _ _ _ _, account_desk _ _ _ _⟩
  · exact ⟨⟨_, rfl⟩, rfl, rfl⟩
  · exact ⟨⟨_, rfl⟩, rfl, rfl⟩

/-- What a merge leaves alone. -/
theorem merge_plain (l : Loop σ) (s : Surroundings σ) :
    (l.merge s).1.flights = l.flights ∧ (l.merge s).1.desk = l.desk ∧
      ∀ a ∈ (l.merge s).2, a.Plain := by
  unfold merge
  split
  · exact ⟨rfl, rfl, by simp⟩
  · exact ⟨rfl, rfl, by simp⟩
  · exact ⟨rfl, rfl, by simp [Act.plain_offered]⟩

/-- A loop with a result has ended. -/
theorem phase_of_result? {result : Except Failure Summary} (h : l.result? = some result) :
    l.phase = .ended result := by
  unfold result? at h
  split at h
  · rename_i ended hphase
    cases h
    exact hphase
  · cases h

namespace Roll

theorem opened (world : σ) (desk : Desk) : Roll [] (Loop.opened world desk) :=
  ⟨List.Perm.refl _, calm_nil⟩

/-- A step after which the loop stands where it stood. -/
theorem same (h : Roll acts l) (hnew : ∀ a ∈ new, a.Plain) (hphase : l'.phase = l.phase)
    (hflights : l'.flights = l.flights) : Roll (acts ++ new) l' := by
  refine ⟨crew_plain h.crew hnew hflights, ?_⟩
  have hcalm : Calm (acts ++ new) ↔ Calm acts :=
    calm_append.trans (and_iff_left (calm_of_plain hnew))
  have hstage := h.stage
  unfold Stage at hstage ⊢
  rw [hphase, hflights, hcalm, noneDropped_append (calm_of_plain hnew)]
  exact hstage

/-- A step of a run that goes on. -/
theorem onward (h : Roll acts l) (hcalm : Calm acts) (hnew : ∀ a ∈ new, a.Plain)
    (hflights : l'.flights = l.flights) (hstage : Calm (acts ++ new) → l'.Stage (acts ++ new)) :
    Roll (acts ++ new) l' :=
  ⟨crew_plain h.crew hnew hflights, hstage (calm_append.mpr ⟨hcalm, calm_of_plain hnew⟩)⟩

/-- **A run that is given up drops its flights.** -/
theorem givesUp (h : Roll acts l) (hcalm : Calm acts) {command : Command} {failure : Failure}
    (hcommand : command.preparesPass = true) (hflights : l'.flights = l.flights) :
    Roll (acts ++ [.told command (.refused failure)]) (l'.failWith failure) := by
  have hcrew : (started (acts ++ [.told command (.refused failure)])).Perm
      (settled (acts ++ [.told command (.refused failure)]) ++
        (l'.failWith failure).flights.map Flight.workerId) := by
    have hkeeps : (l'.failWith failure).flights = l.flights := hflights
    have hstarted : started [.told command (.refused failure)] = [] := by
      cases command <;> rfl
    have hsettled : settled [.told command (.refused failure)] = [] := by
      cases command <;> first | rfl | cases hcommand
    rw [started_append, settled_append, hstarted, hsettled, hkeeps, List.append_nil,
      List.append_nil]
    exact h.crew
  refine ⟨hcrew, ?_⟩
  show NoneDropped _ ↔ l'.flights = []
  rw [noneDropped_append_singleton, hflights, ← started_perm_settled_iff h.crew]
  exact ⟨fun hnone => hnone.2 hcommand, fun hperm => ⟨hcalm.noneDropped, fun _ => hperm⟩⟩

/-- A dispatch that is accepted puts its worker on the roll. -/
theorem starts (h : Roll acts l) (hcalm : Calm acts) {order : Order} {ticket : Ticket}
    (hflights : l'.flights = l.flights ++ [⟨ticket.worker.id, ticket.task.id⟩])
    (hstage : Calm (acts ++ [.told (.dispatch order) (.ticket ticket)]) →
      l'.Stage (acts ++ [.told (.dispatch order) (.ticket ticket)])) :
    Roll (acts ++ [.told (.dispatch order) (.ticket ticket)]) l' := by
  have hnew : Calm [.told (.dispatch order) (.ticket ticket)] := by
    intro a ha
    rw [List.mem_singleton.mp ha]
    rfl
  refine ⟨?_, hstage (calm_append.mpr ⟨hcalm, hnew⟩)⟩
  have hstarted : started [.told (.dispatch order) (.ticket ticket)] = [ticket.worker.id] := rfl
  have hsettled : settled [.told (.dispatch order) (.ticket ticket)] = [] := rfl
  rw [started_append, settled_append, hstarted, hsettled, hflights, List.map_append,
    List.append_nil, ← List.append_assoc]
  exact h.crew.append_right [ticket.worker.id]

/-- **A result that is settled takes its worker off the roll**, wherever the loop goes on. -/
theorem lands (h : Roll acts l) (hcalm : Calm acts) {f : Flight} (hf : f ∈ l.flights)
    {outcome : Outcome} {reply : Reply} (hnew : ∀ a ∈ new, a.Plain)
    (hflights : l'.flights = l.flights.erase f)
    (hstage : ∀ acts', Calm acts' → l'.Stage acts') :
    Roll (acts ++ (.told (.settle f.workerId outcome) reply :: new)) l' := by
  have hgoes : Calm (.told (.settle f.workerId outcome) reply :: new) :=
    List.forall_mem_cons.mpr ⟨Act.settle_goesOn _ _ _, calm_of_plain hnew⟩
  refine ⟨?_, hstage _ (calm_append.mpr ⟨hcalm, hgoes⟩)⟩
  have hstarted : started (.told (.settle f.workerId outcome) reply :: new) = [] :=
    List.flatMap_eq_nil_iff.mpr
      (List.forall_mem_cons.mpr ⟨rfl, fun a ha => (hnew a ha).started⟩)
  have hsettled : settled (.told (.settle f.workerId outcome) reply :: new) = [f.workerId] :=
    congrArg (f.workerId :: ·) (settled_eq_nil hnew)
  rw [started_append, settled_append, hstarted, hsettled, hflights, List.append_nil,
    List.append_assoc]
  exact h.crew.trans (((List.perm_cons_erase hf).map Flight.workerId).append_left _)

/-! ## 3. Every step keeps the roll

Phase by phase.  Only the phases in which a command is refused can give the run up. -/

/-- What follows a pass: the documents are written a last time only if nobody is in flight. -/
theorem stage_afterPass (p : Pass) (hcalm : Calm acts) :
    (l.goTo (l.afterPass t p)).Stage acts := by
  unfold afterPass
  split
  · exact hcalm
  · rename_i hnone
    rw [ne_eq, not_not] at hnone
    split
    · exact ⟨hcalm, hnone⟩
    · split
      · exact ⟨hcalm, hnone⟩
      · exact hcalm

theorem beginning (h : Roll acts l) (hcalm : Calm acts) (now : Instant) :
    Roll (acts ++ (l.stepBeginning t s now).2) (l.stepBeginning t s now).1 := by
  unfold stepBeginning tell
  dsimp only
  split
  · rename_i failure hreply
    rw [hreply]
    exact h.givesUp hcalm rfl rfl
  · rename_i hreply
    exact h.onward hcalm (by simpa using Act.plain_prepared rfl hreply) rfl id

theorem looking (h : Roll acts l) (hcalm : Calm acts) (now : Instant) (r : RateLimit) :
    Roll (acts ++ (l.stepLooking t s now r).2) (l.stepLooking t s now r).1 :=
  h.onward hcalm (by simpa [stepLooking, tell, Desk.handle] using Act.plain_prepared rfl (by simp))
    rfl id

theorem deferring (h : Roll acts l) (hcalm : Calm acts) (now : Instant) (rest : List Deferral)
    (orders : List Order) (p : Pass) : Roll (acts ++ (l.stepDeferring t s now rest orders p).2)
      (l.stepDeferring t s now rest orders p).1 := by
  cases rest with
  | nil => exact h.onward hcalm (by simp [stepDeferring]) rfl id
  | cons d rest =>
    unfold stepDeferring tell
    dsimp only
    split
    · rename_i failure hreply
      rw [hreply]
      exact h.givesUp hcalm rfl rfl
    · rename_i hreply
      exact h.onward hcalm (by simpa using Act.plain_prepared rfl hreply) rfl id

theorem dispatching (h : Roll acts l) (hcalm : Calm acts) (now : Instant) (rest : List Order)
    (p : Pass) : Roll (acts ++ (l.stepDispatching t s now rest p).2)
      (l.stepDispatching t s now rest p).1 := by
  cases rest with
  | nil => exact h.onward hcalm (by simp [stepDispatching]) rfl (stage_afterPass p)
  | cons o rest =>
    unfold stepDispatching tell
    dsimp only
    split
    · rename_i ticket hreply
      rw [hreply]
      exact h.starts hcalm rfl fun hc => hc
    · rename_i failure hreply
      rw [hreply]
      have hplain : (Act.told (.dispatch o) (.refused failure)).Plain :=
        Act.plain_dispatch (by simp)
      split
      · exact h.onward hcalm (by simp [hplain, Act.plain_stopped]) rfl id
      · exact h.onward hcalm (by simp [hplain]) rfl id
    · rename_i hticket _
      exact h.onward hcalm (by simpa using Act.plain_dispatch hticket) rfl id

theorem draining (h : Roll acts l) {first cause : Option Failure}
    (hphase : l.phase = .draining first cause) :
    Roll (acts ++ (l.stepDraining first cause).2) (l.stepDraining first cause).1 := by
  have hcalm : Calm acts := by simpa only [Stage, hphase] using h.stage
  unfold stepDraining
  split
  · exact h.same (by simp) rfl rfl
  · rename_i hnone
    rw [ne_eq, not_not] at hnone
    have hfails : ∀ failure, (l.failWith failure).Stage (acts ++ []) := by
      intro failure
      rw [List.append_nil]
      exact ⟨fun _ => hnone, fun _ => hcalm.noneDropped⟩
    split
    · exact h.onward hcalm (by simp) rfl fun _ => hfails _
    · split
      · exact h.onward hcalm (by simp) rfl fun _ => hfails _
      · exact h.onward hcalm (by simp) rfl fun hc => ⟨hc, hnone⟩
    · exact h.onward hcalm (by simp) rfl fun hc => ⟨hc, hnone⟩

theorem flushing (h : Roll acts l) {halt : Halt} (hphase : l.phase = .flushing halt)
    (now : Instant) :
    Roll (acts ++ (l.stepFlushing t s now halt).2) (l.stepFlushing t s now halt).1 := by
  obtain ⟨hcalm, hnone⟩ : Calm acts ∧ l.flights = [] := by
    simpa only [Stage, hphase] using h.stage
  have hplain : ∀ reply, ∀ a ∈ [Act.told .flush reply], a.Plain := by
    simp [Act.plain_flush]
  unfold stepFlushing tell
  dsimp only
  split
  · exact h.onward hcalm (hplain _) rfl fun hc => ⟨fun _ => hnone, fun _ => hc.noneDropped⟩
  · exact h.onward hcalm (hplain _) rfl fun hc => ⟨hc, hnone⟩

/-- The loop's own next step keeps the roll. -/
theorem proceed (h : Roll acts l) (now : Instant) (r : RateLimit) :
    Roll (acts ++ (l.proceed t s now r).2) (l.proceed t s now r).1 := by
  have hstage := h.stage
  unfold Stage at hstage
  unfold Loop.proceed
  cases hphase : l.phase with
  | top =>
    rw [hphase] at hstage
    dsimp only
    unfold stepTop
    split
    · exact h.onward hstage (by simp) rfl id
    · obtain ⟨hflights, -, hplain⟩ := merge_plain l s
      exact h.onward hstage hplain hflights id
  | beginning =>
    rw [hphase] at hstage
    exact h.beginning hstage now
  | looking =>
    rw [hphase] at hstage
    exact h.looking hstage now r
  | deferring rest orders p =>
    rw [hphase] at hstage
    exact h.deferring hstage now rest orders p
  | dispatching rest p =>
    rw [hphase] at hstage
    exact h.dispatching hstage now rest p
  | sleeping =>
    rw [hphase] at hstage
    exact h.onward hstage (by simp) rfl id
  | waiting =>
    rw [hphase] at hstage
    dsimp only
    split
    · exact h.onward hstage (by simp) rfl id
    · exact h.same (by simp) rfl rfl
  | draining first cause => exact h.draining hphase
  | flushing halt => exact h.flushing hphase now
  | ended => exact h.same (by simp) rfl rfl

/-- The result of a worker keeps the roll, in whatever phase it comes. -/
theorem finished (h : Roll acts l) (workerId : String) (result : Except Failure Outcome)
    (now : Instant) : Roll (acts ++ (l.finished t s workerId result now).2)
      (l.finished t s workerId result now).1 := by
  have hstage := h.stage
  unfold Stage at hstage
  unfold Loop.finished
  split
  · rename_i f hphase hfind
    rw [hphase] at hstage
    have hf : f ∈ l.flights := List.mem_of_find?_eq_some hfind
    obtain ⟨⟨reply, hacts⟩, hflights, -⟩ := settle_landed l t s f result now
    generalize l.settle t s f result now = r at hacts hflights
    obtain ⟨failure?, l', new⟩ := r
    cases hacts
    cases failure? with
    | none => exact h.lands hstage hf (by simp) hflights fun _ hc => hc
    | some failure =>
      exact h.lands hstage hf (by simp [Act.plain_stopped]) hflights fun _ hc => hc
  · rename_i first cause f hphase hfind
    rw [hphase] at hstage
    have hf : f ∈ l.flights := List.mem_of_find?_eq_some hfind
    obtain ⟨⟨reply, hacts⟩, hflights, -⟩ := settle_landed l t s f result now
    rw [hacts]
    exact h.lands hstage hf (by simp) hflights fun _ hc => hc
  · exact h.same (by simp) rfl rfl

/-- **Every step keeps the roll**, whatever comes to the loop. -/
theorem step (h : Roll acts l) (e : Event σ) :
    Roll (acts ++ (l.step t s e).2) (l.step t s e).1 := by
  cases e with
  | proceed now r => exact h.proceed now r
  | finished workerId result now => exact h.finished workerId result now
  | message message now =>
    exact h.same (by simp [Loop.step, Act.plain_message]) rfl rfl
  | cancel => exact h.same (by simp [Loop.step]) rfl rfl
  | graceOver =>
    simp only [Loop.step]
    split
    · rename_i hphase
      refine h.same ?_ rfl rfl
      split <;> simp [Act.plain_stopped]
    · exact h.same (by simp) rfl rfl
  | world => exact h.same (by simp [Loop.step]) rfl rfl

/-- **So does every run.** -/
theorem run (h : Roll [] l) (events : List (Event σ)) :
    Roll (l.run t s events).2 (l.run t s events).1 := by
  induction events using List.reverseRecOn with
  | nil => exact h
  | append_singleton events e ih =>
    rw [run_append_singleton]
    exact ih.step e

end Roll
end Loop

/-! ## 4. What a run that has ended leaves behind

At the end the flights are those that were dropped. -/

/-- **A run that has ended has handed in an outcome for each worker it started exactly if it never
gave up while a worker was in flight.**  Whatever came to the run, and whichever writes failed:

* the workers it started are, one by one, those it settled exactly if at each refusal at which it
  was given up each worker started so far had been settled;
* a run that ends well has always settled each worker it started. -/
theorem crew_settled_iff {σ : Type} {t : Terms} {s : Surroundings σ} (world : σ) (desk : Desk)
    (events : List (Event σ)) {result : Except Failure Summary}
    (hended : ((Loop.opened world desk).run t s events).1.result? = some result) :
    ((started ((Loop.opened world desk).run t s events).2).Perm
        (settled ((Loop.opened world desk).run t s events).2) ↔
      NoneDropped ((Loop.opened world desk).run t s events).2) ∧
    (∀ summary, result = .ok summary →
      (started ((Loop.opened world desk).run t s events).2).Perm
        (settled ((Loop.opened world desk).run t s events).2)) := by
  have hroll := (Loop.Roll.opened world desk).run (t := t) (s := s) events
  generalize (Loop.opened world desk).run t s events = r at hroll hended
  obtain ⟨l, acts⟩ := r
  have hphase := Loop.phase_of_result? hended
  have hstage := hroll.stage
  unfold Loop.Stage at hstage
  rw [hphase] at hstage
  dsimp only
  rw [Loop.started_perm_settled_iff hroll.crew]
  cases result with
  | error failure => exact ⟨hstage.symm, fun _ h => by cases h⟩
  | ok summary =>
    obtain ⟨hcalm, hnone⟩ := hstage
    exact ⟨iff_of_true hnone hcalm.noneDropped, fun _ _ => hnone⟩

/-! ## 5. A crew that is settled, and one that is dropped

Both runs end with an error.  The first cannot write what its second dispatch did, and drains before
it ends; the second cannot open a pass, and does not. -/

namespace Sample

/-- Two tasks that do not touch each other. -/
def pairDesk : Desk where
  kanban := { tasks := [{ id := "T-1", footprint := ["a"] }, { id := "T-2", footprint := ["b"] }] }
  state := {}

def pairTerms : Terms := { terms with limit := 2 }

/-- The world is what keeps the documents from being written. -/
def failing : Surroundings Faults where
  faults f := f
  carryOut f _ := f
  merger := none

def next : Event Faults := .proceed noon .available

/-- From now on the state cannot be put in place. -/
def jam : Event Faults := .world { commit := some "Is a directory (os error 21)" }

/-- The worker of a task that was started at noon has a result. -/
def lands (taskId : String) (result : Except Failure Outcome) : Event Faults :=
  .finished ("worker-" ++ taskId ++ "-1728043200") result noon

/-- The second dispatch fails, and the loop waits for the first worker before it ends. -/
def aborted : List (Event Faults) :=
  [next, next, next, next, next, jam, next, lands "T-1" (.ok (.cancelled none)), next]

/-- Both workers are started; one is done, and then no pass can be opened. -/
def givenUp : List (Event Faults) :=
  [next, next, next, next, next, next, next,
    lands "T-1" (.ok (.succeeded "done" none true ⟨0⟩)), jam, next, next]

/-- A run of the pair. -/
def playPair (events : List (Event Faults)) : Loop.Step Faults :=
  (Loop.opened {} pairDesk).run pairTerms failing events

/-- The failure the jam leads to. -/
def jammed : Failure := .statePersistence "Is a directory (os error 21)"

end Sample

/-- A run that is halted by a failing dispatch settles the worker that is in flight. -/
theorem aborted_crew_settled :
    (Sample.playPair Sample.aborted).1.result? = some (.error Sample.jammed) ∧
      Calm (Sample.playPair Sample.aborted).2 ∧
      started (Sample.playPair Sample.aborted).2 = ["worker-T-1-1728043200"] ∧
      (started (Sample.playPair Sample.aborted).2).Perm
        (settled (Sample.playPair Sample.aborted).2) := by
  have hended : (Sample.playPair Sample.aborted).1.result? = some (.error Sample.jammed) := by
    decide +kernel
  have hcalm : Calm (Sample.playPair Sample.aborted).2 := by
    unfold Calm
    decide +kernel
  have hcrew := crew_settled_iff (t := Sample.pairTerms) (s := Sample.failing) {} Sample.pairDesk
    Sample.aborted hended
  exact ⟨hended, hcalm, by decide +kernel, hcrew.1.mpr hcalm.noneDropped⟩

/-- **A run that cannot open a pass drops the worker that is in flight.**  No outcome is ever handed
in for it, and it counts as active when the run is over. -/
theorem given_up_crew_dropped :
    (Sample.playPair Sample.givenUp).1.result? = some (.error Sample.jammed) ∧
      started (Sample.playPair Sample.givenUp).2 =
        ["worker-T-1-1728043200", "worker-T-2-1728043200"] ∧
      settled (Sample.playPair Sample.givenUp).2 = ["worker-T-1-1728043200"] ∧
      (Sample.playPair Sample.givenUp).1.desk.state.activeCount = 1 := by
  refine ⟨?_, ?_, ?_, ?_⟩ <;> decide +kernel

end Run
end Foreman

/-
# What a move does to one task

Three things decide how a task goes on: its status in the backlog, the attempts that are remembered
of it, and whether it has an active worker.  `Books.standing` reads them off the documents, and
`Turn` lists everything a move can do to them: nothing, or one of

* an attempt starts;
* the attempt ends, with what the outcome makes of the task;
* the task is reset;
* a restart takes the worker away, or finds the task in progress without one.

`Books.turn_after` says that there is nothing else.

`Turn` carries with each case what is known where it happens: an attempt starts only at a task
that nobody works on, and only the outcome of the active worker ends it.  What is proved of
single tasks, such as the budget of their attempts, goes by the cases of `Turn` and never opens
a move.
-/
import Foreman.Proofs.History.Tidy

namespace Foreman

/-! ## 1. Standings

What is read off the documents of one task, and the four ways in which it can change. -/

/-- The status of the task in the backlog. -/
def Kanban.statusOf? (k : Kanban) (taskId : String) : Option TaskStatus :=
  (k.find? taskId).map Task.status

/-- How a task stands. -/
structure Standing where
  /-- There may be no such task. -/
  status : Option TaskStatus
  attempts : Nat
  active : Bool
deriving DecidableEq, Repr

/-- How the task stands in the documents. -/
def Books.standing (b : Books) (taskId : String) : Standing where
  status := b.kanban.statusOf? taskId
  attempts := (b.state.resumeOf taskId).attempts
  active := b.state.hasActiveWorker taskId

/-- How many attempts an outcome costs. -/
def Outcome.cost : Outcome → Nat
  | .retryable .. => 1
  | _ => 0

namespace Standing

/-- An attempt starts. -/
def started (x : Standing) : Standing := { x with status := some .inProgress, active := true }

/-- The attempt ends. -/
def settled (x : Standing) (outcome : Outcome) (retry : Config.Retry) : Standing where
  status := some (State.verdict outcome (x.attempts + outcome.cost) retry).1
  attempts := x.attempts + outcome.cost
  active := false

/-- A restart leaves or takes away the worker, and a task in progress without one goes back. -/
def restarted (x : Standing) (stays : Bool) : Standing where
  status := if x.status = some .inProgress ∧ stays = false then some .pending else x.status
  attempts := x.attempts
  active := stays

end Standing

namespace Books

/-- The move is a dispatch that starts an attempt at the task. -/
def Starts (b : Books) (taskId : String) : Move → Bool
  | .dispatch o backend worktreeDir now =>
    o.taskId = taskId && (b.state.dispatch b.kanban o backend worktreeDir now).1.isOk
  | _ => false

/-- The restart finds a worker of the task without its process. -/
def Loses (b : Books) (taskId : String) (alive : Nat → Bool) : Prop :=
  ∃ w ∈ b.state.workers, w.taskId = taskId ∧ State.isLost alive w = true

/-- What a move can do to a task. -/
inductive Turn (b : Books) (taskId : String) : Move → Standing → Prop
  /-- Nothing. -/
  | still {m : Move} : b.Starts taskId m = false → Turn b taskId m (b.standing taskId)
  /-- An attempt starts at a task that nobody works on. -/
  | started (o : Order) (backend worktreeDir : String) (now : Instant) : o.taskId = taskId →
      b.Starts taskId (.dispatch o backend worktreeDir now) = true →
      (b.standing taskId).active = false →
      Turn b taskId (.dispatch o backend worktreeDir now) (b.standing taskId).started
  /-- The attempt of its active worker ends. -/
  | settled (w : Worker) (outcome : Outcome) (retry : Config.Retry) (now : Instant) :
      w ∈ b.state.workers → w.taskId = taskId → (b.standing taskId).active = true →
      Turn b taskId (.settle w.id outcome retry now) ((b.standing taskId).settled outcome retry)
  /-- The task is reset. -/
  | forgotten : Turn b taskId (.reset taskId) ⟨some .pending, 0, false⟩
  /-- After a restart the worker is active if it was and is not lost. -/
  | restarted (alive : Nat → Bool) (stays : Bool) :
      (stays = true ↔ (b.standing taskId).active = true ∧ ¬ b.Loses taskId alive) →
      Turn b taskId (.restart alive) ((b.standing taskId).restarted stays)

end Books

/-! ## 2. What changes a standing

A move changes at most one task in each of the three things; a restart may change many tasks,
each by itself. -/

theorem Kanban.find?_map {k : Kanban} {f : Task → Task} (hf : ∀ t, (f t).id = t.id)
    (taskId : String) :
    Kanban.find? { k with tasks := k.tasks.map f } taskId = (k.find? taskId).map f := by
  have hid : ((fun t : Task => decide (t.id = taskId)) ∘ f) = fun t => decide (t.id = taskId) := by
    funext t
    rw [Function.comp_apply, hf]
  rw [find?, find?, List.find?_map, hid]

/-- In a list of tasks the first one of the identifier is set, and no other one is changed. -/
theorem Kanban.find?_withStatus? {taskId : String} {status : TaskStatus} {ts ts' : List Task}
    (h : withStatus? taskId status ts = some ts') (id : String) :
    (ts'.find? fun t => t.id = id).map Task.status =
      if id = taskId then some status else (ts.find? fun t => t.id = id).map Task.status := by
  induction ts generalizing ts' with
  | nil => exact absurd h (by simp [withStatus?])
  | cons t ts ih =>
    rw [withStatus?] at h
    split at h
    · rename_i ht
      cases h
      by_cases hid : id = taskId
      · rw [if_pos hid, List.find?_cons_of_pos (by simp [ht, hid])]
        rfl
      · have hne : t.id ≠ id := fun e => hid (e.symm.trans ht)
        rw [if_neg hid, List.find?_cons_of_neg (by simpa using hne),
          List.find?_cons_of_neg (by simpa using hne)]
    · rename_i ht
      obtain ⟨rest, hrest, rfl⟩ := Option.map_eq_some_iff.mp h
      by_cases hid : t.id = id
      · have hne : id ≠ taskId := fun e => ht (hid.trans e)
        rw [if_neg hne, List.find?_cons_of_pos (by simpa using hid),
          List.find?_cons_of_pos (by simpa using hid)]
      · rw [List.find?_cons_of_neg (by simpa using hid), ih hrest,
          List.find?_cons_of_neg (by simpa using hid)]

/-- A status is set for one task, the first one of its identifier. -/
theorem Kanban.statusOf?_setStatus {k k' : Kanban} {taskId : String} {status : TaskStatus}
    (hset : k.setStatus taskId status = .ok k') (id : String) :
    k'.statusOf? id = if id = taskId then some status else k.statusOf? id := by
  unfold setStatus at hset
  split at hset
  · rename_i ts hts
    cases hset
    exact find?_withStatus? hts id
  · exact absurd hset (by simp)

theorem State.remember_attempts (r : Resume) (outcome : Outcome) (retry : Config.Retry)
    (now : Instant) : (remember r outcome retry now).attempts = r.attempts + outcome.cost := by
  cases outcome <;> rfl

namespace Books

variable {b : Books} {taskId : String}

/-- A standing is its three parts. -/
theorem standing_ext {x : Standing} (hstatus : b.kanban.statusOf? taskId = x.status)
    (hattempts : (b.state.resumeOf taskId).attempts = x.attempts)
    (hactive : b.state.hasActiveWorker taskId = x.active) : b.standing taskId = x := by
  rw [standing, hstatus, hattempts, hactive]

/-- A change that concerns one task. -/
theorem standing_change {c : Books} (id : String) (x : Standing)
    (hstatus : c.kanban.statusOf? taskId =
      if taskId = id then x.status else b.kanban.statusOf? taskId)
    (hattempts : (c.state.resumeOf taskId).attempts =
      if taskId = id then x.attempts else (b.state.resumeOf taskId).attempts)
    (hactive : c.state.hasActiveWorker taskId =
      if taskId = id then x.active else b.state.hasActiveWorker taskId) :
    c.standing taskId = if taskId = id then x else b.standing taskId := by
  rw [standing, hstatus, hattempts, hactive]
  split <;> rfl

/-- A quiet move passes every task by. -/
theorem standing_quiet {m : Move} (hm : m.Quiet) :
    (b.after m).standing taskId = b.standing taskId := by
  have hmoved := b.unmoved_after hm
  refine standing_ext (congrArg (Kanban.statusOf? · taskId) hmoved.kanban) ?_ ?_
  · cases m with
    | dispatch | settle | reset | restart => exact hm.elim
    | beginPass now =>
      have hnote := State.noteTasks_eq { b.state with tick := b.state.tick + 1 } b.kanban.tasks now
      simp only [after]
      rw [hnote]
      rfl
    | defer | markRunning => rfl
    | recordSession workerId sessionId =>
      exact Desk.noteSession_resumeOf Resume.attempts (fun _ _ => rfl) b.state workerId sessionId
        taskId
  · refine State.hasActiveWorker_eq_of_profiles ?_
    rw [State.map_profile_workersOf, State.map_profile_workersOf, hmoved.profiles]

/-! ## 3. One lemma a move

Each move is one of the cases, for every task: that of the task it is about, or nothing. -/

/-- A dispatch starts an attempt at its task, or nothing happens. -/
theorem turn_dispatch (htidy : Tidy b.kanban b.state) {o : Order} {backend worktreeDir : String}
    {now : Instant}
    (hfresh : b.Fresh (.dispatch o backend worktreeDir now)) (taskId : String) :
    b.Turn taskId (.dispatch o backend worktreeDir now)
      ((b.after (.dispatch o backend worktreeDir now)).standing taskId) := by
  have hend := State.dispatch_end b.state b.kanban o backend worktreeDir now
  simp only [Fresh, after] at hfresh ⊢
  generalize hr : b.state.dispatch b.kanban o backend worktreeDir now = r at hend hfresh
  -- a dispatch without a ticket starts nothing
  have hrefused : ∀ failure, r.1 = .error failure →
      b.Starts taskId (.dispatch o backend worktreeDir now) = false := by
    intro failure hfailure
    rw [Starts, hr, hfailure]
    exact Bool.and_false _
  cases hend with
  | unknown | busy => exact .still (hrefused _ rfl)
  | blocked task held =>
    exact .still (hrefused _ rfl)
  | started task k' hfind hidle hfree hset =>
    obtain ⟨htask, htaskId⟩ := Kanban.find?_mem hfind
    obtain ⟨-, hact⟩ :=
      htidy.launched hfind hidle (State.ne_of_launched_fresh hfresh) backend worktreeDir now
    have hresume : (b.state.launched task o backend worktreeDir now).2.resumeOf taskId =
        b.state.resumeOf taskId := by
      rw [State.resumeOf, State.launched_resume, State.resumeOf]
    rw [standing_change task.id (b.standing taskId).started
      (Kanban.statusOf?_setStatus hset taskId)
      ((congrArg Resume.attempts hresume).trans (ite_self _).symm) (hact taskId)]
    split
    · rename_i heq
      refine .started o backend worktreeDir now (htaskId.symm.trans heq.symm) ?_ (heq ▸ hidle)
      rw [Starts, hr, heq, htaskId]
      simp [Except.isOk, Except.toBool]
    · rename_i hne
      refine .still ?_
      rw [Starts, decide_eq_false (fun e => hne (e.symm.trans htaskId.symm)), Bool.false_and]

/-- An outcome ends the attempt of its task. -/
theorem turn_settle (htidy : Tidy b.kanban b.state) (hids : b.kanban.HasDistinctIds)
    {workerId : String} {outcome : Outcome} {retry : Config.Retry} {now : Instant}
    (hattended : b.Attended (.settle workerId outcome retry now)) (taskId : String) :
    b.Turn taskId (.settle workerId outcome retry now)
      ((b.after (.settle workerId outcome retry now)).standing taskId) := by
  obtain ⟨w, hw, rfl, hactive⟩ := hattended
  have hfind : b.state.worker? w.id = some w :=
    (State.worker?_eq_some_iff htidy.distinct).mpr ⟨hw, rfl⟩
  have htask := htidy.homed w hw
  have hset := Kanban.setStatus_eq_ok hids htask (b.state.verdictOn w outcome retry now).1
  obtain ⟨-, hact⟩ :=
    htidy.settled hfind (WorkerStatus.not_isTerminal_of_isActive hactive) outcome retry now
  have hattempts : (b.state.resumeAfter w outcome retry now).attempts =
      (b.state.resumeOf w.taskId).attempts + outcome.cost := by
    rw [State.resumeAfter, State.remember_attempts]
  simp only [after, State.settle_eq hfind hids htask]
  rw [standing_change w.taskId ((b.standing w.taskId).settled outcome retry)]
  · split
    · rename_i heq
      subst heq
      exact .settled w outcome retry now hw rfl
        (State.hasActiveWorker_iff.mpr ⟨w, hw, rfl, hactive⟩)
    · exact .still rfl
  · rw [Kanban.statusOf?_setStatus hset, State.verdictOn, hattempts]
    rfl
  · rw [State.settled_resumeOf, apply_ite Resume.attempts, hattempts]
    rfl
  · exact hact taskId

/-- A reset concerns its task, unless it is refused. -/
theorem turn_reset (htidy : Tidy b.kanban b.state) (id taskId : String) :
    b.Turn taskId (.reset id) ((b.after (.reset id)).standing taskId) := by
  cases hreset : b.state.reset b.kanban id with
  | error => simpa only [after, hreset] using .still rfl
  | ok r =>
    obtain ⟨s, k'⟩ := r
    obtain ⟨t, hfind, -, hset, rfl⟩ := State.reset_eq_ok hreset
    obtain ⟨-, hact⟩ := htidy.forgotten id
    have hresume : (b.state.forget id).resumeOf taskId =
        if taskId = id then {} else b.state.resumeOf taskId := by
      rw [State.resumeOf, State.forget_eq, State.abandonAll_resume, Table.get?_erase]
      split <;> rfl
    simp only [after, hreset]
    rw [standing_change id ⟨some .pending, 0, false⟩
      (Kanban.statusOf?_setStatus hset taskId)
      ((congrArg Resume.attempts hresume).trans (apply_ite _ _ _ _)) (hact taskId)]
    split
    · rename_i heq
      exact heq ▸ .forgotten
    · exact .still rfl

/-- A restart concerns every task. -/
theorem turn_restart (htidy : Tidy b.kanban b.state) (alive : Nat → Bool) (taskId : String) :
    b.Turn taskId (.restart alive) ((b.after (.restart alive)).standing taskId) := by
  obtain ⟨-, hact⟩ := htidy.restored alive
  have htasks := b.state.restoreLiveness_tasks b.kanban.tasks alive
  have hafter : (b.after (.restart alive)).standing taskId = (b.standing taskId).restarted
      ((b.state.abandonAll (b.state.workers.filter (State.isLost alive))).hasActiveWorker
        taskId) := by
    refine standing_ext ?_ ?_ rfl
    · simp only [after, htasks]
      rw [Kanban.statusOf?, Kanban.find?_map (State.returned_id _), Standing.restarted]
      have hstatus : (b.standing taskId).status = (b.kanban.find? taskId).map Task.status := rfl
      cases hfind : b.kanban.find? taskId with
      | none => simp [hstatus, hfind]
      | some t =>
        rw [hstatus, hfind, Option.map_some, Option.map_some, Option.map_some, State.returned,
          (Kanban.find?_mem hfind).2]
        simp only [Option.some.injEq, Bool.not_eq_true]
        split <;> rfl
    · simp only [after, State.resumeOf]
      exact congrArg (fun r : Table Resume => ((r.get? taskId).getD {}).attempts)
        (State.abandonAll_resume _ _)
  rw [hafter]
  refine .restarted alive _ ((hact taskId).trans (and_congr_right fun _ => ?_))
  constructor
  · rintro hnone ⟨w, hw, hwt, hlost⟩
    exact hnone w (List.mem_filter.mpr ⟨hw, hlost⟩) hwt
  · intro hnone w hw hwt
    obtain ⟨hw, hlost⟩ := List.mem_filter.mp hw
    exact hnone ⟨w, hw, hwt, hlost⟩

/-- **There is nothing else that a move can do to a task.** -/
theorem turn_after (htidy : Tidy b.kanban b.state) (hids : b.kanban.HasDistinctIds) {m : Move}
    (hattended : b.Attended m) (hfresh : b.Fresh m) (taskId : String) :
    b.Turn taskId m ((b.after m).standing taskId) := by
  have hquiet : m.Quiet → b.Starts taskId m = false →
      b.Turn taskId m ((b.after m).standing taskId) := fun hm hstarts => by
    rw [standing_quiet hm]
    exact .still hstarts
  cases m with
  | beginPass | defer | markRunning | recordSession => exact hquiet trivial rfl
  | dispatch => exact turn_dispatch htidy hfresh taskId
  | settle => exact turn_settle htidy hids hattended taskId
  | reset id => exact turn_reset htidy id taskId
  | restart alive => exact turn_restart htidy alive taskId

end Books
end Foreman

/-
# What is taken from a document

A reader goes through the entries of a mapping and keeps what it knows.  A field of its draft is
there exactly if an entry has its name, and then it is what that entry says.

* `eq_of_takeText` to `eq_of_takeInstant`: what is taken of a node that says something.
* `takeField_taken`: what one entry does.
* `Tracks.found`, `Tracks.source`: a field of the draft after all entries, and where it comes from.
* `fits_of_ofDocument`: a backlog that was loaded is one that a document can hold.

The draft is followed entry by entry.  An entry changes one field of it at most, and a field
that is there is not taken a second time, so in the end each field comes from one entry.
-/
import Foreman.Proofs.Kanban.Document
import Foreman.Proofs.Yaml.Data

namespace Foreman
namespace Kanban

open Yaml Data

variable {d : Yaml.Document} {n : Yaml} {x : Data} {s w : String} {f f' : Draft} {e : Yaml × Yaml}

/-! ## 1. Single nodes

A node says something if it is a scalar, a list or a mapping of the kind that is asked for. -/

/-- Both parts of what was taken in two steps. -/
theorem of_bind_eq_ok {α β : Type} {take : Taking α} {g : α → Taking β} {b : β}
    (h : take >>= g = .ok b) : ∃ a, take = .ok a ∧ g a = .ok b := by
  cases take with
  | error r => cases h
  | ok a => exact ⟨a, rfl, h⟩

theorem orMalformed_eq_ok {α : Type} {o : Option α} {a : α} (h : orMalformed o = .ok a) :
    o = some a := by
  cases o with
  | none => cases h
  | some b =>
    cases h
    rfl

theorem takeText_scalar (h : takeText d n = .ok s) :
    ∃ tag style, d.follow n = .scalar s tag style := by
  unfold takeText at h
  split at h
  · rename_i hn
    cases h
    exact ⟨_, _, hn⟩
  · cases h

theorem eq_of_takeText (h : takeText d n = .ok s) (hn : Says d n (.text w)) : s = w := by
  obtain ⟨tag, style, hfollow⟩ := takeText_scalar h
  exact (ofScalar_eq_text (says_of_scalar hn hfollow).symm).1.symm

theorem eq_of_takeOptional {o : Option String} (h : takeOptional d n = .ok o)
    (hn : Says d n (.text w)) : o = some w := by
  unfold takeOptional at h
  split at h
  · rename_i s tag style hfollow
    obtain ⟨rfl, htag⟩ := ofScalar_eq_text (says_of_scalar hn hfollow).symm
    have hnull : isNull w tag style = .ok false := by
      unfold isNull
      split
      · rfl
      · rcases htag with ⟨rfl, hplain⟩ | rfl
        · exact congrArg Except.ok (isNullWord_eq_false (hplain (not_not.mp ‹_›)))
        · exact if_pos (by decide)
    rw [hnull] at h
    cases h
    rfl
  · cases h

theorem eq_of_takeTexts {texts texts' : List String} (h : takeTexts d n = .ok texts)
    (hn : Says d n (.sequence (texts'.map .text))) : texts = texts' := by
  unfold takeTexts at h
  split at h
  · rename_i items hfollow
    obtain ⟨xs, hxs, hitems⟩ := says_of_sequence hn hfollow
    cases hxs
    rw [List.forall₂_map_right_iff] at hitems
    have hsame : List.Forall₂ Eq texts texts' :=
      forall₂_of_common (mapM_eq_ok_iff.mp h) hitems fun _ _ _ => eq_of_takeText
    rwa [List.forall₂_eq_eq_eq] at hsame
  · rename_i hfollow
    exact absurd (says_of_scalar hn hfollow).symm (ofScalar_ne_sequence _)
  · cases h

theorem takeInteger_eq_ok {k m : Int} (h : takeInteger k = .ok m) :
    m = k ∧ -(Text.half64 : Int) ≤ m ∧ m < Text.half64 := by
  unfold takeInteger at h
  split at h
  · cases h
    exact ⟨rfl, ‹_›⟩
  · cases h

theorem eq_of_takePriority {m i : Int} (h : takePriority d n = .ok m)
    (hn : Says d n (.integer i)) : m = i := by
  unfold takePriority at h
  split at h
  · rename_i s style hfollow
    obtain ⟨hvalue, ⟨-, rfl⟩ | htag⟩ := ofScalar_eq_integer (says_of_scalar hn hfollow).symm
    · rw [if_pos rfl, takePlainPriority, hvalue] at h
      exact (takeInteger_eq_ok h).1
    · cases htag
  · rename_i s tag style hfollow
    obtain ⟨hvalue, ⟨htag, -⟩ | htag⟩ := ofScalar_eq_integer (says_of_scalar hn hfollow).symm
    · cases htag
    · cases htag
      have hint : tagOf (.integer i) = intTag := rfl
      have hown : (ownTag? (some intTag)).isSome = false := by decide
      rw [hint, hown, if_neg Bool.false_ne_true, if_pos rfl, hvalue] at h
      exact (takeInteger_eq_ok h).1
  · cases h

theorem eq_of_takeInstant {o : Option Instant} {time : Instant} (h : takeInstant d n = .ok o)
    (hn : Says d n (.text (Rfc3339.write time))) (htime : time.IsWritable) : o = some time := by
  obtain ⟨w, hoptional, hread⟩ := of_bind_eq_ok h
  obtain rfl := eq_of_takeOptional hoptional hn
  obtain ⟨time', htime', hsome⟩ := of_bind_eq_ok hread
  have hsame : Rfc3339.read? (Rfc3339.write time) = some time :=
    (Rfc3339.read?_write_iff htime.1).mpr htime.2
  rw [orMalformed_eq_ok htime'] at hsame
  cases hsame
  exact (Except.ok.inj hsome).symm

/-! ## 2. Entries

One entry, by its name. -/

/-- What the value of an entry does to the draft of a task, by its key. -/
inductive Taken (d : Yaml.Document) (f : Draft) (v : Yaml) : String → Draft → Prop
  | id {a} (hnew : f.id = none) (h : takeText d v = .ok a) :
      Taken d f v "id" { f with id := some a }
  | title {a} (hnew : f.title = none) (h : takeText d v = .ok a) :
      Taken d f v "title" { f with title := some a }
  | status {a} (hnew : f.status = none) (h : takeStatus d v = .ok a) :
      Taken d f v "status" { f with status := some a }
  | priority {a} (hnew : f.priority = none) (h : takePriority d v = .ok a) :
      Taken d f v "priority" { f with priority := some a }
  | dependencies {a} (hnew : f.dependencies = none) (h : takeTexts d v = .ok a) :
      Taken d f v "dependencies" { f with dependencies := some a }
  | footprint {a} (hnew : f.footprint = none) (h : takeTexts d v = .ok a) :
      Taken d f v "footprint" { f with footprint := some a }
  | plan {a} (hnew : f.plan = none) (h : takeOptional d v = .ok a) :
      Taken d f v "plan" { f with plan := some a }
  | parent {a} (hnew : f.parent = none) (h : takeOptional d v = .ok a) :
      Taken d f v "parent" { f with parent := some a }
  | description {a} (hnew : f.description = none) (h : takeOptional d v = .ok a) :
      Taken d f v "description" { f with description := some a }
  | created {a} (hnew : f.created = none) (h : takeInstant d v = .ok a) :
      Taken d f v "created" { f with created := some a }
  | unknown {key} (h : key ∉ Task.fieldNames) : Taken d f v key f

theorem once_eq_ok {α : Type} {seen o : Option α} {take : Taking α} (h : once seen take = .ok o) :
    seen = none ∧ ∃ a, take = .ok a ∧ o = some a := by
  cases seen with
  | some a => cases h
  | none =>
    cases take with
    | error r => cases h
    | ok a =>
      cases h
      exact ⟨rfl, a, rfl, rfl⟩

/-- A field that is new is put into the draft. -/
theorem once_bind_eq_ok {α β : Type} {seen : Option α} {take : Taking α} {g : Option α → β} {b : β}
    (h : (do return g (← once seen take)) = (.ok b : Taking β)) :
    seen = none ∧ ∃ a, take = .ok a ∧ b = g (some a) := by
  obtain ⟨o, honce, hb⟩ := of_bind_eq_ok h
  obtain ⟨hnew, a, htake, rfl⟩ := once_eq_ok honce
  exact ⟨hnew, a, htake, (Except.ok.inj hb).symm⟩

theorem takeField_taken (h : takeField d f e = .ok f') :
    ∃ key, takeText d e.1 = .ok key ∧ Taken d f e.2 key f' := by
  obtain ⟨key, hkey, h⟩ := of_bind_eq_ok h
  refine ⟨key, hkey, ?_⟩
  split at h
  · obtain ⟨hnew, a, htake, rfl⟩ := once_bind_eq_ok h
    exact .id hnew htake
  · obtain ⟨hnew, a, htake, rfl⟩ := once_bind_eq_ok h
    exact .title hnew htake
  · obtain ⟨hnew, a, htake, rfl⟩ := once_bind_eq_ok h
    exact .status hnew htake
  · obtain ⟨hnew, a, htake, rfl⟩ := once_bind_eq_ok h
    exact .priority hnew htake
  · obtain ⟨hnew, a, htake, rfl⟩ := once_bind_eq_ok h
    exact .dependencies hnew htake
  · obtain ⟨hnew, a, htake, rfl⟩ := once_bind_eq_ok h
    exact .footprint hnew htake
  · obtain ⟨hnew, a, htake, rfl⟩ := once_bind_eq_ok h
    exact .plan hnew htake
  · obtain ⟨hnew, a, htake, rfl⟩ := once_bind_eq_ok h
    exact .parent hnew htake
  · obtain ⟨hnew, a, htake, rfl⟩ := once_bind_eq_ok h
    exact .description hnew htake
  · obtain ⟨hnew, a, htake, rfl⟩ := once_bind_eq_ok h
    exact .created hnew htake
  -- no name of a field: the entry is passed over, if its node is sound
  · split at h
    · cases h
      refine .unknown ?_
      simp only [Task.fieldNames, List.mem_cons, List.not_mem_nil, or_false, not_or]
      and_intros <;> assumption
    · cases h

/-! ## 3. A field after all entries

By induction on the entries, with the draft that was made so far. -/

/-- A step puts what it takes from the entry of this name into the field, and leaves the field
alone at any other entry. -/
def Tracks {σ α : Type} (d : Yaml.Document) (step : σ → Yaml × Yaml → Taking σ) (name : String)
    (get : σ → Option α) (take : Yaml → Taking α) : Prop :=
  ∀ ⦃f e f'⦄, step f e = .ok f' → ∃ key, takeText d e.1 = .ok key ∧
    (key = name ∧ get f = none ∧ (∃ a, take e.2 = .ok a ∧ get f' = some a) ∨
      key ≠ name ∧ get f' = get f)

namespace Tracks

variable {σ α : Type} {step : σ → Yaml × Yaml → Taking σ} {name : String} {get : σ → Option α}
  {take : Yaml → Taking α} {g g' : σ} {entries : List (Yaml × Yaml)}

/-- A field that is there stays. -/
theorem kept (h : Tracks d step name get take) (hfold : entries.foldlM step g = .ok g') {a : α}
    (ha : get g = some a) : get g' = some a := by
  induction entries generalizing g with
  | nil =>
    cases hfold
    exact ha
  | cons e entries ih =>
    rw [List.foldlM_cons] at hfold
    obtain ⟨g₁, hstep, hrest⟩ := of_bind_eq_ok hfold
    obtain ⟨key, -, ⟨-, hnone, -⟩ | ⟨-, hsame⟩⟩ := h hstep
    · rw [hnone] at ha
      cases ha
    · exact ih hrest (hsame.trans ha)

/-- The entry of the name is taken. -/
theorem found (h : Tracks d step name get take) (hfold : entries.foldlM step g = .ok g')
    {e : Yaml × Yaml} (he : e ∈ entries) : ∃ key, takeText d e.1 = .ok key ∧
      (key = name → ∃ a, take e.2 = .ok a ∧ get g' = some a) := by
  induction entries generalizing g with
  | nil => cases he
  | cons e' entries ih =>
    rw [List.foldlM_cons] at hfold
    obtain ⟨g₁, hstep, hrest⟩ := of_bind_eq_ok hfold
    rcases List.mem_cons.mp he with rfl | he
    · obtain ⟨key, hkey, ⟨-, -, a, htake, ha⟩ | ⟨hne, -⟩⟩ := h hstep
      · exact ⟨key, hkey, fun _ => ⟨a, htake, h.kept hrest ha⟩⟩
      · exact ⟨key, hkey, fun hname => absurd hname hne⟩
    · exact ih hrest he

/-- Only an entry of the name gives the field. -/
theorem source (h : Tracks d step name get take) (hfold : entries.foldlM step g = .ok g')
    (hnone : get g = none) {a : α} (ha : get g' = some a) :
    ∃ e ∈ entries, takeText d e.1 = .ok name ∧ take e.2 = .ok a := by
  induction entries generalizing g with
  | nil =>
    cases hfold
    rw [hnone] at ha
    cases ha
  | cons e entries ih =>
    rw [List.foldlM_cons] at hfold
    obtain ⟨g₁, hstep, hrest⟩ := of_bind_eq_ok hfold
    obtain ⟨key, hkey, ⟨rfl, -, b, htake, hb⟩ | ⟨-, hsame⟩⟩ := h hstep
    · obtain rfl := Option.some.inj ((h.kept hrest hb).symm.trans ha)
      exact ⟨e, List.mem_cons_self, hkey, htake⟩
    · obtain ⟨e', he', hmore⟩ := ih hrest (hsame.trans hnone)
      exact ⟨e', List.mem_cons_of_mem _ he', hmore⟩

end Tracks

/-- The draft of a task keeps what is taken for each of its fields. -/
structure FieldsTracked (d : Yaml.Document) : Prop where
  id : Tracks d (takeField d) "id" Draft.id (takeText d)
  title : Tracks d (takeField d) "title" Draft.title (takeText d)
  priority : Tracks d (takeField d) "priority" Draft.priority (takePriority d)
  dependencies : Tracks d (takeField d) "dependencies" Draft.dependencies (takeTexts d)
  footprint : Tracks d (takeField d) "footprint" Draft.footprint (takeTexts d)
  plan : Tracks d (takeField d) "plan" Draft.plan (takeOptional d)
  parent : Tracks d (takeField d) "parent" Draft.parent (takeOptional d)
  description : Tracks d (takeField d) "description" Draft.description (takeOptional d)
  created : Tracks d (takeField d) "created" Draft.created (takeInstant d)

theorem fieldsTracked (d : Yaml.Document) : FieldsTracked d := by
  constructor
  all_goals
    intro f e f' hstep
    obtain ⟨key, hkey, htaken⟩ := takeField_taken hstep
    refine ⟨key, hkey, ?_⟩
    cases htaken
    all_goals first
      | exact Or.inl ⟨rfl, ‹_›, _, ‹_›, rfl⟩
      | exact Or.inr ⟨by decide, rfl⟩
      | exact Or.inr ⟨fun hname => ‹key ∉ Task.fieldNames› (hname ▸ by decide), rfl⟩

/-- The tasks of the backlog are tracked as well. -/
theorem tracks_tasks : Tracks d (takeOutline d) "tasks" Prod.snd (takeTasks d) := by
  intro o e o' h
  obtain ⟨key, hkey, h⟩ := of_bind_eq_ok h
  refine ⟨key, hkey, ?_⟩
  split at h
  · obtain ⟨-, a, -, rfl⟩ := once_bind_eq_ok (g := (·, o.2)) h
    exact Or.inr ⟨by decide, rfl⟩
  · obtain ⟨hnew, a, htake, rfl⟩ := once_bind_eq_ok h
    exact Or.inl ⟨rfl, hnew, a, htake, rfl⟩
  · split at h
    · cases h
      exact Or.inr ⟨‹key = "tasks" → False›, rfl⟩
    · cases h

/-! ## 4. What is accepted can be written

So a backlog that was loaded can be saved, and is then loaded as it was. -/

theorem takeLevel_fits {m : Int} (h : takeLevel s = .ok m) :
    -(Text.half64 : Int) ≤ m ∧ m < Text.half64 := by
  unfold takeLevel at h
  split at h
  · rename_i hlevel
    cases h
    unfold Priority.ofLevel? at hlevel
    dsimp only at hlevel
    split_ifs at hlevel <;> cases hlevel <;> decide
  · cases h

theorem takePlainPriority_fits {m : Int} (h : takePlainPriority s = .ok m) :
    -(Text.half64 : Int) ≤ m ∧ m < Text.half64 := by
  unfold takePlainPriority at h
  split at h
  · exact (takeInteger_eq_ok h).2
  · exact takeLevel_fits h
  · cases h

theorem takePriority_fits {m : Int} (h : takePriority d n = .ok m) :
    -(Text.half64 : Int) ≤ m ∧ m < Text.half64 := by
  unfold takePriority at h
  split at h
  · split at h
    · exact takePlainPriority_fits h
    · exact takeLevel_fits h
  · split at h
    · cases h
    · split at h
      · split at h
        · exact (takeInteger_eq_ok h).2
        · cases h
      · split at h
        · cases h
        · exact takeLevel_fits h
  · cases h

theorem takeInstant_fits {o : Option Instant} (h : takeInstant d n = .ok o) :
    ∀ time ∈ o, time.IsWritable := by
  obtain ⟨w, -, h⟩ := of_bind_eq_ok h
  cases w with
  | none =>
    cases h
    exact fun _ => nofun
  | some s =>
    obtain ⟨time, hread, hsome⟩ := of_bind_eq_ok h
    cases hsome
    rintro _ ⟨⟩
    exact Rfc3339.isWritable_of_read? (orMalformed_eq_ok hread)

/-- The draft of a task, after the entries of its node. -/
theorem takeTask_eq_ok {t : Task} (h : takeTask d n = .ok t) :
    ∃ entries f, takeEntries d n = .ok entries ∧ entries.foldlM (takeField d) {} = .ok f ∧
      f.task? = some t := by
  obtain ⟨entries, hentries, h⟩ := of_bind_eq_ok h
  obtain ⟨f, hfold, h⟩ := of_bind_eq_ok h
  exact ⟨entries, f, hentries, hfold, orMalformed_eq_ok h⟩

theorem fits_of_takeTask {t : Task} (h : takeTask d n = .ok t) : t.Fits := by
  obtain ⟨entries, f, -, hfold, htask⟩ := takeTask_eq_ok h
  obtain ⟨id, -, rfl⟩ := Option.map_eq_some_iff.mp htask
  have hpriority : -(Text.half64 : Int) ≤ f.priority.getD 0 ∧ f.priority.getD 0 < Text.half64 := by
    cases hfield : f.priority with
    | none => decide
    | some m =>
      obtain ⟨e, -, -, htake⟩ := (fieldsTracked d).priority.source hfold rfl hfield
      exact takePriority_fits htake
  refine ⟨hpriority.1, hpriority.2, ?_⟩
  cases hfield : f.created with
  | none => simp
  | some o =>
    obtain ⟨e, -, -, htake⟩ := (fieldsTracked d).created.source hfold rfl hfield
    simpa using takeInstant_fits htake

theorem fits_of_takeTasks {ts : List Task} (h : takeTasks d n = .ok ts) : ∀ t ∈ ts, t.Fits := by
  unfold takeTasks at h
  split at h
  · intro t ht
    obtain ⟨item, -, htake⟩ := exists_of_forall₂ (mapM_eq_ok_iff.mp h).flip ht
    exact fits_of_takeTask htake
  · cases h
    exact List.forall_mem_nil _
  · cases h

/-- The outline of a backlog, after the entries of the document. -/
theorem ofTree_eq_ok {k : Kanban} (h : ofTree d = .ok k) :
    ∃ entries o, takeEntries d d.root = .ok entries ∧
      entries.foldlM (takeOutline d) (none, none) = .ok o ∧ k.tasks = o.2.getD [] := by
  obtain ⟨entries, hentries, h⟩ := of_bind_eq_ok h
  obtain ⟨o, hfold, h⟩ := of_bind_eq_ok h
  obtain ⟨version, -, h⟩ := of_bind_eq_ok h
  refine ⟨entries, o, hentries, hfold, ?_⟩
  split at h
  · cases h
    rfl
  · cases h

theorem ofDocument_eq_ok {path text : String} {k : Kanban} (h : ofDocument path text = .ok k) :
    ofTree (Yaml.read text) = .ok k ∧ k.schemaVersion = currentVersion ∧ k.HasDistinctIds := by
  unfold ofDocument at h
  split at h
  · cases h
  · rename_i k' hread
    split at h
    · cases h
    · split at h
      · cases h
      · cases h
        exact ⟨hread, not_not.mp ‹_›, (repeated?_eq_none_iff.mp ‹_›).1⟩

/-- **A backlog that was loaded is one that a document can hold.** -/
theorem fits_of_ofDocument {path text : String} {k : Kanban} (h : ofDocument path text = .ok k) :
    k.Fits := by
  obtain ⟨htree, hversion, hdistinct⟩ := ofDocument_eq_ok h
  obtain ⟨entries, o, -, hfold, htasks⟩ := ofTree_eq_ok htree
  refine ⟨hversion, hdistinct, ?_⟩
  rw [htasks]
  cases ho : o.2 with
  | none => exact List.forall_mem_nil _
  | some ts =>
    obtain ⟨e, -, -, htake⟩ := tracks_tasks.source hfold rfl ho
    exact fits_of_takeTasks htake

end Kanban
end Foreman

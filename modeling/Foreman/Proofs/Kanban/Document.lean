/-
# The backlog document, written and read

Whatever texts a backlog holds, its document is read back as the tree it was written from, and the
tree as the backlog.

* `read_document`: the tree of a document.
* `ofDocument_document`: the backlog of a document.
* `kanban_round_trip`: what is saved is loaded again.

The text is written by the scalar writer and read by the reader that `load` uses, so nothing is
left out between the two: styles, indentation, tokens and the tree each have a module of their
own under `Foreman.Proofs.Yaml`.  What is asked of a backlog is only that its identifiers are
distinct, as the reader refuses any other, and that its numbers and instants are of the kind a
document can hold.
-/
import Foreman.Kanban.Document
import Foreman.Proofs.Files.Write
import Foreman.Proofs.Kanban.Tasks
import Foreman.Proofs.Time.Rfc3339
import Foreman.Proofs.Yaml.Read
import Foreman.Proofs.Yaml.Scalar
import Mathlib.Data.List.Forall2

namespace Foreman

/-- A document can hold all of the task: the priority is an integer of 64 bits, and the stamp can
be written. -/
@[mk_iff] structure Task.Fits (t : Task) : Prop where
  low : -(Text.half64 : Int) ≤ t.priority
  high : t.priority < Text.half64
  created : ∀ time ∈ t.created, time.IsWritable

instance (t : Task) : Decidable t.Fits := decidable_of_iff' _ (Task.fits_iff t)

namespace Kanban

open Yaml Yaml.Scanner

/-- A backlog of this version, with tasks that a document can hold. -/
@[mk_iff] structure Fits (k : Kanban) : Prop where
  version : k.schemaVersion = currentVersion
  distinct : k.HasDistinctIds
  tasks : ∀ t ∈ k.tasks, t.Fits

instance (k : Kanban) : Decidable k.Fits := decidable_of_iff' _ (fits_iff k)

variable {d : Yaml.Document} {k : Kanban} {t : Task} {s : String} {f f' : Draft}

/-! ## 1. The tree of a backlog

The trees that are written here are of the simple form that `Foreman.Proofs.Yaml.Written` is
about. -/

/-- An entry that can be written. -/
def FitsEntry (e : Yaml × Yaml) : Prop := FitsKey e.1 ∧ FitsValue e.2

theorem fitsValue_ofText (s : String) : FitsValue (Yaml.ofText s) := .scalar (fitsStyle_styleOf s)

theorem fitsValue_texts (texts : List String) :
    FitsValue (.sequence (texts.map Yaml.ofText)) := by
  refine .sequence fun item hitem => ?_
  obtain ⟨s, -, rfl⟩ := List.mem_map.mp hitem
  exact .scalar (fitsStyle_styleOf s)

theorem fits_optionalField {name : String} (hname : FitsKey (Yaml.plain name)) (o : Option String) :
    ∀ e ∈ optionalField name o, FitsEntry e := by
  cases o with
  | none => exact List.forall_mem_nil _
  | some s => exact List.forall_mem_singleton.mpr ⟨hname, fitsValue_ofText s⟩

theorem fits_optionalList {name : String} (hname : FitsKey (Yaml.plain name))
    (texts : List String) :
    ∀ e ∈ optionalList name texts, FitsEntry e := by
  cases texts with
  | nil => exact List.forall_mem_nil _
  | cons s texts => exact List.forall_mem_singleton.mpr ⟨hname, fitsValue_texts (s :: texts)⟩

theorem fitsStyle_status (status : TaskStatus) : FitsStyle status.name .plain := by
  cases status <;> exact fitsStyle_word (List.all_eq_true.mp (by decide)) (by decide)

/-- The names of fields are words. -/
theorem fitsKey_name {name : String}
    (h : name ∈ ["schema_version", "tasks"] ∨ name ∈ Task.fieldNames) :
    FitsKey (Yaml.plain name) := by
  have hwords : ∀ name ∈ ["schema_version", "tasks"] ++ Task.fieldNames, name.toList ≠ [] ∧
      name.toList.length ≤ keyLimit ∧ name.toList.all isFieldChar = true := by decide
  obtain ⟨hne, hshort, hall⟩ := hwords name (List.mem_append.mpr h)
  exact ⟨name, rfl, hne, hshort, List.all_eq_true.mp hall⟩

theorem fitsItem_taskTree (t : Task) : FitsItem (taskTree t) := by
  have hkey : ∀ name ∈ Task.fieldNames, FitsKey (Yaml.plain name) :=
    fun _ h => fitsKey_name (Or.inr h)
  have hentries : ∀ e ∈ [(Yaml.plain "id", Yaml.ofText t.id),
      (Yaml.plain "title", Yaml.ofText t.title), (Yaml.plain "status", Yaml.plain t.status.name),
      (Yaml.plain "priority", Yaml.plain (toString t.priority))] ++
      optionalList "dependencies" t.dependencies ++ optionalList "footprint" t.footprint ++
      optionalField "plan" t.plan ++ optionalField "parent" t.parent ++
      optionalField "description" t.description ++
      optionalField "created" (t.created.map Rfc3339.write), FitsEntry e := by
    simp only [List.forall_mem_append, List.forall_mem_cons]
    refine ⟨⟨⟨⟨⟨⟨⟨⟨hkey _ ?_, fitsValue_ofText t.id⟩, ⟨hkey _ ?_, fitsValue_ofText t.title⟩,
      ⟨hkey _ ?_, .scalar (fitsStyle_status t.status)⟩,
      ⟨hkey _ ?_, .scalar (fitsStyle_toString t.priority)⟩, List.forall_mem_nil _⟩,
      fits_optionalList (hkey _ ?_) _⟩, fits_optionalList (hkey _ ?_) _⟩,
      fits_optionalField (hkey _ ?_) _⟩, fits_optionalField (hkey _ ?_) _⟩,
      fits_optionalField (hkey _ ?_) _⟩, fits_optionalField (hkey _ ?_) _⟩
    all_goals simp [Task.fieldNames]
  exact .mapping (by simp) (fun e he => (hentries e he).1) fun e he => (hentries e he).2

/-- **The document of a backlog is read back as its tree.** -/
theorem read_document (k : Kanban) : Yaml.read k.document = ⟨tree k, [], .last⟩ := by
  have hversion : FitsValue (Yaml.plain (toString k.schemaVersion)) :=
    .scalar (fitsStyle_toString k.schemaVersion)
  have htasks : FitsValue (.sequence (k.tasks.map taskTree)) := by
    refine .sequence fun item hitem => ?_
    obtain ⟨t, -, rfl⟩ := List.mem_map.mp hitem
    exact fitsItem_taskTree t
  refine read_write (List.cons_ne_nil _ _) ?_ ?_
  · exact List.forall_mem_cons.mpr ⟨fitsKey_name (Or.inl (by simp)),
      List.forall_mem_singleton.mpr (fitsKey_name (Or.inl (by simp)))⟩
  · exact List.forall_mem_cons.mpr ⟨hversion, List.forall_mem_singleton.mpr htasks⟩

/-! ## 2. Scalars and lists

What is taken of a written node is what was put in it. -/

theorem isNull_styleOf (s : String) : isNull s none (styleOf s) = .ok false := by
  unfold isNull
  split
  · rfl
  · rw [isNullWord_eq_false (plainValue_eq_text (not_not.mp ‹_›))]

@[simp] theorem takeOptional_ofText (s : String) :
    takeOptional d (Yaml.ofText s) = .ok (some s) := by
  have hnull : isNull s none (styleOf s) = .ok false := isNull_styleOf s
  simp only [takeOptional, Yaml.ofText, Document.follow, hnull]
  rfl

theorem takeInstant_write {time : Instant} (h : time.IsWritable) :
    takeInstant d (Yaml.ofText (Rfc3339.write time)) = .ok (some time) := by
  have hread : Rfc3339.read? (Rfc3339.write time) = some time :=
    (Rfc3339.read?_write_iff h.1).mpr h.2
  simp only [takeInstant, takeOptional_ofText, bind, Except.bind, hread, orMalformed, pure,
    Except.pure]

@[simp] theorem ok_bind {α β : Type} (a : α) (g : α → Taking β) : (Except.ok a >>= g) = g a := rfl

@[simp] theorem ok_map {α β : Type} (a : α) (g : α → β) :
    (g <$> (Except.ok a : Taking α)) = .ok (g a) := rfl

/-- The items of a list are taken one by one. -/
theorem mapM_eq_ok_iff {α β : Type} {g : α → Taking β} {xs : List α} {ys : List β} :
    xs.mapM g = .ok ys ↔ List.Forall₂ (fun x y => g x = .ok y) xs ys := by
  induction xs generalizing ys with
  | nil =>
    rw [List.forall₂_nil_left_iff]
    exact ⟨fun h => (Except.ok.inj h).symm, fun h => congrArg Except.ok h.symm⟩
  | cons x xs ih =>
    rw [List.mapM_cons, List.forall₂_cons_left_iff]
    cases hx : g x with
    | error r => simp [bind, Except.bind]
    | ok y =>
      cases hxs : xs.mapM g with
      | error r => simp [bind, Except.bind, ← ih, hxs]
      | ok zs => simp [pure, Except.pure, ← ih, hxs, eq_comm]

theorem mapM_eq_ok {α β : Type} {g : β → Taking α} {write : α → β} {xs : List α}
    (h : ∀ x ∈ xs, g (write x) = .ok x) : (xs.map write).mapM g = .ok xs :=
  mapM_eq_ok_iff.mpr (List.forall₂_map_left_iff.mpr (List.forall₂_same.mpr h))

@[simp] theorem takeTexts_map (texts : List String) :
    takeTexts d (.sequence (texts.map Yaml.ofText)) = .ok texts :=
  mapM_eq_ok fun _ _ => rfl

@[simp] theorem takeStatus_name (status : TaskStatus) :
    takeStatus d (Yaml.plain status.name) = .ok status := by
  simp only [takeStatus, Yaml.plain, Document.follow, ownTag?, TaskStatus.ofName?_name, orMalformed]

theorem takePriority_toString {n : Int} (hlow : -(Text.half64 : Int) ≤ n)
    (hhigh : n < Text.half64) :
    takePriority d (Yaml.plain (toString n)) = .ok n := by
  rw [takePriority, Yaml.plain]
  simp only [Document.follow, if_true, takePlainPriority, plainValue_toString hlow hhigh]
  exact if_pos ⟨hlow, hhigh⟩

theorem takeVersion_toString {n : Nat} (h : n < Text.bound32) :
    takeVersion d (Yaml.plain (toString n)) = .ok n := by
  simp [takeVersion, Yaml.plain, Document.follow, unsigned?_toDigits, h]

/-! ## 3. Tasks

A field is left out when it has no value, and then the reader takes its default. -/

/-- A list of texts as a draft holds it. -/
def listed : List String → Option (List String)
  | [] => none
  | texts => some texts

/-- What is read of a task's entries. -/
def draftOf (t : Task) : Draft where
  id := some t.id
  title := some t.title
  status := some t.status
  priority := some t.priority
  dependencies := listed t.dependencies
  footprint := listed t.footprint
  plan := t.plan.map some
  parent := t.parent.map some
  description := t.description.map some
  created := t.created.map some

theorem task?_draftOf (t : Task) : (draftOf t).task? = some t := by
  have hlist : ∀ texts, (listed texts).getD [] = texts := by
    intro texts
    cases texts <;> rfl
  have hfield : ∀ {α : Type} (o : Option α), (o.map some).getD none = o := by
    intro α o
    cases o <;> rfl
  simp [Draft.task?, draftOf, hlist, hfield]

@[simp] theorem takeText_plain (name : String) : takeText d (Yaml.plain name) = .ok name := rfl

@[simp] theorem takeText_ofText (s : String) : takeText d (Yaml.ofText s) = .ok s := rfl

@[simp] theorem once_none_ok {α : Type} (a : α) : once none (.ok a) = .ok (some a) := rfl

/-- Taking the entries leads from one draft to another. -/
def Takes (d : Yaml.Document) (f : Draft) (entries : List (Yaml × Yaml)) (f' : Draft) : Prop :=
  entries.foldlM (takeField d) f = .ok f'

theorem Takes.append {f'' : Draft} {es es' : List (Yaml × Yaml)} (h : Takes d f es f')
    (h' : Takes d f' es' f'') : Takes d f (es ++ es') f'' := by
  rw [Takes, List.foldlM_append, h]
  exact h'

theorem takes_optionalField {name : String} {o : Option String} (hnone : o = none → f = f')
    (hsome : ∀ s, o = some s → takeField d f (Yaml.plain name, Yaml.ofText s) = .ok f') :
    Takes d f (optionalField name o) f' := by
  cases o with
  | none => exact congrArg Except.ok (hnone rfl)
  | some s => simp [Takes, optionalField, hsome s rfl]

theorem takes_optionalList {name : String} {texts : List String} (hnil : texts = [] → f = f')
    (hcons : texts ≠ [] →
      takeField d f (Yaml.plain name, .sequence (texts.map Yaml.ofText)) = .ok f') :
    Takes d f (optionalList name texts) f' := by
  cases texts with
  | nil => exact congrArg Except.ok (hnil rfl)
  | cons s texts => simpa [Takes, optionalList] using hcons

/-- **The tree of a task is read as the task.** -/
theorem takeTask_taskTree (h : t.Fits) : takeTask d (taskTree t) = .ok t := by
  have hpriority : takePriority d (Yaml.plain (toString t.priority)) = .ok t.priority :=
    takePriority_toString h.low h.high
  have hlisted : ∀ texts : List String, texts ≠ [] → listed texts = some texts := by
    intro texts hne
    cases texts with
    | nil => exact absurd rfl hne
    | cons s texts => rfl
  -- the drafts before each of the fields that may be left out
  let d₅ : Draft := { draftOf t with created := none }
  let d₄ : Draft := { d₅ with description := none }
  let d₃ : Draft := { d₄ with parent := none }
  let d₂ : Draft := { d₃ with plan := none }
  let d₁ : Draft := { d₂ with footprint := none }
  let d₀ : Draft := { d₁ with dependencies := none }
  have hfront : Takes d {} [(Yaml.plain "id", Yaml.ofText t.id),
      (Yaml.plain "title", Yaml.ofText t.title), (Yaml.plain "status", Yaml.plain t.status.name),
      (Yaml.plain "priority", Yaml.plain (toString t.priority))] d₀ := by
    -- of the priority's node only what is read counts
    generalize Yaml.plain (toString t.priority) = priority at hpriority
    simp [Takes, takeField, hpriority, draftOf, d₅, d₄, d₃, d₂, d₁, d₀]
  have hdependencies : Takes d d₀ (optionalList "dependencies" t.dependencies) d₁ :=
    takes_optionalList (fun h => by simp [draftOf, listed, h, d₅, d₄, d₃, d₂, d₁, d₀]) fun h => by
      simp [takeField, draftOf, hlisted _ h, d₅, d₄, d₃, d₂, d₁, d₀]
  have hfootprint : Takes d d₁ (optionalList "footprint" t.footprint) d₂ :=
    takes_optionalList (fun h => by simp [draftOf, listed, h, d₅, d₄, d₃, d₂, d₁]) fun h => by
      simp [takeField, draftOf, hlisted _ h, d₅, d₄, d₃, d₂, d₁]
  have hplan : Takes d d₂ (optionalField "plan" t.plan) d₃ :=
    takes_optionalField (fun h => by simp [draftOf, h, d₅, d₄, d₃, d₂]) fun s h => by
      simp [takeField, draftOf, h, d₅, d₄, d₃, d₂]
  have hparent : Takes d d₃ (optionalField "parent" t.parent) d₄ :=
    takes_optionalField (fun h => by simp [draftOf, h, d₅, d₄, d₃]) fun s h => by
      simp [takeField, draftOf, h, d₅, d₄, d₃]
  have hdescription : Takes d d₄ (optionalField "description" t.description) d₅ :=
    takes_optionalField (fun h => by simp [draftOf, h, d₅, d₄]) fun s h => by
      simp [takeField, draftOf, h, d₅, d₄]
  have hcreated :
      Takes d d₅ (optionalField "created" (t.created.map Rfc3339.write)) (draftOf t) := by
    refine takes_optionalField (fun hnone => ?_) fun s hs => ?_
    · simp [draftOf, Option.map_eq_none_iff.mp hnone, d₅]
    · obtain ⟨time, htime, rfl⟩ := Option.map_eq_some_iff.mp hs
      simp [takeField, draftOf, htime, takeInstant_write (h.created time htime), d₅]
  have hfold := (((((hfront.append hdependencies).append hfootprint).append hplan).append
    hparent).append hdescription).append hcreated
  rw [takeTask, taskTree]
  simp only [takeEntries, Document.follow, ok_bind]
  rw [Takes] at hfold
  rw [hfold, ok_bind, task?_draftOf]
  rfl

/-! ## 4. Backlogs

A version and the list of tasks. -/

theorem takeTasks_map {ts : List Task} (h : ∀ t ∈ ts, t.Fits) :
    takeTasks d (.sequence (ts.map taskTree)) = .ok ts :=
  mapM_eq_ok fun t ht => takeTask_taskTree (h t ht)

/-- **The tree of a backlog is read as the backlog.** -/
theorem ofTree_tree (hversion : k.schemaVersion < Text.bound32) (h : ∀ t ∈ k.tasks, t.Fits) :
    ofTree ⟨tree k, [], .last⟩ = .ok k := by
  have hread : takeVersion ⟨tree k, [], .last⟩ (Yaml.plain (toString k.schemaVersion)) =
      .ok k.schemaVersion := takeVersion_toString hversion
  have htasks : takeTasks ⟨tree k, [], .last⟩ (.sequence (k.tasks.map taskTree)) = .ok k.tasks :=
    takeTasks_map h
  have hentries : takeEntries ⟨tree k, [], .last⟩ (tree k) = .ok
      [(Yaml.plain "schema_version", Yaml.plain (toString k.schemaVersion)),
        (Yaml.plain "tasks", .sequence (k.tasks.map taskTree))] := rfl
  rw [ofTree, hentries]
  generalize Yaml.plain (toString k.schemaVersion) = version at hread
  simp [takeOutline, hread, htasks, orMalformed]

/-- No identifier is repeated exactly if they are distinct. -/
theorem repeated?_eq_none_iff : ∀ {ts : List Task} {seen : List String},
    repeated? seen ts = none ↔ (ts.map Task.id).Nodup ∧ ∀ t ∈ ts, t.id ∉ seen
  | [], seen => by simp [repeated?]
  | t :: ts, seen => by
    rw [repeated?, List.map_cons, List.nodup_cons, List.forall_mem_cons]
    split
    · rename_i hseen
      simp [hseen]
    · rename_i hseen
      rw [repeated?_eq_none_iff]
      simp only [List.mem_cons, not_or, forall_and, List.mem_map, not_exists, not_and]
      constructor
      · rintro ⟨hnodup, hnew, hrest⟩
        exact ⟨⟨hnew, hnodup⟩, hseen, hrest⟩
      · rintro ⟨⟨hnew, hnodup⟩, -, hrest⟩
        exact ⟨hnodup, hnew, hrest⟩

theorem ofDocument_document (h : k.Fits) (path : String) :
    ofDocument path k.document = .ok k := by
  have hversion : k.schemaVersion < Text.bound32 := by rw [h.version]; decide
  rw [ofDocument, read_document, ofTree_tree hversion h.tasks]
  have hrepeated : repeated? [] k.tasks = none :=
    repeated?_eq_none_iff.mpr ⟨h.distinct, fun t _ => List.not_mem_nil⟩
  simp [h.version, hrepeated]

theorem save_eq_ok {t t' : Tree} {path : String} (h : k.save t path = .ok t') :
    ∃ prepared : Tree, prepared.replace path (Utf8.encode k.document.toList) = .ok t' := by
  unfold save at h
  split at h
  · cases h
  · split at h
    · cases h
    · rename_i prepared _
      split at h
      · cases h
      · split at h
        · rename_i hreplace
          cases h
          exact ⟨prepared, hreplace⟩
        · cases h

end Kanban

/-! ## 5. Saving and loading

From the text to the file. -/

/-- **What is saved is loaded again.**  Let a backlog be of the kind that a document can hold, with
any texts in its tasks.  Then

* the text of its document is read as the backlog;
* where the saving succeeds at the name of a file, that text is found there, and what is loaded is
  the backlog.

An instant of the calendar can be written exactly if what is read of its text is the instant, so no
other backlog of this version with distinct identifiers is left out than those of which an instant
is lost in writing. -/
theorem kanban_round_trip {k : Kanban} (hk : k.Fits) :
    (∀ path, Kanban.ofDocument path k.document = .ok k) ∧
      (∀ (t t' : Tree) (path : String), Path.namesDirectory path = false →
        k.save t path = .ok t' →
          t'.readText path = .ok k.document ∧ Kanban.load t' path = .ok k) ∧
      ∀ time : Instant, time.IsValid →
        (time.IsWritable ↔ Rfc3339.read? (Rfc3339.write time) = some time) := by
  refine ⟨Kanban.ofDocument_document hk, fun t t' path hname hsave => ?_, fun time htime => ?_⟩
  · obtain ⟨prepared, hreplace⟩ := Kanban.save_eq_ok hsave
    have htext : t'.readText path = .ok k.document := Tree.readText_replace hname hreplace
    refine ⟨htext, ?_⟩
    rw [Kanban.load, htext]
    exact Kanban.ofDocument_document hk path
  · rw [Rfc3339.read?_write_iff htime]
    exact and_iff_right htime

namespace Sample

/-- A backlog with texts of many kinds, and with fields that are missing. -/
def backlog : Kanban where
  tasks := [
    { id := "T-1", title := "yes: \"no\"", status := .inProgress, priority := -9223372036854775808,
      dependencies := ["", "null", "T-2"], footprint := ["src/**", "- a"], plan := some "",
      parent := some "1e3", description := some "  two\n\nlines \u2028 and\ttabs\n\n",
      created := some ⟨17166, 86399, 1500000000⟩ },
    { id := "007", title := "2024-01-01", status := .failed, priority := 9223372036854775807,
      description := some "it's # not: a comment " },
    { id := "~", title := "é\x01" }]

end Sample

/-- The sample is saved and loaded again. -/
theorem backlog_is_loaded :
    let k := Sample.backlog
    k.Fits ∧ ∃ t', k.save .empty "/p/kanban.yaml" = .ok t' ∧
      Kanban.load t' "/p/kanban.yaml" = .ok k := by
  intro k
  have hk : k.Fits := by decide +kernel
  have hsaves : (k.save .empty "/p/kanban.yaml").isOk = true := by decide +kernel
  refine ⟨hk, ?_⟩
  cases hsave : k.save .empty "/p/kanban.yaml" with
  | error e =>
    rw [hsave] at hsaves
    cases hsaves
  | ok t' =>
    exact ⟨t', rfl, ((kanban_round_trip hk).2.1 .empty t' "/p/kanban.yaml" (by decide +kernel)
      hsave).2⟩

end Foreman

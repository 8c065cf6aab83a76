/-
# What stays of a document

A backlog is loaded, statuses are set in it, and it is saved.  What is written says the same as what
was read, but for the statuses, exactly if the document already had the form in which the program
writes: the order of entries, styles and aliases apart, nothing else may stand in it.

* `Data.hideStatuses`, `SameButStatus`: what two documents say, but for the statuses.
* `said_taskTree`, `said_tree`: what the trees of tasks and of a backlog say.
* `plain_of_told`, `plainTasks_of_alike`: what is taken from a document that says so.
* `saved_sameButStatus_iff`: which documents keep all they say.

The comment on loading promises that fields the program does not know may stay in the document.
They are passed over in reading and missing in what is written, and `saved_sameButStatus_iff`
says so in both directions: a document keeps what it says exactly if there was nothing of that
kind in it.

The data of a document are compared and not its text, since styles, comments and the order of
entries are no part of what a document says.
-/
import Foreman.Proofs.Kanban.Taking

namespace Foreman

namespace Data

/-! ## 1. Data without statuses

Two documents are compared after the statuses of their tasks were hidden, at the place where a
reader looks for them. -/

/-- A key of this name. -/
def isText (s : String) : Data → Bool
  | .text s' => s' = s
  | _ => false

/-- Changes what the mapping says under a name. -/
def under (name : String) (g : Data → Data) : Data → Data
  | .mapping entries =>
    .mapping (entries.map fun e => (e.1, if e.1.isText name then g e.2 else e.2))
  | x => x

/-- Changes every item of the sequence. -/
def each (g : Data → Data) : Data → Data
  | .sequence items => .sequence (items.map g)
  | x => x

/-- The data of a task, with the value of its status hidden. -/
def hideStatus : Data → Data := under "status" fun _ => .null

/-- The data of a backlog, with the values of its tasks' statuses hidden. -/
def hideStatuses : Data → Data := under "tasks" (each hideStatus)

variable {x : Data} {name : String} {g : Data → Data}

@[simp] theorem isText_text (s : String) : (Data.text s).isText name = decide (s = name) := rfl

theorem under_eq_mapping {es : List (Data × Data)} (h : x.under name g = .mapping es) :
    ∃ fs, x = .mapping fs := by
  cases x with
  | mapping fs => exact ⟨fs, rfl⟩
  | _ => cases h

theorem each_eq_sequence {ys : List Data} (h : x.each g = .sequence ys) :
    ∃ xs, x = .sequence xs ∧ xs.map g = ys := by
  cases x with
  | sequence xs => exact ⟨xs, rfl, Data.sequence.inj h⟩
  | _ => cases h

end Data

namespace Kanban

open Yaml Data

/-- The documents differ at most in the values of statuses, in what they say. -/
def SameButStatus (d d' : Yaml.Document) : Prop :=
  ∃ x y, Says d d.root x ∧ Says d' d'.root y ∧ Alike x.hideStatuses y.hideStatuses

variable {d : Yaml.Document} {n : Yaml} {x : Data} {t t₀ : Task} {k : Kanban}
  {entries : List (Yaml × Yaml)}

/-! ## 2. What the tree of a backlog says

What the program would write for the tasks it has. -/

/-- A field that is there, under its name. -/
def toldField {α : Type} (name : String) (write : α → Data) (o : Option α) : List (Data × Data) :=
  o.toList.map fun a => (.text name, write a)

def ofTexts (texts : List String) : Data := .sequence (texts.map .text)

def ofOptional : Option String → Data
  | some s => .text s
  | none => .null

/-- What the fields of a draft say; the status is hidden. -/
def told (f : Draft) : List (Data × Data) :=
  toldField "id" .text f.id ++ toldField "title" .text f.title ++
  toldField "status" (fun _ => .null) f.status ++ toldField "priority" .integer f.priority ++
  toldField "dependencies" ofTexts f.dependencies ++ toldField "footprint" ofTexts f.footprint ++
  toldField "plan" ofOptional f.plan ++ toldField "parent" ofOptional f.parent ++
  toldField "description" ofOptional f.description ++
  toldField "created" (fun o => ofOptional (o.map Rfc3339.write)) f.created

@[simp] theorem mem_toldField {α : Type} {s name : String} {write : α → Data} {o : Option α}
    {v : Data} : (.text s, v) ∈ toldField name write o ↔ name = s ∧ ∃ a ∈ o, write a = v := by
  simp only [toldField, List.mem_map, Option.mem_toList, Prod.mk.injEq, Data.text.injEq]
  constructor
  · rintro ⟨a, ha, hname, hv⟩
    exact ⟨hname, a, ha, hv⟩
  · rintro ⟨hname, a, ha, hv⟩
    exact ⟨a, ha, hname, hv⟩

@[simp] theorem said_ofText (s : String) : said (Yaml.ofText s) = .text s := by
  rw [Yaml.ofText, said, ofScalar]
  split
  · rw [plainValue_eq_text ‹_›]
    rfl
  · rfl

theorem said_texts (texts : List String) :
    said (.sequence (texts.map Yaml.ofText)) = ofTexts texts := by
  rw [said_sequence, List.map_map, ofTexts]
  exact congrArg _ (List.map_congr_left fun s _ => said_ofText s)

/-- The names of fields are texts. -/
theorem said_name {name : String}
    (h : name ∈ ["schema_version", "tasks"] ∨ name ∈ Task.fieldNames) :
    said (Yaml.plain name) = .text name := by
  have hvalue : ∀ name ∈ ["schema_version", "tasks"] ++ Task.fieldNames,
      plainValue name = .text := by decide
  rw [Yaml.plain, said, ofScalar, if_pos rfl, hvalue name (List.mem_append.mpr h)]
  rfl

theorem said_toString {m : Int} (hlow : -(Text.half64 : Int) ≤ m) (hhigh : m < Text.half64) :
    said (Yaml.plain (toString m)) = .integer m := by
  rw [Yaml.plain, said, ofScalar, if_pos rfl, plainValue_toString hlow hhigh]
  rfl

/-- What an entry of a task says, with the value of the status hidden. -/
def tell (e : Yaml × Yaml) : Data × Data :=
  (said e.1, if (said e.1).isText "status" then .null else said e.2)

theorem tell_plain {name : String} (h : name ∈ Task.fieldNames) (hstatus : name ≠ "status")
    (v : Yaml) : tell (Yaml.plain name, v) = (.text name, said v) := by
  rw [tell, said_name (Or.inr h), isText_text, decide_eq_false hstatus, if_neg Bool.false_ne_true]

theorem tell_status (v : Yaml) : tell (Yaml.plain "status", v) = (.text "status", .null) := by
  rw [tell, said_name (by decide), isText_text]
  rfl

theorem map_tell_optionalField {name : String} (h : name ∈ Task.fieldNames)
    (hstatus : name ≠ "status") (o : Option String) :
    (optionalField name o).map tell = toldField name ofOptional (o.map some) := by
  cases o with
  | none => rfl
  | some s => exact congrArg (· :: []) ((tell_plain h hstatus _).trans (by rw [said_ofText]; rfl))

theorem map_tell_optionalList {name : String} (h : name ∈ Task.fieldNames)
    (hstatus : name ≠ "status") (texts : List String) :
    (optionalList name texts).map tell = toldField name ofTexts (listed texts) := by
  cases texts with
  | nil => rfl
  | cons s texts =>
    exact congrArg (· :: []) ((tell_plain h hstatus _).trans (by rw [said_texts]))

/-- **What the tree of a task says.** -/
theorem said_taskTree (h : t.Fits) :
    (said (taskTree t)).hideStatus = .mapping (told (draftOf t)) := by
  have hpriority := said_toString h.low h.high
  have hcreated : ∀ o : Option Instant,
      toldField "created" ofOptional ((o.map Rfc3339.write).map some) =
        toldField "created" (fun o => ofOptional (o.map Rfc3339.write)) (o.map some) := by
    intro o
    cases o <;> rfl
  have hfront : [(Yaml.plain "id", Yaml.ofText t.id), (Yaml.plain "title", Yaml.ofText t.title),
      (Yaml.plain "status", Yaml.plain t.status.name),
      (Yaml.plain "priority", Yaml.plain (toString t.priority))].map tell =
        toldField "id" .text (some t.id) ++ toldField "title" .text (some t.title) ++
        toldField "status" (fun _ => .null) (some t.status) ++
        toldField "priority" .integer (some t.priority) := by
    generalize Yaml.plain (toString t.priority) = priority at hpriority
    simp only [List.map_cons, List.map_nil]
    rw [tell_plain (by decide) (by decide), tell_plain (by decide) (by decide), tell_status,
      tell_plain (by decide) (by decide), hpriority, said_ofText, said_ofText]
    rfl
  have hsaid : ∀ es : List (Yaml × Yaml),
      (said (.mapping es)).hideStatus = .mapping (es.map tell) := by
    intro es
    rw [said_mapping, hideStatus, under, List.map_map]
    rfl
  rw [taskTree, hsaid]
  simp only [List.map_append]
  rw [hfront, map_tell_optionalList (by decide) (by decide),
    map_tell_optionalList (by decide) (by decide), map_tell_optionalField (by decide) (by decide),
    map_tell_optionalField (by decide) (by decide), map_tell_optionalField (by decide) (by decide),
    map_tell_optionalField (by decide) (by decide), hcreated]
  simp only [told, draftOf, List.append_assoc]

/-- What the tasks of a backlog say. -/
def toldTasks (ts : List Task) : Data := .sequence (ts.map fun t => .mapping (told (draftOf t)))

/-- **What the tree of a backlog says.** -/
theorem said_tree (h : k.Fits) : (said (tree k)).hideStatuses =
    .mapping [(.text "schema_version", .integer 1), (.text "tasks", toldTasks k.tasks)] := by
  have hversion : said (Yaml.plain (toString k.schemaVersion)) = .integer 1 := by
    rw [h.version]
    exact said_toString (m := 1) (by decide) (by decide)
  have htasks : (said (.sequence (k.tasks.map taskTree))).each hideStatus = toldTasks k.tasks := by
    rw [said_sequence, each, List.map_map, List.map_map, toldTasks]
    exact congrArg _ (List.map_congr_left fun t ht => said_taskTree (h.tasks t ht))
  have hsaid : said (tree k) = .mapping [(.text "schema_version", .integer 1),
      (.text "tasks", said (.sequence (k.tasks.map taskTree)))] := by
    have hname : said (Yaml.plain "schema_version") = .text "schema_version" :=
      said_name (by decide)
    have hname' : said (Yaml.plain "tasks") = .text "tasks" := said_name (by decide)
    simp only [tree, said_mapping, List.map_cons, List.map_nil, hname, hname', hversion]
  rw [hsaid, hideStatuses, under]
  simp [htasks]

/-! ## 3. A field of what is taken

Which entry a field comes from, and what the document then says at that place. -/

/-- The entries say this, with what they say under a name changed and up to their order. -/
def Matches (d : Yaml.Document) (mark : String) (g : Data → Data) (entries : List (Yaml × Yaml))
    (gs : List (Data × Data)) : Prop :=
  ∃ fs, List.Forall₂ (SaysEntry d) entries fs ∧
    Alike ((Data.mapping fs).under mark g) (.mapping gs)

namespace Matches

variable {mark name : String} {g : Data → Data} {gs : List (Data × Data)} {v : Data}

theorem entry_of_mem (h : Matches d mark g entries gs) (hmem : (.text name, v) ∈ gs) :
    ∃ e ∈ entries, ∃ y, Says d e.1 (.text name) ∧ Says d e.2 y ∧
      Alike (if name = mark then g y else y) v := by
  obtain ⟨fs, hsays, halike⟩ := h
  obtain ⟨es, hes, -, hback⟩ := alike_mapping halike
  obtain ⟨_, he, hkey, hvalue⟩ := hback _ hmem
  cases hes
  obtain ⟨f, hf, rfl⟩ := List.mem_map.mp he
  obtain ⟨e, hentry, hsaid⟩ := exists_of_forall₂ hsays.flip hf
  have hname : f.1 = .text name := alike_text hkey
  refine ⟨e, hentry, f.2, hname ▸ hsaid.1, hsaid.2, ?_⟩
  simpa [hname] using hvalue

theorem mem_of_entry (h : Matches d mark g entries gs) {e : Yaml × Yaml} (he : e ∈ entries) :
    ∃ f ∈ gs, ∃ y, Says d e.1 y ∧ Alike y f.1 := by
  obtain ⟨fs, hsays, halike⟩ := h
  obtain ⟨es, hes, hforth, -⟩ := alike_mapping halike
  obtain ⟨f, hf, hsaid⟩ := exists_of_forall₂ hsays he
  cases hes
  obtain ⟨f', hf', hkey, -⟩ := hforth _ (List.mem_map.mpr ⟨f, hf, rfl⟩)
  exact ⟨f', hf', f.1, hsaid.1, hkey⟩

end Matches

/-- A field of what is taken is there if the data have it, and it is what they say. -/
theorem Tracks.agrees {σ α β : Type} {step : σ → Yaml × Yaml → Taking σ} {name mark : String}
    {get : σ → Option α} {take : Yaml → Taking α} {s₀ s : σ} {g : Data → Data}
    {gs : List (Data × Data)} {own : Option β} {w : β → Data} {R : α → β → Prop}
    (h : Tracks d step name get take) (hfold : entries.foldlM step s₀ = .ok s)
    (hnone : get s₀ = none) (hmatches : Matches d mark g entries gs)
    (hkeys : ∀ f ∈ gs, ∃ key, f.1 = .text key)
    (hown : ∀ v, (.text name, v) ∈ gs ↔ ∃ b ∈ own, w b = v)
    (htake : ∀ {v y a b}, take v = .ok a → Says d v y → b ∈ own →
      Alike (if name = mark then g y else y) (w b) → R a b) :
    Option.Rel R (get s) own := by
  cases hfield : own with
  | some b =>
    obtain ⟨e, he, y, hkey, hvalue, halike⟩ :=
      hmatches.entry_of_mem ((hown (w b)).mpr ⟨b, hfield, rfl⟩)
    obtain ⟨key, htext, hfound⟩ := h.found hfold he
    obtain ⟨a, ha, hget⟩ := hfound (eq_of_takeText htext hkey)
    rw [hget]
    exact .some (htake ha hvalue hfield halike)
  | none =>
    cases hget : get s with
    | none => exact .none
    | some a =>
      -- it was taken from an entry of this name, and the data have none
      obtain ⟨e, he, htext, -⟩ := h.source hfold hnone hget
      obtain ⟨⟨_, v⟩, hf, y, hsays, halike⟩ := hmatches.mem_of_entry he
      obtain ⟨key, rfl⟩ := hkeys _ hf
      rw [alike_text halike] at hsays
      obtain rfl := eq_of_takeText htext hsays
      obtain ⟨b, hb, -⟩ := (hown v).mp hf
      rw [hfield] at hb
      cases hb

/-! ## 4. What is taken from a document of this form

A document that says what the program would write gives the tasks back. -/

theorem entries_of_takeEntries {fs : List (Data × Data)} (h : takeEntries d n = .ok entries)
    (hn : Says d n (.mapping fs)) : List.Forall₂ (SaysEntry d) entries fs := by
  unfold takeEntries at h
  split at h
  · rename_i hfollow
    cases h
    obtain ⟨fs', hfs, hentries⟩ := says_of_mapping hn hfollow
    cases hfs
    exact hentries
  · rename_i hfollow
    exact absurd (says_of_scalar hn hfollow).symm (ofScalar_ne_mapping _)
  · cases h

theorem told_keys (f : Draft) : ∀ e ∈ told f, ∃ key, e.1 = .text key := by
  have hfield : ∀ {α : Type} {name : String} {write : α → Data} {o : Option α},
      ∀ e ∈ toldField name write o, ∃ key, e.1 = .text key := by
    intro α name write o e he
    obtain ⟨a, -, rfl⟩ := List.mem_map.mp he
    exact ⟨name, rfl⟩
  simp only [told, List.forall_mem_append]
  and_intros <;> exact hfield

/-- The status does not count for the other fields of a task. -/
theorem task?_restatus (f : Draft) (status : Option TaskStatus) :
    ({ f with status := status } : Draft).task?.map Task.plain = f.task?.map Task.plain := by
  unfold Draft.task?
  rw [Option.map_map, Option.map_map]
  rfl

theorem eq_of_rel {α : Type} {o o' : Option α} (h : Option.Rel Eq o o') : o = o' := by
  cases h with
  | some heq => rw [heq]
  | none => rfl

/-- A field whose data are those of a task has the task's value. -/
theorem field_of_told {α : Type} {f : Draft} {name : String} {get : Draft → Option α}
    {take : Yaml → Taking α} {w : α → Data} (hfold : entries.foldlM (takeField d) {} = .ok f)
    (hmatches : Matches d "status" (fun _ => .null) entries (told (draftOf t₀)))
    (h : Tracks d (takeField d) name get take) (hnone : get {} = none) (hname : name ≠ "status")
    (hown : ∀ v, (.text name, v) ∈ told (draftOf t₀) ↔ ∃ a ∈ get (draftOf t₀), w a = v)
    (htake : ∀ {v y a b}, take v = .ok a → Says d v y → b ∈ get (draftOf t₀) → Alike y (w b) →
      a = b) : get f = get (draftOf t₀) := by
  have hagrees : Option.Rel Eq (get f) (get (draftOf t₀)) :=
    h.agrees hfold hnone hmatches (told_keys _) hown fun ha hsays hb halike =>
      htake ha hsays hb (by rwa [if_neg hname] at halike)
  exact eq_of_rel hagrees

/-- The draft of a task, but for its status, from what says the task's fields. -/
theorem draft_of_told {f : Draft} (hfold : entries.foldlM (takeField d) {} = .ok f)
    (hmatches : Matches d "status" (fun _ => .null) entries (told (draftOf t₀))) (h₀ : t₀.Fits) :
    f = { draftOf t₀ with status := f.status } := by
  have htext : ∀ {v y a b}, takeText d v = .ok a → Says d v y → Alike y (.text b) → a = b :=
    fun ha hsays halike => eq_of_takeText ha (alike_text halike ▸ hsays)
  have htexts : ∀ {v y a b}, takeTexts d v = .ok a → Says d v y → Alike y (ofTexts b) → a = b :=
    fun ha hsays halike => eq_of_takeTexts ha (alike_texts halike ▸ hsays)
  have hoptional : ∀ {v y a b} {o : Option String}, takeOptional d v = .ok a → Says d v y →
      b ∈ o.map some → Alike y (ofOptional b) → a = b := by
    intro v y a b o ha hsays hb halike
    obtain ⟨s, -, rfl⟩ := Option.map_eq_some_iff.mp hb
    exact eq_of_takeOptional ha (alike_text halike ▸ hsays)
  -- field by field: the entry is there, it is taken, and what is taken is what it says
  have htracked := fieldsTracked d
  have hid : f.id = (draftOf t₀).id :=
    field_of_told hfold hmatches htracked.id rfl (by decide) (by simp [told])
      fun ha hsays _ => htext ha hsays
  have htitle : f.title = (draftOf t₀).title :=
    field_of_told hfold hmatches htracked.title rfl (by decide) (by simp [told])
      fun ha hsays _ => htext ha hsays
  have hpriority : f.priority = (draftOf t₀).priority :=
    field_of_told hfold hmatches htracked.priority rfl (by decide) (by simp [told])
      fun ha hsays _ halike => eq_of_takePriority ha (alike_integer halike ▸ hsays)
  have hdependencies : f.dependencies = (draftOf t₀).dependencies :=
    field_of_told hfold hmatches htracked.dependencies rfl (by decide) (by simp [told])
      fun ha hsays _ => htexts ha hsays
  have hfootprint : f.footprint = (draftOf t₀).footprint :=
    field_of_told hfold hmatches htracked.footprint rfl (by decide) (by simp [told])
      fun ha hsays _ => htexts ha hsays
  have hplan : f.plan = (draftOf t₀).plan :=
    field_of_told hfold hmatches htracked.plan rfl (by decide) (by simp [told]) hoptional
  have hparent : f.parent = (draftOf t₀).parent :=
    field_of_told hfold hmatches htracked.parent rfl (by decide) (by simp [told]) hoptional
  have hdescription : f.description = (draftOf t₀).description :=
    field_of_told hfold hmatches htracked.description rfl (by decide) (by simp [told]) hoptional
  -- the instant is written as text first, so it is read back only within the years that fit
  have hcreated : f.created = (draftOf t₀).created := by
    have hown : ∀ v, (.text "created", v) ∈ told (draftOf t₀) ↔
        ∃ o ∈ (draftOf t₀).created, ofOptional (o.map Rfc3339.write) = v := by simp [told]
    refine field_of_told hfold hmatches htracked.created rfl (by decide) hown
      fun ha hsays hb halike => ?_
    obtain ⟨time, htime, rfl⟩ := Option.map_eq_some_iff.mp hb
    exact eq_of_takeInstant ha (alike_text halike ▸ hsays) (h₀.created time htime)
  show f = ⟨(draftOf t₀).id, (draftOf t₀).title, f.status, (draftOf t₀).priority,
    (draftOf t₀).dependencies, (draftOf t₀).footprint, (draftOf t₀).plan, (draftOf t₀).parent,
    (draftOf t₀).description, (draftOf t₀).created⟩
  rw [← hid, ← htitle, ← hpriority, ← hdependencies, ← hfootprint, ← hplan, ← hparent,
    ← hdescription, ← hcreated]

/-- **A task is taken, but for its status, from what says its fields.** -/
theorem plain_of_told (h : takeTask d n = .ok t) (hn : Says d n x) (h₀ : t₀.Fits)
    (hx : Alike x.hideStatus (.mapping (told (draftOf t₀)))) : t.plain = t₀.plain := by
  obtain ⟨entries, f, hentries, hfold, htask⟩ := takeTask_eq_ok h
  have hmatches : Matches d "status" (fun _ => .null) entries (told (draftOf t₀)) := by
    obtain ⟨es, hes, -⟩ := alike_mapping hx
    obtain ⟨fs, rfl⟩ := under_eq_mapping hes
    exact ⟨fs, entries_of_takeEntries hentries hn, hx⟩
  have hplain := task?_restatus (draftOf t₀) f.status
  rw [← draft_of_told hfold hmatches h₀, htask, task?_draftOf] at hplain
  exact Option.some.inj hplain

theorem plain_tasks_of_told {ts ts₀ : List Task} (h : takeTasks d n = .ok ts) (hn : Says d n x)
    (h₀ : ∀ t ∈ ts₀, t.Fits) (hx : Alike (x.each hideStatus) (toldTasks ts₀)) :
    ts.map Task.plain = ts₀.map Task.plain := by
  obtain ⟨xs, hxs, halike⟩ := alike_sequence hx
  obtain ⟨ys, rfl, rfl⟩ := each_eq_sequence hxs
  rw [List.forall₂_map_left_iff, List.forall₂_map_right_iff] at halike
  have htold : List.Forall₂
      (fun y t₀ => t₀.Fits ∧ Alike y.hideStatus (.mapping (told (draftOf t₀)))) ys ts₀ :=
    ((List.forall₂_and_left _ _).mpr ⟨h₀, halike.flip⟩).flip
  unfold takeTasks at h
  split at h
  · rename_i items hfollow
    obtain ⟨zs, hzs, hitems⟩ := says_of_sequence hn hfollow
    cases hzs
    have htaken :
        List.Forall₂ (fun y t => ∃ item, takeTask d item = .ok t ∧ Says d item y) ys ts :=
      forall₂_of_common hitems (mapM_eq_ok_iff.mp h) fun item _ _ hsays htake =>
        ⟨item, htake, hsays⟩
    have hplain : List.Forall₂ (fun t t₀ => t.plain = t₀.plain) ts ts₀ :=
      forall₂_of_common htaken htold fun _ _ _ ⟨_, htake, hsays⟩ ⟨hfits, halike⟩ =>
        plain_of_told htake hsays hfits halike
    rwa [← List.forall₂_eq_eq_eq, List.forall₂_map_left_iff, List.forall₂_map_right_iff]
  · rename_i hfollow
    exact absurd (says_of_scalar hn hfollow).symm (ofScalar_ne_sequence _)
  · cases h

/-- The entries of a document of this form match it. -/
theorem matches_of_alike {k₀ : Kanban} (hentries : takeEntries d d.root = .ok entries)
    (h₀ : k₀.Fits) (hroot : Says d d.root x)
    (hx : Alike x.hideStatuses (said (tree k₀)).hideStatuses) :
    Matches d "tasks" (each hideStatus) entries
      [(.text "schema_version", .integer 1), (.text "tasks", toldTasks k₀.tasks)] := by
  rw [said_tree h₀] at hx
  obtain ⟨es, hes, -⟩ := alike_mapping hx
  obtain ⟨fs, rfl⟩ := under_eq_mapping hes
  exact ⟨fs, entries_of_takeEntries hentries hroot, hx⟩

/-- **The tasks of a backlog are taken, but for their statuses, from what says them.** -/
theorem plainTasks_of_alike {k₀ : Kanban} (h : ofTree d = .ok k) (h₀ : k₀.Fits)
    (hroot : Says d d.root x) (hx : Alike x.hideStatuses (said (tree k₀)).hideStatuses) :
    k.plainTasks = k₀.plainTasks := by
  obtain ⟨entries, o, hentries, hfold, htasks⟩ := ofTree_eq_ok h
  have hagrees : Option.Rel (fun ts ts₀ => ts.map Task.plain = ts₀.map Task.plain) o.2
      (some k₀.tasks) := by
    refine tracks_tasks.agrees (w := toldTasks) hfold rfl
      (matches_of_alike hentries h₀ hroot hx) (by simp) (by simp [eq_comm]) ?_
    rintro v y ts ts₀ htake hsays ⟨⟩ halike
    exact plain_tasks_of_told htake hsays h₀.tasks (by rwa [if_pos rfl] at halike)
  rw [plainTasks, plainTasks, htasks]
  generalize o.2 = ts at hagrees
  cases hagrees with
  | some hplain => exact hplain

/-! ## 5. Setting statuses

Statuses are set in the loaded backlog and nowhere else. -/

/-- Sets one status after the other; that of a task that is not there is passed over. -/
def setStatuses (k : Kanban) (steps : List (String × TaskStatus)) : Kanban :=
  steps.foldl (fun k step => (k.setStatus step.1 step.2).toOption.getD k) k

/-- One step leaves the version and the plain tasks. -/
theorem setStatus_keeps (k : Kanban) (step : String × TaskStatus) :
    ((k.setStatus step.1 step.2).toOption.getD k).schemaVersion = k.schemaVersion ∧
      ((k.setStatus step.1 step.2).toOption.getD k).plainTasks = k.plainTasks := by
  cases hset : k.setStatus step.1 step.2 with
  | error e => exact ⟨rfl, rfl⟩
  | ok k' =>
    refine ⟨?_, plainTasks_setStatus hset⟩
    unfold setStatus at hset
    split at hset
    · cases hset
      rfl
    · cases hset

theorem setStatuses_keeps (k : Kanban) (steps : List (String × TaskStatus)) :
    (k.setStatuses steps).schemaVersion = k.schemaVersion ∧
      (k.setStatuses steps).plainTasks = k.plainTasks := by
  induction steps generalizing k with
  | nil => exact ⟨rfl, rfl⟩
  | cons step steps ih =>
    obtain ⟨hversion, hplain⟩ := setStatus_keeps k step
    exact ⟨(ih _).1.trans hversion, (ih _).2.trans hplain⟩

/-- A document can hold a backlog with other statuses as well. -/
theorem Fits.of_plainTasks_eq {k' : Kanban} (h : k.Fits)
    (hversion : k'.schemaVersion = k.schemaVersion) (hplain : k'.plainTasks = k.plainTasks) :
    k'.Fits := by
  refine ⟨hversion.trans h.version, h.distinct.of_plainTasks_eq hplain, fun t ht => ?_⟩
  obtain ⟨u, hu, huplain⟩ := exists_mem_of_plainTasks_eq hplain ht
  have hfits : u.plain.Fits := ⟨(h.tasks u hu).low, (h.tasks u hu).high, (h.tasks u hu).created⟩
  rw [huplain] at hfits
  exact ⟨hfits.low, hfits.high, hfits.created⟩

theorem Fits.setStatuses (h : k.Fits) (steps : List (String × TaskStatus)) :
    (k.setStatuses steps).Fits :=
  h.of_plainTasks_eq (setStatuses_keeps k steps).1 (setStatuses_keeps k steps).2

/-! ## 6. Saved documents

The two directions put together. -/

theorem isDirect_taskTree (t : Task) : isDirect (taskTree t) = true := by
  have hlist : ∀ name texts, ∀ e ∈ optionalList name texts,
      isDirect e.1 = true ∧ isDirect e.2 = true := by
    intro name texts
    cases texts with
    | nil => exact List.forall_mem_nil _
    | cons s texts =>
      refine List.forall_mem_singleton.mpr ⟨rfl, directItems_iff.mpr fun item hitem => ?_⟩
      obtain ⟨s, -, rfl⟩ := List.mem_map.mp hitem
      rfl
  have hoptional : ∀ name o, ∀ e ∈ optionalField name o,
      isDirect e.1 = true ∧ isDirect e.2 = true := by
    intro name o
    cases o with
    | none => exact List.forall_mem_nil _
    | some s => exact List.forall_mem_singleton.mpr ⟨rfl, rfl⟩
  refine directEntries_iff.mpr ?_
  simp only [List.forall_mem_append]
  refine ⟨⟨⟨⟨⟨⟨?_, hlist _ _⟩, hlist _ _⟩, hoptional _ _⟩, hoptional _ _⟩, hoptional _ _⟩,
    hoptional _ _⟩
  simp [Yaml.plain, Yaml.ofText, isDirect]

theorem isDirect_tree (k : Kanban) : isDirect (tree k) = true := by
  have htasks : isDirect (.sequence (k.tasks.map taskTree)) = true := by
    refine directItems_iff.mpr fun item hitem => ?_
    obtain ⟨t, -, rfl⟩ := List.mem_map.mp hitem
    exact isDirect_taskTree t
  exact directEntries_iff.mpr (List.forall_mem_cons.mpr ⟨⟨rfl, rfl⟩,
    List.forall_mem_singleton.mpr ⟨rfl, htasks⟩⟩)

theorem sameButStatus_document_iff : SameButStatus d (Yaml.read k.document) ↔
    ∃ x, Says d d.root x ∧ Alike x.hideStatuses (said (tree k)).hideStatuses := by
  rw [read_document]
  constructor
  · rintro ⟨x, y, hx, hy, halike⟩
    rw [says_iff (isDirect_tree k)] at hy
    exact ⟨x, hx, hy ▸ halike⟩
  · rintro ⟨x, hx, halike⟩
    exact ⟨x, _, hx, (says_iff (isDirect_tree k)).mpr rfl, halike⟩

/-- Backlogs with the same plain tasks are told in the same way. -/
theorem told_of_plainTasks_eq {k' : Kanban} (h : k.Fits) (h' : k'.Fits)
    (hplain : k.plainTasks = k'.plainTasks) :
    (said (tree k)).hideStatuses = (said (tree k')).hideStatuses := by
  have htold : ∀ ts : List Task, toldTasks ts =
      .sequence ((ts.map Task.plain).map fun t => .mapping (told (draftOf t))) := by
    intro ts
    rw [toldTasks, List.map_map]
    rfl
  rw [said_tree h, said_tree h', htold, htold]
  exact congrArg _ (by rw [show k.tasks.map Task.plain = k'.tasks.map Task.plain from hplain])

/-- The names of the entries of a node. -/
def names (d : Yaml.Document) (n : Yaml) : Taking (List String) := do
  (← takeEntries d n).mapM fun e => takeText d e.1

/-- No document with an entry of another name keeps all it says. -/
theorem names_of_sameButStatus {found : List String} (h : k.Fits)
    (hnames : names d d.root = .ok found) (hsame : SameButStatus d (Yaml.read k.document)) :
    ∀ name ∈ found, name ∈ ["schema_version", "tasks"] := by
  obtain ⟨entries, hentries, htexts⟩ := of_bind_eq_ok hnames
  obtain ⟨x, hroot, hx⟩ := sameButStatus_document_iff.mp hsame
  intro name hname
  obtain ⟨e, he, htext⟩ := exists_of_forall₂ (mapM_eq_ok_iff.mp htexts).flip hname
  obtain ⟨f, hf, y, hsays, halike⟩ := (matches_of_alike hentries h hroot hx).mem_of_entry he
  have hkey : ∃ key ∈ ["schema_version", "tasks"], f.1 = .text key := by
    simp only [List.mem_cons, List.not_mem_nil, or_false] at hf
    rcases hf with rfl | rfl <;> simp
  obtain ⟨key, hmem, hfkey⟩ := hkey
  rw [hfkey] at halike
  rw [alike_text halike] at hsays
  exact eq_of_takeText htext hsays ▸ hmem

end Kanban

/-- **Which documents keep what they say.**  A backlog is loaded, statuses are set in it one after
the other, and it is saved, to whatever tree.  What is found there is loaded again, with nothing but
statuses changed in the backlog.  Of what the document says, nothing but statuses is changed
exactly if it could have been written by the program in the first place: up to statuses, styles,
aliases and the order of entries, it is the document of some backlog. -/
theorem saved_sameButStatus_iff {t u u' : Tree} {path text : String} {k : Kanban}
    (steps : List (String × TaskStatus)) (htext : t.readText path = .ok text)
    (hload : Kanban.load t path = .ok k) (hsave : (k.setStatuses steps).save u path = .ok u') :
    Kanban.load u' path = .ok (k.setStatuses steps) ∧
      (k.setStatuses steps).plainTasks = k.plainTasks ∧
      ∃ text', u'.readText path = .ok text' ∧
        (Kanban.SameButStatus (Yaml.read text) (Yaml.read text') ↔
          ∃ k₀ : Kanban, k₀.Fits ∧
            Kanban.SameButStatus (Yaml.read text) (Yaml.read k₀.document)) := by
  rw [Kanban.load, htext] at hload
  have hfits : (k.setStatuses steps).Fits := (Kanban.fits_of_ofDocument hload).setStatuses steps
  have hplain : (k.setStatuses steps).plainTasks = k.plainTasks := (k.setStatuses_keeps steps).2
  obtain ⟨prepared, hreplace⟩ := Kanban.save_eq_ok hsave
  have htext' : u'.readText path = .ok (k.setStatuses steps).document :=
    Tree.readText_replace (Tree.namesDirectory_of_readText htext) hreplace
  refine ⟨?_, hplain, _, htext', ⟨fun hsame => ⟨_, hfits, hsame⟩, ?_⟩⟩
  · rw [Kanban.load, htext']
    exact Kanban.ofDocument_document hfits path
  · rintro ⟨k₀, h₀, hsame⟩
    -- what was loaded is `k₀` but for the statuses, and so is what is saved
    obtain ⟨x, hroot, hx⟩ := Kanban.sameButStatus_document_iff.mp hsame
    have hplain₀ : k.plainTasks = k₀.plainTasks :=
      Kanban.plainTasks_of_alike (Kanban.ofDocument_eq_ok hload).1 h₀ hroot hx
    refine Kanban.sameButStatus_document_iff.mpr ⟨x, hroot, ?_⟩
    rwa [Kanban.told_of_plainTasks_eq hfits h₀ (hplain.trans hplain₀)]

namespace Sample

/-- A directory with a backlog document. -/
def shelf (text : String) : Tree :=
  (Tree.empty.put ["p"] .directory).put ["p", "kanban.yaml"] (.file (Utf8.encode text.toList) false)

theorem readText_shelf (text : String) : (shelf text).readText "/p/kanban.yaml" = .ok text := by
  have hparts : (shelf text).locate "/p/kanban.yaml" = .ok ["p", "kanban.yaml"] := by
    have hnames : Path.parts "/p/kanban.yaml" = ["p", "kanban.yaml"] := by decide +kernel
    have hshort : Path.isTooLong "/p/kanban.yaml" = false := by decide +kernel
    rw [Tree.locate, hshort, hnames]
    rfl
  have hname : Path.namesDirectory "/p/kanban.yaml" = false := by decide +kernel
  rw [Tree.readText, Tree.read, hparts]
  simp [bind, Except.bind, shelf, Tree.at?_put_self, hname, Utf8.decode?_encode, pure, Except.pure]

/-- A backlog document with a field for its presentation. -/
def coloredBacklog : String :=
  "schema_version: 1\nboard_color: teal\ntasks:\n- id: T-1\n  title: One\n  status: failed\n" ++
  "  priority: 0\n"

end Sample

/-- A document that the program wrote keeps all it says. -/
theorem written_document_kept :
    let k := Sample.backlog.setStatuses [("T-1", .done), ("007", .pending)]
    ∃ u text, k.save (Sample.shelf Sample.backlog.document) "/p/kanban.yaml" = .ok u ∧
      u.readText "/p/kanban.yaml" = .ok text ∧
      Kanban.SameButStatus (Yaml.read Sample.backlog.document) (Yaml.read text) := by
  intro k
  have hfits : Sample.backlog.Fits := by decide +kernel
  have htext : (Sample.shelf Sample.backlog.document).readText "/p/kanban.yaml" =
      .ok Sample.backlog.document := Sample.readText_shelf _
  have hload : Kanban.load (Sample.shelf Sample.backlog.document) "/p/kanban.yaml" =
      .ok Sample.backlog := by
    rw [Kanban.load, htext]
    exact Kanban.ofDocument_document hfits _
  have hsaves : (k.save (Sample.shelf Sample.backlog.document) "/p/kanban.yaml").isOk = true := by
    decide +kernel
  cases hsave : k.save (Sample.shelf Sample.backlog.document) "/p/kanban.yaml" with
  | error e =>
    rw [hsave] at hsaves
    cases hsaves
  | ok u =>
    obtain ⟨-, -, text, hread, hiff⟩ := saved_sameButStatus_iff _ htext hload hsave
    refine ⟨u, text, rfl, hread, hiff.mpr ⟨Sample.backlog, hfits, ?_⟩⟩
    refine Kanban.sameButStatus_document_iff.mpr ⟨_, ?_, .refl _⟩
    rw [Kanban.read_document]
    exact (Yaml.says_iff (Kanban.isDirect_tree _)).mpr rfl

/-- A field that the program does not know is lost when a task is set back. -/
theorem board_color_lost :
    ∃ k u text, Kanban.load (Sample.shelf Sample.coloredBacklog) "/p/kanban.yaml" = .ok k ∧
      k.setStatus "T-1" .pending = .ok (k.setStatuses [("T-1", .pending)]) ∧
      (k.setStatuses [("T-1", .pending)]).save (Sample.shelf Sample.coloredBacklog)
        "/p/kanban.yaml" = .ok u ∧
      u.readText "/p/kanban.yaml" = .ok text ∧
      ¬Kanban.SameButStatus (Yaml.read Sample.coloredBacklog) (Yaml.read text) := by
  let k : Kanban := { tasks := [{ id := "T-1", title := "One", status := .failed }] }
  let k' : Kanban := { tasks := [{ id := "T-1", title := "One", status := .pending }] }
  have hload : Kanban.load (Sample.shelf Sample.coloredBacklog) "/p/kanban.yaml" = .ok k := by
    decide +kernel
  have hset : k.setStatuses [("T-1", .pending)] = k' := by decide +kernel
  have hsaves : (k'.save (Sample.shelf Sample.coloredBacklog) "/p/kanban.yaml").isOk = true := by
    decide +kernel
  cases hsave : k'.save (Sample.shelf Sample.coloredBacklog) "/p/kanban.yaml" with
  | error e =>
    rw [hsave] at hsaves
    cases hsaves
  | ok u =>
    obtain ⟨prepared, hreplace⟩ := Kanban.save_eq_ok hsave
    have hread : u.readText "/p/kanban.yaml" = .ok k'.document :=
      Tree.readText_replace (by decide +kernel) hreplace
    refine ⟨k, u, k'.document, hload, by decide +kernel, hset ▸ hsave, hread, fun hsame => ?_⟩
    have hnames :
        Kanban.names (Yaml.read Sample.coloredBacklog) (Yaml.read Sample.coloredBacklog).root =
          .ok ["schema_version", "board_color", "tasks"] := by
      decide +kernel
    exact absurd (Kanban.names_of_sameButStatus (by decide +kernel) hnames hsame "board_color"
      (by simp)) (by decide)

end Foreman

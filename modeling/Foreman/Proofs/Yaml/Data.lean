/-
# What a document says

The data of a document: scalars by what they stand for, whatever their style, aliases followed, and
mappings without an order.  Two documents that are written differently may say the same.

* `Says`: the data of a node; `says_iff`: those of a node without aliases.
* `Alike`: data that differ in the order of mappings only.

Two readers that go by what a document says cannot tell such documents apart.  The reader of the
backlog goes by more than that, as it refuses a field that stands twice;
`Foreman.Proofs.Kanban.Taking` is about that.
-/
import Foreman.Proofs.Yaml.Scalar
import Foreman.Yaml.Reader
import Mathlib.Data.List.Forall2

namespace Foreman

/-- Data that a document can hold. -/
inductive Data where
  | null
  | bool (b : Bool)
  | integer (n : Int)
  /-- A number with a fraction, or one that no integer type holds, by its text. -/
  | number (text : String)
  | text (s : String)
  /-- A scalar of a kind that the document names itself. -/
  | tagged (tag s : String)
  | sequence (items : List Data)
  | mapping (entries : List (Data × Data))
deriving Repr, Inhabited

namespace Data

/-! ## 1. Lists side by side

Elements of two lists, one by one. -/

section Lists

variable {α β γ : Type} {R : α → β → Prop} {S : α → γ → Prop} {T : β → γ → Prop} {xs : List α}
  {ys : List β} {zs : List γ}

theorem exists_of_forall₂ (h : List.Forall₂ R xs ys) {a : α} (ha : a ∈ xs) : ∃ b ∈ ys, R a b := by
  induction h with
  | nil => cases ha
  | cons hab _ ih =>
    rcases List.mem_cons.mp ha with rfl | ha
    · exact ⟨_, List.mem_cons_self, hab⟩
    · obtain ⟨b, hb, hab⟩ := ih ha
      exact ⟨b, List.mem_cons_of_mem _ hb, hab⟩

theorem forall₂_of_common (hR : List.Forall₂ R xs ys) (hS : List.Forall₂ S xs zs)
    (hT : ∀ a b c, R a b → S a c → T b c) : List.Forall₂ T ys zs := by
  induction hR generalizing zs with
  | nil =>
    cases hS
    exact .nil
  | cons hab _ ih =>
    cases hS with
    | cons hac hS => exact .cons (hT _ _ _ hab hac) (ih hS)

end Lists

/-! ## 2. Scalars

A scalar stands for the same in all styles that read it alike. -/

/-- What a plain scalar says. -/
def ofPlain (s : String) : Yaml.Plain → Data
  | .null => .null
  | .bool b => .bool b
  | .integer n => .integer n
  | .otherNumber => .number s
  | .text => .text s

def textTag : String := "tag:yaml.org,2002:str"

/-- The tag of the kind of a plain scalar. -/
def tagOf : Yaml.Plain → String
  | .null => "tag:yaml.org,2002:null"
  | .bool _ => "tag:yaml.org,2002:bool"
  | .integer _ => "tag:yaml.org,2002:int"
  | .otherNumber => "tag:yaml.org,2002:float"
  | .text => textTag

/-- What a scalar says: one in quotes is a text, and a tag names the kind. -/
def ofScalar (s : String) : Option String → ScalarStyle → Data
  | none, style => if style = .plain then ofPlain s (Yaml.plainValue s) else .text s
  | some tag, _ =>
    if tag = tagOf (Yaml.plainValue s) then ofPlain s (Yaml.plainValue s)
    else if tag = textTag then .text s
    else .tagged tag s

variable {s s' : String} {tag : Option String} {style : ScalarStyle}

/-- A scalar says what it stands for, its text, or a kind of the document's own. -/
theorem ofScalar_cases (s : String) (tag : Option String) (style : ScalarStyle) :
    (ofScalar s tag style = ofPlain s (Yaml.plainValue s) ∧
      (tag = none ∧ style = .plain ∨ tag = some (tagOf (Yaml.plainValue s)))) ∨
    (ofScalar s tag style = .text s ∧ (tag = none ∧ style ≠ .plain ∨ tag = some textTag)) ∨
    ∃ own, ofScalar s tag style = .tagged own s := by
  cases tag with
  | none =>
    rw [ofScalar]
    split
    · exact Or.inl ⟨rfl, Or.inl ⟨rfl, ‹_›⟩⟩
    · exact Or.inr (Or.inl ⟨rfl, Or.inl ⟨rfl, ‹_›⟩⟩)
  | some tag =>
    rw [ofScalar]
    split
    · exact Or.inl ⟨rfl, Or.inr (congrArg some ‹_›)⟩
    · split
      · exact Or.inr (Or.inl ⟨rfl, Or.inr (congrArg some ‹_›)⟩)
      · exact Or.inr (Or.inr ⟨tag, rfl⟩)

theorem ofScalar_ne_sequence (items : List Data) : ofScalar s tag style ≠ .sequence items := by
  rcases ofScalar_cases s tag style with ⟨h, -⟩ | ⟨h, -⟩ | ⟨own, h⟩
  · rw [h]
    cases Yaml.plainValue s <;> exact nofun
  · rw [h]
    exact nofun
  · rw [h]
    exact nofun

theorem ofScalar_ne_mapping (entries : List (Data × Data)) :
    ofScalar s tag style ≠ .mapping entries := by
  rcases ofScalar_cases s tag style with ⟨h, -⟩ | ⟨h, -⟩ | ⟨own, h⟩
  · rw [h]
    cases Yaml.plainValue s <;> exact nofun
  · rw [h]
    exact nofun
  · rw [h]
    exact nofun

/-- A scalar that says a text says its own, and is none that stands for something else. -/
theorem ofScalar_eq_text (h : ofScalar s tag style = .text s') : s' = s ∧
    (tag = none ∧ (style = .plain → Yaml.plainValue s = .text) ∨ tag = some textTag) := by
  rcases ofScalar_cases s tag style with ⟨h', htag⟩ | ⟨h', htag⟩ | ⟨own, h'⟩
  · rw [h'] at h
    cases hvalue : Yaml.plainValue s with
    | text =>
      rw [hvalue] at h htag
      cases h
      refine ⟨rfl, htag.imp (fun hnone => ⟨hnone.1, fun _ => rfl⟩) id⟩
    | _ =>
      rw [hvalue] at h
      cases h
  · rw [h'] at h
    cases h
    exact ⟨rfl, htag.imp (fun hnone => ⟨hnone.1, fun hplain => absurd hplain hnone.2⟩) id⟩
  · rw [h'] at h
    cases h

/-- So it is with an integer. -/
theorem ofScalar_eq_integer {m : Int} (h : ofScalar s tag style = .integer m) :
    Yaml.plainValue s = .integer m ∧
      (tag = none ∧ style = .plain ∨ tag = some (tagOf (.integer m))) := by
  rcases ofScalar_cases s tag style with ⟨h', htag⟩ | ⟨h', -⟩ | ⟨own, h'⟩
  · rw [h'] at h
    cases hvalue : Yaml.plainValue s with
    | integer n =>
      rw [hvalue] at h htag
      cases h
      exact ⟨rfl, htag⟩
    | _ =>
      rw [hvalue] at h
      cases h
  · rw [h'] at h
    cases h
  · rw [h'] at h
    cases h

/-! ## 3. The order of mappings

A mapping is a set of entries here. -/

/-- The data differ in the order of mappings only. -/
inductive Alike : Data → Data → Prop
  | refl (x : Data) : Alike x x
  | sequence {xs ys : List Data} (h : List.Forall₂ Alike xs ys) :
      Alike (.sequence xs) (.sequence ys)
  | mapping {es fs gs : List (Data × Data)}
      (hkeys : List.Forall₂ Alike (es.map Prod.fst) (fs.map Prod.fst))
      (hvalues : List.Forall₂ Alike (es.map Prod.snd) (fs.map Prod.snd))
      (hset : ∀ f, f ∈ gs ↔ f ∈ fs) : Alike (.mapping es) (.mapping gs)

theorem alike_text {x : Data} (h : Alike x (.text s)) : x = .text s := by
  cases h
  rfl

theorem alike_integer {x : Data} {n : Int} (h : Alike x (.integer n)) : x = .integer n := by
  cases h
  rfl

theorem alike_sequence {x : Data} {ys : List Data} (h : Alike x (.sequence ys)) :
    ∃ xs, x = .sequence xs ∧ List.Forall₂ Alike xs ys := by
  cases h with
  | refl => exact ⟨ys, rfl, List.forall₂_same.mpr fun y _ => .refl y⟩
  | sequence h => exact ⟨_, rfl, h⟩

theorem alike_texts {x : Data} {texts : List String} (h : Alike x (.sequence (texts.map .text))) :
    x = .sequence (texts.map .text) := by
  obtain ⟨xs, rfl, hxs⟩ := alike_sequence h
  clear h
  congr 1
  induction texts generalizing xs with
  | nil => exact List.forall₂_nil_right_iff.mp hxs
  | cons s texts ih =>
    obtain ⟨x, ys, hx, hys, rfl⟩ := List.forall₂_cons_right_iff.mp hxs
    rw [List.map_cons, alike_text hx, ih ys hys]

/-- The entries of two mappings. -/
def AlikeEntry (e f : Data × Data) : Prop := Alike e.1 f.1 ∧ Alike e.2 f.2

theorem AlikeEntry.refl (e : Data × Data) : AlikeEntry e e := ⟨.refl _, .refl _⟩

theorem alike_mapping {x : Data} {gs : List (Data × Data)} (h : Alike x (.mapping gs)) :
    ∃ es, x = .mapping es ∧ (∀ e ∈ es, ∃ g ∈ gs, AlikeEntry e g) ∧
      ∀ g ∈ gs, ∃ e ∈ es, AlikeEntry e g := by
  cases h with
  | refl =>
    exact ⟨gs, rfl, fun e he => ⟨e, he, .refl e⟩, fun g hg => ⟨g, hg, .refl g⟩⟩
  | @mapping es fs _ hkeys hvalues hset =>
    rw [List.forall₂_map_left_iff, List.forall₂_map_right_iff] at hkeys hvalues
    have hentries : List.Forall₂ AlikeEntry es fs :=
      List.Forall₂.mp (fun _ _ => And.intro) hkeys hvalues
    refine ⟨es, rfl, fun e he => ?_, fun g hg => exists_of_forall₂ hentries.flip ((hset g).mp hg)⟩
    obtain ⟨f, hf, hentry⟩ := exists_of_forall₂ hentries he
    exact ⟨f, (hset f).mpr hf, hentry⟩

end Data

namespace Yaml

/-! ## 4. Nodes

The data of a node, with its aliases followed. -/

/-- The node says this. -/
inductive Says (d : Document) : Yaml → Data → Prop
  | scalar (s : String) (tag : Option String) (style : ScalarStyle) :
      Says d (.scalar s tag style) (.ofScalar s tag style)
  | sequence {items : List Yaml} {xs : List Data} (h : List.Forall₂ (Says d) items xs) :
      Says d (.sequence items) (.sequence xs)
  | mapping {entries : List (Yaml × Yaml)} {fs : List (Data × Data)}
      (hkeys : List.Forall₂ (Says d) (entries.map Prod.fst) (fs.map Prod.fst))
      (hvalues : List.Forall₂ (Says d) (entries.map Prod.snd) (fs.map Prod.snd)) :
      Says d (.mapping entries) (.mapping fs)
  | ref {id : Nat} {e : Nat × Yaml} {x : Data}
      (hfind : d.anchored.find? (fun e => e.1 = id) = some e) (h : Says d e.2 x) :
      Says d (.ref id) x

variable {d : Document} {n : Yaml} {x : Data} {s : String} {tag : Option String}
  {style : ScalarStyle} {entries : List (Yaml × Yaml)}

/-- The key and the value of an entry. -/
def SaysEntry (d : Document) (e : Yaml × Yaml) (f : Data × Data) : Prop :=
  Says d e.1 f.1 ∧ Says d e.2 f.2

theorem says_mapping_iff {fs : List (Data × Data)} :
    Says d (.mapping entries) (.mapping fs) ↔ List.Forall₂ (SaysEntry d) entries fs := by
  constructor
  · rintro (_ | _ | ⟨hkeys, hvalues⟩)
    rw [List.forall₂_map_left_iff, List.forall₂_map_right_iff] at hkeys hvalues
    exact List.Forall₂.mp (fun _ _ => And.intro) hkeys hvalues
  · intro h
    constructor
    · rw [List.forall₂_map_left_iff, List.forall₂_map_right_iff]
      exact h.imp fun _ _ => And.left
    · rw [List.forall₂_map_left_iff, List.forall₂_map_right_iff]
      exact h.imp fun _ _ => And.right

/-- What is followed says the same. -/
theorem says_follow (h : Says d n x) : Says d (d.follow n) x := by
  cases h with
  | ref hfind h =>
    rw [Document.follow, hfind]
    exact h
  | scalar => exact .scalar _ _ _
  | sequence h => exact .sequence h
  | mapping hkeys hvalues => exact .mapping hkeys hvalues

theorem says_of_scalar (h : Says d n x) (hn : d.follow n = .scalar s tag style) :
    x = .ofScalar s tag style := by
  have hfollow := says_follow h
  rw [hn] at hfollow
  cases hfollow
  rfl

theorem says_of_sequence {items : List Yaml} (h : Says d n x) (hn : d.follow n = .sequence items) :
    ∃ xs, x = .sequence xs ∧ List.Forall₂ (Says d) items xs := by
  have hfollow := says_follow h
  rw [hn] at hfollow
  cases hfollow with
  | sequence hitems => exact ⟨_, rfl, hitems⟩

theorem says_of_mapping (h : Says d n x) (hn : d.follow n = .mapping entries) :
    ∃ fs, x = .mapping fs ∧ List.Forall₂ (SaysEntry d) entries fs := by
  have hfollow := says_follow h
  rw [hn] at hfollow
  cases hfollow with
  | mapping hkeys hvalues => exact ⟨_, rfl, says_mapping_iff.mp (.mapping hkeys hvalues)⟩

/-! ## 5. Nodes without aliases

Where there are none, the data can be read off the tree. -/

mutual

/-- What a node without aliases says. -/
def said : Yaml → Data
  | .scalar s tag style => .ofScalar s tag style
  | .sequence items => .sequence (saidItems items)
  | .mapping entries => .mapping (saidEntries entries)
  | .ref _ | .torn => .null

def saidItems : List Yaml → List Data
  | [] => []
  | item :: rest => said item :: saidItems rest

def saidEntries : List (Yaml × Yaml) → List (Data × Data)
  | [] => []
  | (k, v) :: rest => (said k, said v) :: saidEntries rest

end

mutual

/-- There are no aliases in the node. -/
def isDirect : Yaml → Bool
  | .scalar .. => true
  | .sequence items => directItems items
  | .mapping entries => directEntries entries
  | .ref _ | .torn => false

def directItems : List Yaml → Bool
  | [] => true
  | item :: rest => isDirect item && directItems rest

def directEntries : List (Yaml × Yaml) → Bool
  | [] => true
  | (k, v) :: rest => isDirect k && isDirect v && directEntries rest

end

theorem said_sequence (items : List Yaml) :
    said (.sequence items) = .sequence (items.map said) := by
  have hitems : saidItems items = items.map said := by
    induction items with
    | nil => rfl
    | cons item items ih => rw [saidItems, ih, List.map_cons]
  rw [said, hitems]

theorem said_mapping (entries : List (Yaml × Yaml)) :
    said (.mapping entries) = .mapping (entries.map fun e => (said e.1, said e.2)) := by
  have hentries : saidEntries entries = entries.map fun e => (said e.1, said e.2) := by
    induction entries with
    | nil => rfl
    | cons e entries ih => rw [saidEntries, ih, List.map_cons]
  rw [said, hentries]

theorem directEntries_iff {entries : List (Yaml × Yaml)} :
    directEntries entries = true ↔ ∀ e ∈ entries, isDirect e.1 = true ∧ isDirect e.2 = true := by
  induction entries with
  | nil => simp [directEntries]
  | cons e entries ih => simp [directEntries, ih, and_assoc]

theorem directItems_iff {items : List Yaml} :
    directItems items = true ↔ ∀ item ∈ items, isDirect item = true := by
  induction items with
  | nil => simp [directItems]
  | cons item items ih => simp [directItems, ih]

mutual

theorem says_iff : ∀ {n : Yaml} {x : Data}, isDirect n = true → (Says d n x ↔ x = said n)
  | .scalar s tag style, x, _ => by
    constructor
    · rintro ⟨⟩
      rfl
    · rintro rfl
      exact .scalar s tag style
  | .sequence items, x, h => by
    constructor
    · rintro (_ | hitems)
      rw [said, (says_items_iff h).mp hitems]
    · rintro rfl
      exact .sequence ((says_items_iff h).mpr rfl)
  | .mapping entries, x, h => by
    constructor
    · intro hsays
      obtain ⟨fs, rfl, hentries⟩ := says_of_mapping hsays rfl
      rw [said, (says_entries_iff h).mp hentries]
    · rintro rfl
      exact says_mapping_iff.mpr ((says_entries_iff h).mpr rfl)

theorem says_items_iff : ∀ {items : List Yaml} {xs : List Data}, directItems items = true →
    (List.Forall₂ (Says d) items xs ↔ xs = saidItems items)
  | [], xs, _ => List.forall₂_nil_left_iff
  | item :: items, xs, h => by
    obtain ⟨hitem, hitems⟩ := (Bool.and_eq_true _ _).mp h
    rw [List.forall₂_cons_left_iff, saidItems]
    constructor
    · rintro ⟨x, ys, hx, hys, rfl⟩
      rw [(says_iff hitem).mp hx, (says_items_iff hitems).mp hys]
    · rintro rfl
      exact ⟨_, _, (says_iff hitem).mpr rfl, (says_items_iff hitems).mpr rfl, rfl⟩

theorem says_entries_iff : ∀ {entries : List (Yaml × Yaml)} {fs : List (Data × Data)},
    directEntries entries = true →
    (List.Forall₂ (SaysEntry d) entries fs ↔ fs = saidEntries entries)
  | [], fs, _ => List.forall₂_nil_left_iff
  | (k, v) :: entries, fs, h => by
    obtain ⟨hkv, hentries⟩ := (Bool.and_eq_true _ _).mp h
    obtain ⟨hk, hv⟩ := (Bool.and_eq_true _ _).mp hkv
    rw [List.forall₂_cons_left_iff, saidEntries]
    constructor
    · rintro ⟨⟨x, y⟩, gs, ⟨hx, hy⟩, hgs, rfl⟩
      obtain rfl := (says_iff hk).mp hx
      obtain rfl := (says_iff hv).mp hy
      rw [(says_entries_iff hentries).mp hgs]
    · rintro rfl
      exact ⟨_, _, ⟨(says_iff hk).mpr rfl, (says_iff hv).mpr rfl⟩,
        (says_entries_iff hentries).mpr rfl, rfl⟩

end

end Yaml
end Foreman

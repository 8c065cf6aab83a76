/-
# The tokens that a scanner still gives

A scanner reads ahead only as far as it has to: a scalar that may be a key waits until it is clear
whether a colon follows.  `Stream s ts` says which tokens a reader gets from the scanner, one after
the other, however far it reads ahead for each of them.

* `peek_of_stream`, `peek_of_ahead`: the next token, looked at once and again.
* `stream_queue`: tokens that wait are given first.
* `StreamIn.fetched`: a token that has to be read is given when it was read.

It hides the queue of the scanner.  Where a stream is known, the reader can be followed without
a look at how many tokens are in hand.
-/
import Foreman.Proofs.Yaml.Literal
import Foreman.Yaml.Scanner

namespace Foreman
namespace Yaml

variable {fuel f : Nat} {s s' : Scanner} {t : Token} {q r ts : List Token}

namespace Scanner

/-! ## 1. Keys that are out of reach

A scalar can be a key only on its own line. -/

/-- No key is dropped where none is out of reach. -/
theorem dropStale_eq_self (h : ∀ k ∈ s.keys, s.isStale k = false) : s.dropStale = some s := by
  have hnone : (s.keys.any fun k => s.isStale k && k.required) = false := by
    rw [List.any_eq_false]
    exact fun k hk => by simp [h k hk]
  have hmap : (s.keys.map fun k => if s.isStale k then { k with possible := false } else k) =
      s.keys := by
    conv_rhs => rw [← List.map_id s.keys]
    exact List.map_congr_left fun k hk => by simp [h k hk]
  rw [dropStale, hnone, if_neg Bool.false_ne_true, hmap]

theorem dropStale_eq_some (h : s.dropStale = some s') : s' = { s with
    keys := s.keys.map fun k => if s.isStale k then { k with possible := false } else k } := by
  unfold dropStale at h
  split at h
  · cases h
  · exact (Option.some.inj h).symm

/-- Keys are dropped only once. -/
theorem dropStale_dropStale (h : s.dropStale = some s') : s'.dropStale = some s' := by
  obtain rfl := dropStale_eq_some h
  refine dropStale_eq_self fun k hk => ?_
  obtain ⟨k₀, -, rfl⟩ := List.mem_map.mp hk
  show s.isStale _ = false
  split
  · rfl
  · exact Bool.not_eq_true _ ▸ ‹_›

/-! ## 2. Filling

The scanner reads on until the first token in hand is certain. -/

/-- The token in front may still become a key. -/
def isUncertain (s : Scanner) : Bool := s.keys.any fun k => k.possible && k.token = s.taken

/-- The scanner knows its next token. -/
structure IsFilled (s : Scanner) : Prop where
  fresh : s.ended = true ∨ s.queue.isEmpty = false ∧ s.dropStale = some s ∧ s.isUncertain = false

theorem IsFilled.fill (h : s.IsFilled) (fuel : Nat) : fill (fuel + 1) s = some s := by
  rcases h with hended | ⟨hqueue, hfresh, hcertain⟩
  · rw [Scanner.fill, if_pos hended]
  · rw [isUncertain] at hcertain
    by_cases hended : s.ended = true
    · rw [Scanner.fill, if_pos hended]
    · simp only [Scanner.fill, hended, hqueue, hfresh, hcertain, Bool.false_eq_true, if_false]

theorem isFilled_of_fill : ∀ {fuel : Nat} {s : Scanner}, fill fuel s = some s' → s'.IsFilled
  | 0, _, h => by cases h
  | fuel + 1, s, h => by
    rw [Scanner.fill] at h
    split at h
    · obtain rfl := Option.some.inj h
      exact ⟨Or.inl ‹_›⟩
    · split at h
      · obtain ⟨s₁, -, h⟩ := Option.bind_eq_some_iff.mp h
        exact isFilled_of_fill h
      · split at h
        · cases h
        · rename_i s₁ hfresh
          split at h
          · obtain ⟨s₂, -, h⟩ := Option.bind_eq_some_iff.mp h
            exact isFilled_of_fill h
          · obtain rfl := Option.some.inj h
            refine ⟨Or.inr ⟨?_, dropStale_dropStale hfresh, Bool.not_eq_true _ ▸ ‹_›⟩⟩
            rw [dropStale_eq_some hfresh]
            exact Bool.not_eq_true _ ▸ ‹_›

theorem fill_succ : ∀ {fuel : Nat} {s : Scanner}, fill fuel s = some s' →
    fill (fuel + 1) s = some s'
  | 0, _, h => by cases h
  | fuel + 1, s, h => by
    rw [Scanner.fill] at h ⊢
    split at h
    · rw [if_pos ‹_›, h]
    · rw [if_neg ‹_›]
      split at h
      · rw [if_pos ‹_›]
        obtain ⟨s₁, hfetch, h⟩ := Option.bind_eq_some_iff.mp h
        rw [hfetch, Option.bind_some, fill_succ h]
      · rw [if_neg ‹_›]
        split at h
        · cases h
        · rename_i s₁ hfresh
          split at h
          · rw [if_pos ‹_›]
            obtain ⟨s₂, hfetch, h⟩ := Option.bind_eq_some_iff.mp h
            rw [hfetch, Option.bind_some, fill_succ h]
          · rw [if_neg ‹_›, h]

theorem fill_mono {g : Nat} (h : fill f s = some s') (hle : f ≤ g) : fill g s = some s' := by
  induction hle with
  | refl => exact h
  | step _ ih => exact fill_succ ih

/-! ## 3. Streams

The tokens that are in hand, and those that are still to be read. -/

/-- The tokens that a reader gets, where it reads ahead at most so often for the first of them. -/
def StreamIn : Nat → Scanner → List Token → Prop
  | _, _, [] => True
  | f, s, t :: ts => ∃ s', fill f s = some s' ∧ s'.queue.head? = some t ∧ StreamIn 4 s'.take ts

/-- The tokens that a reader gets. -/
abbrev Stream (s : Scanner) (ts : List Token) : Prop := StreamIn 4 s ts

/-- The next token is known, and others follow. -/
structure Ahead (s : Scanner) (t : Token) (ts : List Token) : Prop where
  filled : s.IsFilled
  front : s.queue.head? = some t
  more : Stream s.take ts

theorem peek_of_stream (h : Stream s (t :: ts)) : ∃ s', s.peek = some (t, s') ∧ Ahead s' t ts := by
  obtain ⟨s', hfill, hfront, hmore⟩ := h
  refine ⟨s', ?_, isFilled_of_fill hfill, hfront, hmore⟩
  rw [peek, fill_mono hfill (by omega)]
  simp only [hfront, Option.map_some]

theorem peek_of_ahead (h : Ahead s t ts) : s.peek = some (t, s) := by
  rw [peek, h.filled.fill]
  simp only [h.front, Option.map_some]

theorem StreamIn.mono {g : Nat} (h : StreamIn f s ts) (hle : f ≤ g) : StreamIn g s ts := by
  cases ts with
  | nil => trivial
  | cons t ts =>
    obtain ⟨s', hfill, hmore⟩ := h
    exact ⟨s', fill_mono hfill hle, hmore⟩

/-- Past some tokens that wait. -/
def advance (s : Scanner) (n : Nat) : Scanner :=
  { s with queue := s.queue.drop n, taken := s.taken + n }

/-- **Tokens that wait are given first.** -/
theorem stream_queue : ∀ {q : List Token} {s : Scanner} (f : Nat), s.queue = q ++ r →
    (∀ k ∈ s.keys, s.isStale k = false ∧ (k.possible = true → s.taken + q.length ≤ k.token)) →
    Stream (s.advance q.length) ts → q ≠ [] → StreamIn (f + 1) s (q ++ ts)
  | [], s, f, _, _, _, hne => absurd rfl hne
  | t :: q, s, f, hq, hkeys, hmore, _ => by
    have hfilled : s.IsFilled := by
      refine ⟨Or.inr ⟨by rw [hq]; rfl, dropStale_eq_self fun k hk => (hkeys k hk).1, ?_⟩⟩
      rw [isUncertain, List.any_eq_false]
      intro k hk h
      obtain ⟨hpossible, htoken⟩ := (Bool.and_eq_true _ _ ▸ h : _ ∧ _)
      have hlater := (hkeys k hk).2 hpossible
      rw [of_decide_eq_true htoken, List.length_cons] at hlater
      omega
    refine ⟨s, hfilled.fill f, by rw [hq]; rfl, ?_⟩
    have hadvance : s.take.advance q.length = s.advance (t :: q).length := by
      simp [take, advance, Nat.add_assoc, Nat.add_comm 1]
    rw [← hadvance] at hmore
    rcases q with - | ⟨t', q⟩
    · simpa [advance] using hmore
    · refine stream_queue 3 (by rw [take, hq]; rfl) (fun k hk => ⟨(hkeys k hk).1, fun h => ?_⟩)
        hmore (List.cons_ne_nil _ _)
      have hlater := (hkeys k hk).2 h
      rw [List.length_cons, Nat.add_comm _ 1, ← Nat.add_assoc] at hlater
      exact hlater

theorem streamIn_queue (hqueue : s.queue ≠ []) (hkeys : ∀ k ∈ s.keys, k.possible = false)
    (f : Nat) :
    StreamIn (f + 1) s s.queue := by
  have hwait : StreamIn (f + 1) s (s.queue ++ []) := stream_queue f (List.append_nil s.queue).symm
    (fun k hk => ⟨by rw [isStale, hkeys k hk, Bool.false_and], fun h => ?_⟩) trivial hqueue
  · rwa [List.append_nil] at hwait
  · exact absurd ((hkeys k hk).symm.trans h) Bool.false_ne_true

/-- **A token that has to be read is given when it was read.** -/
theorem StreamIn.fetched (hwants : fill (f + 1) s = s.fetch.bind (fill f))
    (hfetch : s.fetch = some s')
    (h : StreamIn f s' ts) : StreamIn (f + 1) s ts := by
  cases ts with
  | nil => trivial
  | cons t ts =>
    obtain ⟨s₁, hfill, hmore⟩ := h
    exact ⟨s₁, by rw [hwants, hfetch, Option.bind_some, hfill], hmore⟩

/-- The next token has to be read. -/
def Wants (s : Scanner) : Prop := ∀ f, fill (f + 1) s = s.fetch.bind (fill f)

theorem wants_of_empty (hended : s.ended = false) (hqueue : s.queue = []) : s.Wants := by
  intro f
  rw [fill, hended, hqueue]
  rfl

/-- A key that is not complete has to be read on. -/
theorem wants_of_uncertain (hended : s.ended = false) (hqueue : s.queue ≠ [])
    (hfresh : ∀ k ∈ s.keys, s.isStale k = false) (huncertain : s.isUncertain = true) :
    s.Wants := by
  intro f
  have hmore : s.queue.isEmpty = false := by simpa using hqueue
  rw [isUncertain] at huncertain
  simp only [fill, hended, hmore, dropStale_eq_self hfresh, huncertain, Bool.false_eq_true,
    if_false, if_true]

/-- Keys that are out of reach do not keep a token back. -/
theorem StreamIn.dropped (hqueue : s.queue ≠ []) (hended : s.ended = false)
    (hdrop : s.dropStale = some s') (h : StreamIn (f + 1) s' ts) : StreamIn (f + 1) s ts := by
  cases ts with
  | nil => trivial
  | cons t ts =>
    obtain ⟨s₁, hfill, hmore⟩ := h
    refine ⟨s₁, ?_, hmore⟩
    have hmore : s.queue.isEmpty = false := by simpa using hqueue
    have hagain := dropStale_dropStale hdrop
    have hsame := dropStale_eq_some hdrop
    have hended' : s'.ended = false := by rw [hsame, ← hended]
    have hmore' : s'.queue.isEmpty = false := by rw [hsame, ← hmore]
    rw [fill] at hfill ⊢
    rw [hended', hmore', hagain] at hfill
    rw [hended, hmore, hdrop]
    exact hfill

end Scanner
end Yaml
end Foreman

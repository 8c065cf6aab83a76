/-
# Literal blocks

A literal block holds its text line by line.  The marks in its first line say how deep the lines
are indented, if the first of them does not show it, and what becomes of the line ends at the end.

* `scanBlockBreaks_lines`: line ends, and the blanks that indent the next line.
* `scanBlockLines_body`: the lines up to the last one with text in it.
* `scanBlock_literal`: what is written as a literal block is read back.
-/
import Foreman.Proofs.Yaml.Plain

namespace Foreman
namespace Yaml

variable {fuel i l k n m : Nat} {b e x : Char} {bs es s cs acc rest : List Char}

/-! ## 1. Between the lines

Line ends and indentation are kept apart from the text of the lines. -/

/-- The text goes on behind `n` blanks: as a line of the block that has text in it, or with ink. -/
inductive Begins (indent : Nat) : Nat → List Char → Prop
  | line {rest : List Char} (hindent : 0 < indent) (h : ∀ x ∈ rest.head?, isBreak x = false) :
      Begins indent indent rest
  | ink {n : Nat} {rest : List Char} (hn : indent = 0 ∨ n ≤ indent) (h : StartsInk rest) :
      Begins indent n rest

variable {indent : Nat}

theorem Begins.not_break (h : Begins indent n rest) : ∀ x ∈ rest.head?, isBreak x = false := by
  cases h with
  | line _ h => exact h
  | ink _ h => exact fun x hx => (isInk_iff.mp (h x hx)).2

theorem takeWhile_spaces (n : Nat) (rest : List Char) :
    ((spaces n ++ rest).takeWhile (· = ' ')).length = n + (rest.takeWhile (· = ' ')).length := by
  rw [List.takeWhile_append_of_pos (by simp [spaces]), List.length_append, length_spaces]

theorem takeWhile_startsInk (h : StartsInk rest) : rest.takeWhile (· = ' ') = [] := by
  cases rest with
  | nil => rfl
  | cons x rest =>
    refine List.takeWhile_cons_of_neg fun hx => ?_
    obtain rfl := of_decide_eq_true hx
    exact absurd (startsInk_cons.mp h) (by decide)

theorem blanks_begins (h : Begins indent n rest) (i l : Nat) :
    scanBlockBreaks.blanks indent ⟨spaces n ++ rest, i, l, 0⟩ = ⟨rest, i + n, l, n⟩ := by
  have hcount : (if indent = 0 then n + (rest.takeWhile (· = ' ')).length
      else min (n + (rest.takeWhile (· = ' ')).length) (indent - 0)) = n := by
    cases h with
    | line hindent _ =>
      rw [if_neg (by omega)]
      omega
    | ink hn h =>
      rw [takeWhile_startsInk h, List.length_nil]
      split <;> omega
  have hskip := Cursor.skipN_append (spaces n) rest i l 0
  rw [length_spaces, Nat.zero_add] at hskip
  simp only [scanBlockBreaks.blanks, takeWhile_spaces, hcount, hskip]

theorem blanks_break (hb : isBreak b = true) (rest : List Char) (i l k : Nat) :
    scanBlockBreaks.blanks indent ⟨b :: rest, i, l, k⟩ = ⟨b :: rest, i, l, k⟩ := by
  have hnone : (b :: rest).takeWhile (· = ' ') = [] := by
    refine List.takeWhile_cons_of_neg fun h => ?_
    obtain rfl := of_decide_eq_true h
    cases hb
  simp only [scanBlockBreaks.blanks, hnone, List.length_nil, Nat.zero_min, ite_self]
  rfl

theorem not_tabbed (h : Begins indent n rest) (i l : Nat) :
    ((indent = 0 || n < indent) && Cursor.has ⟨rest, i, l, n⟩ 0 '\t') = false := by
  cases h with
  | line hindent _ => simp; omega
  | ink _ h =>
    cases rest with
    | nil => simp [Cursor.has, Cursor.peekAt]
    | cons x rest =>
      have hx : x ≠ '\t' := by
        rintro rfl
        exact absurd (startsInk_cons.mp h) (by decide)
      simp [Cursor.has, Cursor.peekAt, hx]

/-- Line ends are collected up to the next line with text. -/
theorem scanBlockBreaks_lines (hrest : Begins indent n rest) (d : Nat) :
    ∀ {bs : List Char} (acc : List Char) {fuel i l : Nat}, (∀ c ∈ bs, isPlainBreak c = true) →
      bs.length < fuel →
      scanBlockBreaks fuel indent d acc ⟨bs ++ (spaces n ++ rest), i, l, 0⟩ =
        some (acc ++ bs, max d n, ⟨rest, i + bs.length + n, l + bs.length, n⟩)
  | [], acc, fuel + 1, i, l, _, _ => by
    have hstop : Cursor.breakAt ⟨rest, i + n, l, n⟩ 0 = false := by
      have h := hrest.not_break
      cases rest with
      | nil => rfl
      | cons x rest => exact h x rfl
    simp only [scanBlockBreaks, List.nil_append, blanks_begins hrest, not_tabbed hrest, hstop,
      Bool.false_eq_true, if_false, List.append_nil, List.length_nil, Nat.add_zero]
  | b :: bs, acc, fuel + 1, i, l, hbs, hfuel => by
    rw [List.forall_mem_cons] at hbs
    have hbreak := isBreak_of_isPlainBreak hbs.1
    have htab : Cursor.has ⟨b :: (bs ++ (spaces n ++ rest)), i, l, 0⟩ 0 '\t' = false := by
      refine decide_eq_false fun h => ?_
      obtain rfl := Option.some.inj h
      cases hbreak
    have hbreakAt : Cursor.breakAt ⟨b :: (bs ++ (spaces n ++ rest)), i, l, 0⟩ 0 = true := hbreak
    have ih := scanBlockBreaks_lines hrest d (acc ++ [b]) (i := i + 1) (l := l + 1) hbs.2
      (Nat.lt_of_succ_lt_succ hfuel)
    simp only [scanBlockBreaks, List.cons_append, blanks_break hbreak, htab, hbreakAt,
      Bool.and_false,
      Bool.false_eq_true, if_false, if_true, Cursor.readLine_break hbs.1, Nat.max_zero, ih]
    rw [List.append_assoc, List.singleton_append, List.length_cons, Nat.add_right_comm i,
      Nat.add_right_comm l]
    rfl

/-! ## 2. The lines

The lines with text in them, up to the last. -/

theorem literalBody_append {w : List Char} (h : ∀ x ∈ w, isBreak x = false) (rest : List Char) :
    literalBody m false (w ++ rest) = w ++ literalBody m false rest := by
  induction w with
  | nil => rfl
  | cons x w ih =>
    rw [List.forall_mem_cons] at h
    rw [List.cons_append, literalBody, h.1, ih h.2]
    rfl

/-- Line ends are followed by the indentation, if a line with text follows. -/
theorem literalBody_breaks (h : ∀ c ∈ bs, isBreak c = true)
    (hrest : ∃ x s, rest = x :: s ∧ isBreak x = false) :
    literalBody m true (bs ++ rest) = bs ++ (spaces m ++ literalBody m false rest) := by
  induction bs with
  | nil =>
    obtain ⟨x, s, rfl, hx⟩ := hrest
    simp [literalBody, hx]
  | cons c bs ih =>
    rw [List.forall_mem_cons] at h
    rw [List.cons_append, literalBody, if_pos h.1, ih h.2, List.cons_append]

theorem literalBody_only_breaks (h : ∀ c ∈ bs, isBreak c = true) (broken : Bool) :
    literalBody m broken bs = bs := by
  induction bs generalizing broken with
  | nil => rfl
  | cons c bs ih =>
    rw [List.forall_mem_cons] at h
    rw [literalBody, if_pos h.1, ih h.2]

theorem length_le_literalBody (broken : Bool) (cs : List Char) :
    cs.length ≤ (literalBody m broken cs).length := by
  induction cs generalizing broken with
  | nil => exact Nat.zero_le _
  | cons x cs ih =>
    have htrue := ih true
    have hfalse := ih false
    rw [literalBody]
    split <;> simp <;> omega

theorem literalBody_trail {w : List Char} (h : ∀ c ∈ bs, isBreak c = true) (broken : Bool) :
    literalBody m broken (w ++ bs) = literalBody m broken w ++ bs := by
  induction w generalizing broken with
  | nil => exact literalBody_only_breaks h broken
  | cons x w ih =>
    rw [List.cons_append, literalBody, literalBody, ih, ih]
    split
    · rfl
    · rw [List.append_assoc, List.cons_append]

/-- One line and the line ends behind it. -/
theorem scanBlockLines_line {w : List Char} (hw : ∀ x ∈ w, isBreak x = false)
    (he : isPlainBreak e = true) (hes : ∀ c ∈ es, isPlainBreak c = true)
    (hrest : Begins m n rest) (leading more acc : List Char) (wasGap : Bool)
    (fuel i l : Nat) : ∃ gap i', scanBlockLines true m (fuel + 1) leading more wasGap acc
        ⟨w ++ (e :: es ++ (spaces n ++ rest)), i, l, m⟩ =
      scanBlockLines true m fuel [e] es gap (acc ++ (leading ++ more) ++ w)
        ⟨rest, i', l + 1 + es.length, n⟩ := by
  have hread :
      Cursor.takeWhile (fun x => !isBreak x) ⟨w ++ (e :: es ++ (spaces n ++ rest)), i, l, m⟩ =
      (w, ⟨e :: es ++ (spaces n ++ rest), i + w.length, l, m + w.length⟩) := by
    refine Cursor.takeWhile_append (fun x hx => by simp [hw x hx]) (fun x hx => ?_) i l m
    obtain rfl : e = x := Option.some.inj hx
    simp [isBreak_of_isPlainBreak he]
  have hmore : Cursor.atEnd ⟨w ++ (e :: es ++ (spaces n ++ rest)), i, l, m⟩ = false := by
    simp [Cursor.atEnd]
  have hbreaks := scanBlockBreaks_lines hrest 0 [] (i := i + w.length + 1) (l := l + 1) hes
    (show es.length < (es ++ (spaces n ++ rest)).length + 1 by rw [List.length_append]; omega)
  refine ⟨Cursor.gapAt ⟨w ++ (e :: es ++ (spaces n ++ rest)), i, l, m⟩ 0,
    i + w.length + 1 + es.length + n, ?_⟩
  simp only [List.cons_append] at hread hmore hbreaks ⊢
  simp only [scanBlockLines, hmore, hread, Cursor.readLine_break he, hbreaks, ne_eq,
    not_true_eq_false, decide_false, Bool.or_self, Bool.false_eq_true, if_false, Bool.not_true,
    Bool.false_and, List.nil_append]

/-- **The lines of a block up to the last one with text**, with the line ends behind it. -/
theorem scanBlockLines_body (hrest : StartsInk rest) (hn : n < m) (he : isPlainBreak e = true)
    (hes : ∀ c ∈ es, isPlainBreak c = true) : ∀ {cs : List Char} (fuel : Nat)
    (leading more acc : List Char) (wasGap : Bool) (i l : Nat),
    (∀ c ∈ cs, isBreak c = true → isPlainBreak c = true) →
    (∃ x s, cs = x :: s ∧ isBreak x = false) → (∀ x ∈ cs.getLast?, isBreak x = false) →
    cs.length < fuel → ∃ i' l', l ≤ l' ∧
      scanBlockLines true m fuel leading more wasGap acc
          ⟨literalBody m false cs ++ (e :: es ++ (spaces n ++ rest)), i, l, m⟩ =
        some (acc ++ (leading ++ more) ++ cs, [e], es, ⟨rest, i', l', n⟩) := by
  intro cs
  -- on the length, as a step takes a whole line and the line ends behind it
  induction hlength : cs.length using Nat.strongRecOn generalizing cs with
  | ind len ih =>
    intro fuel leading more acc wasGap i l hplain hhead hlast hfuel
    rcases fuel with - | fuel
    · exact absurd hfuel (Nat.not_lt_zero _)
    obtain ⟨w, r, rfl, hw, hr⟩ := exists_run (fun x => !isBreak x) cs
    have hsolid : ∀ x ∈ w, isBreak x = false := fun x hx => by simpa using hw x hx
    rw [literalBody_append hsolid, List.append_assoc]
    rcases r with - | ⟨b, r⟩
    · -- the last line
      obtain ⟨gap, i', hline⟩ := scanBlockLines_line hsolid he hes (.ink (Or.inr hn.le) hrest)
        leading more acc wasGap fuel i l
      rcases fuel with - | fuel
      · obtain ⟨x, s, heq, -⟩ := hhead
        rw [heq, List.length_cons] at hlength
        omega
      · refine ⟨i', l + 1 + es.length, by omega, ?_⟩
        rw [literalBody, List.nil_append, hline, scanBlockLines, if_pos (by simp; omega),
          List.append_nil]
    · -- line ends, and another line with text
      obtain ⟨bs, s, rfl, hbs, hs⟩ := exists_run isBreak r
      have hbreaks : ∀ c ∈ b :: bs, isBreak c = true :=
        List.forall_mem_cons.mpr ⟨by simpa using hr b rfl, hbs⟩
      rw [← List.cons_append, ← List.append_assoc] at hplain hlast hlength
      have hplains : ∀ c ∈ b :: bs, isPlainBreak c = true := fun c hc =>
        hplain c (List.mem_append_left s (List.mem_append_right w hc)) (hbreaks c hc)
      have hmore : ∃ x q, s = x :: q ∧ isBreak x = false := by
        rcases s with - | ⟨x, q⟩
        · obtain ⟨c, hc⟩ : ∃ c, (b :: bs).getLast? = some c := ⟨_, List.getLast?_cons⟩
          rw [List.append_nil, List.getLast?_append_of_ne_nil w (List.cons_ne_nil b bs)] at hlast
          have hbreak := hbreaks c (List.mem_of_getLast? hc)
          rw [hlast c hc] at hbreak
          cases hbreak
        · exact ⟨x, q, rfl, hs x rfl⟩
      have hlast' : ∀ x ∈ s.getLast?, isBreak x = false := by
        obtain ⟨x, q, rfl, -⟩ := hmore
        rwa [List.getLast?_append_of_ne_nil _ (List.cons_ne_nil x q)] at hlast
      have hbegins : Begins m m (literalBody m false s ++ (e :: es ++ (spaces n ++ rest))) := by
        obtain ⟨x, q, rfl, hx⟩ := hmore
        exact .line (by omega) (by simp [literalBody, hx])
      rw [List.length_append, List.length_append, List.length_cons] at hlength
      obtain ⟨gap, i₁, hline⟩ := scanBlockLines_line hsolid (hplains b List.mem_cons_self)
        (fun c hc => hplains c (List.mem_cons_of_mem b hc)) hbegins leading more acc wasGap fuel i l
      obtain ⟨i₂, l₂, hl, hread⟩ := ih s.length (by omega) rfl fuel [b] bs
        (acc ++ (leading ++ more) ++ w) gap i₁ (l + 1 + bs.length)
        (fun c hc => hplain c (List.mem_append_right _ hc)) hmore hlast' (by omega)
      refine ⟨i₂, l₂, by omega, ?_⟩
      rw [literalBody, if_pos (hbreaks b List.mem_cons_self), literalBody_breaks hbs hmore]
      simp only [List.append_assoc, List.cons_append] at hline hread ⊢
      rw [hline, hread]
      rfl

/-! ## 3. The marks

How deep the lines are, and what follows them, is written in the first line. -/

/-- What the mark at the end says. -/
def chompingOf (cs : List Char) : Chomping :=
  match chompMark cs with
  | ['-'] => .strip
  | ['+'] => .keep
  | _ => .clip

theorem scanBlockHeader_marks (cs rest : List Char) (i l k : Nat) : ∃ i' k',
    scanBlockHeader ⟨literalMarks cs ++ '\n' :: rest, i, l, k⟩ =
      some (chompingOf cs, if cs.head?.any isSpaceOrBreak then 2 else 0,
        ⟨'\n' :: rest, i', l, k'⟩) := by
  have hmark : chompMark cs = ['-'] ∨ chompMark cs = ['+'] ∨ chompMark cs = [] := by
    unfold chompMark
    split
    · exact Or.inl rfl
    · split <;> simp
    · split
      · exact Or.inl rfl
      · split <;> simp
  unfold literalMarks chompingOf
  rcases hmark with hmark | hmark | hmark <;> rw [hmark] <;> split <;> exact ⟨_, _, rfl⟩

/-- A text with ink or blanks in it is cut behind its first and before its last line ends. -/
theorem exists_ends (cs : List Char) : (∀ c ∈ cs, isBreak c = true) ∨
    ∃ front mid trail, cs = front ++ (mid ++ trail) ∧ (∀ c ∈ front, isBreak c = true) ∧
      (∀ c ∈ trail, isBreak c = true) ∧ (∃ x s, mid = x :: s ∧ isBreak x = false) ∧
      ∃ s x, mid = s ++ [x] ∧ isBreak x = false := by
  obtain ⟨front, r, rfl, hfront, hr⟩ := exists_run isBreak cs
  rcases r with - | ⟨x, r⟩
  · exact Or.inl (by simpa using hfront)
  · obtain ⟨back, q, hback, htrail, hq⟩ := exists_run isBreak (x :: r).reverse
    rcases q with - | ⟨y, q⟩
    · rw [List.append_nil] at hback
      have hx := htrail x (hback ▸ List.mem_reverse.mpr List.mem_cons_self)
      rw [hr x rfl] at hx
      cases hx
    · have hcut : x :: r = (q.reverse ++ [y]) ++ back.reverse := by
        rw [← List.reverse_reverse (x :: r), hback, List.reverse_append, List.reverse_cons]
      refine Or.inr ⟨front, q.reverse ++ [y], back.reverse, by rw [← hcut], hfront,
        by simpa using htrail, ?_, _, y, rfl, hq y rfl⟩
      rcases hmid : q.reverse ++ [y] with - | ⟨z, s⟩
      · simp at hmid
      · rw [hmid, List.cons_append] at hcut
        exact ⟨z, s, rfl, (List.cons.inj hcut).1 ▸ hr x rfl⟩

/-- What the block scanner puts behind the last line with text. -/
def tailOf (leading more : List Char) : Chomping → List Char
  | .strip => []
  | .clip => leading
  | .keep => leading ++ more

theorem chompingOf_strip (hx : isBreak x = false) : chompingOf (s ++ [x]) = .strip := by
  have hmark : chompMark (s ++ [x]) = ['-'] := by
    rw [chompMark, List.reverse_append, List.reverse_singleton, List.singleton_append]
    cases s.reverse <;> simp [hx]
  rw [chompingOf, hmark]
  rfl

theorem chompingOf_clip (hx : isBreak x = false) (hb : isBreak b = true) :
    chompingOf (s ++ [x, b]) = .clip := by
  have hmark : chompMark (s ++ [x, b]) = [] := by simp [chompMark, hx, hb]
  rw [chompingOf, hmark]

theorem chompingOf_keep (he : isBreak e = true) (hb : isBreak b = true) :
    chompingOf (s ++ [e, b]) = .keep := by
  have hmark : chompMark (s ++ [e, b]) = ['+'] := by simp [chompMark, he, hb]
  rw [chompingOf, hmark]
  rfl

theorem tailOf_breaks (h : ∀ c ∈ e :: es, isBreak c = true) :
    tailOf [] (e :: es) (chompingOf (e :: es)) = e :: es := by
  rcases List.eq_nil_or_concat' es with rfl | ⟨s, b, rfl⟩
  · have he := h e List.mem_cons_self
    simp [chompingOf, chompMark, he, tailOf]
  · rcases List.eq_nil_or_concat' (e :: s) with hnil | ⟨s', e', hs⟩
    · cases hnil
    · rw [← List.cons_append, hs] at h ⊢
      rw [List.append_assoc, List.singleton_append] at h ⊢
      rw [chompingOf_keep (h e' (by simp)) (h b (by simp))]
      rfl

theorem tailOf_trail (hes : ∀ c ∈ e :: es, isBreak c = true) (hx : isBreak x = false) :
    tailOf [e] es (chompingOf (s ++ [x] ++ e :: es)) = e :: es := by
  rcases List.eq_nil_or_concat' es with rfl | ⟨t, b, rfl⟩
  · rw [List.append_assoc, List.singleton_append, chompingOf_clip hx (hes e List.mem_cons_self)]
    rfl
  · rcases List.eq_nil_or_concat' (e :: t) with hnil | ⟨t', e', ht⟩
    · cases hnil
    · have hcut : s ++ [x] ++ e :: (t ++ [b]) = s ++ [x] ++ t' ++ [e', b] := by
        rw [← List.cons_append, ht]
        simp
      have he' : isBreak e' = true := hes e' (by rw [← List.cons_append, ht]; simp)
      rw [hcut, chompingOf_keep he' (hes b (by simp))]
      rfl

theorem scanBlock_of_lines (parent : Int) {marks body breaks text leading more : List Char}
    {chomping : Chomping} {digit given deepest indent i' k' : Nat} {c c' : Cursor}
    (hheader : scanBlockHeader ⟨marks ++ '\n' :: body, i + 1, l, k + 1⟩ =
      some (chomping, digit, ⟨'\n' :: body, i', l, k'⟩))
    (hgiven : (if digit = 0 then 0 else (max parent 0).toNat + digit) = given)
    (hbreaks : scanBlockBreaks (body.length + 1) given 0 [] ⟨body, i' + 1, l + 1, 0⟩ =
      some (breaks, deepest, c))
    (hindent : (if given ≠ 0 then given else max (max deepest (parent + 1).toNat) 1) = indent)
    (hlines : scanBlockLines true indent (c.rest.length + 1) [] breaks false [] c =
      some (text, leading, more, c')) :
    scanBlock true parent ⟨'|' :: marks ++ '\n' :: body, i, l, k⟩ =
      some (.scalar (String.ofList (text ++ tailOf leading more chomping)) .literal, c') := by
  have hgap : ∀ x ∈ ('\n' :: body).head?, isGap x = false := by simp [isGap]
  have hskip := Cursor.skipWhile_self hgap i' l k'
  have hcomment : Cursor.has ⟨'\n' :: body, i', l, k'⟩ 0 '#' = false := by
    simp [Cursor.has, Cursor.peekAt]
  have hstop : Cursor.stopAt ⟨'\n' :: body, i', l, k'⟩ 0 = true := rfl
  have hline : Cursor.skipLine ⟨'\n' :: body, i', l, k'⟩ = ⟨body, i' + 1, l + 1, 0⟩ := rfl
  rw [← hgiven] at hbreaks hindent
  rw [← hindent] at hlines
  simp only [scanBlock, List.cons_append, Cursor.skip, hheader, Option.bind_eq_bind,
    Option.bind_some, hskip, hcomment, hstop, hline, hbreaks, hlines, Bool.false_eq_true, if_false,
    Bool.not_true]
  cases chomping <;> rfl

section Block

variable {level : Nat}

/-- A text of line ends only. -/
theorem scanBlock_breaks (hbs : ∀ c ∈ e :: es, isPlainBreak c = true) (hrest : StartsInk rest)
    (hn : n ≤ level) (i l k : Nat) : ∃ i' l', l ≤ l' ∧
      scanBlock true level
          ⟨'|' :: literalMarks (e :: es) ++ '\n' :: (e :: es ++ (spaces n ++ rest)), i, l, k⟩ =
        some (.scalar (String.ofList (e :: es)) .literal, ⟨rest, i', l', n⟩) := by
  have hbreaks : ∀ c ∈ e :: es, isBreak c = true := fun c hc => isBreak_of_isPlainBreak (hbs c hc)
  have hbegins : Begins (level + 2) n rest := .ink (Or.inr (by omega)) hrest
  obtain ⟨i₁, k₁, hheader⟩ := scanBlockHeader_marks (e :: es) (e :: es ++ (spaces n ++ rest))
    (i + 1) l (k + 1)
  have hread := scanBlockBreaks_lines hbegins 0 [] (i := i₁ + 1) (l := l + 1) hbs
    (show (e :: es).length < (e :: es ++ (spaces n ++ rest)).length + 1 by
      rw [List.length_append]; omega)
  rw [if_pos (by simp [isSpaceOrBreak, hbreaks])] at hheader
  have hlines : scanBlockLines true (level + 2) (rest.length + 1) [] ([] ++ e :: es) false []
      ⟨rest, i₁ + 1 + (e :: es).length + n, l + 1 + (e :: es).length, n⟩ = some ([], [], e :: es,
        ⟨rest, i₁ + 1 + (e :: es).length + n, l + 1 + (e :: es).length, n⟩) := by
    rw [scanBlockLines, if_pos (by simp; omega)]
    rfl
  have hscan := scanBlock_of_lines level hheader (by simp) hread (if_pos (by omega)) hlines
  rw [tailOf_breaks hbreaks] at hscan
  exact ⟨_, _, by omega, hscan⟩

/-- The indentation is told by a mark, or else by the first line, which begins with ink. -/
theorem exists_given (level : Nat) {marked : Bool} (hx : isBreak x = false)
    (hink : marked = false → isInk x = true) (rest : List Char) : ∃ given,
      (if (if marked then 2 else 0) = 0 then 0
        else (max (level : Int) 0).toNat + if marked then 2 else 0) = given ∧
      Begins given (level + 2) (x :: rest) ∧
      (if given ≠ 0 then given else max (max (max 0 (level + 2)) ((level : Int) + 1).toNat) 1) =
        level + 2 := by
  cases marked with
  | true =>
    refine ⟨level + 2, by simp, .line (by omega) ?_, if_pos (by omega)⟩
    rintro y ⟨⟩
    exact hx
  | false => exact ⟨0, rfl, .ink (Or.inl rfl) (startsInk_cons.mpr (hink rfl)), by simp⟩

/-- A text with a line that is not empty. -/
theorem scanBlock_text {front mid trail : List Char} (hcs : cs = front ++ (mid ++ trail))
    (hprint : ∀ c ∈ cs, isPrintable c = true) (hfront : ∀ c ∈ front, isBreak c = true)
    (hstart : ∃ x s, mid = x :: s ∧ isBreak x = false)
    (hend : ∀ x ∈ mid.getLast?, isBreak x = false) (hes : ∀ c ∈ e :: es, isPlainBreak c = true)
    (hrest : StartsInk rest) (hn : n ≤ level) (i l k : Nat) : ∃ i' l', l ≤ l' ∧
      scanBlock true level ⟨'|' :: literalMarks cs ++ '\n' :: (front ++ (spaces (level + 2) ++
          (literalBody (level + 2) false mid ++ (e :: es ++ (spaces n ++ rest))))), i, l, k⟩ =
        some (.scalar (String.ofList (front ++ mid ++ tailOf [e] es (chompingOf cs))) .literal,
          ⟨rest, i', l', n⟩) := by
  have hplain : ∀ c ∈ cs, isBreak c = true → isPlainBreak c = true :=
    fun c hc hbreak => by rw [isPlainBreak, hbreak, hprint c hc, Bool.and_self]
  have hbefore : ∀ c ∈ front, isPlainBreak c = true := fun c hc =>
    hplain c (by simp [hcs, hc]) (hfront c hc)
  have hwithin : ∀ c ∈ mid, isBreak c = true → isPlainBreak c = true := fun c hc =>
    hplain c (by simp [hcs, hc])
  obtain ⟨x, s, hmid, hx⟩ := hstart
  have hink : cs.head?.any isSpaceOrBreak = false → isInk x = true := by
    intro hhead
    have hnone : front = [] := by
      rcases front with - | ⟨c, front⟩
      · rfl
      · simp [hcs, isSpaceOrBreak, hfront] at hhead
    have hspace : x ≠ ' ' := by
      rintro rfl
      simp [hcs, hnone, hmid, isSpaceOrBreak] at hhead
    refine isInk_iff.mpr ⟨?_, hx⟩
    by_contra hgap
    exact hspace (eq_space_of_isGap (Bool.not_eq_false _ ▸ hgap) (hprint x (by simp [hcs, hmid])))
  -- the depth is read off the first line with text, or the header says it
  obtain ⟨given, hgiven, hbegins, hindent⟩ := exists_given level hx hink
    (literalBody (level + 2) false s ++ (e :: es ++ (spaces n ++ rest)))
  have hbody : x :: (literalBody (level + 2) false s ++ (e :: es ++ (spaces n ++ rest))) =
      literalBody (level + 2) false mid ++ (e :: es ++ (spaces n ++ rest)) := by
    rw [hmid, literalBody, hx]
    rfl
  have hlength := length_le_literalBody (m := level + 2) false mid
  rw [hbody] at hbegins
  obtain ⟨i₁, k₁, hheader⟩ := scanBlockHeader_marks cs (front ++ (spaces (level + 2) ++
    (literalBody (level + 2) false mid ++ (e :: es ++ (spaces n ++ rest))))) (i + 1) l (k + 1)
  -- header, empty lines in front, lines with text, and what is kept of the line ends
  have hread := scanBlockBreaks_lines hbegins 0 [] (i := i₁ + 1) (l := l + 1) hbefore
    (show front.length < (front ++ (spaces (level + 2) ++ (literalBody (level + 2) false mid ++
      (e :: es ++ (spaces n ++ rest))))).length + 1 by rw [List.length_append]; omega)
  obtain ⟨i₂, l₂, hl, hlines⟩ := scanBlockLines_body hrest (show n < level + 2 by omega)
    (hes e List.mem_cons_self) (fun c hc => hes c (List.mem_cons_of_mem e hc))
    ((literalBody (level + 2) false mid ++ (e :: es ++ (spaces n ++ rest))).length + 1)
    [] ([] ++ front) [] false (i₁ + 1 + front.length + (level + 2)) (l + 1 + front.length)
    hwithin ⟨x, s, hmid, hx⟩ hend (by rw [List.length_append]; omega)
  have hscan := scanBlock_of_lines level hheader hgiven hread hindent hlines
  exact ⟨i₂, l₂, by omega, by simpa using hscan⟩

/-- **A literal block is read as its text**, up to what stands behind it. -/
theorem scanBlock_literal {t : String} (h : allowsLiteral t.toList = true) (hline : t.toList ≠ [])
    (hrest : StartsInk rest) (hn : n ≤ level) (i l k : Nat) :
    ∃ i' l', l ≤ l' ∧
      scanBlock true level
          ⟨scalarChars (level + 2) t .literal ++ (spaces n ++ rest), i, l, k⟩ =
        some (.scalar t .literal, ⟨rest, i', l', n⟩) := by
  have hprint : ∀ c ∈ t.toList, isPrintable c = true := by
    simp only [allowsLiteral, needsEscapes, Bool.and_eq_true, Bool.not_eq_true',
      Bool.or_eq_false_iff, List.any_eq_false, Bool.not_eq_false] at h
    exact h.1.1
  have hplain : ∀ c ∈ t.toList, isBreak c = true → isPlainBreak c = true :=
    fun c hc hbreak => by rw [isPlainBreak, hbreak, hprint c hc, Bool.and_self]
  rw [← String.ofList_toList (s := t)]
  generalize t.toList = cs at *
  -- a text of line ends only has no line with text to read the depth off
  rcases exists_ends cs with hall | ⟨front, mid, trail, rfl, hfront, htrail, hstart, s, x, hmid, hx⟩
  · obtain ⟨e, es, rfl⟩ := List.exists_cons_of_ne_nil hline
    have hlast : (e :: es).getLast?.any isBreak = true := by
      rw [List.getLast?_cons, Option.any_some]
      exact hall _ (List.mem_of_getLast? List.getLast?_cons)
    have hscan := scanBlock_breaks (fun c hc => hplain c hc (hall c hc)) hrest hn i l k
    simpa [scalarChars, literalBody_only_breaks hall, hlast] using hscan
  · have hend : ∀ y ∈ mid.getLast?, isBreak y = false := by simp [hmid, hx]
    have hbody : literalBody (level + 2) true (front ++ (mid ++ trail)) =
        front ++ (spaces (level + 2) ++ (literalBody (level + 2) false mid ++ trail)) := by
      rw [← literalBody_trail htrail]
      refine literalBody_breaks hfront ?_
      obtain ⟨y, q, rfl, hy⟩ := hstart
      exact ⟨y, q ++ trail, rfl, hy⟩
    rcases trail with - | ⟨e, es⟩
    · -- the last line has a line end of its own
      obtain ⟨i', l', hl, hscan⟩ := scanBlock_text rfl hprint hfront hstart hend
        (List.forall_mem_singleton.mpr (by decide) : ∀ c ∈ ['\n'], isPlainBreak c = true) hrest hn
        i l k
      have hlast : (front ++ (mid ++ [])).getLast?.any isBreak = false := by simp [hmid, hx]
      have htail : tailOf ['\n'] [] (chompingOf (front ++ (mid ++ []))) = [] := by
        rw [List.append_nil, hmid, ← List.append_assoc, chompingOf_strip hx]
        rfl
      refine ⟨i', l', hl, ?_⟩
      rw [htail, List.append_nil] at hscan
      rw [scalarChars, String.toList_ofList, hbody, hlast, List.append_nil]
      rw [List.append_nil] at hscan
      simpa using hscan
    · obtain ⟨i', l', hl, hscan⟩ := scanBlock_text rfl hprint hfront hstart hend
        (fun c hc => hplain c (by simp at hc ⊢; tauto) (htrail c hc)) hrest hn i l k
      have hlast : (front ++ (mid ++ e :: es)).getLast?.any isBreak = true := by
        rw [← List.append_assoc, List.getLast?_append_of_ne_nil _ (List.cons_ne_nil e es),
          List.getLast?_cons, Option.any_some]
        exact htrail _ (List.mem_of_getLast? List.getLast?_cons)
      have htail : tailOf [e] es (chompingOf (front ++ (mid ++ e :: es))) = e :: es := by
        rw [hmid, ← List.append_assoc, ← List.append_assoc, tailOf_trail htrail hx]
      refine ⟨i', l', hl, ?_⟩
      rw [htail, List.append_assoc] at hscan
      rw [scalarChars, String.toList_ofList, hbody, hlast]
      simpa using hscan

end Block

end Yaml
end Foreman

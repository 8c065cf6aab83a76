/-
# Scanning blocks

How the scanner goes through a text in blocks: from a place where the last token was taken, over
blanks and a line end, to the next token, and past it.  Blocks that are deeper than the column end
there.

`At` tells where the next token starts, `Continues` which tokens come from there on, and `Behind`
that the colon of a key was just passed.

* `at_of_blanks`, `at_of_line`: up to the next token.
* `fetch_at`: the blocks that end there.
* `continues_dash`, `continues_key`, `continues_end`: the tokens at the start of a line.
* `gives_scalar`, `gives_brackets`: the nodes within a line.

The scanner works ahead, so what is proved of a place in the text is proved of the scanner that
has come there with the tokens before it still in hand.
-/
import Foreman.Proofs.Yaml.Stream

namespace Foreman
namespace Yaml
namespace Scanner

variable {fuel i l k n g T : Nat} {indent b d : Int} {outer extras base stack : List Int}
  {q pre us : List Token} {allowed : Bool} {K : PossibleKey} {rest w : List Char} {s s' : Scanner}

/-! ## 1. Up to the next token

Blanks and a line end are passed over. -/

/-- A token starts here, or the text is over. -/
def StartsToken (rest : List Char) : Prop :=
  ∀ x ∈ rest.head?, isInk x = true ∧ x ≠ '#' ∧ x ≠ '\uFEFF'

theorem StartsToken.startsInk (h : StartsToken rest) : StartsInk rest := fun x hx => (h x hx).1

/-- A scanner in a block, outside brackets. -/
def inBlock (c : Cursor) (q : List Token) (taken : Nat) (allowed : Bool) (key : PossibleKey)
    (indent : Int) (outer : List Int) : Scanner :=
  { cursor := c, queue := q, taken := taken, keyAllowed := allowed, keys := [key],
    indent := indent, outer := outer }

theorem not_has_of_startsToken {x : Char} (hrest : StartsToken rest)
    (hx : x = '#' ∨ x = '\uFEFF' ∨ isInk x = false) : Cursor.has ⟨rest, i, l, k⟩ 0 x = false := by
  cases rest with
  | nil => rfl
  | cons y rest =>
    obtain ⟨hink, hcomment, hmark⟩ := hrest y rfl
    refine decide_eq_false fun h => ?_
    obtain rfl : y = x := Option.some.inj h
    rcases hx with rfl | rfl | hx
    · exact hcomment rfl
    · exact hmark rfl
    · rw [hx] at hink
      cases hink

theorem skipToToken_blanks (hcursor : s.cursor = ⟨spaces g ++ rest, i, l, k⟩)
    (hrest : StartsToken rest) :
    skipToToken (fuel + 1) s = { s with cursor := ⟨rest, i + g, l, k + g⟩ } := by
  have hmark : Cursor.has ⟨spaces g ++ rest, i, l, k⟩ 0 '\uFEFF' = false := by
    cases g with
    | zero => exact not_has_of_startsToken hrest (by decide)
    | succ g => rfl
  have hskip : ∀ tabs : Bool, Cursor.skipWhile (fun x => x = ' ' || (tabs && x = '\t'))
      ⟨spaces g ++ rest, i, l, k⟩ = ⟨rest, i + g, l, k + g⟩ := by
    intro tabs
    rw [Cursor.skipWhile_append (by simp [spaces]) (fun x hx => ?_), length_spaces]
    have hgap := (isInk_iff.mp (hrest x hx).1).1
    simp only [isGap, Bool.or_eq_false_iff] at hgap
    simp [hgap]
  have hcomment : Cursor.has ⟨rest, i + g, l, k + g⟩ 0 '#' = false :=
    not_has_of_startsToken hrest (Or.inl rfl)
  have hstop : Cursor.breakAt ⟨rest, i + g, l, k + g⟩ 0 = false := by
    cases rest with
    | nil => rfl
    | cons x rest => exact (isInk_iff.mp (hrest x rfl).1).2
  simp only [skipToToken, hcursor, hmark, Bool.and_false, Bool.false_eq_true, if_false, hskip,
    hcomment, hstop]

theorem skipToToken_line (hflow : s.flow = 0)
    (hcursor : s.cursor = ⟨'\n' :: (spaces g ++ rest), i, l, k⟩) (hrest : StartsToken rest) :
    skipToToken (fuel + 2) s =
      { s with cursor := ⟨rest, i + 1 + g, l + 1, g⟩, keyAllowed := true } := by
  have hmark : Cursor.has ⟨'\n' :: (spaces g ++ rest), i, l, k⟩ 0 '\uFEFF' = false := rfl
  have hskip : ∀ tabs : Bool, Cursor.skipWhile (fun x => x = ' ' || (tabs && x = '\t'))
      ⟨'\n' :: (spaces g ++ rest), i, l, k⟩ = ⟨'\n' :: (spaces g ++ rest), i, l, k⟩ := by
    intro tabs
    refine Cursor.skipWhile_self (fun x hx => ?_) i l k
    obtain rfl := Option.some.inj hx
    simp
  have hcomment : Cursor.has ⟨'\n' :: (spaces g ++ rest), i, l, k⟩ 0 '#' = false := rfl
  have hstop : Cursor.breakAt ⟨'\n' :: (spaces g ++ rest), i, l, k⟩ 0 = true := rfl
  have hline : Cursor.skipLine ⟨'\n' :: (spaces g ++ rest), i, l, k⟩ =
      ⟨spaces g ++ rest, i + 1, l + 1, 0⟩ := rfl
  rw [skipToToken]
  simp only [hcursor, hmark, Bool.and_false, Bool.false_eq_true, if_false, hskip,
    hcomment, hstop, if_true, hline, inFlow, hflow, Nat.lt_irrefl, decide_false, Bool.not_false,
    Bool.or_true]
  rw [skipToToken_blanks rfl hrest, Nat.zero_add]

/-- Nothing is passed where the next token starts right here. -/
theorem fetch_here (hrest : StartsToken s.cursor.rest)
    (hstale : ∀ k ∈ s.keys, s.isStale k = false) :
    s.fetch = (s.closeBlocks s.cursor.column).token := by
  have hskip : skipToToken (s.cursor.rest.length + 1) s = s := skipToToken_blanks (g := 0) rfl hrest
  rw [fetch, hskip, dropStale_eq_self hstale]

/-- The scanner stands before the next token, which starts at the column. -/
def At (s : Scanner) (pre : List Token) (allowed : Bool) (stack : List Int) (n : Nat)
    (rest : List Char) : Prop :=
  s.Wants ∧ ∃ i l T K indent outer, K.possible = false ∧ stack = indent :: outer ∧
    (skipToToken (s.cursor.rest.length + 1) s).dropStale =
      some (inBlock ⟨rest, i, l, n⟩ pre T allowed K indent outer)

/-- A key that was possible is none any more on a later line, or too far away. -/
theorem dropStale_inBlock {c : Cursor} (hK : K.possible = true →
      K.required = false ∧ (K.line < c.line ∨ K.index + keyLimit < c.index)) :
    (inBlock c q T allowed K indent outer).dropStale =
      some (inBlock c q T allowed { K with possible := false } indent outer) := by
  cases hpossible : K.possible with
  | false =>
    rw [dropStale_eq_self (by simp [inBlock, isStale, hpossible]), ← hpossible]
  | true =>
    obtain ⟨hrequired, hline⟩ := hK hpossible
    have hstale : (inBlock c q T allowed K indent outer).isStale K = true := by
      rw [isStale, hpossible, Bool.true_and, Bool.or_eq_true]
      exact hline.imp decide_eq_true decide_eq_true
    have hkeys : (inBlock c q T allowed K indent outer).keys = [K] := rfl
    rw [dropStale, hkeys, List.any_cons, List.map_cons, hstale, if_neg (by simp [hrequired])]
    rfl

theorem at_of_blanks (hK : K.possible = false) (hrest : StartsToken rest) (i l k T : Nat) :
    At (inBlock ⟨spaces g ++ rest, i, l, k⟩ [] T allowed K indent outer) [] allowed
      (indent :: outer) (k + g) rest := by
  refine ⟨wants_of_empty rfl rfl, i + g, l, T, K, indent, outer, hK, rfl, ?_⟩
  rw [skipToToken_blanks rfl hrest]
  exact dropStale_eq_self (by simp [inBlock, isStale, hK])

/-- A scalar may wait before a line end; it is no key any more behind it. -/
theorem at_of_line
    (hwants : (inBlock ⟨'\n' :: (spaces g ++ rest), i, l, k⟩ q T allowed K indent outer).Wants)
    (hK : K.possible = true → K.required = false ∧ K.line ≤ l) (hrest : StartsToken rest) :
    At (inBlock ⟨'\n' :: (spaces g ++ rest), i, l, k⟩ q T allowed K indent outer) q true
      (indent :: outer) g rest := by
  have hskip : skipToToken (('\n' :: (spaces g ++ rest)).length + 1)
      (inBlock ⟨'\n' :: (spaces g ++ rest), i, l, k⟩ q T allowed K indent outer) =
      inBlock ⟨rest, i + 1 + g, l + 1, g⟩ q T true K indent outer := skipToToken_line rfl rfl hrest
  refine ⟨hwants, i + 1 + g, l + 1, T, { K with possible := false }, indent, outer, rfl, rfl, ?_⟩
  rw [show (inBlock ⟨'\n' :: (spaces g ++ rest), i, l, k⟩ q T allowed K indent outer).cursor.rest =
    '\n' :: (spaces g ++ rest) from rfl, hskip]
  exact dropStale_inBlock fun h => ⟨(hK h).1, Or.inl (Nat.lt_succ_of_le (hK h).2)⟩

/-! ## 2. Blocks that end

Where a line starts less deep than blocks around it, each of these gives an end. -/

theorem closeBlocks_inBlock {c : Cursor} (hextras : ∀ j ∈ extras, d < j) (hb : b ≤ d)
    (hstack : indent :: outer = extras ++ b :: base) :
    (inBlock c q T allowed K indent outer).closeBlocks d =
      inBlock c (q ++ List.replicate extras.length .blockEnd) T allowed K b base := by
  induction extras generalizing indent outer q with
  | nil =>
    obtain ⟨rfl, rfl⟩ := List.cons.inj hstack
    rw [List.length_nil, List.replicate_zero, List.append_nil, closeBlocks]
    cases outer with
    | nil => rfl
    | cons j outer =>
      have hkeep : ¬d < indent := by omega
      simp [inBlock, unroll, inFlow, hkeep]
  | cons j extras ih =>
    rw [List.forall_mem_cons] at hextras
    obtain ⟨rfl, houter⟩ := List.cons.inj hstack
    -- the block that ends has another around it
    obtain ⟨j, rest, hrest⟩ : ∃ j rest, extras ++ b :: base = j :: rest := by
      cases extras <;> exact ⟨_, _, rfl⟩
    have hclosed := ih (q := q ++ [.blockEnd]) hextras.2 hrest.symm
    rw [List.append_assoc, List.singleton_append, ← List.replicate_succ, closeBlocks] at hclosed
    rw [List.length_cons, ← hclosed, houter, List.append_eq, hrest, closeBlocks]
    simp [inBlock, unroll, inFlow, enqueue, hextras.1]

/-- The token at a place is read when the blocks that end there are closed. -/
theorem fetch_at (h : At s pre allowed (extras ++ b :: base) n rest)
    (hextras : ∀ j ∈ extras, (n : Int) < j) (hb : b ≤ n) : ∃ i l T K, K.possible = false ∧ s.fetch =
      (inBlock ⟨rest, i, l, n⟩ (pre ++ List.replicate extras.length .blockEnd) T allowed K b
        base).token := by
  obtain ⟨-, i, l, T, K, indent, outer, hK, hstack, hskip⟩ := h
  refine ⟨i, l, T, K, hK, ?_⟩
  rw [fetch, hskip]
  exact congrArg token (closeBlocks_inBlock hextras hb hstack.symm)

/-- No block ends where the line goes on. -/
theorem fetch_at_deeper (h : At s pre allowed (b :: base) n rest) (hb : b ≤ n) :
    ∃ i l T K, K.possible = false ∧
      s.fetch = (inBlock ⟨rest, i, l, n⟩ pre T allowed K b base).token := by
  obtain ⟨i, l, T, K, hK, hfetch⟩ := fetch_at h (List.forall_mem_nil _) hb
  rw [List.length_nil, List.replicate_zero, List.append_nil] at hfetch
  exact ⟨i, l, T, K, hK, hfetch⟩

/-! ## 3. What comes next

What the scanner gives from a place on, as far as the text in front of it is known. -/

/-- At the start of a line that begins with this, blocks deeper than `d` end, and these tokens
follow. -/
def Continues (base : List Int) (d : Int) (n : Nat) (rest : List Char) (us : List Token) : Prop :=
  ∀ ⦃s pre extras⦄, (∀ j ∈ extras, d < j) → At s pre true (extras ++ base) n rest →
    StreamIn 3 s (pre ++ List.replicate extras.length .blockEnd ++ us)

/-- Within a line that goes on with this, these tokens follow. -/
def Gives (stack : List Int) (allowed : Bool) (n : Nat) (rest : List Char) (us : List Token) :
    Prop :=
  ∀ ⦃s⦄, At s [] allowed stack n rest → Stream s us

/-- With a token that waits, where no block ends. -/
theorem Continues.waiting (h : Continues stack d n rest us) (pre : List Token)
    (hs : At s pre true stack n rest) : StreamIn 3 s (pre ++ us) := by
  have hmore := h (List.forall_mem_nil _) hs
  rwa [List.length_nil, List.replicate_zero, List.append_nil] at hmore

theorem Continues.gives (h : Continues stack d n rest us) : Gives stack true n rest us :=
  fun _ hs => (h.waiting [] hs).mono (by omega)

/-- The colon of a key was just passed. -/
def Behind (s : Scanner) (stack : List Int) (rest : List Char) : Prop :=
  ∃ (i l k T : Nat) (K : PossibleKey) (indent : Int) (outer : List Int),
    K.possible = false ∧ stack = indent :: outer ∧ indent < k ∧
    s = inBlock ⟨rest, i, l, k⟩ [] T false K indent outer

/-- Tokens that wait in a block. -/
theorem streamIn_inBlock {c : Cursor} (hK : K.possible = false) (hq : q ≠ [])
    (h : Stream (inBlock c [] (T + q.length) allowed K indent outer) us) (f : Nat) :
    StreamIn (f + 1) (inBlock c q T allowed K indent outer) (q ++ us) := by
  refine stream_queue (r := []) f (List.append_nil q).symm ?_ ?_ hq
  · simp [inBlock, isStale, hK]
  · simpa [advance, inBlock] using h

/-! ## 4. Dashes

An item of a list. -/

theorem token_dash (hK : K.possible = false) :
    (inBlock ⟨'-' :: ' ' :: rest, i, l, n⟩ q T true K n base).token =
    some (inBlock ⟨' ' :: rest, i + 1, l, n + 1⟩ (q ++ [.blockEntry]) T true K n base) := by
  have hkey : ({ K with possible := false } : PossibleKey) = K := by rw [← hK]
  simp [inBlock, token, Cursor.peek, Cursor.isMarker, Cursor.has, Cursor.peekAt,
    Cursor.gapOrStopAt_one, isApart, isGap, blockEntry, roll, inFlow, dropKey, mark, enqueue,
    Cursor.skipN, Cursor.skip, hK, hkey]

/-- **A dash in front of an item**, in the column of the block. -/
theorem continues_dash (hrest : StartsToken rest)
    (h : Gives ((n : Int) :: base) true (n + 2) rest us) :
    Continues ((n : Int) :: base) n n ('-' :: ' ' :: rest) (.blockEntry :: us) := by
  intro s pre extras hextras hs
  obtain ⟨i, l, T, K, hK, hfetch⟩ := fetch_at hs hextras (Int.le_refl n)
  rw [token_dash hK] at hfetch
  refine StreamIn.fetched (hs.1 2) hfetch ?_
  rw [List.append_cons _ _ us]
  exact streamIn_inBlock hK (List.append_ne_nil_of_right_ne_nil _ (List.cons_ne_nil _ _))
    (h (at_of_blanks (g := 1) hK hrest _ _ _ _)) 1

/-! ## 5. Keys

A key, which waits for its colon. -/

/-- A token that begins like a plain scalar is one. -/
theorem token_plain {x : Char} (hcursor : s.cursor = ⟨x :: rest, i, l, k⟩) (hflow : s.flow = 0)
    (hink : isInk x = true) (hlead : isLeadMark x rest.head? = false)
    (hmarker : k ≠ 0 ∨ isFieldChar x = true) : s.token = s.plain := by
  have hno : ∀ y, isFieldChar y = false → Cursor.isMarker y ⟨x :: rest, i, l, k⟩ = false := by
    intro y hy
    rcases hmarker with hk | hx
    · simp [Cursor.isMarker, hk]
    · exact not_isMarker_of_isFieldChar hx hy rest i l k
  have hdash := hno '-' (by decide)
  have hdot := hno '.' (by decide)
  obtain ⟨hgap, -⟩ := isInk_iff.mp hink
  have hstop := Cursor.gapOrStopAt_one x rest i l k
  have hblank : isApart rest.head? = false → Cursor.gapAt ⟨x :: rest, i, l, k⟩ 1 = false := by
    intro h
    cases rest with
    | nil => rfl
    | cons y rest => exact (Bool.or_eq_false_iff.mp h).1
  obtain ⟨hmark, hthree⟩ := Bool.or_eq_false_iff.mp hlead
  simp at hmark
  cases happart : isApart rest.head? with
  | true =>
    simp [happart] at hthree
    simp [token, hcursor, Cursor.peek, hdash, hdot, hstop, happart, hmark, hthree, startsPlain,
      isIndicator, hgap]
  | false =>
    simp [token, hcursor, Cursor.peek, hdash, hdot, hstop, happart, hmark, startsPlain, isIndicator,
      hgap, hflow, inFlow, hblank happart]

theorem not_isLeadMark_of_isFieldChar {x : Char} (h : isFieldChar x = true) (next : Option Char) :
    isLeadMark x next = false := by
  have hne : ∀ y : Char, isFieldChar y = false → x ≠ y := fun _ => ne_of_isFieldChar h
  simp [isLeadMark, hne, isFieldChar]

/-- Where a key may start, the next token may be one. -/
theorem saveKey_allowed {c : Cursor} (hK : K.possible = false) :
    (inBlock c q T true K b base).saveKey = some (inBlock c q T true
      { possible := true, required := b = c.column, token := T + q.length, index := c.index,
        line := c.line, column := c.column } b base) := by
  simp [inBlock, saveKey, dropKey, hK, inFlow]

theorem saveKey_forbidden {c : Cursor} :
    (inBlock c q T false K b base).saveKey = some (inBlock c q T false K b base) := rfl

/-- A token that is deeper than the block may be a key, but need not. -/
theorem exists_saveKey {c : Cursor} (hK : K.possible = false) (hb : b ≠ c.column) (q : List Token)
    (T : Nat) (allowed : Bool) (base : List Int) : ∃ K',
    (inBlock c q T allowed K b base).saveKey = some (inBlock c q T allowed K' b base) ∧
      (K'.possible = true → K'.required = false ∧ K'.line = c.line ∧ K'.token = T + q.length) := by
  cases allowed with
  | true => exact ⟨_, saveKey_allowed hK, fun _ => ⟨decide_eq_false hb, rfl, rfl⟩⟩
  | false => exact ⟨K, saveKey_forbidden, fun h => absurd (hK.symm.trans h) Bool.false_ne_true⟩

section Scalars

variable {c c' : Cursor} {t : Token} {newLine : Bool}

theorem plain_inBlock (hsave : s.saveKey = some (inBlock c q T allowed K b base))
    (hscan : scanPlain false b c = some (t, newLine, c')) :
    s.plain = some (inBlock c' (q ++ [t]) T newLine K b base) := by
  rw [plain, hsave]
  exact congrArg (Option.map _) hscan

theorem keyToken_inBlock {scan : Cursor → Option (Token × Cursor)}
    (hsave : s.saveKey = some (inBlock c q T allowed K b base)) (hscan : scan c = some (t, c')) :
    s.keyToken scan = some (inBlock c' (q ++ [t]) T false K b base) := by
  rw [keyToken, hsave]
  exact congrArg (Option.map _) hscan

theorem block_inBlock (hK : K.possible = false) (hscan : scanBlock true b c = some (t, c')) :
    (inBlock c q T allowed K b base).block true = some (inBlock c' (q ++ [t]) T true K b base) := by
  have hkey : ({ K with possible := false } : PossibleKey) = K := by rw [← hK]
  have hdrop :
      (inBlock c q T allowed K b base).dropKey = some (inBlock c q T allowed K b base) := by
    simp [inBlock, dropKey, hK, hkey]
  rw [block, hdrop]
  exact congrArg (Option.map _) hscan

end Scalars

/-- The word of a key, which waits for its colon. -/
theorem token_word (hK : K.possible = false) (hw : ∀ x ∈ w, isFieldChar x = true) (hne : w ≠ [])
    (hrest : isApart rest.head? = true) :
    (inBlock ⟨w ++ ':' :: rest, i, l, n⟩ q T true K b base).token =
      some (inBlock ⟨':' :: rest, i + w.length, l, n + w.length⟩
        (q ++ [.scalar (String.ofList w) .plain]) T false
        ⟨true, b = n, T + q.length, i, l, n⟩ b base) := by
  have hscan : scanPlain false b ⟨w ++ ':' :: rest, i, l, n⟩ = _ := scanPlain_key hw hne hrest
  obtain ⟨x, w, rfl⟩ := List.exists_cons_of_ne_nil hne
  have hx := hw x List.mem_cons_self
  rw [token_plain rfl rfl (isInk_of_isFieldChar hx) (not_isLeadMark_of_isFieldChar hx _)
    (Or.inr hx)]
  exact plain_inBlock (saveKey_allowed hK) hscan

/-- The colon behind it: the word becomes a key, and may start a mapping. -/
theorem fetch_colon {j : Nat} (hj : j ≤ keyLimit) (hb : b ≤ n) (hrest : isApart rest.head? = true)
    (required : Bool) (t : Token) :
    (inBlock ⟨':' :: rest, i + j, l, n + j⟩ [t] T false ⟨true, required, T, i, l, n⟩ b base).fetch =
      some (inBlock ⟨rest, i + j + 1, l, n + j + 1⟩
        ((if b < n then [.blockMappingStart] else []) ++ [.key, t, .value]) T false
        ⟨false, required, T, i, l, n⟩ (if b < n then n else b)
        (if b < n then b :: base else base)) := by
  have hstart : StartsToken (':' :: rest) := by
    rintro y ⟨⟩
    decide
  have hclosed : (inBlock ⟨':' :: rest, i + j, l, n + j⟩ [t] T false ⟨true, required, T, i, l, n⟩ b
      base).closeBlocks (n + j : Nat) = _ :=
    closeBlocks_inBlock (List.forall_mem_nil _) (by omega) rfl
  rw [fetch_here hstart (by simp [inBlock, isStale, hj])]
  refine (congrArg token hclosed).trans ?_
  by_cases hlt : b < n <;>
    simp [inBlock, token, Cursor.peek, Cursor.isMarker, Cursor.has, Cursor.peekAt,
      Cursor.gapOrStopAt_one, hrest, inFlow, valueMark, insertAt, roll, mark, enqueue, Cursor.skipN,
      Cursor.skip, hlt]

/-- The tokens of a key: a mapping starts if its column is deeper than the block. -/
def keyTokens (b : Int) (n : Nat) (w : List Char) : List Token :=
  (if b < n then [.blockMappingStart] else []) ++ [.key, .scalar (String.ofList w) .plain, .value]

theorem streamIn_colon {j : Nat} {required : Bool} (hj : j ≤ keyLimit) (hb : b ≤ n)
    (hrest : isApart rest.head? = true)
    (h : ∀ ⦃s⦄, Behind s (n :: if b < n then b :: base else base) rest → Stream s us) :
    StreamIn 2 (inBlock ⟨':' :: rest, i + j, l, n + j⟩ [.scalar (String.ofList w) .plain] T false
      ⟨true, required, T, i, l, n⟩ b base) (keyTokens b n w ++ us) := by
  refine StreamIn.fetched (wants_of_uncertain rfl (by simp [inBlock]) ?_ ?_ 1)
    (fetch_colon hj hb hrest required _) ?_
  · simp [inBlock, isStale, hj]
  · simp [inBlock, isUncertain]
  · refine streamIn_inBlock rfl (by split <;> simp) (h ?_) 0
    have hindent : (if b < n then (n : Int) else b) = n := by split <;> omega
    rw [hindent]
    exact ⟨_, _, _, _, _, _, _, rfl, rfl, by omega, rfl⟩

/-- **A key at the start of a line**, and what follows its colon. -/
theorem continues_key (hw : ∀ x ∈ w, isFieldChar x = true) (hne : w ≠ [])
    (hlength : w.length ≤ keyLimit) (hrest : isApart rest.head? = true) (hb : b ≤ n)
    (h : ∀ ⦃s⦄, Behind s (n :: if b < n then b :: base else base) rest → Stream s us) :
    Continues (b :: base) n n (w ++ ':' :: rest) (keyTokens b n w ++ us) := by
  intro s pre extras hextras hs
  obtain ⟨i, l, T, K, hK, hfetch⟩ := fetch_at hs hextras hb
  rw [token_word hK hw hne hrest] at hfetch
  refine StreamIn.fetched (hs.1 2) hfetch ?_
  generalize pre ++ List.replicate extras.length Token.blockEnd = q
  have hcolon : ∀ T, StreamIn 2 (inBlock ⟨':' :: rest, i + w.length, l, n + w.length⟩
      [.scalar (String.ofList w) .plain] T false ⟨true, b = n, T, i, l, n⟩ b base)
        (keyTokens b n w ++ us) := fun T => streamIn_colon hlength hb hrest h
  by_cases hq : q = []
  · subst hq
    exact hcolon T
  · refine stream_queue 1 rfl ?_ ?_ hq
    · simp [inBlock, isStale, hlength]
    · simpa [advance, inBlock] using (hcolon (T + q.length)).mono (by omega)

/-! ## 6. Scalars

A value behind a colon or a dash, in each of the styles. -/

/-- A scalar that was a possible key, and is none any more. -/
theorem streamIn_dropped {c : Cursor} (hK : K.possible = true →
      K.required = false ∧ (K.line < c.line ∨ K.index + keyLimit < c.index)) (hq : q ≠ [])
    (h : Stream (inBlock c [] (T + q.length) allowed { K with possible := false } indent outer) us)
    (f : Nat) : StreamIn (f + 1) (inBlock c q T allowed K indent outer) (q ++ us) :=
  StreamIn.dropped hq rfl (dropStale_inBlock hK) (streamIn_inBlock rfl hq h f)

/-- The style can hold the text. -/
def FitsStyle (t : String) : ScalarStyle → Prop
  | .plain => t.toList ≠ [] ∧ allowsPlain t.toList = true
  | .singleQuoted => FitsSingle t.toList
  | .doubleQuoted => True
  | .literal => t.toList ≠ [] ∧ allowsLiteral t.toList = true
  | .folded => False

variable {L : Nat} {t : String}

theorem token_literal (hcursor : s.cursor = ⟨'|' :: w, i, l, k⟩) (hflow : s.flow = 0) :
    s.token = s.block true := by
  simp [token, hcursor, Cursor.peek, Cursor.isMarker, Cursor.has, Cursor.peekAt, inFlow, hflow]

theorem token_quoted {single : Bool} (hcursor : s.cursor = ⟨quoteMark single :: w, i, l, k⟩) :
    s.token = s.keyToken (scanQuoted single) := by
  cases single <;>
    simp [token, hcursor, Cursor.peek, Cursor.isMarker, Cursor.has, Cursor.peekAt, quoteMark]

theorem token_text (hfits : FitsStyle t .plain) (hk : k ≠ 0) (hflow : s.flow = 0)
    (hcursor : s.cursor = ⟨t.toList ++ '\n' :: w, i, l, k⟩) : s.token = s.plain := by
  obtain ⟨x, r, hstart, hink, -⟩ := (plainRun_of_allowed hfits.1 hfits.2).start
  have hallowed := hfits.2
  rw [hstart] at hcursor hallowed
  exact token_plain hcursor hflow hink (not_isLeadMark_of_allowed hallowed w) (Or.inl hk)

section Gives

variable (h : Continues (L :: base) d n rest us) (hn : n ≤ L) (hrest : StartsToken rest)
  (hk : L < k)

include h hn hrest hk

theorem gives_literal (hfits : FitsStyle t .literal) :
    Gives (L :: base) allowed k (scalarChars (L + 2) t .literal ++ (spaces n ++ rest))
      (.scalar t .literal :: us) := by
  intro s hs
  obtain ⟨i, l, T, K, hK, hfetch⟩ := fetch_at_deeper hs (by omega)
  obtain ⟨i', l', hl, hscan⟩ := scanBlock_literal hfits.2 hfits.1 hrest.startsInk hn i l k
  refine StreamIn.fetched (hs.1 3)
    (hfetch.trans ((token_literal rfl rfl).trans (block_inBlock hK hscan))) ?_
  refine streamIn_inBlock (q := [_]) hK (List.cons_ne_nil _ _) ?_ 2
  exact h.gives (at_of_blanks (g := 0) hK hrest _ _ _ _)

theorem gives_plain (hfits : FitsStyle t .plain) :
    Gives (L :: base) allowed k (scalarChars (L + 2) t .plain ++ (spaces n ++ rest))
      (.scalar t .plain :: us) := by
  intro s hs
  have hrun := plainRun_of_allowed hfits.1 hfits.2
  obtain ⟨i, l, T, K, hK, hfetch⟩ := fetch_at_deeper hs (by omega)
  have hchars : scalarChars (L + 2) t .plain ++ (spaces n ++ rest) =
      t.toList ++ '\n' :: (spaces n ++ rest) := by
    simp [scalarChars]
  rw [hchars] at hfetch
  obtain ⟨i', hscan⟩ := scanPlain_line hrun hrest.startsInk (show (n : Int) ≤ L by omega)
    (show (L : Int) < k by omega) i l
  rw [String.ofList_toList] at hscan
  obtain ⟨K', hsave, hK'⟩ := exists_saveKey (c := ⟨t.toList ++ '\n' :: (spaces n ++ rest), i, l, k⟩)
    hK (show (L : Int) ≠ k by omega) [] T allowed base
  refine StreamIn.fetched (hs.1 3)
    (hfetch.trans ((token_text hfits (by omega) rfl rfl).trans (plain_inBlock hsave hscan))) ?_
  refine streamIn_dropped (q := [_]) (fun hpossible => ?_) (List.cons_ne_nil _ _) ?_ 2
  · obtain ⟨hrequired, hline, -⟩ := hK' hpossible
    exact ⟨hrequired, Or.inl (hline ▸ Nat.lt_succ_self l)⟩
  · exact h.gives (at_of_blanks (g := 0) rfl hrest _ _ _ _)

omit hn in
theorem gives_quoted {single : Bool} {body : List Char} (hfits : QuotesAs single body t.toList) :
    Gives (L :: base) allowed k
      (quoteMark single :: body ++ quoteMark single :: '\n' :: (spaces n ++ rest))
      (.scalar t (if single then .singleQuoted else .doubleQuoted) :: us) := by
  intro s hs
  obtain ⟨i, l, T, K, hK, hfetch⟩ := fetch_at_deeper hs (by omega)
  obtain ⟨i', l', k', hl, hscan⟩ := scanQuoted_of_quotesAs hfits ('\n' :: (spaces n ++ rest))
    (by simp) i l k
  obtain ⟨K', hsave, hK'⟩ := exists_saveKey
    (c := ⟨quoteMark single :: body ++ quoteMark single :: '\n' :: (spaces n ++ rest), i, l, k⟩)
    hK (show (L : Int) ≠ k by omega) [] T allowed base
  refine StreamIn.fetched (hs.1 3)
    (hfetch.trans ((token_quoted rfl).trans (keyToken_inBlock hsave hscan))) ?_
  by_cases hfar : K'.possible = true ∧ ¬(K'.line < l' ∨ K'.index + keyLimit < i')
  · -- it could still be a key, and waits for the next line
    obtain ⟨hpossible, hnear⟩ := hfar
    obtain ⟨hrequired, hline, htoken⟩ := hK' hpossible
    rw [not_or] at hnear
    refine h.waiting [_] (at_of_line ?_ (fun _ => ⟨hrequired, hline ▸ hl⟩) hrest)
    refine wants_of_uncertain rfl (List.cons_ne_nil _ _) ?_ ?_
    · simp only [inBlock, isStale, List.mem_singleton, forall_eq, hnear, decide_false,
        Bool.or_self, Bool.and_false]
    · simp [inBlock, isUncertain, hpossible, htoken]
  · refine streamIn_dropped (q := [_]) (fun hpossible => ?_) (List.cons_ne_nil _ _) ?_ 2
    · exact ⟨(hK' hpossible).1, by_contra fun hnear => hfar ⟨hpossible, hnear⟩⟩
    · refine h.gives (at_of_line (wants_of_empty rfl rfl) ?_ hrest)
      exact fun h => absurd h Bool.false_ne_true

/-- **A scalar behind its key or its dash**, if its style can hold the text. -/
theorem gives_scalar {style : ScalarStyle} (hfits : FitsStyle t style) :
    Gives (L :: base) allowed k (scalarChars (L + 2) t style ++ (spaces n ++ rest))
      (.scalar t style :: us) := by
  cases style with
  | plain => exact gives_plain h hn hrest hk hfits
  | literal => exact gives_literal h hn hrest hk hfits
  | folded => exact hfits.elim
  | singleQuoted =>
    simpa [scalarChars, quoteMark] using
      gives_quoted h hrest hk (quotesAs_singleBody (m := L + 1) hfits)
  | doubleQuoted =>
    simpa [scalarChars, quoteMark] using gives_quoted h hrest hk (quotesAs_doubleChar t.toList)

end Gives

/-! ## 7. Empty lists

A list without items is written between brackets. -/

/-- A scanner behind an opening bracket. -/
def inBrackets (c : Cursor) (q : List Token) (taken : Nat) (key : PossibleKey) (indent : Int)
    (outer : List Int) : Scanner :=
  { cursor := c, queue := q, taken := taken, keys := [{}, key], flow := 1, indent := indent,
    outer := outer }

theorem token_bracket : (inBlock ⟨'[' :: w, i, l, k⟩ q T false K b base).token =
    some (inBrackets ⟨w, i + 1, l, k + 1⟩ (q ++ [.flowSequenceStart]) T K b base) := by
  simp [inBlock, inBrackets, token, Cursor.peek, Cursor.isMarker, Cursor.has, Cursor.peekAt,
    openFlow, saveKey, mark, enqueue, Cursor.skipN, Cursor.skip]

theorem fetch_bracket (hK : K.possible = false) :
    (inBrackets ⟨']' :: w, i, l, k⟩ q T K b base).fetch =
      some (inBlock ⟨w, i + 1, l, k + 1⟩ (q ++ [.flowSequenceEnd]) T false K b base) := by
  have hstart : StartsToken (']' :: w) := by
    rintro y ⟨⟩
    decide
  have hopen : ∀ d, (inBrackets ⟨']' :: w, i, l, k⟩ q T K b base).closeBlocks d =
      inBrackets ⟨']' :: w, i, l, k⟩ q T K b base := by
    intro d
    cases base <;> simp [inBrackets, closeBlocks, unroll, inFlow]
  rw [fetch_here hstart (by simp [inBrackets, isStale, hK]), hopen]
  simp [inBlock, inBrackets, token, Cursor.peek, Cursor.isMarker, Cursor.has, Cursor.peekAt,
    closeFlow, dropKey, inFlow, mark, enqueue, Cursor.skipN, Cursor.skip]

/-- **A pair of brackets behind a key.** -/
theorem gives_brackets (h : Continues (L :: base) d n rest us) (hrest : StartsToken rest)
    (hk : L < k) : Gives (L :: base) false k ('[' :: ']' :: '\n' :: (spaces n ++ rest))
      (.flowSequenceStart :: .flowSequenceEnd :: us) := by
  intro s hs
  obtain ⟨i, l, T, K, hK, hfetch⟩ := fetch_at_deeper hs (by omega)
  refine StreamIn.fetched (hs.1 3) (hfetch.trans token_bracket) ?_
  refine stream_queue (q := [_]) (r := []) 2 rfl ?_ ?_ (List.cons_ne_nil _ _)
  · simp [inBrackets, isStale, hK]
  refine StreamIn.fetched (f := 3) (wants_of_empty rfl rfl 3) (fetch_bracket (q := []) hK) ?_
  refine streamIn_inBlock (q := [_]) hK (List.cons_ne_nil _ _) ?_ 2
  refine h.gives (at_of_line (wants_of_empty rfl rfl) ?_ hrest)
  exact fun h => absurd (hK.symm.trans h) Bool.false_ne_true

/-! ## 8. The ends

The end of the text ends all blocks. -/

theorem token_end {c : Cursor} (hrest : c.rest = []) (hcolumn : c.column = 0)
    (hextras : ∀ j ∈ extras, -1 < j) (hK : K.possible = false)
    (hstack : b :: base = extras ++ [-1]) :
    (inBlock c q T allowed K b base).token = some { inBlock c
      (q ++ List.replicate extras.length .blockEnd ++ [.streamEnd]) T false K (-1) [] with
        ended := true } := by
  have hclosed : (inBlock c q T allowed K b base).closeBlocks (-1) = _ :=
    closeBlocks_inBlock hextras (Int.le_refl (-1)) hstack
  have hkey : ({ K with possible := false } : PossibleKey) = K := by rw [← hK]
  have hpeek : c.peek = none := by simp [Cursor.peek, hrest]
  have hcursor : (inBlock c q T allowed K b base).cursor = c := rfl
  have hsame : ({ inBlock c q T allowed K b base with cursor := c } : Scanner) =
      inBlock c q T allowed K b base := rfl
  rw [token]
  simp only [hcursor, hpeek, finish, hcolumn, ne_eq, not_true_eq_false, if_false]
  rw [hsame, hclosed]
  simp [dropKey, inBlock, hK, hkey, enqueue]

/-- **Behind the last line all blocks end.** -/
theorem continues_end : Continues [-1] (-1) 0 [] [.streamEnd] := by
  intro s pre extras hextras hs
  -- those deeper than the first column end before the text does, and the others with it
  obtain ⟨deep, others, rfl, hdeep, hothers⟩ : ∃ deep others, extras = deep ++ others ∧
      (∀ j ∈ deep, (0 : Int) < j) ∧ ∀ j ∈ (others ++ [-1]).head?, j ≤ 0 := by
    obtain ⟨deep, others, rfl, hdeep, hothers⟩ := exists_run (fun j : Int => 0 < j) extras
    refine ⟨deep, others, rfl, fun j hj => of_decide_eq_true (hdeep j hj), fun j hj => ?_⟩
    cases others with
    | nil =>
      obtain rfl : -1 = j := Option.some.inj hj
      decide
    | cons o others => exact Int.not_lt.mp (of_decide_eq_false (hothers j hj))
  obtain ⟨b, base, hstack⟩ : ∃ b base, others ++ [-1] = b :: base := by
    cases others <;> exact ⟨_, _, rfl⟩
  rw [List.append_assoc, hstack] at hs
  have hb : b ≤ 0 := hothers b (by rw [hstack]; rfl)
  obtain ⟨i, l, T, K, hK, hfetch⟩ := fetch_at hs hdeep hb
  have houtside : ∀ j ∈ others, -1 < j := fun j hj => hextras j (List.mem_append_right _ hj)
  refine StreamIn.fetched (hs.1 2) (hfetch.trans (token_end rfl rfl houtside hK hstack.symm)) ?_
  rw [List.length_append, ← List.replicate_append_replicate, ← List.append_assoc pre]
  refine streamIn_queue ?_ ?_ 1
  · exact List.append_ne_nil_of_right_ne_nil _ (List.cons_ne_nil _ _)
  · simp [inBlock, hK]

/-- **The first token is that of the text's start.** -/
theorem stream_start (hrest : StartsToken rest) (h : Gives [-1] true 0 rest us) :
    Stream { cursor := { rest := rest } } (.streamStart :: us) := by
  have hstart : ({ cursor := { rest := rest } } : Scanner) =
      inBlock ⟨rest, 0, 0, 0⟩ [.streamStart] 0 true {} (-1) [] := rfl
  rw [hstart]
  exact streamIn_inBlock (q := [_]) rfl (List.cons_ne_nil _ _)
    (h (at_of_blanks (g := 0) rfl hrest 0 0 0 1)) 3

end Scanner
end Yaml
end Foreman

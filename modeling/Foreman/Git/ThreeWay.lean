/-
# Three-way merges

Two contents that come from a common base are joined: a path, or a line of a file, that only one
side changed gets the change, and a path or lines that both changed in different ways are a
conflict.

Lines are compared by a longest common subsequence.  Hunks of the two sides that differ and
touch, even if only at their ends, are a conflict.
-/
import Foreman.Git.Content

namespace Foreman
namespace Git

/-! ## 1. Changes of lines

The hunks of each side are found against the base, and joined if none of one side touches one of
the other.  Equal hunks count once. -/

/-- Some lines of the base are replaced by others. -/
structure Hunk where
  /-- The first line that is replaced. -/
  start : Nat
  /-- How many lines are replaced. -/
  count : Nat
  lines : List (List UInt8)
deriving DecidableEq, Repr, Inhabited

/-- One more row of the table of longest common subsequences: for each tail of `side` the length
with the tail of the base that starts with `x`, from those without `x`. -/
def commonRow (x : List UInt8) : List (List UInt8) → List Nat → List Nat
  | [], _ => [0]
  | y :: ys, below =>
    let rest := commonRow x ys (below.drop 1)
    let best :=
      if x = y then 1 + ((below.drop 1).head?.getD 0)
      else max (below.head?.getD 0) (rest.head?.getD 0)
    best :: rest

/-- The rows for all tails of the base, the whole base first. -/
def commonRows (side : List (List UInt8)) : List (List UInt8) → List (List Nat)
  | [] => [List.replicate (side.length + 1) 0]
  | x :: xs =>
    let rows := commonRows side xs
    commonRow x side (rows.head?.getD []) :: rows

/-- A step from one list of lines to another. -/
inductive Edit where
  | keep
  | drop
  | add (line : List UInt8)
deriving DecidableEq, Repr

/-- The fewest steps from the base to the side; every step but the last takes a line of one of
them, so their lengths together are fuel enough. -/
def edits : Nat → List (List UInt8) → List (List UInt8) → List (List Nat) → List Edit
  | 0, _, _, _ => []
  | _, [], ys, _ => ys.map .add
  | _, xs, [], _ => xs.map fun _ => .drop
  | fuel + 1, x :: xs, y :: ys, rows =>
    let withoutBase := ((rows.drop 1).head?.getD []).head?.getD 0
    let withoutSide := ((rows.head?.getD []).drop 1).head?.getD 0
    if x = y then .keep :: edits fuel xs ys ((rows.drop 1).map (List.drop 1))
    else if withoutSide ≤ withoutBase then .drop :: edits fuel xs (y :: ys) (rows.drop 1)
    else .add y :: edits fuel (x :: xs) ys (rows.map (List.drop 1))

/-- Steps without kept lines in between are one hunk.  `at_` is the line of the base. -/
def group (at_ : Nat) (open_ : Option Hunk) : List Edit → List Hunk
  | [] => open_.toList
  | .keep :: rest => open_.toList ++ group (at_ + 1) none rest
  | .drop :: rest =>
    let h := open_.getD ⟨at_, 0, []⟩
    group (at_ + 1) (some { h with count := h.count + 1 }) rest
  | .add line :: rest =>
    let h := open_.getD ⟨at_, 0, []⟩
    group at_ (some { h with lines := h.lines ++ [line] }) rest

/-- The hunks that lead from one list of lines to another. -/
def hunks (base side : List (List UInt8)) : List Hunk :=
  group 0 none (edits (base.length + side.length) base side (commonRows side base))

/-- Two hunks touch the same lines or lines beside each other. -/
def Hunk.meets (a b : Hunk) : Bool :=
  a.start ≤ b.start + b.count && b.start ≤ a.start + a.count

/-- The hunks of both sides in their order; `none` if two different ones meet. -/
def joinHunks (ours theirs : List Hunk) : Option (List Hunk) :=
  let fresh := theirs.filter fun h => !ours.contains h
  if fresh.any fun h => ours.any h.meets then none
  else
    some ((ours ++ fresh).foldl
      (fun acc h =>
        (acc.takeWhile fun g => g.start ≤ h.start) ++
          h :: (acc.dropWhile fun g => g.start ≤ h.start))
      [])

/-- Carries out hunks on the base; `at_` is the number of its first line. -/
def applyHunks (at_ : Nat) : List Hunk → List (List UInt8) → List (List UInt8)
  | [], base => base
  | h :: rest, base =>
    let before := h.start - at_
    base.take before ++ h.lines ++
      applyHunks (h.start + h.count) rest (base.drop (before + h.count))

/-- The lines of a file, each with its line feed. -/
def fileLines : List UInt8 → List (List UInt8)
  | [] => []
  | b :: bs =>
    if b = 10 then [b] :: fileLines bs
    else
      match fileLines bs with
      | [] => [[b]]
      | line :: rest => (b :: line) :: rest

/-- The bytes of a text file merged line by line; a file with a zero byte is not taken apart. -/
def mergeBytes (base ours theirs : List UInt8) : Option (List UInt8) :=
  if (base ++ ours ++ theirs).contains 0 then none
  else
    let lines := fileLines base
    (joinHunks (hunks lines (fileLines ours)) (hunks lines (fileLines theirs))).map fun hs =>
      (applyHunks 0 hs lines).flatten

/-! ## 2. Changes of paths

A path that one side left alone becomes what the other made of it.  What both changed is merged
line by line, if it is a text file on both. -/

/-- What becomes of a path; `none` for a conflict. -/
def mergeBlob (base ours theirs : Option Blob) : Option (Option Blob) :=
  if ours = theirs then some ours
  else if base = ours then some theirs
  else if base = theirs then some ours
  else
    match base, ours, theirs with
    | some (.file b bx), some (.file o ox), some (.file t tx) =>
      (mergeBytes b o t).map fun bytes => some (.file bytes (if ox = bx then tx else ox))
    | none, some (.file o ox), some (.file t tx) =>
      -- a file that both sides brought starts from nothing
      if ox = tx then (mergeBytes [] o t).map fun bytes => some (.file bytes ox) else none
    | _, _, _ => none

/-- A file stands where another path needs a directory. -/
def hasFileAsDirectory (c : Content) : Bool :=
  c.keys.any fun p => (parentsOf p).any fun dir => (c.get? dir).isSome

/-- Both sides joined; `none` if there is a conflict. -/
def mergeContent (base ours theirs : Content) : Option Content :=
  let paths := (Table.ofList ((base.keys ++ ours.keys ++ theirs.keys).map fun p => (p, ()))).keys
  let merged := paths.mapM fun p =>
    (mergeBlob (base.get? p) (ours.get? p) (theirs.get? p)).map (p, ·)
  match merged with
  | none => none
  | some entries =>
    let c : Content := entries.foldl (fun c e => c.set e.1 e.2) .empty
    if hasFileAsDirectory c then none else some c

end Git
end Foreman

/-
# A forest over the numbers below a bound

Disjoint groups of numbers, each with a root.  Every number points at a parent that is not
greater than itself, so the way to the root goes down and ends, and the root of a group is its
smallest number.

* `find` looks the root up and makes every number on the way point at it.
* `union` makes the smaller of two roots the parent of the other.

In the program the parents are a plain array, and that its loops end rests on the rule for
`union` alone.  Here a root is looked up by going down as long as the parent is smaller, so the
look-up ends for every array.  `Proofs.Merge.Lookup` shows that the loop with its own exit,
which leaves the array at a bad index, is this look-up on every forest that `order_merges`
builds.
-/

namespace Foreman

/-- The parent of each number. -/
structure Forest where
  parents : Array Nat
deriving DecidableEq, Repr, Inhabited

namespace Forest

/-- Every number is a group of its own. -/
def discrete (size : Nat) : Forest := ⟨Array.range size⟩

/-- No number points above itself. -/
def PointsDown (f : Forest) : Prop := ∀ i (h : i < f.parents.size), f.parents[i] ≤ i

instance (f : Forest) : Decidable f.PointsDown :=
  inferInstanceAs (Decidable (∀ i (h : i < f.parents.size), f.parents[i] ≤ i))

/-- The number a number points at; outside of the forest it is the number itself. -/
def parent (f : Forest) (i : Nat) : Nat := (f.parents[i]?).getD i

/-- The root of a number's group: where the way down ends. -/
def root (f : Forest) (i : Nat) : Nat :=
  if f.parent i < i then root f (f.parent i) else i
termination_by i

/-- Makes every number on the way from `i` point at `r`. -/
def compress (f : Forest) (r i : Nat) : Forest :=
  if f.parent i = r then f
  else if f.parent i < i then compress ⟨f.parents.setIfInBounds i r⟩ r (f.parent i)
  else f
termination_by i

/-- The root of a number, and the forest with a shorter way to it. -/
def find (f : Forest) (i : Nat) : Nat × Forest := (f.root i, f.compress (f.root i) i)

/-- Joins the groups of two numbers under the smaller root. -/
def union (f : Forest) (i j : Nat) : Forest :=
  let (a, f) := f.find i
  let (b, f) := f.find j
  if a < b then ⟨f.parents.setIfInBounds b a⟩
  else if b < a then ⟨f.parents.setIfInBounds a b⟩
  else f

/-- The roots of the numbers below `n`, looked up one after the other. -/
def roots (f : Forest) (n : Nat) : List Nat :=
  ((List.range n).foldl (fun (f, acc) i => let (r, f) := f.find i; (f, r :: acc)) (f, [])).2.reverse

end Forest
end Foreman

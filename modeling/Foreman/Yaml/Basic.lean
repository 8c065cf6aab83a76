/-
# YAML trees

A document as a tree of scalars, sequences and mappings.  A mapping keeps its entries in their
order, repeated keys included.

Reading does not stop at the first fault of a text: the part before it is there, and the place
where nothing more could be read is marked as torn.  So a reader of the tree can say what is
wrong before that place.
-/

namespace Foreman

/-- How a scalar is written. -/
inductive ScalarStyle where
  | plain
  | singleQuoted
  | doubleQuoted
  | literal
  | folded
deriving DecidableEq, Repr, Inhabited

/-- A node of a document. -/
inductive Yaml where
  | scalar (text : String) (tag : Option String) (style : ScalarStyle)
  | sequence (items : List Yaml)
  | mapping (entries : List (Yaml × Yaml))
  /-- The node with that number among the anchored ones. -/
  | ref (id : Nat)
  /-- Nothing could be read here. -/
  | torn
deriving Repr, Inhabited

namespace Yaml

/-- A node that was left out. -/
def absent : Yaml := .scalar "" none .plain

/-- A scalar that is written plainly. -/
def plain (text : String) : Yaml := .scalar text none .plain

/-- What comes behind the root of a document. -/
inductive Ending where
  /-- The text ends. -/
  | last
  /-- Something else follows. -/
  | followed
  /-- The text is faulty. -/
  | faulty
deriving DecidableEq, Repr, Inhabited

/-- A document. -/
structure Document where
  root : Yaml
  /-- Nodes by their numbers; of two with one number the first counts. -/
  anchored : List (Nat × Yaml)
  ending : Ending
deriving Repr, Inhabited

/-- The node that is meant: that of an alias is looked up. -/
def Document.follow (d : Document) : Yaml → Yaml
  | .ref id =>
    match d.anchored.find? fun e => e.1 = id with
    | some e => e.2
    | none => .ref id
  | node => node

mutual
/-- Nothing is torn in the node. -/
def isSound : Yaml → Bool
  | .torn => false
  | .sequence items => soundItems items
  | .mapping entries => soundEntries entries
  | _ => true

def soundItems : List Yaml → Bool
  | [] => true
  | n :: rest => isSound n && soundItems rest

def soundEntries : List (Yaml × Yaml) → Bool
  | [] => true
  | (k, v) :: rest => isSound k && isSound v && soundEntries rest
end

end Yaml
end Foreman

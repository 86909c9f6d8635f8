import TaskFlow.Yaml.Scalar

/-!
# Nodes

What a YAML document holds: scalars, lists, maps, and aliases that stand for a node elsewhere in the
document. Aliases find their nodes by labels, which are numbers.
-/

namespace TaskFlow.Yaml

/-- The anchor of a node: the label by which aliases find it, and how many anchors are before it in
the document. -/
structure Anchor where
  label : Nat
  order : Nat
  deriving DecidableEq, Repr

/-- What may be written before a node. -/
structure Properties where
  tag : Option String := none
  anchor : Option Anchor := none
  deriving DecidableEq, Repr

/-- A node of a document. -/
inductive Node where
  | scalar (properties : Properties) (style : Style) (text : String)
  | list (properties : Properties) (items : List Node)
  | map (properties : Properties) (entries : List (Node × Node))
  | alias (label : Nat)
  deriving Inhabited

namespace Node

/-- The node where nothing is written, or nothing but properties. -/
def empty (p : Properties := {}) : Node :=
  .scalar p .plain ""

def anchor? : Node → Option Anchor
  | .scalar p _ _ | .list p _ | .map p _ => p.anchor
  | .alias _ => none

end Node

/-- A document: its root, `none` if there is no content, and the nodes with an anchor. -/
structure Tree where
  root : Option Node
  anchored : List (Anchor × Node)

/-- The node with a label; of several it is the one that begins last. -/
def Tree.find? (t : Tree) (label : Nat) : Option Node :=
  let found := t.anchored.filter fun a => a.1.label == label
  (found.foldl (fun best a =>
    match best with
    | some (b : Anchor × Node) => if a.1.order < b.1.order then best else some a
    | none => some a) none).map Prod.snd

end TaskFlow.Yaml

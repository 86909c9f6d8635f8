import TaskFlow.Dependency

/-!
# The blocking graph

Every blocking edge, in whichever spelling, is an arc from a blocker to a task that it blocks. Seen
from one of its ends, an arc leads to the other; the arcs of a task are taken in the order of their
age, then of the task that they lead to.
-/

namespace TaskFlow

/-- An arc from a blocker to a task that it blocks, and the age of the edge that it stands for. -/
structure Arc where
  blocker : Ident
  blocked : Ident
  since : Instant
  deriving DecidableEq, Repr

namespace Arc

/-- The end that a walk leaves from. -/
def near (a : Arc) : Course → Ident
  | .forward => a.blocker
  | .backward => a.blocked

/-- The end that a walk arrives at. -/
def far (a : Arc) : Course → Ident
  | .forward => a.blocked
  | .backward => a.blocker

/-- Whether `a` is older than `b`, or as old and leading to a task not after that of `b`. -/
def comesFirst (c : Course) (a b : Arc) : Bool :=
  a.since < b.since || (a.since == b.since && a.far c ≤ b.far c)

end Arc

/-- The arc of an edge, if it blocks. -/
def Dependency.arc? (d : Dependency) : Option Arc :=
  d.pair.map fun (blocker, blocked) => { blocker, blocked, since := d.createdAt }

/-- A graph of blocking arcs, of which several may join the same two tasks. -/
structure Graph where
  arcs : List Arc
  deriving DecidableEq, Repr

namespace Graph

/-- The graph of the blocking edges among `edges`. -/
def ofEdges (edges : List Dependency) : Graph :=
  ⟨edges.filterMap Dependency.arc?⟩

/-- The tasks at the ends of the arcs, each once. -/
def nodes (g : Graph) : List Ident :=
  (g.arcs.flatMap fun a => [a.blocker, a.blocked]).eraseDups

/-- The tasks one arc away from `task`, each once, in the order of the oldest arc that leads to
it. -/
def next (g : Graph) (c : Course) (task : Ident) : List Ident :=
  (((g.arcs.filter fun a => a.near c == task).mergeSort (Arc.comesFirst c)).map
    (Arc.far · c)).eraseDups

def isEmpty (g : Graph) : Bool :=
  g.arcs.isEmpty

theorem mem_next {g : Graph} {c : Course} {task other : Ident} :
    other ∈ g.next c task ↔ ∃ a ∈ g.arcs, a.near c = task ∧ a.far c = other := by
  simp [next, List.mem_eraseDups, List.mem_mergeSort, and_assoc]

theorem mem_nodes_of_mem_next {g : Graph} {c : Course} {task other : Ident}
    (h : other ∈ g.next c task) : other ∈ g.nodes := by
  obtain ⟨a, ha, _, rfl⟩ := mem_next.1 h
  simp only [nodes, List.mem_eraseDups, List.mem_flatMap]
  exact ⟨a, ha, by cases c <;> simp [Arc.far]⟩

end Graph

end TaskFlow

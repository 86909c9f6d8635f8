import TaskFlow.Graph.Longest
import TaskFlow.Graph.Search

/-!
# Reports on the blocking graph

What a walk from one task finds: the tasks that it reaches, its longest path, the tasks at which it
branches, and the groups of tasks at one distance that do not block one another.
-/

namespace TaskFlow

/-- A task with two or more neighbours further on. -/
structure Bottleneck where
  task : Ident
  fanOut : Nat
  title : Option String := none
  deriving DecidableEq, Repr

/-- Whether the first bottleneck is listed before the second: the wider first, then by task. -/
def Bottleneck.comesFirst (a b : Bottleneck) : Bool :=
  b.fanOut < a.fanOut || (a.fanOut == b.fanOut && a.task ≤ b.task)

/-- Tasks at one distance from the start, none of which blocks another. -/
structure ParallelGroup where
  depth : Nat
  tasks : List Ident
  deriving DecidableEq, Repr

/-- What a walk through the graph finds. -/
structure GraphReport where
  chain : List Ident
  depth : Nat
  criticalPath : List Ident
  bottlenecks : List Bottleneck
  parallel : List ParallelGroup
  deriving DecidableEq, Repr

/-- The report on a task that no arc leaves. -/
def GraphReport.single (task : Ident) : GraphReport where
  chain := [task]
  depth := 0
  criticalPath := [task]
  bottlenecks := []
  parallel := []

namespace Graph

/-- The tasks of a list at which a walk branches, widest first. -/
def bottlenecks (g : Graph) (c : Course) (tasks : List Ident) : List Bottleneck :=
  ((tasks.map fun task => { task, fanOut := (g.next c task).length }).filter
    fun b : Bottleneck => 2 ≤ b.fanOut).mergeSort Bottleneck.comesFirst

/-- Whether no arc joins two of the tasks. -/
def independent (g : Graph) (tasks : List Ident) : Bool :=
  tasks.all fun task => (g.next .forward task).all fun other => other ∉ tasks

/-- The layers of two or more tasks that are independent, with their distance. -/
def parallelGroups (g : Graph) (layers : List (List Ident)) : List ParallelGroup :=
  (layers.zipIdx.filter fun (tasks, _) => 2 ≤ tasks.length && g.independent tasks).map
    fun (tasks, depth) => { depth, tasks }

def analyze (g : Graph) (c : Course) (start : Ident) : GraphReport :=
  if (g.next c start).isEmpty then .single start
  else
    let layers := g.layers c start
    let (depth, path) := g.criticalPath c start
    { chain := layers.flatten
      depth
      criticalPath := path
      bottlenecks := g.bottlenecks c layers.flatten
      parallel := g.parallelGroups layers }

end Graph

end TaskFlow

import TaskFlow.Graph.Report
import TaskFlow.Repository.Walk

/-!
# Queries over the edges

The edges at one task, filtered and counted, and the report on a walk through the stored edges.
-/

namespace TaskFlow

/-- Which of the edges at a task are wanted, and whether with details of their tasks. -/
structure NeighborQuery where
  direction : Direction := .all
  relation : Option Relation := none
  withTasks : Bool := false
  deriving DecidableEq, Repr

/-- Something for each relation. -/
structure PerRelation (α : Type) where
  blocks : α
  isBlockedBy : α
  relatesTo : α
  deriving DecidableEq, Repr

def PerRelation.get {α : Type} (p : PerRelation α) : Relation → α
  | .blocks => p.blocks
  | .isBlockedBy => p.isBlockedBy
  | .relatesTo => p.relatesTo

/-- How many edges there are, by the end at which the task stands and by relation. A relation
without edges has no count. -/
structure NeighborCounts where
  total : Nat
  incoming : Nat
  outgoing : Nat
  byRelation : PerRelation (Option Nat)
  deriving DecidableEq, Repr

/-- The edges at a task that a query asks for. -/
structure NeighborSet where
  task : Ident
  items : List DependencyView
  counts : NeighborCounts
  filters : NeighborQuery
  deriving DecidableEq, Repr

/-- Whether an edge at `task` is one that the query asks for. -/
def NeighborQuery.wants (q : NeighborQuery) (task : Ident) (d : Dependency) : Bool :=
  (match q.direction with
  | .incoming => d.target == task
  | .outgoing => d.source == task
  | .all => true) && q.relation.all (d.relation == ·)

/-- The number of edges of a relation, if there are any. -/
def countOf (edges : List Dependency) (relation : Relation) : Option Nat :=
  match edges.countP (·.relation == relation) with
  | 0 => none
  | n + 1 => some (n + 1)

/-- The counts of a list of edges at `task`. -/
def NeighborCounts.ofEdges (task : Ident) (edges : List Dependency) : NeighborCounts where
  total := edges.length
  incoming := edges.countP (·.target == task)
  outgoing := edges.countP (·.source == task)
  byRelation := ⟨countOf edges .blocks, countOf edges .isBlockedBy, countOf edges .relatesTo⟩

def Task.info (t : Task) : TaskInfo where
  title := t.title
  status := t.status.name

/-- A view with the details of its tasks, as far as these are among `tasks`. -/
def DependencyView.withTasks (tasks : List Task) (v : DependencyView) : DependencyView :=
  let info (id : Ident) := (tasks.find? (·.id == id)).map Task.info
  { v with sourceTask := info v.source, targetTask := info v.target }

namespace Repository

/-- The edges at a task that a query asks for, oldest first. -/
def neighbors (r : Repository) (task : Ident) (q : NeighborQuery) :
    Except EngineError NeighborSet := do
  let edges := (← r.findByTask task).filter (q.wants task)
  let views := edges.map Dependency.view
  let items ←
    if q.withTasks then
      let ids := (edges.flatMap fun d => [d.source, d.target]).eraseDups
      let tasks ← r.getTasks ids
      pure (views.map (DependencyView.withTasks tasks))
    else pure views
  return { task, items, counts := .ofEdges task edges, filters := q }

/-- A bottleneck with the title of its task, if that is among `tasks`. -/
def titled (tasks : List Task) (b : Bottleneck) : Bottleneck :=
  { b with title := (tasks.find? (·.id == b.task)).map Task.title }

/-- The report on a walk from `start` through the stored edges, with the titles of the bottlenecks
where these are wanted. -/
def traverse (r : Repository) (start : Ident) (d : Direction) (withTitles : Bool) :
    Except EngineError GraphReport := do
  let edges ← r.blockingEdges d.course start
  let report := (Graph.ofEdges edges).analyze d.course start
  if withTitles && !report.bottlenecks.isEmpty then
    let tasks ← r.getTasks (report.bottlenecks.map Bottleneck.task)
    return { report with bottlenecks := report.bottlenecks.map (titled tasks) }
  else return report

end Repository

end TaskFlow

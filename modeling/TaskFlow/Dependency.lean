import TaskFlow.Ident
import TaskFlow.Instant
import TaskFlow.Kind

/-!
# Dependencies

Directed relations between two tasks, and the directions in which they are followed. The two
blocking spellings say the same thing from the two ends: `a` blocks `b` exactly when `b` is blocked
by `a`. Both come down to one pair of a blocker and a task that it blocks.
-/

namespace TaskFlow

/-- Which edges of a task a query follows. -/
inductive Direction where
  | incoming
  | outgoing
  | all
  deriving DecidableEq, Repr

def Direction.name : Direction → String
  | .incoming => "incoming"
  | .outgoing => "outgoing"
  | .all => "all"

/-- Which way a walk goes along blocking arcs: `forward` from a blocker to what it blocks,
`backward` from a task to its blockers. -/
inductive Course where
  | backward
  | forward
  deriving DecidableEq, Repr

/-- The course of a walk in a direction; a walk that may go either way goes forward. -/
def Direction.course : Direction → Course
  | .incoming => .backward
  | .outgoing | .all => .forward

def Course.direction : Course → Direction
  | .backward => .incoming
  | .forward => .outgoing

/-- How two tasks are related. -/
inductive Relation where
  | blocks
  | isBlockedBy
  | relatesTo
  deriving DecidableEq, Repr

namespace Relation

def all : List Relation := [.blocks, .isBlockedBy, .relatesTo]

def name : Relation → String
  | .blocks => "BLOCKS"
  | .isBlockedBy => "IS_BLOCKED_BY"
  | .relatesTo => "RELATES_TO"

/-- Whether an edge of this relation holds a task back. -/
def isBlocking : Relation → Bool
  | .blocks | .isBlockedBy => true
  | .relatesTo => false

/-- The blocker and the blocked task of an edge from `source` to `target`, if it blocks. -/
def pair (source target : Ident) : Relation → Option (Ident × Ident)
  | .blocks => some (source, target)
  | .isBlockedBy => some (target, source)
  | .relatesTo => none

end Relation

structure Request where
  source : Ident
  target : Ident
  relation : Relation
  unblockAt : Option Role := none
  deriving DecidableEq, Repr

/-- The blocker and the blocked task that a request names, if it asks for a blocking edge. -/
def Request.pair (r : Request) : Option (Ident × Ident) :=
  r.relation.pair r.source r.target

/-- What a stored edge is stamped with. -/
structure Stamp where
  id : Ident
  createdAt : Instant
  deriving DecidableEq, Repr

/-- A stored edge of the dependency graph. -/
structure Dependency where
  id : Ident
  source : Ident
  target : Ident
  relation : Relation
  unblockAt : Option Role
  createdAt : Instant
  deriving DecidableEq, Repr

namespace Dependency

/-- The edge that a request becomes under a stamp. -/
def ofRequest (r : Request) (s : Stamp) : Dependency where
  id := s.id
  source := r.source
  target := r.target
  relation := r.relation
  unblockAt := r.unblockAt
  createdAt := s.createdAt

/-- The blocker and the blocked task of an edge, if it blocks. -/
def pair (d : Dependency) : Option (Ident × Ident) :=
  d.relation.pair d.source d.target

def isBlocking (d : Dependency) : Bool :=
  d.relation.isBlocking

/-- Whether a task is at either end of an edge. -/
def touches (d : Dependency) (task : Ident) : Bool :=
  d.source == task || d.target == task

def holdsBack (d : Dependency) (task : Ident) : Bool :=
  match d.pair with
  | some (_, blocked) => blocked == task
  | none => false

/-- Whether an edge joins just these ends in just this relation. -/
def joins (d : Dependency) (source target : Ident) (relation : Relation) : Bool :=
  d.source == source && d.target == target && d.relation == relation

/-- The role that the blocker of an edge must reach: the one it names, else `terminal`. -/
def requiredRole (d : Dependency) : Role :=
  d.unblockAt.getD .terminal

/-- The role that ends the blocking, if the edge blocks at all. -/
def effectiveRole (d : Dependency) : Option Role :=
  if d.isBlocking then some d.requiredRole else none

end Dependency

/-- What a view tells about the task at one end of an edge. -/
structure TaskInfo where
  title : String
  status : String
  deriving DecidableEq, Repr

/-- An edge as it is shown to callers. -/
structure DependencyView where
  id : Ident
  source : Ident
  target : Ident
  relation : Relation
  unblockAt : Option String
  effectiveRole : Option String
  createdAt : Instant
  sourceTask : Option TaskInfo := none
  targetTask : Option TaskInfo := none
  deriving DecidableEq, Repr

/-- How an edge is shown, without details of its tasks. -/
def Dependency.view (d : Dependency) : DependencyView where
  id := d.id
  source := d.source
  target := d.target
  relation := d.relation
  unblockAt := d.unblockAt.map Role.name
  effectiveRole := d.effectiveRole.map Role.name
  createdAt := d.createdAt

end TaskFlow

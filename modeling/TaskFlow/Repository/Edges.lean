import TaskFlow.Error
import TaskFlow.Naming
import TaskFlow.Repository.Walk

/-!
# Adding and removing edges

A new edge is checked before it is stored: its own shape first, then that both its tasks exist, that
no such edge is there yet, and that it closes no cycle of blocking edges.
-/

namespace TaskFlow

/-- Reads the role that unblocks an edge of a given relation; blank text asks for none. Only a
blocking edge may have one, and only work, review or terminal. -/
def parseUnblockRole (raw : Option String) (relation : Relation) :
    Except EngineError (Option Role) :=
  let text := Text.trim (raw.getD "")
  if text.isEmpty then .ok none
  else if !relation.isBlocking then .error (.invalid (.unblockOnRelation relation))
  else match Role.parse text with
    | .error e => .error (.invalid (.unreadable e))
    | .ok role =>
      if role.isUnblocking then .ok (some role) else .error (.invalid (.notUnblocking text))

/-- Checks the shape of a request: two different ends, and an unblocking role only where it means
something. -/
def Request.check (r : Request) : Except EngineError Unit :=
  if r.source = r.target then .error (.selfDependency r.source)
  else match r.unblockAt with
    | none => .ok ()
    | some role =>
      if !r.relation.isBlocking then .error (.invalid .unblockOnInformational)
      else if !role.isUnblocking then .error (.invalid (.notUnblocking role.name))
      else .ok ()

/-- An edge that a bulk deletion could not delete. -/
structure DeletionFailure where
  id : Ident
  reason : String
  deriving DecidableEq, Repr

/-- What a bulk deletion did, edge by edge. -/
structure DeletionReport where
  deleted : List Ident := []
  failed : List DeletionFailure := []
  deriving DecidableEq, Repr

/-- Whether a bulk deletion deleted all that it was meant to. -/
def DeletionReport.isComplete (p : DeletionReport) : Bool :=
  p.failed.isEmpty

/-- A request, and the parts of its stamp that the caller gives. -/
structure Order where
  request : Request
  id? : Option Ident := none
  at? : Option Instant := none
  deriving DecidableEq, Repr

namespace Repository

def requireTask (r : Repository) (task : Ident) : Except EngineError Unit := do
  if !(← r.hasTask task) then throw (.missing (.entity .task) task)

/-- Checks that no stored edge joins the same ends in the same relation. -/
def requireNew (r : Repository) (q : Request) : Except EngineError Unit := do
  if (← r.findByTask q.source).any (·.joins q.source q.target q.relation) then
    throw (.duplicate q.source q.target q.relation)

/-- Checks that the blocker of a requested edge is not held back by the task that it would block. -/
def requireAcyclic (r : Repository) (q : Request) : Except EngineError Unit :=
  match q.pair with
  | none => .ok ()
  | some (blocker, blocked) => do
    if ← r.leads blocked blocker then throw (.cycle q.source q.target q.relation)

def checkNew (r : Repository) (q : Request) : Except EngineError Unit := do
  q.check
  r.requireTask q.source
  r.requireTask q.target
  r.requireNew q
  r.requireAcyclic q

/-- Stores a requested edge if it passes the checks. -/
def addEdge (r : Repository) (o : Order) : Except EngineError (Dependency × Repository) := do
  r.checkNew o.request
  r.create o.request o.id? o.at?

/-- Deletes the edges with given identifiers one by one, and says how each fared. -/
def deleteEach (r : Repository) : List Ident → DeletionReport × Repository
  | [] => ({}, r)
  | id :: ids =>
    match r.deleteById id with
    | .ok (true, r) =>
      let (p, r) := r.deleteEach ids
      ({ p with deleted := id :: p.deleted }, r)
    | .ok (false, r) =>
      let (p, r) := r.deleteEach ids
      ({ p with failed := ⟨id, "dependency no longer exists"⟩ :: p.failed }, r)
    | .error e =>
      let (p, r) := r.deleteEach ids
      ({ p with failed := ⟨id, e.message⟩ :: p.failed }, r)

/-- Whether an edge leaves `source`, and ends at `target` and is of `relation` where these are
given. -/
def isMeant (source : Ident) (target : Option Ident) (relation : Option Relation)
    (d : Dependency) : Bool :=
  d.source == source && target.all (d.target == ·) && relation.all (d.relation == ·)

/-- Deletes the edges from a task, all or those to one task or of one relation. -/
def removeWhere (r : Repository) (source : Ident) (target : Option Ident)
    (relation : Option Relation) : Except EngineError (DeletionReport × Repository) := do
  let edges ← r.findByTask source
  return r.deleteEach ((edges.filter (isMeant source target relation)).map Dependency.id)

/-- The edges that hold a task back, oldest first. -/
def blockersOf (r : Repository) (task : Ident) : Except EngineError (List Dependency) :=
  return (← r.findByTask task).filter (·.holdsBack task)

end Repository

end TaskFlow

import TaskFlow.Engine.Readiness

/-!
# Operations

What callers ask of the engine. Changes of edges run under the locks of both ends, taken in
ascending order; changes of status run under the lock of the entity. Queries take no locks.
-/

namespace TaskFlow

structure StatusChange where
  entity : Ident
  kind : Kind
  source : Status
  target : Status
  deriving DecidableEq, Repr

namespace Engine

/-- The result of reading a name that a caller gave. -/
def readName {α : Type} (r : Except ReadError α) : Operation α :=
  match r with
  | .ok a => return a
  | .error e => throw (.invalid (.unreadable e))

def demand {α : Type} (r : Except EngineError α) : Operation α :=
  match r with
  | .ok a => return a
  | .error e => throw e

/-- Adds an edge. Its shape is checked before any lock is taken, so no task is locked twice. -/
def addDependency (o : Order) : Operation Dependency := do
  demand o.request.check
  withLocks o.request.source o.request.target (store (·.addEdge o))

/-- Adds an edge whose unblocking role is given as text. -/
def createDependency (o : Order) (unblockAt : Option String) : Operation Dependency := do
  let role ← demand (parseUnblockRole unblockAt o.request.relation)
  addDependency { o with request := { o.request with unblockAt := role } }

/-- Adds an edge whose relation and unblocking role are given as text. -/
def createFromText (source target : Ident) (relation : String) (unblockAt : Option String)
    (id? : Option Ident) (at? : Option Instant) : Operation Dependency := do
  let relation ← readName (Relation.parse relation)
  createDependency { request := { source, target, relation }, id?, at? } unblockAt

/-- Carries out requests one after the other, whatever becomes of those before. -/
def each {α β : Type} (f : α → Operation β) : List α → StateM Engine (List (Except EngineError β))
  | [] => return []
  | a :: rest => do
    let result ← (f a).run
    return result :: (← each f rest)

def deleteDependency (id : Ident) : Operation Unit := do
  let some edge ← ask (·.findById id) | throw (.missing .dependency id)
  withLocks edge.source edge.target do
    if !(← store (·.deleteById id)) then throw (.missing .dependency id)

/-- Deletes the edges from a task, all or those to one task or of one relation. -/
def deleteDependencies (source : Ident) (target : Option Ident) (relation : Option Relation) :
    Operation DeletionReport :=
  let deletion := store (·.removeWhere source target relation)
  match target with
  | some task => if task = source then withLock source deletion else withLocks source task deletion
  | none => withLock source deletion

/-- Deletes all edges at a task, and counts them. -/
def deleteTaskDependencies (task : Ident) : Operation Nat :=
  withLock task (store (·.deleteByTask task))

/-- The edges at a stored task that a query asks for. -/
def queryNeighbors (task : Ident) (q : NeighborQuery) : Operation NeighborSet := do
  ask (·.requireTask task)
  ask (·.neighbors task q)

/-- The report on a walk from a stored task. -/
def queryGraph (task : Ident) (d : Direction) (withTitles : Bool) : Operation GraphReport := do
  ask (·.requireTask task)
  ask (·.traverse task d withTitles)

/-- The blockers that still keep a stored task from being started. -/
def blockedBy (task : Ident) : Operation (List BlockingItem) := do
  ask (·.requireTask task)
  unresolvedBlockers task

/-- Whether a text names a status that the workflow of a kind allows. -/
def validateStatus (kind : Kind) (raw : String) : StateM Engine Workflow.Verdict := do
  match Status.parse raw with
  | .error e => return .invalid e.message
  | .ok s => return .ofCheck ((← workflow kind).checkStatus s)

/-- Whether the workflow of a kind accepts a change between two statuses given as text. -/
def validateTransition (kind : Kind) (source target : String) : StateM Engine Workflow.Verdict := do
  match Status.parse source, Status.parse target with
  | .error e, _ => return .invalid e.message
  | .ok _, .error e => return .invalid e.message
  | .ok s, .ok t => return .ofCheck ((← workflow kind).checkTransition s t)

/-- Whether an entity is ready for a status given as text. -/
def validatePrerequisites (id : Ident) (kind : Kind) (raw : String) : Operation Readiness := do
  let target ← readName (Status.parse raw)
  readiness id kind target

/-- Makes a change of status whose lock is held. -/
def applyStatus (id : Ident) (kind : Kind) (target : Status) : Operation StatusChange := do
  let source ← requireStatus kind id
  let w ← workflow kind
  match w.checkTransition source target with
  | .error r => throw (.invalid (.rejected r.message))
  | .ok () => pure ()
  match ← readiness id kind target with
  | .unmet shortfall => throw (.prerequisite shortfall)
  | .satisfied => pure ()
  if ← store (·.updateStatus kind id target) then
    return { entity := id, kind, source, target }
  else throw (.missing (.entity kind) id)

/-- Changes the status of an entity to one given as text. -/
def changeStatus (id : Ident) (kind : Kind) (raw : String) : Operation StatusChange := do
  let target ← readName (Status.parse raw)
  withLock id (applyStatus id kind target)

end Engine

end TaskFlow

import TaskFlow.Dependency
import TaskFlow.Error
import TaskFlow.Roster
import TaskFlow.Status

/-!
# The repository

The stored tasks, features, projects and edges, and the calls by which they are read and changed. A
call may be out of order: it then fails, or finds nothing. Each new edge is stamped with the next
identifier and time of a supply, unless the caller gives them.
-/

namespace TaskFlow

structure Task where
  id : Ident
  title : String
  status : Status
  summary : Option String
  feature : Option Ident
  createdAt : Instant
  deriving DecidableEq, Repr

/-- The number of characters of a task's summary; a missing one has none. -/
def Task.summaryLength (t : Task) : Nat :=
  (t.summary.getD "").length

structure Feature where
  id : Ident
  name : String
  status : Status
  project : Option Ident
  createdAt : Instant
  deriving DecidableEq, Repr

structure Project where
  id : Ident
  name : String
  status : Status
  createdAt : Instant
  deriving DecidableEq, Repr

instance : Recorded Task := ⟨Task.id, Task.createdAt⟩

instance : Recorded Feature := ⟨Feature.id, Feature.createdAt⟩

instance : Recorded Project := ⟨Project.id, Project.createdAt⟩

instance : Recorded Dependency := ⟨Dependency.id, Dependency.createdAt⟩

inductive Call where
  | create
  | findById
  | findByTask
  | findAll
  | deleteById
  | deleteByTask
  | getTask
  | getFeature
  | getProject
  | tasksForFeature
  | featuresForProject
  | updateStatus
  deriving DecidableEq, Repr

/-- A call that is out of order, for one identifier or for all. With an error it fails with that
text; without one it finds nothing. -/
structure Outage where
  call : Call
  id : Option Ident
  error : Option String
  deriving DecidableEq, Repr

/-- What is stored, the supply of stamps for new edges, and the calls that are out of order. -/
structure Repository where
  tasks : Roster Task := .empty
  features : Roster Feature := .empty
  projects : Roster Project := .empty
  edges : Roster Dependency := .empty
  supply : Nat → Stamp
  issued : Nat := 0
  outages : List Outage := []

namespace Repository

/-- The outage that a call for an identifier meets: one for the identifier before one for all. -/
def outage (r : Repository) (call : Call) (id : Option Ident) : Option Outage :=
  (id.bind fun i => r.outages.find? fun o => o.call == call && o.id == some i) <|>
    r.outages.find? fun o => o.call == call && o.id.isNone

/-- The answer to a call: its result, or `absent` or a failure if the call is out of order. -/
def answer {α : Type} (r : Repository) (call : Call) (id : Option Ident) (absent result : α) :
    Except EngineError α :=
  match r.outage call id with
  | none => .ok result
  | some { error := some detail, .. } => .error (.storage detail)
  | some { error := none, .. } => .ok absent

/-- Makes a call fail or find nothing from now on. -/
def disturb (r : Repository) (o : Outage) : Repository :=
  { r with outages := o :: r.outages.filter fun p => !(p.call == o.call && p.id == o.id) }

def heal (r : Repository) : Repository :=
  { r with outages := [] }

/-- Stores an edge under the next stamp, of which the caller may give either part. An edge with the
same identifier is replaced. -/
def create (r : Repository) (request : Request) (id? : Option Ident) (at? : Option Instant) :
    Except EngineError (Dependency × Repository) :=
  let stamp := r.supply (r.issued + 1)
  let stamp : Stamp := { id := id?.getD stamp.id, createdAt := at?.getD stamp.createdAt }
  let edge := Dependency.ofRequest request stamp
  let result := (edge, { r with edges := r.edges.put edge, issued := r.issued + 1 })
  r.answer .create (some edge.id) result result

def findById (r : Repository) (id : Ident) : Except EngineError (Option Dependency) :=
  r.answer .findById (some id) none (r.edges.get? id)

/-- The edges at a task, oldest first. -/
def findByTask (r : Repository) (task : Ident) : Except EngineError (List Dependency) :=
  r.answer .findByTask (some task) [] (r.edges.select (·.touches task))

/-- All edges, oldest first. -/
def findAll (r : Repository) : Except EngineError (List Dependency) :=
  r.answer .findAll none r.edges.toList r.edges.toList

/-- Deletes the edge with an identifier; whether there was one. -/
def deleteById (r : Repository) (id : Ident) : Except EngineError (Bool × Repository) :=
  r.answer .deleteById (some id) (false, r)
    ((r.edges.get? id).isSome, { r with edges := r.edges.erase id })

/-- Deletes the edges at a task; how many there were. -/
def deleteByTask (r : Repository) (task : Ident) : Except EngineError (Nat × Repository) :=
  let result := ((r.edges.select (·.touches task)).length,
    { r with edges := r.edges.remove (·.touches task) })
  r.answer .deleteByTask (some task) result result

def getTask (r : Repository) (id : Ident) : Except EngineError (Option Task) :=
  r.answer .getTask (some id) none (r.tasks.get? id)

def getFeature (r : Repository) (id : Ident) : Except EngineError (Option Feature) :=
  r.answer .getFeature (some id) none (r.features.get? id)

def getProject (r : Repository) (id : Ident) : Except EngineError (Option Project) :=
  r.answer .getProject (some id) none (r.projects.get? id)

/-- The tasks with given identifiers, in their order; one that is missing is left out. -/
def getTasks (r : Repository) (ids : List Ident) : Except EngineError (List Task) :=
  return (← ids.mapM r.getTask).filterMap (·)

def hasTask (r : Repository) (id : Ident) : Except EngineError Bool :=
  return (← r.getTask id).isSome

def statusOf (r : Repository) (kind : Kind) (id : Ident) : Except EngineError (Option Status) :=
  match kind with
  | .task => return (← r.getTask id).map Task.status
  | .feature => return (← r.getFeature id).map Feature.status
  | .project => return (← r.getProject id).map Project.status

/-- The tasks of a feature, oldest first. -/
def tasksForFeature (r : Repository) (feature : Ident) : Except EngineError (List Task) :=
  let tasks := r.tasks.select (·.feature == some feature)
  r.answer .tasksForFeature (some feature) tasks tasks

/-- The features of a project, oldest first. -/
def featuresForProject (r : Repository) (project : Ident) : Except EngineError (List Feature) :=
  let features := r.features.select (·.project == some project)
  r.answer .featuresForProject (some project) features features

/-- The repository with another status for an entity, if the entity is stored. -/
def setStatus (r : Repository) (kind : Kind) (id : Ident) (status : Status) : Option Repository :=
  match kind with
  | .task => (r.tasks.get? id).map fun t => { r with tasks := r.tasks.put { t with status } }
  | .feature =>
    (r.features.get? id).map fun f => { r with features := r.features.put { f with status } }
  | .project =>
    (r.projects.get? id).map fun p => { r with projects := r.projects.put { p with status } }

/-- Overwrites the status of an entity; whether the entity was there. -/
def updateStatus (r : Repository) (kind : Kind) (id : Ident) (status : Status) :
    Except EngineError (Bool × Repository) :=
  r.answer .updateStatus (some id) (false, r)
    (match r.setStatus kind id status with
    | some r => (true, r)
    | none => (false, r))

/-- The repository with another summary for a task, if the task is stored. -/
def setSummary (r : Repository) (id : Ident) (summary : Option String) : Option Repository :=
  (r.tasks.get? id).map fun t => { r with tasks := r.tasks.put { t with summary } }

end Repository

end TaskFlow

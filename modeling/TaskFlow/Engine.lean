import TaskFlow.Lock.Table
import TaskFlow.Repository.Edges
import TaskFlow.Repository.Query
import TaskFlow.Settings
import TaskFlow.Workflow.Cache
import TaskFlow.Workflow.Transition

/-!
# The engine

The engine holds the repository, the cache of workflows, the table of locks and the root in whose
context it works. An operation changes the engine and may fail; a failed operation keeps what it has
changed so far.
-/

namespace TaskFlow

/-- The state that operations work on. -/
structure Engine where
  settings : Settings
  repository : Repository
  source : Workflow.Source
  cache : Workflow.Cache
  locks : Lock.Table := {}
  tickets : Nat := 0
  root : String

abbrev Operation := ExceptT EngineError (StateM Engine)

namespace Engine

/-- An engine with settings that pass their check. -/
def create (settings : Settings) (repository : Repository) (source : Workflow.Source)
    (root : String) : Except ConfigError Engine := do
  settings.check
  return {
    settings, repository, source, root
    cache := { enabled := settings.cache.enabled, ttl := settings.cache.ttlSeconds } }

/-- The engine bound to another root, with the same cache and locks. -/
def withRoot (e : Engine) (root : String) : Engine :=
  { e with root }

/-- The workflow of a kind under the root of the engine. -/
def workflow (kind : Kind) : StateM Engine Workflow.Spec := do
  let e ← get
  let (spec, cache) := e.cache.get e.source kind e.root
  set { e with cache }
  return spec

/-- Forgets the workflow kept for a kind, or all of them. -/
def invalidate (e : Engine) (kind : Option Kind) : Engine :=
  { e with cache := match kind with
    | some kind => e.cache.invalidate kind
    | none => e.cache.clear }

/-- The answer of a call to the repository that changes nothing. -/
def ask {α : Type} (call : Repository → Except EngineError α) : Operation α := do
  let e ← get
  match call e.repository with
  | .ok a => return a
  | .error err => throw err

/-- The answer of a call to the repository that may change it. -/
def store {α : Type} (call : Repository → Except EngineError (α × Repository)) : Operation α := do
  let e ← get
  match call e.repository with
  | .ok (a, repository) =>
    set { e with repository }
    return a
  | .error err => throw err

/-- Draws a ticket and asks for the lock of an entity; whether it was taken. -/
def acquire (e : Engine) (entity : Ident) : Bool × Lock.Ticket × Engine :=
  let (granted, locks) := e.locks.acquire entity e.tickets
  (granted, e.tickets, { e with locks, tickets := e.tickets + 1 })

/-- Runs an operation under the lock of an entity. While an operation runs nobody else lets go of a
lock, so one that is held is waited for until the wait has taken too long. -/
def withLock {α : Type} (entity : Ident) (operation : Operation α) : Operation α := fun e =>
  let (granted, ticket, e) := e.acquire entity
  if granted then
    let (result, e) := operation e
    (result, { e with locks := e.locks.release entity ticket })
  else
    (.error (.lockTimeout entity (.ofMillis e.settings.locking.timeoutMillis)),
      { e with locks := e.locks.expire entity ticket })

/-- Runs an operation under the locks of two entities, the smaller taken first. -/
def withLocks {α : Type} (a b : Ident) (operation : Operation α) : Operation α :=
  if a ≤ b then withLock a (withLock b operation) else withLock b (withLock a operation)

/-- Takes the lock of an entity for somebody else, who keeps it. -/
def hold (entity : Ident) : Operation Unit := fun e =>
  let (granted, ticket, e) := e.acquire entity
  if granted then (.ok (), e)
  else
    (.error (.lockTimeout entity (.ofMillis e.settings.locking.timeoutMillis)),
      { e with locks := e.locks.expire entity ticket })

/-- Lets go of the lock that somebody else keeps on an entity; whether there was one. -/
def unhold (e : Engine) (entity : Ident) : Bool × Engine :=
  match e.locks.guard? entity with
  | some ticket => (true, { e with locks := e.locks.release entity ticket })
  | none => (false, e)

end Engine

end TaskFlow

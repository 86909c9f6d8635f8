import TaskFlow.Lock.Registry

/-!
# Lock sessions

Tasks that compete for locks on a clock that moves only when it is told to. After each step all that
can happen has happened: waits whose time is up have failed, and whoever was handed a lock has
resumed. A wait whose time is up exactly now has failed.
-/

namespace TaskFlow.Lock

/-- How a task that asked for a lock stands. A waiting task may have been told to let go of the lock
as soon as it gets it. -/
inductive Standing where
  | waiting (leave : Bool)
  | held
  | released
  | cancelled
  | timedOut
  deriving DecidableEq, Repr

/-- A task that asked for a lock, and when its patience ends. -/
structure Attempt where
  ticket : Ticket
  entity : Ident
  deadline : Nat
  standing : Standing
  deriving DecidableEq, Repr

/-- Tasks that compete for locks, some of them known by a name. Times are in milliseconds. -/
structure Session where
  timeout : Nat
  clock : Nat := 0
  registry : Registry := { timeoutMillis := timeout }
  issued : Nat := 0
  attempts : List Attempt := []
  names : List (String × Ticket) := []
  entities : List Ident := []
  deriving DecidableEq, Repr

namespace Session

def table (s : Session) : Table :=
  s.registry.table

/-- The error of a wait for an entity that took too long. -/
def timeoutError (s : Session) (entity : Ident) : EngineError :=
  .lockTimeout entity (.ofMillis s.timeout)

def setStanding (s : Session) (ticket : Ticket) (standing : Standing) : Session :=
  { s with
    attempts := s.attempts.map fun a => if a.ticket = ticket then { a with standing } else a }

/-- Ends the waits whose time is up. -/
def expireDue (s : Session) : Session :=
  let isDue (a : Attempt) : Bool :=
    match a.standing with
    | .waiting _ => a.deadline ≤ s.clock
    | _ => false
  (s.attempts.filter isDue).foldl (fun s a =>
    { s.setStanding a.ticket .timedOut with registry := s.registry.finish a.ticket .expired }) s

/-- Resumes a task that was handed a lock. -/
def wake (s : Session) (ticket : Ticket) : Session :=
  let s := { s with registry := s.registry.move ticket .resume }
  if s.attempts.any fun a => a.ticket == ticket && a.standing == .waiting true then
    { s.setStanding ticket .released with registry := s.registry.finish ticket .dropped }
  else s.setStanding ticket .held

/-- Resumes up to `count` tasks that were handed a lock. -/
def wakeUpTo : (count : Nat) → Session → Session
  | 0, s => s
  | count + 1, s =>
    match s.registry.handed? with
    | none => s
    | some ticket => wakeUpTo count (s.wake ticket)

/-- Lets all happen that can. -/
def settle (s : Session) : Session :=
  let s := s.expireDue
  wakeUpTo s.attempts.length s

def draw (s : Session) (entity : Ident) : Ticket × Session :=
  (s.issued, { s with issued := s.issued + 1, entities := s.entities ++ [entity] })

/-- Starts a task under a name that asks for the lock of an entity. A task that had the name loses
it and keeps all else. -/
def start (s : Session) (name : String) (entity : Ident) : Session :=
  let (ticket, s) := s.draw entity
  let (granted, registry) := s.registry.acquire entity ticket
  let attempt : Attempt :=
    { ticket, entity, deadline := s.clock + s.timeout
      standing := if granted then .held else .waiting false }
  settle { s with
    registry
    attempts := s.attempts ++ [attempt]
    names := (s.names.filter fun n => n.1 != name) ++ [(name, ticket)] }

def named? (s : Session) (name : String) : Option Attempt :=
  (s.names.lookup name).bind fun ticket => s.attempts.find? (·.ticket == ticket)

/-- Lets the task with a name drop its lock, now or as soon as it gets it. -/
def release (s : Session) (name : String) : Session :=
  match s.named? name with
  | none => s
  | some a =>
    match a.standing with
    | .held =>
      settle
        { s.setStanding a.ticket .released with registry := s.registry.finish a.ticket .dropped }
    | .waiting _ => s.setStanding a.ticket (.waiting true)
    | _ => s

/-- Cancels the task with a name: it drops its lock or gives up its wait. -/
def cancel (s : Session) (name : String) : Session :=
  match s.named? name with
  | none => s
  | some a =>
    match a.standing with
    | .held =>
      settle
        { s.setStanding a.ticket .cancelled with registry := s.registry.finish a.ticket .dropped }
    | .waiting _ =>
      settle
        { s.setStanding a.ticket .cancelled with registry := s.registry.finish a.ticket .abandoned }
    | _ => s

def advance (s : Session) (ms : Nat) : Session :=
  settle { s with clock := s.clock + ms }

/-- Runs an operation under the lock of an entity. If the lock is somebody's the clock runs on until
the wait has taken too long, for nobody lets go of a lock in the meantime. -/
def withLock {α : Type} (s : Session) (entity : Ident)
    (operation : Session → Except EngineError α × Session) : Except EngineError α × Session :=
  let (ticket, s) := s.draw entity
  let (granted, registry) := s.registry.acquire entity ticket
  let s := { s with registry }
  if granted then
    let (result, s) := operation s
    (result, settle { s with registry := s.registry.finish ticket .dropped })
  else
    let s := s.advance s.timeout
    (.error (s.timeoutError entity), { s with registry := s.registry.finish ticket .expired })

/-- Runs an operation that fails with a given reason, or else looks at its own lock. -/
def probe (s : Session) (entity : Ident) (fail : Option String) :
    Except EngineError (Bool × Nat) × Session :=
  s.withLock entity fun s =>
    match fail with
    | some reason => (.error (.invalid (.rejected reason)), s)
    | none => (.ok (s.registry.isLocked entity, s.registry.tracked), s)

/-- Counts the locks that are kept while those of two entities are held, one inside the other. -/
def nested (s : Session) (outer inner : Ident) : Except EngineError Nat × Session :=
  s.withLock outer fun s => s.withLock inner fun s => (.ok s.registry.tracked, s)

def describe (s : Session) (a : Attempt) : String :=
  match a.standing with
  | .waiting _ => "waiting"
  | .held => s!"held {a.entity}"
  | .released => "released"
  | .cancelled => "cancelled"
  | .timedOut => (s.timeoutError a.entity).message

def standings (s : Session) : List (String × String) :=
  s.names.filterMap fun (name, _) => (s.named? name).map fun a => (name, s.describe a)

/-- The entities asked for so far whose locks are somebody's, in ascending order. -/
def lockedEntities (s : Session) : List Ident :=
  (s.entities.eraseDups.filter s.registry.isLocked).mergeSort fun a b => a ≤ b

end Session

end TaskFlow.Lock

import TaskFlow.Error
import TaskFlow.Lock.Contest

/-!
# The lock registry

The lock of an entity is an object of its own, to which the registry and all acquisitions under way
have handles. It is made when it is first asked for and dropped when the registry finds that it has
the only handle left; whoever asks for it after that makes another. The caller of an acquisition is
told when it has the lock or has waited too long.
-/

namespace TaskFlow.Lock

/-- One of the locks that were made for an entity. -/
structure LockId where
  entity : Ident
  serial : Nat
  deriving DecidableEq, Repr

/-- The locks that are kept, the number of those that were made, and the acquisitions so far. -/
structure Registry where
  timeoutMillis : Nat
  entries : List LockId := []
  made : Nat := 0
  contest : Contest LockId := []
  deriving DecidableEq, Repr

namespace Registry

def entry? (r : Registry) (entity : Ident) : Option LockId :=
  r.entries.find? (·.entity == entity)

def isLocked (r : Registry) (entity : Ident) : Bool :=
  (r.entry? entity).any r.contest.isTaken

/-- The number of entities for which a lock is kept. -/
def tracked (r : Registry) : Nat :=
  r.entries.length

/-- Begins an acquisition with a handle on the lock of an entity, which is made if none is kept. -/
def enter (r : Registry) (entity : Ident) (ticket : Ticket) : Registry :=
  if (r.contest.of? ticket).isSome then r
  else
    match r.entry? entity with
    | some lock => { r with contest := r.contest.enter lock ticket }
    | none =>
      let lock : LockId := { entity, serial := r.made }
      { r with
        entries := r.entries ++ [lock]
        made := r.made + 1
        contest := r.contest.enter lock ticket }

/-- Drops the lock of an entity if the registry has the only handle on it. -/
def dropIdle (r : Registry) (entity : Ident) : Registry :=
  { r with entries := r.entries.filter fun l => !(l.entity == entity && r.contest.handles l == 0) }

/-- The lock that an acquisition looks after when it makes a move. -/
def swept? (r : Registry) (ticket : Ticket) : Move → Option LockId
  | .sweep => (r.contest.of? ticket).bind fun a =>
    match a.stage with
    | .leaving _ => some a.lock
    | _ => none
  | _ => none

/-- An acquisition makes a move, if it is open to it. One that leaves looks whether its lock is
idle. -/
def move (r : Registry) (ticket : Ticket) (m : Move) : Registry :=
  let after := { r with contest := r.contest.move ticket m }
  match r.swept? ticket m with
  | some lock => after.dropIdle lock.entity
  | none => after

def next (r : Registry) : Event Ident → Registry
  | .enter entity ticket => r.enter entity ticket
  | .move ticket m => r.move ticket m

def after (r : Registry) (events : List (Event Ident)) : Registry :=
  events.foldl next r

/-- What the caller of an acquisition is told when it makes a move, if anything. -/
def reply? (r : Registry) (ticket : Ticket) (m : Move) : Option (Except EngineError Unit) :=
  (r.contest.of? ticket).bind fun a =>
    match m, a.stage with
    | .attempt, .looking => if r.contest.isTaken a.lock then none else some (.ok ())
    | .resume, .handed => some (.ok ())
    | .sweep, .leaving .expired =>
      some (.error (.lockTimeout a.lock.entity (.ofMillis r.timeoutMillis)))
    | _, _ => none

/-- Asks for the lock of an entity without a break between look-up and attempt. Says whether it was
granted at once. -/
def acquire (r : Registry) (entity : Ident) (ticket : Ticket) : Bool × Registry :=
  let r := r.enter entity ticket
  ((r.reply? ticket .attempt).isSome, r.move ticket .attempt)

/-- Ends an acquisition without a break. -/
def finish (r : Registry) (ticket : Ticket) (how : Parting) : Registry :=
  ((r.move ticket (.withdraw how)).move ticket .drop).move ticket .sweep

/-- The first acquisition that was handed its lock and has not resumed. -/
def handed? (r : Registry) : Option Ticket :=
  (r.contest.find? (·.stage == .handed)).map Acquisition.ticket

/-- A lock with its owner and those who wait for it. -/
def slot (r : Registry) (lock : LockId) : Slot :=
  match r.contest.line lock with
  | [] => { entity := lock.entity, hold := .free }
  | a :: rest =>
    { entity := lock.entity
      hold := if a.stage = .guarding then .guarded a.ticket else .handed a.ticket
      waiting := rest.map Acquisition.ticket }

/-- The locks that are kept, each with its owner and those who wait for it. -/
def table (r : Registry) : Table :=
  ⟨r.entries.map r.slot⟩

end Registry

end TaskFlow.Lock

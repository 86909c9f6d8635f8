import TaskFlow.Ident

/-!
# The lock table

One lock for each entity, made when it is first asked for and dropped when nobody has a use for it
any more. Those who wait for a lock get it in the order in which they came. A lock that is let go is
handed to the first of them at once, and belongs to it even before it has resumed. The table is how
the locks stand when no acquisition is between two of its steps.
-/

namespace TaskFlow.Lock

abbrev Ticket := Nat

/-- Whose a lock is: nobody's, that of a running guard, or that of a waiter that has yet to
resume. -/
inductive Hold where
  | free
  | guarded (ticket : Ticket)
  | handed (ticket : Ticket)
  deriving DecidableEq, Repr

/-- The lock of one entity, with those who wait for it. -/
structure Slot where
  entity : Ident
  hold : Hold
  waiting : List Ticket := []
  deriving DecidableEq, Repr

namespace Slot

/-- A lock that is let go: it goes to the first who waits. -/
def passOn (s : Slot) : Slot :=
  match s.waiting with
  | [] => { s with hold := .free }
  | ticket :: waiting => { s with hold := .handed ticket, waiting }

/-- Whether nobody has a use for the lock. -/
def isIdle (s : Slot) : Bool :=
  s.hold == .free && s.waiting.isEmpty

end Slot

/-- The locks of all entities for which one is kept. -/
structure Table where
  slots : List Slot := []
  deriving DecidableEq, Repr

namespace Table

def slot? (t : Table) (entity : Ident) : Option Slot :=
  t.slots.find? (·.entity == entity)

def isLocked (t : Table) (entity : Ident) : Bool :=
  (t.slot? entity).any (·.hold != .free)

/-- The number of entities for which a lock is kept. -/
def tracked (t : Table) : Nat :=
  t.slots.length

/-- Changes the lock of an entity, if one is kept. -/
def modify (t : Table) (entity : Ident) (f : Slot → Slot) : Table :=
  ⟨t.slots.map fun s => if s.entity = entity then f s else s⟩

/-- Drops the lock of an entity if nobody has a use for it. -/
def sweep (t : Table) (entity : Ident) : Table :=
  ⟨t.slots.filter fun s => !(s.entity == entity && s.isIdle)⟩

/-- Asks for the lock of an entity: takes it if it is nobody's, else waits for it. Says whether it
was taken. -/
def acquire (t : Table) (entity : Ident) (ticket : Ticket) : Bool × Table :=
  match t.slot? entity with
  | none => (true, ⟨t.slots ++ [{ entity, hold := .guarded ticket }]⟩)
  | some s =>
    if s.hold = .free then (true, t.modify entity fun s => { s with hold := .guarded ticket })
    else (false, t.modify entity fun s => { s with waiting := s.waiting ++ [ticket] })

/-- A guard ends: its lock is let go, and dropped if nobody waits for it. -/
def release (t : Table) (entity : Ident) (ticket : Ticket) : Table :=
  (t.modify entity fun s => if s.hold = .guarded ticket then s.passOn else s).sweep entity

/-- A waiter has waited too long: it leaves the queue, and the lock is dropped if it is idle. -/
def expire (t : Table) (entity : Ident) (ticket : Ticket) : Table :=
  (t.modify entity fun s => { s with waiting := s.waiting.erase ticket }).sweep entity

/-- The guard that holds the lock of an entity. -/
def guard? (t : Table) (entity : Ident) : Option Ticket :=
  (t.slot? entity).bind fun s =>
    match s.hold with
    | .guarded ticket => some ticket
    | _ => none

end Table

end TaskFlow.Lock

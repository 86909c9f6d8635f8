import TaskFlow.Lock.Table

/-!
# Contests for locks

Acquisitions of locks, each of which goes its way step by step: it has got hold of its lock, tries
it, waits where it is taken, guards it, lets go of it and drops its handle. Between any two steps of
one acquisition others can make theirs. Those who wait for a lock are served in the order in which
they tried it, and a lock that is let go is handed to the first of them at once, who owns it even
before it has resumed.
-/

namespace TaskFlow.Lock

/-- How an acquisition comes to its end: its guard is dropped, or its wait takes too long or is
given up by the caller. -/
inductive Parting where
  | dropped
  | expired
  | abandoned
  deriving DecidableEq, Repr

/-- How far an acquisition has come. While it is parting it still has its handle on the lock, and
while it is leaving it has yet to look whether the lock is idle. -/
inductive Stage where
  | looking
  | waiting
  | handed
  | guarding
  | parting (how : Parting)
  | leaving (how : Parting)
  | gone
  deriving DecidableEq, Repr

/-- What an acquisition can do next. -/
inductive Move where
  | attempt
  | resume
  | withdraw (how : Parting)
  | drop
  | sweep
  deriving DecidableEq, Repr

namespace Stage

def owns : Stage → Bool
  | handed | guarding => true
  | _ => false

/-- Whether the acquisition owns the lock or waits for it. -/
def inLine : Stage → Bool
  | waiting | handed | guarding => true
  | _ => false

/-- Whether the acquisition has a handle on the lock. -/
def hasHandle : Stage → Bool
  | leaving _ | gone => false
  | _ => true

/-- The stage to which a move leads, if the move is open. A wait that is given up by the caller ends
without a look at the lock. -/
def after (taken : Bool) : Move → Stage → Option Stage
  | .attempt, looking => some (if taken then waiting else guarding)
  | .resume, handed => some guarding
  | .withdraw .dropped, guarding => some (parting .dropped)
  | .withdraw .expired, waiting | .withdraw .expired, handed => some (parting .expired)
  | .withdraw .abandoned, waiting | .withdraw .abandoned, handed => some (parting .abandoned)
  | .drop, parting .abandoned => some gone
  | .drop, parting how => some (leaving how)
  | .sweep, leaving _ => some gone
  | _, _ => none

end Stage

/-- An acquisition of a lock, known by its ticket. -/
structure Acquisition (κ : Type) where
  ticket : Ticket
  lock : κ
  stage : Stage
  deriving DecidableEq, Repr

/-- All acquisitions so far. Those that own a lock or wait for it stand in the order in which they
tried it. -/
abbrev Contest (κ : Type) := List (Acquisition κ)

namespace Contest

variable {κ : Type}

def of? (c : Contest κ) (ticket : Ticket) : Option (Acquisition κ) :=
  c.find? (·.ticket == ticket)

/-- Changes the stage of the acquisition with a ticket. -/
def setStage (c : Contest κ) (ticket : Ticket) (stage : Stage) : Contest κ :=
  c.map fun a => if a.ticket = ticket then { a with stage } else a

def toBack (c : Contest κ) (a : Acquisition κ) : Contest κ :=
  c.filter (·.ticket != a.ticket) ++ [a]

/-- Begins an acquisition. A ticket is used once. -/
def enter (c : Contest κ) (lock : κ) (ticket : Ticket) : Contest κ :=
  if (c.of? ticket).isSome then c else c ++ [{ ticket, lock, stage := .looking }]

variable [DecidableEq κ]

/-- Those that own a lock or wait for it, in their order. -/
def line (c : Contest κ) (lock : κ) : Contest κ :=
  c.filter fun a => a.lock = lock && a.stage.inLine

/-- Whether a lock is somebody's. -/
def isTaken (c : Contest κ) (lock : κ) : Bool :=
  c.any fun a => a.lock = lock && a.stage.owns

/-- The number of handles that acquisitions have on a lock. -/
def handles (c : Contest κ) (lock : κ) : Nat :=
  c.countP fun a => a.lock = lock && a.stage.hasHandle

/-- Hands a lock that was let go to the first who waits for it. -/
def passOn (c : Contest κ) (lock : κ) : Contest κ :=
  match c.find? fun a => a.lock = lock && a.stage == .waiting with
  | some a => c.setStage a.ticket .handed
  | none => c

/-- An acquisition makes a move, if it is open to it. -/
def move (c : Contest κ) (ticket : Ticket) (m : Move) : Contest κ :=
  match c.of? ticket with
  | none => c
  | some a =>
    match a.stage.after (c.isTaken a.lock) m with
    | none => c
    | some stage =>
      if a.stage = .looking then c.toBack { a with stage }
      else
        let c := c.setStage ticket stage
        if a.stage.owns && !stage.owns then c.passOn a.lock else c

end Contest

/-- What happens in a contest. -/
inductive Event (κ : Type) where
  | enter (lock : κ) (ticket : Ticket)
  | move (ticket : Ticket) (m : Move)
  deriving DecidableEq, Repr

def Event.ticket {κ : Type} : Event κ → Ticket
  | enter _ ticket | move ticket _ => ticket

def Contest.next {κ : Type} [DecidableEq κ] (c : Contest κ) : Event κ → Contest κ
  | .enter lock ticket => c.enter lock ticket
  | .move ticket m => c.move ticket m

end TaskFlow.Lock

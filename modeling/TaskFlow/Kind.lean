/-!
# Kinds and roles

Tasks belong to features and features to projects; each kind has a workflow of its own. A role is
the stage of its life that a status stands for. Queue, work, review and terminal are ordered;
blocked stands outside the order, so nothing reaches it and it reaches nothing.
-/

namespace TaskFlow

/-- The kinds of work item whose status is governed. -/
inductive Kind where
  | task
  | feature
  | project
  deriving DecidableEq, Repr

namespace Kind

/-- The three kinds, in the order in which they are listed. -/
def all : List Kind := [.task, .feature, .project]

def name : Kind → String
  | .task => "task"
  | .feature => "feature"
  | .project => "project"

/-- The key of a kind in a workflow document. -/
def plural : Kind → String
  | .task => "tasks"
  | .feature => "features"
  | .project => "projects"

end Kind

/-- The stage of its life that a work item is in. -/
inductive Role where
  | queue
  | work
  | review
  | blocked
  | terminal
  deriving DecidableEq, Repr

namespace Role

def all : List Role := [.queue, .work, .review, .blocked, .terminal]

def name : Role → String
  | .queue => "queue"
  | .work => "work"
  | .review => "review"
  | .blocked => "blocked"
  | .terminal => "terminal"

/-- The place of a role in the order of stages; `blocked` has none. -/
def rank : Role → Option Nat
  | .queue => some 0
  | .work => some 1
  | .review => some 2
  | .terminal => some 3
  | .blocked => none

/-- Whether an item in role `current` has reached `required` or passed it. -/
def satisfies (current required : Role) : Bool :=
  match current.rank, required.rank with
  | some a, some b => b ≤ a
  | _, _ => false

/-- Whether a dependency may name this role as the one that unblocks it. -/
def isUnblocking : Role → Bool
  | .work | .review | .terminal => true
  | .queue | .blocked => false

end Role

end TaskFlow

import TaskFlow.Graph

/-!
# Longest walks

The longest walk from a task that visits no task twice, found by a depth-first search that settles
each task once. Of two continuations of the same length the one that comes first is kept. On a
graph with cycles a settled task keeps the length it was settled with.
-/

namespace TaskFlow.Graph

/-- How far a task is known to lead, and by which of its arcs. -/
structure Leg where
  hops : Nat
  next : Option Ident
  deriving DecidableEq, Repr

/-- What a search knows of the tasks that it has settled. -/
abbrev Legs := List (Ident × Leg)

mutual

/-- How many arcs can be walked from `task` when only the tasks of `free` may be entered, given
what is settled already. -/
def longest (g : Graph) (c : Course) (free : List Ident) (task : Ident) (legs : Legs) :
    Nat × Legs :=
  match legs.lookup task with
  | some leg => (leg.hops, legs)
  | none =>
    let (best, legs) := g.longestVia c free (g.next c task) ⟨0, none⟩ legs
    (best.hops, (task, best) :: legs)
  termination_by (free.length, 1, 0)

/-- The best leg over the arcs to `nexts`, when `best` is the best of those before. -/
def longestVia (g : Graph) (c : Course) (free nexts : List Ident) (best : Leg) (legs : Legs) :
    Leg × Legs :=
  match nexts with
  | [] => (best, legs)
  | task :: nexts =>
    if _h : task ∈ free then
      let (hops, legs) := g.longest c (free.erase task) task legs
      g.longestVia c free nexts (if best.hops < hops + 1 then ⟨hops + 1, some task⟩ else best) legs
    else g.longestVia c free nexts best legs
  termination_by (free.length, 0, nexts.length)
  decreasing_by
    · have hlen := List.length_erase_of_mem _h
      have hpos := List.length_pos_of_mem _h
      exact Prod.Lex.left _ _ (by omega)
    · exact Prod.Lex.right _ (Prod.Lex.right _ (by simp))
    · exact Prod.Lex.right _ (Prod.Lex.right _ (by simp))

end

/-- The tasks met by following the legs on from `task` while they lead to a free task. -/
def follow (legs : Legs) (free : List Ident) (task : Ident) : List Ident :=
  match (legs.lookup task).bind Leg.next with
  | none => []
  | some next =>
    if _h : next ∈ free then next :: follow legs (free.erase next) next else []
  termination_by free.length
  decreasing_by
    have hlen := List.length_erase_of_mem _h
    have hpos := List.length_pos_of_mem _h
    omega

/-- The length of the longest walk from `start`, and its tasks. -/
def criticalPath (g : Graph) (c : Course) (start : Ident) : Nat × List Ident :=
  let free := g.nodes.erase start
  let (depth, legs) := g.longest c free start []
  (depth, start :: follow legs free start)

end TaskFlow.Graph

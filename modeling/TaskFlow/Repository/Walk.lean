import TaskFlow.Graph.Search
import TaskFlow.Repository

/-!
# Walks through the stored edges

The blocking edges that a walk from one task can use, fetched task by task.
-/

namespace TaskFlow

/-- The end of a blocking edge that a walk leaves from. -/
def Dependency.near? (d : Dependency) (c : Course) : Option Ident :=
  d.arc?.map (Arc.near · c)

/-- The end of a blocking edge that a walk arrives at. -/
def Dependency.far? (d : Dependency) (c : Course) : Option Ident :=
  d.arc?.map (Arc.far · c)

namespace Repository

def graph (r : Repository) : Graph :=
  .ofEdges r.edges.toList

/-- The blocking edges by which a walk leaves a task. -/
def edgesFrom (r : Repository) (c : Course) (task : Ident) : Except EngineError (List Dependency) :=
  return (← r.findByTask task).filter fun d => d.near? c == some task

/-- The tasks at the far ends of edges that have not been seen, each once. -/
def ahead (c : Course) (seen : List Ident) (edges : List Dependency) : List Ident :=
  (edges.filterMap (·.far? c)).eraseDups.filter fun task => task ∉ seen

theorem mem_edges_of_edgesFrom {r : Repository} {c : Course} {task : Ident} {d : Dependency}
    {found : List Dependency} (h : r.edgesFrom c task = .ok found) (hd : d ∈ found) :
    d ∈ r.edges.toList := by
  have hfind : ∀ l, r.findByTask task = .ok l → ∀ e ∈ l, e ∈ r.edges.toList := by
    intro l hl e he
    simp only [findByTask, answer, Roster.select] at hl
    split at hl <;> cases hl
    · exact (List.mem_filter.1 he).1
    · cases he
  simp only [edgesFrom] at h
  cases hr : r.findByTask task with
  | error e => rw [hr] at h; cases h
  | ok l => rw [hr] at h; cases h; exact hfind l hr d (List.mem_filter.1 hd).1

theorem mem_nodes_of_mem_ahead {r : Repository} {c : Course} {task other : Ident}
    {seen : List Ident} {found : List Dependency} (h : r.edgesFrom c task = .ok found)
    (ho : other ∈ ahead c seen found) : other ∉ seen ∧ other ∈ r.graph.nodes := by
  simp only [ahead, List.mem_filter, List.mem_eraseDups, List.mem_filterMap,
    decide_eq_true_eq] at ho
  obtain ⟨⟨d, hd, hfar⟩, hseen⟩ := ho
  refine ⟨hseen, ?_⟩
  obtain ⟨a, ha, rfl⟩ := Option.map_eq_some_iff.1 hfar
  simp only [Graph.nodes, List.mem_eraseDups, List.mem_flatMap]
  refine ⟨a, List.mem_filterMap.2 ⟨d, mem_edges_of_edgesFrom h hd, ha⟩, ?_⟩
  cases c <;> simp [Arc.far]

/-- The blocking edges that a walk uses which has the tasks of `queue` still to leave, when `seen`
holds all tasks met so far. -/
def walk (r : Repository) (c : Course) (seen : List Ident) :
    (queue : List Ident) → Except EngineError (List Dependency)
  | [] => .ok []
  | task :: queue =>
    match _hf : r.edgesFrom c task with
    | .error e => .error e
    | .ok found =>
      match _h : ahead c seen found with
      | [] => (r.walk c seen queue).map (found ++ ·)
      | first :: more =>
        (r.walk c (seen ++ first :: more) (queue ++ first :: more)).map (found ++ ·)
  termination_by queue => ((r.graph.unseen seen).length, queue.length)
  decreasing_by
    · exact Prod.Lex.right _ (by simp)
    · have hmem : first ∈ ahead c seen found := by simp [_h]
      obtain ⟨hseen, hnode⟩ := mem_nodes_of_mem_ahead _hf hmem
      exact Prod.Lex.left _ _ (Graph.length_unseen_append_lt _ (by simp) hseen hnode)

/-- The blocking edges that a walk from `start` can use. -/
def blockingEdges (r : Repository) (c : Course) (start : Ident) :
    Except EngineError (List Dependency) :=
  r.walk c [start] [start]

/-- Whether stored blocking edges lead from `start` to `goal`. -/
def leads (r : Repository) (start goal : Ident) : Except EngineError Bool :=
  return (Graph.ofEdges (← r.blockingEdges .forward start)).reaches start goal

end Repository

end TaskFlow

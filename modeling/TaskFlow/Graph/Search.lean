import TaskFlow.Graph

/-!
# Breadth-first search

The tasks that a walk can reach, layer by layer: a layer holds the tasks as many arcs away from the
start, in the order in which the layer before leads to them.
-/

namespace TaskFlow.Graph

/-- The tasks of the graph that a search has not seen yet. -/
def unseen (g : Graph) (seen : List Ident) : List Ident :=
  g.nodes.filter fun task => task ∉ seen

theorem length_unseen_append_lt (g : Graph) {seen more : List Ident} {task : Ident}
    (hmore : task ∈ more) (hseen : task ∉ seen) (hnode : task ∈ g.nodes) :
    (g.unseen (seen ++ more)).length < (g.unseen seen).length := by
  have h : g.unseen (seen ++ more) = (g.unseen seen).filter fun task => task ∉ more := by
    simp only [unseen, List.filter_filter, List.mem_append, not_or, Bool.decide_and]
    exact List.filter_congr fun _ _ => Bool.and_comm ..
  rw [h, List.length_filter_lt_length_iff_exists]
  exact ⟨task, by simp [unseen, hnode, hseen], by simpa using hmore⟩

/-- The tasks one arc beyond a layer that have not been seen, each once. -/
def beyond (g : Graph) (c : Course) (seen layer : List Ident) : List Ident :=
  ((layer.flatMap (g.next c)).eraseDups).filter fun task => task ∉ seen

theorem mem_beyond {g : Graph} {c : Course} {seen layer : List Ident} {task : Ident} :
    task ∈ g.beyond c seen layer ↔ (∃ near ∈ layer, task ∈ g.next c near) ∧ task ∉ seen := by
  simp [beyond, List.mem_eraseDups, List.mem_flatMap]

/-- The layers from a given one on, when `seen` holds all tasks met so far. -/
def layersFrom (g : Graph) (c : Course) (seen layer : List Ident) : List (List Ident) :=
  match _h : g.beyond c seen layer with
  | [] => [layer]
  | task :: more => layer :: g.layersFrom c (seen ++ task :: more) (task :: more)
  termination_by (g.unseen seen).length
  decreasing_by
    have hmem : task ∈ g.beyond c seen layer := by simp [_h]
    obtain ⟨⟨near, _, hnext⟩, hseen⟩ := mem_beyond.1 hmem
    exact length_unseen_append_lt g (by simp) hseen (mem_nodes_of_mem_next hnext)

/-- The tasks that can be reached from `start`, by their distance from it. -/
def layers (g : Graph) (c : Course) (start : Ident) : List (List Ident) :=
  g.layersFrom c [start] [start]

/-- The tasks that can be reached from `start`, nearest first. -/
def chain (g : Graph) (c : Course) (start : Ident) : List Ident :=
  (g.layers c start).flatten

/-- Whether `goal` lies beyond a task of the queue, when `seen` holds all tasks met so far. -/
def seek (g : Graph) (goal : Ident) (seen : List Ident) : (queue : List Ident) → Bool
  | [] => false
  | task :: queue =>
    if goal ∈ g.next .forward task then true
    else
      match _h : g.beyond .forward seen [task] with
      | [] => g.seek goal seen queue
      | first :: more => g.seek goal (seen ++ first :: more) (queue ++ first :: more)
  termination_by queue => ((g.unseen seen).length, queue.length)
  decreasing_by
    · exact Prod.Lex.right _ (by simp)
    · have hmem : first ∈ g.beyond .forward seen [task] := by simp [_h]
      obtain ⟨⟨near, _, hnext⟩, hseen⟩ := mem_beyond.1 hmem
      exact Prod.Lex.left _ _
        (length_unseen_append_lt g (by simp) hseen (mem_nodes_of_mem_next hnext))

/-- Whether blocking arcs lead from `start` to `goal`; every task reaches itself. -/
def reaches (g : Graph) (start goal : Ident) : Bool :=
  start == goal || g.seek goal [start] [start]

end TaskFlow.Graph

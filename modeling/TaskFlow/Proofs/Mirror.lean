import TaskFlow.Proofs.Traversal

/-!
# Walks against the arcs

A walk from a task to its blockers is a walk along the arcs of the graph in which every edge is
turned round. The two are reported alike, and one task is found from another just if the walk the
other way finds the second from the first.
-/

open Relation (ReflTransGen)

namespace TaskFlow

def Course.opposite : Course → Course
  | .backward => .forward
  | .forward => .backward

def Arc.reversed (a : Arc) : Arc :=
  { a with blocker := a.blocked, blocked := a.blocker }

/-- The edge with its ends exchanged, and all else as it is. -/
def Dependency.reversed (d : Dependency) : Dependency :=
  { d with source := d.target, target := d.source }

def Graph.reversed (g : Graph) : Graph :=
  ⟨g.arcs.map Arc.reversed⟩

lemma Arc.near_reversed (a : Arc) (c : Course) : a.reversed.near c.opposite = a.near c := by
  cases c <;> rfl

lemma Arc.far_reversed (a : Arc) (c : Course) : a.reversed.far c.opposite = a.far c := by
  cases c <;> rfl

lemma Arc.comesFirst_reversed (a b : Arc) (c : Course) :
    comesFirst c.opposite a.reversed b.reversed = comesFirst c a b := by
  unfold comesFirst
  rw [far_reversed, far_reversed]
  rfl

lemma Dependency.arc?_reversed (d : Dependency) : d.reversed.arc? = d.arc?.map Arc.reversed := by
  obtain ⟨id, source, target, relation, unblockAt, createdAt⟩ := d
  cases relation <;> rfl

namespace Graph

variable {g : Graph} {c : Course} {start : Ident}

lemma ofEdges_reversed (edges : List Dependency) :
    ofEdges (edges.map Dependency.reversed) = (ofEdges edges).reversed := by
  unfold ofEdges reversed
  rw [List.filterMap_map, List.map_filterMap]
  exact congrArg Graph.mk (List.filterMap_congr fun d _ => d.arc?_reversed)

lemma next_reversed (g : Graph) (c : Course) (task : Ident) :
    g.reversed.next c.opposite task = g.next c task := by
  have hfilter : (g.arcs.map Arc.reversed).filter (fun a => a.near c.opposite == task) =
      (g.arcs.filter fun a => a.near c == task).map Arc.reversed := by
    rw [List.filter_map]
    exact congrArg _ (List.filter_congr fun a _ => by simp [a.near_reversed])
  have hsort : ((g.arcs.filter fun a => a.near c == task).map Arc.reversed).mergeSort
      (Arc.comesFirst c.opposite) =
        ((g.arcs.filter fun a => a.near c == task).mergeSort (Arc.comesFirst c)).map
          Arc.reversed :=
    (List.map_mergeSort fun a _ b _ => (a.comesFirst_reversed b c).symm).symm
  unfold next reversed
  rw [hfilter, hsort, List.map_map]
  exact congrArg _ (List.map_congr_left fun a _ => a.far_reversed c)

lemma mem_nodes_reversed {task : Ident} : task ∈ g.reversed.nodes ↔ task ∈ g.nodes := by
  simp only [nodes, reversed, List.mem_eraseDups, List.mem_flatMap, List.mem_map, List.mem_cons,
    List.not_mem_nil, or_false]
  constructor
  · rintro ⟨-, ⟨a, ha, rfl⟩, htask⟩
    exact ⟨a, ha, htask.symm⟩
  · rintro ⟨a, ha, htask⟩
    exact ⟨a.reversed, ⟨a, ha, rfl⟩, htask.symm⟩

lemma leadAlike_reversed (g : Graph) (c : Course) :
    LeadAlike g g.reversed c c.opposite fun _ => True where
  next := fun task _ => (g.next_reversed c task).symm
  closed := fun _ _ _ _ => trivial

lemma mem_next_reversed {a b : Ident} :
    b ∈ g.reversed.next .forward a ↔ a ∈ g.next .forward b := by
  have hnext : g.reversed.next .forward a = g.next .backward a := g.next_reversed .backward a
  rw [hnext, mem_next_iff_step, step_swap, mem_next_iff_step]

lemma independent_reversed (g : Graph) (tasks : List Ident) :
    g.independent tasks = g.reversed.independent tasks := by
  rw [Bool.eq_iff_iff]
  simp only [independent, List.all_eq_true, decide_eq_true_eq, mem_next_reversed]
  constructor
  · intro h a ha b hb hmem
    exact h b hmem a hb ha
  · intro h a ha b hb hmem
    exact h b hmem a hb ha

lemma analyze_reversed (g : Graph) (c : Course) (start : Ident) :
    g.analyze c start = g.reversed.analyze c.opposite start := by
  apply (g.leadAlike_reversed c).analyze_eq trivial
  · refine ⟨nodup_nodes.erase start, nodup_nodes.erase start, fun x _ => ?_⟩
    rw [nodup_nodes.mem_erase_iff, nodup_nodes.mem_erase_iff, mem_nodes_reversed]
  · exact fun tasks _ => g.independent_reversed tasks

lemma mem_layersFrom {seen layer : List Ident} {x : Ident} (hx : x ∈ layer) :
    x ∈ (g.layersFrom c seen layer).flatten := by
  rw [layersFrom]
  split
  · simpa using hx
  · exact List.mem_flatten_of_mem List.mem_cons_self hx

lemma mem_layersFrom_of_next (seen layer : List Ident) {x y : Ident}
    (hx : x ∈ (g.layersFrom c seen layer).flatten) (hy : y ∈ g.next c x) :
    y ∈ seen ∨ y ∈ (g.layersFrom c seen layer).flatten := by
  fun_induction layersFrom g c seen layer with
  | case1 seen layer hnone =>
    left
    by_contra hnew
    have hmem : y ∈ g.beyond c seen layer := mem_beyond.2 ⟨⟨x, by simpa using hx, hy⟩, hnew⟩
    rw [hnone] at hmem
    cases hmem
  | case2 seen layer first more hfresh ih =>
    rw [List.flatten_cons, List.mem_append] at hx ⊢
    rcases hx with hx | hx
    · by_cases hnew : y ∈ seen
      · exact .inl hnew
      · have hmem : y ∈ g.beyond c seen layer := mem_beyond.2 ⟨⟨x, hx, hy⟩, hnew⟩
        rw [hfresh] at hmem
        exact .inr (.inr (mem_layersFrom hmem))
    · rcases ih hx with hmem | hmem
      · exact (List.mem_append.1 hmem).imp_right fun hmem => .inr (mem_layersFrom hmem)
      · exact .inr (.inr hmem)

lemma mem_chain_iff {x : Ident} : x ∈ g.chain c start ↔ ReflTransGen (g.Step c) start x := by
  have hself : LeadAlike g g c c (ReflTransGen (g.Step c) start) :=
    ⟨fun _ _ => rfl, fun _ htask _ hother => htask.tail (mem_next_iff_step.1 hother)⟩
  constructor
  · intro hx
    obtain ⟨l, hl, hxl⟩ := List.mem_flatten.1 hx
    exact (hself.layers_eq .refl).2 l hl x hxl
  · intro hx
    have hstart : start ∈ g.chain c start := mem_layersFrom (List.mem_singleton.2 rfl)
    induction hx with
    | refl => exact hstart
    | tail _ hstep ih =>
      rcases mem_layersFrom_of_next [start] [start] ih (mem_next_iff_step.2 hstep) with hs | hmem
      · rw [List.mem_singleton.1 hs]
        exact hstart
      · exact hmem

lemma chain_analyze (g : Graph) (c : Course) (start : Ident) :
    (g.analyze c start).chain = g.chain c start := by
  rw [analyze_eq_survey, survey]

/-- The report on the blockers of a task is, part by part, the report on what it blocks once every
edge has its ends exchanged. A task is found from another by a walk along the arcs just if the
other is found from it by a walk against them. -/
theorem analyze_mirrored (edges : List Dependency) :
    (∀ start, (ofEdges edges).analyze .backward start =
      (ofEdges (edges.map Dependency.reversed)).analyze .forward start) ∧
    ∀ a b, b ∈ ((ofEdges edges).analyze .forward a).chain ↔
      a ∈ ((ofEdges edges).analyze .backward b).chain := by
  constructor
  · intro start
    rw [ofEdges_reversed]
    exact analyze_reversed _ .backward start
  · intro a b
    have hswap :
        (ofEdges edges).Step .backward = Function.swap ((ofEdges edges).Step .forward) := by
      funext x y
      exact propext step_swap
    rw [chain_analyze, chain_analyze, mem_chain_iff, mem_chain_iff, hswap,
      Relation.reflTransGen_swap]

end Graph

end TaskFlow

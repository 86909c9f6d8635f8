import TaskFlow.Proofs.Mirror

/-!
# Distances

The search goes round by round. The tasks found in one round are those whose shortest walks from
the start have as many arcs, in the order in which the tasks found before lead to them. So the
chain lists all tasks that can be reached, each once and the nearest first.
-/

open Relation (ReflTransGen TransGen)

namespace TaskFlow.Graph

/-- A walk of this many arcs leads from `start` to a task. -/
inductive Walk (g : Graph) (c : Course) (start : Ident) : Nat → Ident → Prop
  | stay : Walk g c start 0 start
  | go {n : Nat} {task other : Ident} (walk : Walk g c start n task)
      (step : g.Step c task other) : Walk g c start (n + 1) other

/-- The shortest walks from `start` to the task have `n` arcs. -/
def Distance (g : Graph) (c : Course) (start task : Ident) (n : Nat) : Prop :=
  g.Walk c start n task ∧ ∀ m, g.Walk c start m task → n ≤ m

/-- The first task of the list from which an arc leads to this one. -/
def leader? (g : Graph) (c : Course) (tasks : List Ident) (task : Ident) : Option Ident :=
  tasks.find? fun near => task ∈ g.next c near

/-- The first task of the list that leads to `a` stands before the first that leads to `b`, or one
task is the first to lead to both, and to `a` by the arc that comes first. -/
def LedEarlier (g : Graph) (c : Course) (tasks : List Ident) (a b : Ident) : Prop :=
  ∃ p q, g.leader? c tasks a = some p ∧ g.leader? c tasks b = some q ∧
    (tasks.idxOf p < tasks.idxOf q ∨ p = q ∧ LedToFirst c (g.arcsFrom c p) a b)

/-- `a` is nearer to the start than `b`, or as near and led to earlier by the tasks of the list. -/
def FoundBefore (g : Graph) (c : Course) (start : Ident) (tasks : List Ident) (a b : Ident) :
    Prop :=
  ∃ m n, g.Distance c start a m ∧ g.Distance c start b n ∧
    (m < n ∨ m = n ∧ g.LedEarlier c tasks a b)

variable {g : Graph} {c : Course} {start task other x y : Ident} {m n : Nat}

lemma Walk.head (hstep : g.Step c start task) (h : g.Walk c task n other) :
    g.Walk c start (n + 1) other := by
  induction h with
  | stay => exact .go .stay hstep
  | go walk step ih => exact .go ih step

lemma exists_walk_iff : (∃ n, g.Walk c start n task) ↔ ReflTransGen (g.Step c) start task := by
  constructor
  · rintro ⟨n, h⟩
    induction h with
    | stay => exact .refl
    | go walk step ih => exact ih.tail step
  · intro h
    induction h with
    | refl => exact ⟨0, .stay⟩
    | tail _ step ih =>
      obtain ⟨n, walk⟩ := ih
      exact ⟨n + 1, .go walk step⟩

lemma Walk.exists_longer (h : g.Walk c start n task) (hreach : TransGen (g.Step c) task other) :
    ∃ m > n, g.Walk c start m other := by
  induction hreach with
  | single step => exact ⟨n + 1, Nat.lt_succ_self n, .go h step⟩
  | tail _ step ih =>
    obtain ⟨m, hm, walk⟩ := ih
    exact ⟨m + 1, Nat.lt_succ_of_lt hm, .go walk step⟩

lemma Walk.exists_distance (h : g.Walk c start n task) : ∃ m ≤ n, g.Distance c start task m := by
  classical
  have hex : ∃ n, g.Walk c start n task := ⟨n, h⟩
  exact ⟨Nat.find hex, Nat.find_min' hex h, Nat.find_spec hex, fun m hm => Nat.find_min' hex hm⟩

lemma Distance.unique (hm : g.Distance c start task m) (hn : g.Distance c start task n) : m = n :=
  Nat.le_antisymm (hm.2 n hn.1) (hn.2 m hm.1)

lemma exists_distance_iff :
    (∃ n, g.Distance c start task n) ↔ ReflTransGen (g.Step c) start task := by
  rw [← exists_walk_iff]
  constructor
  · rintro ⟨n, h⟩
    exact ⟨n, h.1⟩
  · rintro ⟨n, h⟩
    obtain ⟨m, -, hm⟩ := h.exists_distance
    exact ⟨m, hm⟩

lemma distance_zero_iff : g.Distance c start task 0 ↔ task = start := by
  constructor
  · rintro ⟨h, -⟩
    cases h
    rfl
  · rintro rfl
    exact ⟨.stay, fun m _ => Nat.zero_le m⟩

lemma Distance.step (h : g.Distance c start task n) (hstep : g.Step c task other) :
    ∃ m ≤ n + 1, g.Distance c start other m :=
  (Walk.go h.1 hstep).exists_distance

lemma Distance.exists_pred (h : g.Distance c start task (n + 1)) :
    ∃ near, g.Distance c start near n ∧ g.Step c near task := by
  obtain ⟨walk, hleast⟩ := h
  cases walk with
  | @go _ near _ walk step =>
    refine ⟨near, ⟨walk, fun m hm => ?_⟩, step⟩
    have hle := hleast (m + 1) (.go hm step)
    omega

lemma not_distance_add (h : ∀ x, ¬ g.Distance c start x n) (i : Nat) (x : Ident) :
    ¬ g.Distance c start x (n + i) := by
  induction i generalizing x with
  | zero => exact h x
  | succ i ih =>
    intro hx
    obtain ⟨near, hnear, -⟩ := hx.exists_pred
    exact ih near hnear

section Leaders

variable {tasks rest : List Ident} {near : Ident}

lemma mem_of_leader? (h : g.leader? c tasks task = some near) : near ∈ tasks :=
  List.mem_of_find?_eq_some h

lemma exists_leader? (h : task ∈ tasks.flatMap (g.next c)) :
    ∃ near, g.leader? c tasks task = some near := by
  obtain ⟨first, hfirst, hmem⟩ := List.mem_flatMap.1 h
  rcases hlead : g.leader? c tasks task with _ | near
  · have hnot := List.find?_eq_none.1 hlead first hfirst
    simp [hmem] at hnot
  · exact ⟨near, rfl⟩

lemma leader?_cons_of_mem (h : task ∈ g.next c near) :
    g.leader? c (near :: rest) task = some near :=
  List.find?_cons_of_pos (by simpa using h)

lemma leader?_append (h : g.leader? c tasks task = some near) :
    g.leader? c (tasks ++ rest) task = some near := by
  rw [leader?, List.find?_append, ← leader?, h, Option.some_or]

lemma leader?_append_of_forall (before : List Ident) (h : ∀ near ∈ before, task ∉ g.next c near) :
    g.leader? c (before ++ tasks) task = g.leader? c tasks task := by
  have hbefore : before.find? (fun near => task ∈ g.next c near) = none :=
    List.find?_eq_none.2 fun near hnear => by simpa using h near hnear
  rw [leader?, List.find?_append, hbefore, Option.none_or, leader?]

lemma LedEarlier.append (h : g.LedEarlier c tasks x y) (rest : List Ident) :
    g.LedEarlier c (tasks ++ rest) x y := by
  obtain ⟨p, q, hp, hq, hpq⟩ := h
  refine ⟨p, q, leader?_append hp, leader?_append hq, ?_⟩
  rwa [List.idxOf_append_of_mem (mem_of_leader? hp), List.idxOf_append_of_mem (mem_of_leader? hq)]

lemma LedEarlier.prepend (before : List Ident) (h : g.LedEarlier c tasks x y)
    (hx : ∀ near ∈ before, x ∉ g.next c near) (hy : ∀ near ∈ before, y ∉ g.next c near)
    (hnew : ∀ near ∈ tasks, near ∉ before) : g.LedEarlier c (before ++ tasks) x y := by
  obtain ⟨p, q, hp, hq, hpq⟩ := h
  refine ⟨p, q, (leader?_append_of_forall before hx).trans hp,
    (leader?_append_of_forall before hy).trans hq, ?_⟩
  rw [List.idxOf_append_of_notMem (hnew p (mem_of_leader? hp)),
    List.idxOf_append_of_notMem (hnew q (mem_of_leader? hq))]
  exact hpq.imp_left fun hlt => by omega

lemma ledEarlier_of_idxOf_lt (hnodup : tasks.Nodup) (hy : y ∈ tasks.flatMap (g.next c))
    (h : (tasks.flatMap (g.next c)).idxOf x < (tasks.flatMap (g.next c)).idxOf y) :
    g.LedEarlier c tasks x y := by
  induction tasks with
  | nil => cases hy
  | cons near rest ih =>
    obtain ⟨hnear, hrest⟩ := List.nodup_cons.1 hnodup
    rw [List.flatMap_cons] at h hy
    by_cases hxn : x ∈ g.next c near
    · by_cases hyn : y ∈ g.next c near
      · rw [List.idxOf_append_of_mem hxn, List.idxOf_append_of_mem hyn] at h
        exact ⟨near, near, leader?_cons_of_mem hxn, leader?_cons_of_mem hyn,
          .inr ⟨rfl, rel_of_idxOf_lt (g.pairwise_next c near) hyn h⟩⟩
      · obtain ⟨q, hlead⟩ := exists_leader? ((List.mem_append.1 hy).resolve_left hyn)
        have hne : near ≠ q := fun heq => hnear (heq ▸ mem_of_leader? hlead)
        have hlead' : g.leader? c (near :: rest) y = some q :=
          (leader?_append_of_forall [near] (by simpa using hyn)).trans hlead
        refine ⟨near, q, leader?_cons_of_mem hxn, hlead', .inl ?_⟩
        rw [List.idxOf_cons_self, List.idxOf_cons_ne _ hne]
        exact Nat.succ_pos _
    · have hyn : y ∉ g.next c near := by
        intro hyn
        rw [List.idxOf_append_of_notMem hxn, List.idxOf_append_of_mem hyn] at h
        have hlt := List.idxOf_lt_length_of_mem hyn
        omega
      rw [List.idxOf_append_of_notMem hxn, List.idxOf_append_of_notMem hyn] at h
      have hled := ih hrest ((List.mem_append.1 hy).resolve_left hyn) (by omega)
      apply hled.prepend [near]
      · simpa using hxn
      · simpa using hyn
      · intro p hp hmem
        exact hnear (List.mem_singleton.1 hmem ▸ hp)

end Leaders

lemma FoundBefore.append {tasks : List Ident} (h : g.FoundBefore c start tasks x y)
    (rest : List Ident) : g.FoundBefore c start (tasks ++ rest) x y := by
  obtain ⟨m, n, hx, hy, hmn⟩ := h
  exact ⟨m, n, hx, hy, hmn.imp_right fun ⟨heq, hled⟩ => ⟨heq, hled.append rest⟩⟩

/-- What is known when the tasks `n` arcs away have been found: all tasks up to this distance have
been seen, each once and in order, and the layer is the last part of them. -/
structure Frontier (g : Graph) (c : Course) (start : Ident) (n : Nat) (seen layer : List Ident) :
    Prop where
  mem_seen : ∀ x, x ∈ seen ↔ ∃ m ≤ n, g.Distance c start x m
  mem_layer : ∀ x, x ∈ layer ↔ g.Distance c start x n
  last : layer <:+ seen
  nodup : seen.Nodup
  ordered : seen.Pairwise (g.FoundBefore c start seen)

variable {seen layer : List Ident}

lemma frontier_start : g.Frontier c start 0 [start] [start] where
  mem_seen := by simp [distance_zero_iff]
  mem_layer := by simp [distance_zero_iff]
  last := List.suffix_rfl
  nodup := List.nodup_singleton start
  ordered := List.pairwise_singleton ..

lemma Frontier.mem_beyond_iff (h : g.Frontier c start n seen layer) :
    x ∈ g.beyond c seen layer ↔ g.Distance c start x (n + 1) := by
  rw [mem_beyond, h.mem_seen]
  constructor
  · rintro ⟨⟨near, hnear, hnext⟩, hnew⟩
    obtain ⟨m, hm, hx⟩ := ((h.mem_layer near).1 hnear).step (mem_next_iff_step.1 hnext)
    have hlt : ¬ m ≤ n := fun hle => hnew ⟨m, hle, hx⟩
    rwa [show n + 1 = m by omega]
  · intro hx
    obtain ⟨near, hnear, hstep⟩ := hx.exists_pred
    refine ⟨⟨near, (h.mem_layer near).2 hnear, mem_next_iff_step.2 hstep⟩, ?_⟩
    rintro ⟨m, hm, hxm⟩
    have heq := hxm.unique hx
    omega

lemma Frontier.pairwise_beyond (h : g.Frontier c start n seen layer) :
    (g.beyond c seen layer).Pairwise (g.LedEarlier c seen) := by
  obtain ⟨before, rfl⟩ := h.last
  obtain ⟨-, hlayer, happart⟩ := List.nodup_append'.1 h.nodup
  -- A task before the layer is nearer to the start, so it does not lead beyond the layer.
  have hearlier : ∀ x ∈ g.beyond c (before ++ layer) layer, ∀ near ∈ before,
      x ∉ g.next c near := by
    intro x hx near hnear hnext
    obtain ⟨m, hm, hdist⟩ := (h.mem_seen near).1 (List.mem_append_left _ hnear)
    have hne : m ≠ n := fun heq => happart hnear ((h.mem_layer near).2 (heq ▸ hdist))
    obtain ⟨k, hk, hxk⟩ := hdist.step (mem_next_iff_step.1 hnext)
    have heq := hxk.unique (h.mem_beyond_iff.1 hx)
    omega
  refine ((pairwise_eraseDups _).filter _).imp_of_mem fun {x y} hx hy hxy => ?_
  have hmem := List.mem_eraseDups.1 (List.mem_filter.1 hy).1
  exact (ledEarlier_of_idxOf_lt hlayer hmem hxy).prepend before (hearlier x hx) (hearlier y hy)
    fun near hnear hbefore => happart hbefore hnear

lemma Frontier.next (h : g.Frontier c start n seen layer) :
    g.Frontier c start (n + 1) (seen ++ g.beyond c seen layer) (g.beyond c seen layer) where
  mem_seen := by
    intro x
    rw [List.mem_append, h.mem_seen, h.mem_beyond_iff]
    constructor
    · rintro (⟨m, hm, hx⟩ | hx)
      · exact ⟨m, Nat.le_succ_of_le hm, hx⟩
      · exact ⟨n + 1, le_rfl, hx⟩
    · rintro ⟨m, hm, hx⟩
      rcases Nat.lt_or_eq_of_le hm with hlt | rfl
      · exact .inl ⟨m, Nat.le_of_lt_succ hlt, hx⟩
      · exact .inr hx
  mem_layer := fun x => h.mem_beyond_iff
  last := List.suffix_append ..
  nodup := by
    refine List.nodup_append'.2 ⟨h.nodup, (nodup_eraseDups _).filter _, fun x hx hmem => ?_⟩
    exact (mem_beyond.1 hmem).2 hx
  ordered := by
    refine List.pairwise_append.2 ⟨?_, ?_, fun x hx y hy => ?_⟩
    · exact h.ordered.imp fun hxy => hxy.append _
    · refine h.pairwise_beyond.imp_of_mem fun hx hy hled => ?_
      exact ⟨n + 1, n + 1, h.mem_beyond_iff.1 hx, h.mem_beyond_iff.1 hy,
        .inr ⟨rfl, hled.append _⟩⟩
    · obtain ⟨m, hm, hxm⟩ := (h.mem_seen x).1 hx
      exact ⟨m, n + 1, hxm, h.mem_beyond_iff.1 hy, .inl (Nat.lt_succ_of_le hm)⟩

/-- From the `n`-th on the layers hold the tasks by their distances, and after those before they
come in order. -/
structure Layered (g : Graph) (c : Course) (start : Ident) (n : Nat) (before : List Ident)
    (layers : List (List Ident)) : Prop where
  mem : ∀ i x, x ∈ layers[i]?.getD [] ↔ g.Distance c start x (n + i)
  nodup : (before ++ layers.flatten).Nodup
  ordered : (before ++ layers.flatten).Pairwise
    (g.FoundBefore c start (before ++ layers.flatten))

/-- The search ends with a layer beyond which nothing lies. -/
lemma Frontier.layered (h : g.Frontier c start n seen layer) :
    ∀ before, seen = before ++ layer → g.Layered c start n before (g.layersFrom c seen layer) := by
  fun_induction layersFrom g c seen layer generalizing n with
  | case1 seen layer hnone =>
    rintro before rfl
    refine ⟨fun i x => ?_, by simpa using h.nodup, by simpa using h.ordered⟩
    cases i with
    | zero => simpa using h.mem_layer x
    | succ i =>
      have hend : ∀ x, ¬ g.Distance c start x (n + 1) := by
        intro x hx
        have hmem := h.mem_beyond_iff.2 hx
        rw [hnone] at hmem
        cases hmem
      have hx := not_distance_add hend i x
      simpa [Nat.add_assoc, Nat.add_comm 1 i] using hx
  | case2 seen layer first more hfresh ih =>
    rintro before rfl
    have hnext := h.next
    rw [hfresh] at hnext
    have hrest := ih hnext _ rfl
    refine ⟨fun i x => ?_, by simpa using hrest.nodup, by simpa using hrest.ordered⟩
    cases i with
    | zero => simpa using h.mem_layer x
    | succ i => simpa [Nat.add_assoc, Nat.add_comm 1 i] using hrest.mem i x

lemma layered_layers (g : Graph) (c : Course) (start : Ident) :
    g.Layered c start 0 [] (g.layers c start) :=
  frontier_start.layered [] rfl

lemma mem_layer_iff : x ∈ (g.layers c start)[n]?.getD [] ↔ g.Distance c start x n := by
  have hmem := (g.layered_layers c start).mem n x
  rwa [Nat.zero_add] at hmem

lemma layer_sublist_chain : ((g.layers c start)[n]?.getD []).Sublist (g.chain c start) := by
  rcases hlayer : (g.layers c start)[n]? with _ | layer
  · exact List.nil_sublist _
  · exact List.sublist_flatten_of_mem (List.mem_of_getElem? hlayer)

lemma nodup_chain : (g.chain c start).Nodup :=
  (g.layered_layers c start).nodup

lemma mem_parallelGroups {layers : List (List Ident)} {p : ParallelGroup} :
    p ∈ g.parallelGroups layers ↔ layers[p.depth]? = some p.tasks ∧ 2 ≤ p.tasks.length ∧
      g.independent p.tasks = true := by
  simp only [parallelGroups, List.mem_map, List.mem_filter, Bool.and_eq_true, decide_eq_true_eq]
  constructor
  · rintro ⟨⟨tasks, depth⟩, ⟨hlayer, hmany, hfree⟩, rfl⟩
    exact ⟨List.mem_zipIdx_iff_getElem?.1 hlayer, hmany, hfree⟩
  · rintro ⟨hlayer, hmany, hfree⟩
    exact ⟨(p.tasks, p.depth), ⟨List.mem_zipIdx_iff_getElem?.2 hlayer, hmany, hfree⟩, rfl⟩

lemma tasks_of_mem_parallelGroups {p : ParallelGroup}
    (h : p ∈ g.parallelGroups (g.layers c start)) :
    p.tasks.Sublist (g.chain c start) ∧ ∀ x, x ∈ p.tasks ↔ g.Distance c start x p.depth := by
  have hlayer : (g.layers c start)[p.depth]?.getD [] = p.tasks := by
    rw [(mem_parallelGroups.1 h).1, Option.getD_some]
  rw [← hlayer]
  exact ⟨layer_sublist_chain, fun x => mem_layer_iff⟩

/-- On any graph the chain of a report lists the tasks that can be reached, each once, in the order
of their distances from the start. Tasks at one distance come in the order of the first task in the
chain that leads to each, and then of the arcs out of it. The layers that the groups are formed
from hold just the tasks at each distance. A start that no arc leaves gets the report that it would
get without being looked at first. -/
theorem analyze_breadthFirst (edges : List Dependency) (c : Course) (start : Ident) :
    let g := ofEdges edges
    let report := g.analyze c start
    (∀ x, x ∈ report.chain ↔ ReflTransGen (g.Step c) start x) ∧ report.chain.Nodup ∧
      report.chain.Pairwise (g.FoundBefore c start report.chain) ∧
      (∀ n x, x ∈ (g.layers c start)[n]?.getD [] ↔ g.Distance c start x n) ∧
      (∀ p ∈ report.parallel, ∀ x ∈ p.tasks, g.Distance c start x p.depth) ∧
      report = g.survey c start := by
  intro g report
  have hreport : report = g.survey c start := analyze_eq_survey g c start
  have hchain : report.chain = g.chain c start := congrArg GraphReport.chain hreport
  have hparallel : report.parallel = g.parallelGroups (g.layers c start) :=
    congrArg GraphReport.parallel hreport
  rw [hchain, hparallel]
  refine ⟨fun x => mem_chain_iff, nodup_chain, (g.layered_layers c start).ordered,
    fun n x => mem_layer_iff, fun p hp x hx => ?_, hreport⟩
  exact ((tasks_of_mem_parallelGroups hp).2 x).1 hx

end TaskFlow.Graph

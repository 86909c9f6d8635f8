import TaskFlow.Naming
import TaskFlow.Proofs.Blockers
import TaskFlow.Proofs.Reached

/-!
# The edges at a task

What a query for the edges at a task is answered: the stored edges that it asks for, each once and
oldest first, with counts that add up, with the roles that blockers have to come to, and with
details of the tasks where these are wanted.
-/

namespace TaskFlow

/-- The edge stands to the task as the direction says. -/
def Direction.Faces (direction : Direction) (task : Ident) (d : Dependency) : Prop :=
  match direction with
  | .incoming => d.target = task
  | .outgoing => d.source = task
  | .all => d.source = task ∨ d.target = task

/-- The edge is one that the query asks for. -/
def NeighborQuery.Asks (q : NeighborQuery) (task : Ident) (d : Dependency) : Prop :=
  q.direction.Faces task d ∧ ∀ relation ∈ q.relation, d.relation = relation

/-- The view without details of its tasks. -/
def DependencyView.bare (v : DependencyView) : DependencyView :=
  { v with sourceTask := none, targetTask := none }

/-- A view shows an edge: a blocking one with the role that its blocker has to come to, and any
other one without roles. The tasks at its ends are described as they are stored, if that is
wanted. -/
structure DependencyView.Shows (r : Repository) (withTasks : Bool) (v : DependencyView)
    (d : Dependency) : Prop where
  id : v.id = d.id
  source : v.source = d.source
  target : v.target = d.target
  relation : v.relation = d.relation
  createdAt : v.createdAt = d.createdAt
  unblockAt : v.unblockAt = d.unblockAt.map Role.name
  blocking : ∀ blocker blocked, d.pair = some (blocker, blocked) → ∃ role name,
    v.effectiveRole = some name ∧ Role.parse name = .ok role ∧
      role = d.unblockAt.getD .terminal ∧ Engine.blockerRoles [d] = [(blocker, role)]
  relating : d.relation = .relatesTo → v.unblockAt = none ∧ v.effectiveRole = none
  sourceTask : v.sourceTask =
    if withTasks = true then (r.tasks.get? d.source).map Task.info else none
  targetTask : v.targetTask =
    if withTasks = true then (r.tasks.get? d.target).map Task.info else none

/-- The counts are those of a list of views at a task: every view counts once by the end at which
the task stands and once by its relation, and the relations that occur are those with a count. -/
structure NeighborCounts.Counts (counts : NeighborCounts) (task : Ident)
    (items : List DependencyView) : Prop where
  total : counts.total = items.length
  incoming : counts.incoming = items.countP (·.target = task)
  outgoing : counts.outgoing = items.countP (·.source = task)
  ends : counts.total = counts.incoming + counts.outgoing
  byRelation : ∀ relation n, counts.byRelation.get relation = some n ↔
    0 < n ∧ n = items.countP (·.relation = relation)
  relations : counts.total = (counts.byRelation.get .blocks).getD 0 +
    (counts.byRelation.get .isBlockedBy).getD 0 + (counts.byRelation.get .relatesTo).getD 0

/-- The answer lists the stored edges at the task that the query asks for. -/
structure NeighborSet.Answers (s : NeighborSet) (r : Repository) (task : Ident)
    (q : NeighborQuery) : Prop where
  about : s.task = task
  filters : s.filters = q
  items : ∃ edges, Recorded.Lists edges (fun d => d ∈ r.edges.toList ∧ q.Asks task d) ∧
    List.Forall₂ (DependencyView.Shows r q.withTasks) s.items edges
  counts : s.counts.Counts task s.items

/-- The answer is made up of two others: it interleaves their items, and its counts are the sums of
theirs. -/
structure NeighborSet.Merges (s a b : NeighborSet) : Prop where
  items : s.items.Perm (a.items ++ b.items)
  left : a.items.Sublist s.items
  right : b.items.Sublist s.items
  total : s.counts.total = a.counts.total + b.counts.total
  incoming : s.counts.incoming = a.counts.incoming + b.counts.incoming
  outgoing : s.counts.outgoing = a.counts.outgoing + b.counts.outgoing
  byRelation : ∀ relation, (s.counts.byRelation.get relation).getD 0 =
    (a.counts.byRelation.get relation).getD 0 + (b.counts.byRelation.get relation).getD 0

lemma Direction.Faces.ends {direction : Direction} {task : Ident} {d : Dependency}
    (h : direction.Faces task d) : d.source = task ∨ d.target = task := by
  cases direction with
  | incoming => exact .inr h
  | outgoing => exact .inl h
  | all => exact h

lemma Role.parse_name (role : Role) : Role.parse role.name = .ok role := by
  cases role <;> rfl

section Counts

variable {edges : List Dependency} {task : Ident} {relation : Relation}

lemma countOf_eq_some_iff {n : Nat} : countOf edges relation = some n ↔
    0 < n ∧ n = edges.countP (·.relation == relation) := by
  unfold countOf
  split
  · rename_i hnone
    rw [hnone]
    refine ⟨nofun, ?_⟩
    rintro ⟨hpos, rfl⟩
    exact absurd hpos (Nat.lt_irrefl 0)
  · rename_i m hsome
    rw [hsome, Option.some.injEq]
    constructor
    · rintro rfl
      exact ⟨Nat.succ_pos m, rfl⟩
    · rintro ⟨-, rfl⟩
      rfl

lemma getD_countOf :
    (countOf edges relation).getD 0 = edges.countP (·.relation == relation) := by
  unfold countOf
  split
  · rename_i hnone
    rw [hnone]
    rfl
  · rename_i m hsome
    rw [hsome]
    rfl

@[simp] lemma get_byRelation_ofEdges :
    (NeighborCounts.ofEdges task edges).byRelation.get relation = countOf edges relation := by
  cases relation <;> rfl

lemma length_eq_countP_relation (edges : List Dependency) :
    edges.length = edges.countP (·.relation == .blocks) +
      edges.countP (·.relation == .isBlockedBy) + edges.countP (·.relation == .relatesTo) := by
  induction edges with
  | nil => rfl
  | cons d edges ih =>
    rw [List.length_cons, ih, List.countP_cons, List.countP_cons, List.countP_cons]
    cases d.relation with
    | _ => simp; omega

lemma countP_ends (htask : ∀ d ∈ edges, d.source = task ∨ d.target = task)
    (hproper : ∀ d ∈ edges, d.source ≠ d.target) :
    edges.length = edges.countP (·.target == task) + edges.countP (·.source == task) := by
  rw [List.length_eq_countP_add_countP (·.target == task)]
  congr 1
  refine List.countP_congr fun d hd => ?_
  simp only [beq_iff_eq, decide_eq_true_eq]
  constructor
  · exact (htask d hd).resolve_right
  · rintro rfl htarget
    exact hproper d hd htarget.symm

end Counts

namespace Repository

variable {r : Repository} {task : Ident} {q : NeighborQuery} {d : Dependency}

/-- How an edge is shown, with details of its tasks if these are wanted. -/
def shown (r : Repository) (withTasks : Bool) (d : Dependency) : DependencyView :=
  if withTasks then
    { d.view with
      sourceTask := (r.tasks.get? d.source).map Task.info
      targetTask := (r.tasks.get? d.target).map Task.info }
  else d.view

/-- The stored edges at a task that a query asks for. -/
def edgesAt (r : Repository) (task : Ident) (q : NeighborQuery) : List Dependency :=
  r.edges.select fun d => q.wants task d && d.touches task

/-- What a query for the edges at a task is answered when all calls are in order. -/
def neighborhood (r : Repository) (task : Ident) (q : NeighborQuery) : NeighborSet where
  task := task
  items := (r.edgesAt task q).map (r.shown q.withTasks)
  counts := .ofEdges task (r.edgesAt task q)
  filters := q

lemma map_withTasks (edges : List Dependency) :
    let ids := (edges.flatMap fun d => [d.source, d.target]).eraseDups
    (edges.map Dependency.view).map (DependencyView.withTasks (ids.filterMap r.tasks.get?)) =
      edges.map (r.shown true) := by
  intro ids
  rw [List.map_map]
  refine List.map_congr_left fun d hd => ?_
  have hfound : ∀ id ∈ [d.source, d.target],
      (ids.filterMap r.tasks.get?).find? (·.id == id) = r.tasks.get? id := fun id hid =>
    Roster.find?_filterMap_get? (List.mem_eraseDups.2 (List.mem_flatMap.2 ⟨d, hd, hid⟩))
  have hsource := hfound d.source (by simp)
  have htarget := hfound d.target (by simp)
  simp only [Function.comp_apply, DependencyView.withTasks, shown, if_true, Dependency.view]
  rw [hsource, htarget]

lemma neighbors_eq (h : r.InOrder) (task : Ident) (q : NeighborQuery) :
    r.neighbors task q = .ok (r.neighborhood task q) := by
  have hedges : (r.edges.select (·.touches task)).filter (q.wants task) = r.edgesAt task q :=
    List.filter_filter
  unfold neighbors neighborhood
  rw [findByTask_eq h]
  change (if q.withTasks = true then _ else _) = _
  rw [hedges]
  split
  · rename_i hwith
    rw [getTasks_eq h, hwith, ← map_withTasks]
    rfl
  · rename_i hwith
    rw [Bool.eq_false_of_not_eq_true hwith]
    rfl

lemma wants_iff : (q.wants task d && d.touches task) = true ↔ q.Asks task d := by
  obtain ⟨direction, relation, withTasks⟩ := q
  have hrelation : relation.all (d.relation == ·) = true ↔ ∀ r ∈ relation, d.relation = r := by
    cases relation <;> simp
  simp only [NeighborQuery.wants, Dependency.touches, NeighborQuery.Asks, Bool.and_eq_true,
    Bool.or_eq_true, beq_iff_eq, hrelation]
  cases direction with
  | incoming =>
    simp only [Direction.Faces, beq_iff_eq]
    exact ⟨And.left, fun hasks => ⟨hasks, .inr hasks.1⟩⟩
  | outgoing =>
    simp only [Direction.Faces, beq_iff_eq]
    exact ⟨And.left, fun hasks => ⟨hasks, .inl hasks.1⟩⟩
  | all =>
    simp only [Direction.Faces, true_and]
    exact And.comm

lemma lists_edgesAt (r : Repository) (task : Ident) (q : NeighborQuery) :
    Recorded.Lists (r.edgesAt task q) fun d => d ∈ r.edges.toList ∧ q.Asks task d :=
  (r.edges.lists_select _).congr fun _ => and_congr_right fun _ => wants_iff

lemma shows_shown (h : r.WellFormed) (hd : d ∈ r.edges.toList) (withTasks : Bool) :
    (r.shown withTasks d).Shows r withTasks d := by
  have hunblock : (r.shown withTasks d).unblockAt = d.unblockAt.map Role.name := by
    cases withTasks <;> rfl
  have heffective : (r.shown withTasks d).effectiveRole = d.effectiveRole.map Role.name := by
    cases withTasks <;> rfl
  constructor
  case blocking =>
    intro blocker blocked hpair
    have hblocking : d.isBlocking = true := by
      cases hrelation : d.relation with
      | relatesTo => simp [Dependency.pair, Relation.pair, hrelation] at hpair
      | _ => simp [Dependency.isBlocking, Relation.isBlocking, hrelation]
    refine ⟨d.requiredRole, d.requiredRole.name, ?_, d.requiredRole.parse_name, rfl, ?_⟩
    · rw [heffective, Dependency.effectiveRole, if_pos hblocking]
      rfl
    · have honce : [blocker].eraseDups = [blocker] := rfl
      simp [Engine.blockerRoles, hpair, honce]
  case relating =>
    intro hrelation
    rw [hunblock, heffective, h.informational d hd hrelation]
    simp [Dependency.effectiveRole, Dependency.isBlocking, Relation.isBlocking, hrelation]
  all_goals cases withTasks <;> rfl

lemma countP_shown (withTasks : Bool) (edges : List Dependency) (task : Ident)
    (relation : Relation) :
    (edges.map (r.shown withTasks)).countP (·.target = task) = edges.countP (·.target == task) ∧
    (edges.map (r.shown withTasks)).countP (·.source = task) = edges.countP (·.source == task) ∧
    (edges.map (r.shown withTasks)).countP (·.relation = relation) =
      edges.countP (·.relation == relation) := by
  simp only [List.countP_map]
  cases withTasks <;> exact ⟨rfl, rfl, rfl⟩

lemma counts_neighborhood (h : r.WellFormed) (task : Ident) (q : NeighborQuery) :
    (r.neighborhood task q).counts.Counts task (r.neighborhood task q).items := by
  have hcount := r.countP_shown q.withTasks (r.edgesAt task q) task
  have hasked : ∀ d ∈ r.edgesAt task q, d ∈ r.edges.toList ∧ q.Asks task d :=
    fun d => ((r.lists_edgesAt task q).mem_iff d).1
  constructor
  case total => exact (List.length_map _).symm
  case incoming => exact (hcount .blocks).1.symm
  case outgoing => exact (hcount .blocks).2.1.symm
  case ends =>
    refine countP_ends (fun d hd => ?_) fun d hd => h.proper d (hasked d hd).1
    exact (hasked d hd).2.1.ends
  case byRelation =>
    intro relation n
    rw [neighborhood, get_byRelation_ofEdges, countOf_eq_some_iff, (hcount relation).2.2]
  case relations =>
    simp only [neighborhood, get_byRelation_ofEdges, getD_countOf]
    exact length_eq_countP_relation _

lemma neighborhood_answers (h : r.WellFormed) (task : Ident) (q : NeighborQuery) :
    (r.neighborhood task q).Answers r task q := by
  refine ⟨rfl, rfl, ⟨_, r.lists_edgesAt task q, ?_⟩, counts_neighborhood h task q⟩
  refine List.forall₂_map_left_iff.2 (List.forall₂_same.2 fun d hd => shows_shown h ?_ _)
  exact (((r.lists_edgesAt task q).mem_iff d).1 hd).1

/-- The edges at a task are those that come in and, as no edge is a loop, those that do not. -/
lemma edgesAt_direction (h : r.WellFormed) (task : Ident) (q : NeighborQuery) :
    r.edgesAt task { q with direction := .incoming } =
      (r.edgesAt task { q with direction := .all }).filter (·.target == task) ∧
    r.edgesAt task { q with direction := .outgoing } =
      (r.edgesAt task { q with direction := .all }).filter (!·.target == task) := by
  unfold edgesAt Roster.select
  rw [List.filter_filter, List.filter_filter]
  constructor
  all_goals
    refine List.filter_congr fun d hd => Bool.eq_iff_iff.2 ?_
    rw [wants_iff, Bool.and_eq_true, wants_iff]
  case left =>
    simp only [NeighborQuery.Asks, Direction.Faces, beq_iff_eq]
    constructor
    · rintro ⟨htarget, hrelation⟩
      exact ⟨htarget, .inr htarget, hrelation⟩
    · rintro ⟨htarget, -, hrelation⟩
      exact ⟨htarget, hrelation⟩
  case right =>
    simp only [NeighborQuery.Asks, Direction.Faces, Bool.not_eq_true', beq_eq_false_iff_ne]
    constructor
    · rintro ⟨rfl, hrelation⟩
      exact ⟨(h.proper d hd).symm, .inl rfl, hrelation⟩
    · rintro ⟨htarget, hends, hrelation⟩
      exact ⟨hends.resolve_right htarget, hrelation⟩

lemma neighborhood_merges (h : r.WellFormed) (task : Ident) (q : NeighborQuery) :
    (r.neighborhood task { q with direction := .all }).Merges
      (r.neighborhood task { q with direction := .incoming })
      (r.neighborhood task { q with direction := .outgoing }) := by
  obtain ⟨hin, hout⟩ := edgesAt_direction h task q
  unfold neighborhood
  rw [hin, hout]
  generalize r.edgesAt task { q with direction := .all } = edges
  have hperm : edges.Perm (edges.filter (·.target == task) ++ edges.filter (!·.target == task)) :=
    (List.filter_append_perm _ edges).symm
  have hcount (p : Dependency → Bool) : edges.countP p =
      (edges.filter (·.target == task)).countP p + (edges.filter (!·.target == task)).countP p := by
    rw [← List.countP_append, hperm.countP_eq]
  constructor
  case items =>
    rw [← List.map_append]
    exact hperm.map _
  case left => exact List.filter_sublist.map _
  case right => exact List.filter_sublist.map _
  case total =>
    have hlength := hperm.length_eq
    rwa [List.length_append] at hlength
  case incoming => exact hcount _
  case outgoing => exact hcount _
  case byRelation =>
    intro relation
    simp only [get_byRelation_ofEdges, getD_countOf]
    exact hcount _

lemma neighborhood_bare (r : Repository) (task : Ident) (q : NeighborQuery) :
    r.neighborhood task { q with withTasks := false } =
      { r.neighborhood task { q with withTasks := true } with
        items := (r.neighborhood task { q with withTasks := true }).items.map DependencyView.bare
        filters := { q with withTasks := false } } := by
  unfold neighborhood
  rw [List.map_map]
  rfl

end Repository

namespace Engine

variable {e : Engine} {task : Ident}

/-- A query for the edges at a stored task is answered, and changes nothing. The answer lists the
stored edges that the query asks for. What it says of all edges at the task is made up of what it
says of those that come in and those that go out, and details of tasks are added to an answer
without changing anything else in it. -/
theorem Reached.answers_neighbors (h : Reached e) (hstored : e.repository.Stores task) :
    ∃ answer : NeighborQuery → NeighborSet,
      (∀ q, queryNeighbors task q e = (.ok (answer q), e)) ∧
      (∀ q, (answer q).Answers e.repository task q) ∧
      (∀ q : NeighborQuery, (answer { q with direction := .all }).Merges
        (answer { q with direction := .incoming }) (answer { q with direction := .outgoing })) ∧
      ∀ q : NeighborQuery, answer { q with withTasks := false } =
        { answer { q with withTasks := true } with
          items := (answer { q with withTasks := true }).items.map DependencyView.bare
          filters := { q with withTasks := false } } := by
  obtain ⟨horder, hformed⟩ := h.tidy
  refine ⟨e.repository.neighborhood task, fun q => ?_,
    fun q => Repository.neighborhood_answers hformed task q,
    Repository.neighborhood_merges hformed task, e.repository.neighborhood_bare task⟩
  unfold queryNeighbors
  rw [bind_ok (ask_ok (Repository.requireTask_of_stores horder hstored))]
  exact ask_ok (Repository.neighbors_eq horder task q)

/-- The first task of two stands at either end of an edge. -/
theorem Reached.answers_neighbors_echoed : Reached echoed ∧
    echoed.repository.Stores (.ofNat 1) ∧ ∃ s,
      queryNeighbors (.ofNat 1) {} echoed = (.ok s, echoed) ∧
      s.Answers echoed.repository (.ofNat 1) {} ∧
      s.counts.incoming = 1 ∧ s.counts.outgoing = 1 ∧
      s.items.map DependencyView.effectiveRole = [some "work", some "terminal"] := by
  have hreached : Reached echoed := reached_pair.run run_echoed
  have hstored : echoed.repository.Stores (.ofNat 1) := by decide
  obtain ⟨answer, hquery, hanswers, -⟩ := hreached.answers_neighbors hstored
  have hcomputed : queryNeighbors (.ofNat 1) {} echoed =
      (.ok (echoed.repository.neighborhood (.ofNat 1) {}), echoed) := rfl
  have hsame : answer {} = echoed.repository.neighborhood (.ofNat 1) {} :=
    Except.ok.inj (congrArg Prod.fst ((hquery {}).symm.trans hcomputed))
  refine ⟨hreached, hstored, answer {}, hquery {}, hanswers {}, ?_⟩
  rw [hsame]
  exact ⟨rfl, rfl, rfl⟩

end Engine

end TaskFlow

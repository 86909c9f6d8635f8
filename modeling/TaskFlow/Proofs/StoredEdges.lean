import TaskFlow.Repository.Edges
import TaskFlow.Proofs.Reachability
import TaskFlow.Proofs.Rosters

/-!
# Stored edges

When all calls are in order, the walk through the stored edges fetches just the blocking edges
that leave a task which can be reached, and so finds out whether one task holds back another over
any number of edges.
-/

open Relation (ReflTransGen)

namespace TaskFlow

namespace Dependency

lemma near?_forward {d : Dependency} {a : Ident} :
    d.near? .forward = some a ↔ ∃ b, d.pair = some (a, b) := by
  simp [near?, arc?, Arc.near]

lemma far?_forward {d : Dependency} {b : Ident} :
    d.far? .forward = some b ↔ ∃ a, d.pair = some (a, b) := by
  simp [far?, arc?, Arc.far]

/-- The edge says what the request asks for. -/
structure Realizes (d : Dependency) (q : Request) : Prop where
  source : d.source = q.source
  target : d.target = q.target
  relation : d.relation = q.relation
  unblockAt : d.unblockAt = q.unblockAt

lemma Realizes.pair_eq {d : Dependency} {q : Request} (h : d.Realizes q) : d.pair = q.pair := by
  unfold Dependency.pair Request.pair
  rw [h.source, h.target, h.relation]

lemma touches_of_pair {d : Dependency} {a b : Ident} (h : d.pair = some (a, b)) :
    d.touches a = true ∧ d.touches b = true := by
  unfold pair Relation.pair at h
  split at h <;> cases h <;> simp [touches]

lemma touches_of_near? {d : Dependency} {c : Course} {task : Ident}
    (h : d.near? c = some task) : d.touches task = true := by
  simp only [near?, arc?, Option.map_map, Option.map_eq_some_iff] at h
  obtain ⟨⟨a, b⟩, hpair, rfl⟩ := h
  cases c with
  | forward => exact (touches_of_pair hpair).1
  | backward => exact (touches_of_pair hpair).2

end Dependency

namespace Graph

lemma step_ofEdges {edges : List Dependency} {a b : Ident} :
    (ofEdges edges).Step .forward a b ↔ ∃ d ∈ edges, d.pair = some (a, b) := by
  constructor
  · rintro ⟨x, hx, rfl, rfl⟩
    obtain ⟨d, hd, harc⟩ := List.mem_filterMap.1 hx
    obtain ⟨⟨a, b⟩, hpair, rfl⟩ := Option.map_eq_some_iff.1 harc
    exact ⟨d, hd, hpair⟩
  · rintro ⟨d, hd, hpair⟩
    refine ⟨⟨a, b, d.createdAt⟩, List.mem_filterMap.2 ⟨d, hd, ?_⟩, rfl, rfl⟩
    rw [Dependency.arc?, hpair, Option.map_some]

end Graph

namespace Repository

/-- No call is out of order. -/
def InOrder (r : Repository) : Prop :=
  r.outages = []

/-- A stored edge says that `a` blocks `b`. -/
def Blocks (r : Repository) (a b : Ident) : Prop :=
  ∃ d ∈ r.edges.toList, d.pair = some (a, b)

def Stores (r : Repository) (task : Ident) : Prop :=
  ∃ t ∈ r.tasks.toList, t.id = task

instance (r : Repository) (task : Ident) : Decidable (r.Stores task) :=
  inferInstanceAs (Decidable (∃ t ∈ r.tasks.toList, _))

/-- The stored edges by which a walk leaves a task. -/
def leaving (r : Repository) (c : Course) (task : Ident) : List Dependency :=
  r.edges.toList.filter fun d => d.near? c == some task

lemma filter_select_touches {r : Repository} {task : Ident} {test : Dependency → Bool}
    (h : ∀ d, test d = true → d.touches task = true) :
    (r.edges.select (·.touches task)).filter test = r.edges.select test := by
  unfold Roster.select
  rw [List.filter_filter]
  refine List.filter_congr fun d _ => ?_
  by_cases htest : test d = true
  · rw [htest, h d htest, Bool.and_true]
  · rw [Bool.not_eq_true] at htest
    rw [htest, Bool.false_and]

section Calls

variable {r : Repository} (h : r.InOrder)

include h

lemma answer_eq {α : Type} (call : Call) (id : Option Ident) (absent result : α) :
    r.answer call id absent result = .ok result := by
  have hnone : r.outage call id = none := by
    unfold InOrder at h
    cases id <;> simp [outage, h]
  rw [answer, hnone]

lemma create_eq (q : Request) (id? : Option Ident) (at? : Option Instant) :
    ∃ d : Dependency, r.create q id? at? =
        .ok (d, { r with edges := r.edges.put d, issued := r.issued + 1 }) ∧ d.Realizes q :=
  ⟨_, answer_eq h .., ⟨rfl, rfl, rfl, rfl⟩⟩

lemma findByTask_eq (task : Ident) :
    r.findByTask task = .ok (r.edges.select (·.touches task)) :=
  answer_eq h ..

lemma deleteById_eq (id : Ident) : r.deleteById id =
    .ok ((r.edges.get? id).isSome, { r with edges := r.edges.erase id }) :=
  answer_eq h ..

lemma deleteByTask_eq (task : Ident) : r.deleteByTask task =
    .ok ((r.edges.select (·.touches task)).length,
      { r with edges := r.edges.remove (·.touches task) }) :=
  answer_eq h ..

lemma getTask_eq (id : Ident) : r.getTask id = .ok (r.tasks.get? id) :=
  answer_eq h ..

lemma hasTask_eq (id : Ident) : r.hasTask id = .ok (r.tasks.get? id).isSome := by
  unfold hasTask
  rw [getTask_eq h]
  rfl

lemma getTasks_eq (ids : List Ident) : r.getTasks ids = .ok (ids.filterMap r.tasks.get?) := by
  have hmap : ids.mapM r.getTask = .ok (ids.map r.tasks.get?) := by
    induction ids with
    | nil => rfl
    | cons id ids ih =>
      rw [List.mapM_cons, ih, getTask_eq h]
      rfl
  unfold getTasks
  rw [hmap]
  change Except.ok ((ids.map r.tasks.get?).filterMap fun x => x) = _
  rw [List.filterMap_map]
  rfl

lemma edgesFrom_eq (c : Course) (task : Ident) : r.edgesFrom c task = .ok (r.leaving c task) := by
  have hleaving : (r.edges.select (·.touches task)).filter (fun d => d.near? c == some task) =
      r.leaving c task :=
    filter_select_touches fun d hnear => Dependency.touches_of_near? (eq_of_beq hnear)
  unfold edgesFrom
  rw [findByTask_eq h, ← hleaving]
  rfl

end Calls

variable {r : Repository}

lemma mem_ahead {c : Course} {seen : List Ident} {edges : List Dependency} {x : Ident} :
    x ∈ ahead c seen edges ↔ x ∈ edges.filterMap (·.far? c) ∧ x ∉ seen := by
  simp [ahead]

lemma walk_eq (h : r.InOrder) (c : Course) (seen queue : List Ident) :
    ∃ visited, Sweep (fun task => (r.leaving c task).filterMap (·.far? c)) seen queue visited ∧
      r.walk c seen queue = .ok (visited.flatMap (r.leaving c)) := by
  fun_induction walk r c seen queue with
  | case1 seen => exact ⟨[], .done seen, rfl⟩
  | case2 seen task queue e herror =>
    rw [edgesFrom_eq h] at herror
    cases herror
  | case3 seen task queue found hfound hnone ih =>
    rw [edgesFrom_eq h] at hfound
    cases hfound
    obtain ⟨visited, hsweep, hwalk⟩ := ih
    refine ⟨task :: visited, .take task [] (fun x => ?_) (by simpa using hsweep), ?_⟩
    · rw [← mem_ahead, hnone]
    · rw [hwalk]
      rfl
  | case4 seen task queue found hfound first more hahead ih =>
    rw [edgesFrom_eq h] at hfound
    cases hfound
    obtain ⟨visited, hsweep, hwalk⟩ := ih
    refine ⟨task :: visited, .take task (first :: more) (fun x => ?_) hsweep, ?_⟩
    · rw [← mem_ahead, hahead]
    · rw [hwalk]
      rfl

/-- The walk fetches the stored edges that leave a task which can be reached. -/
theorem blockingEdges_eq (h : r.InOrder) (c : Course) (start : Ident) :
    ∃ edges, r.blockingEdges c start = .ok edges ∧ ∀ d, d ∈ edges ↔ d ∈ r.edges.toList ∧
      ∃ task, d.near? c = some task ∧ ReflTransGen
        (fun a b => ∃ x ∈ r.edges.toList, x.near? c = some a ∧ x.far? c = some b) start task := by
  obtain ⟨visited, hsweep, hwalk⟩ := walk_eq h c [start] [start]
  have hnext : (fun a b => b ∈ (r.leaving c a).filterMap (·.far? c)) =
      fun a b => ∃ x ∈ r.edges.toList, x.near? c = some a ∧ x.far? c = some b := by
    funext a b
    simp [leaving, and_assoc]
  refine ⟨_, hwalk, fun d => ?_⟩
  rw [List.mem_flatMap, ← hnext]
  constructor
  · rintro ⟨task, htask, hd⟩
    obtain ⟨hd, hnear⟩ := List.mem_filter.1 hd
    exact ⟨hd, task, eq_of_beq hnear, hsweep.mem_iff.1 htask⟩
  · rintro ⟨hd, task, hnear, htask⟩
    exact ⟨task, hsweep.mem_iff.2 htask, List.mem_filter.2 ⟨hd, beq_iff_eq.2 hnear⟩⟩

/-- Whether stored edges lead from one task to another is found out whatever edges are stored. -/
theorem leads_eq (h : r.InOrder) (start goal : Ident) :
    ∃ found, r.leads start goal = .ok found ∧
      (found = true ↔ ReflTransGen r.Blocks start goal) := by
  obtain ⟨edges, hwalk, hmem⟩ := blockingEdges_eq h .forward start
  have harc : (fun a b => ∃ x ∈ r.edges.toList, x.near? .forward = some a ∧
      x.far? .forward = some b) = r.Blocks := by
    funext a b
    refine propext ⟨?_, ?_⟩
    · rintro ⟨x, hx, hnear, hfar⟩
      obtain ⟨b', hpair⟩ := Dependency.near?_forward.1 hnear
      obtain ⟨a', hpair'⟩ := Dependency.far?_forward.1 hfar
      rw [hpair] at hpair'
      cases hpair'
      exact ⟨x, hx, hpair⟩
    · rintro ⟨x, hx, hpair⟩
      exact ⟨x, hx, Dependency.near?_forward.2 ⟨b, hpair⟩, Dependency.far?_forward.2 ⟨a, hpair⟩⟩
  rw [harc] at hmem
  refine ⟨(Graph.ofEdges edges).reaches start goal, ?_, ?_⟩
  · unfold leads
    rw [hwalk]
    rfl
  rw [Graph.reaches_iff]
  constructor
  · intro hreach
    have hle : (Graph.ofEdges edges).Step .forward ≤ r.Blocks := by
      intro a b hstep
      obtain ⟨d, hd, hpair⟩ := Graph.step_ofEdges.1 hstep
      exact ⟨d, ((hmem d).1 hd).1, hpair⟩
    exact ReflTransGen.mono hle start goal hreach
  · intro hreach
    induction hreach with
    | refl => exact .refl
    | @tail a b hfrom hstep ih =>
      obtain ⟨d, hd, hpair⟩ := hstep
      have hnear := Dependency.near?_forward.2 ⟨b, hpair⟩
      exact ih.tail (Graph.step_ofEdges.2 ⟨d, (hmem d).2 ⟨hd, a, hnear, hfrom⟩, hpair⟩)

end Repository

end TaskFlow

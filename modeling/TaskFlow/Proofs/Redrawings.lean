import TaskFlow.Proofs.Traversal

/-!
# One graph from many lists of edges

Which tasks lie one arc away, and in which order, depends only on how old the oldest edge between
each two tasks is. Lists of edges that agree on this are one graph, and whatever is asked of it has
one answer: however the edges are ordered, spelled and labelled, and however often they say the
same.
-/

open Relation (EqvGen ReflTransGen)

namespace TaskFlow

/-- An edge from the time `t` leads a walk on this course from `a` to `b`. -/
def Joins (edges : List Dependency) (c : Course) (a b : Ident) (t : Instant) : Prop :=
  ∃ d ∈ edges, d.near? c = some a ∧ d.far? c = some b ∧ d.createdAt = t

/-- The oldest of the edges that lead from `a` to `b` is from the time `t`. -/
def JoinsSince (edges : List Dependency) (c : Course) (a b : Ident) (t : Instant) : Prop :=
  Joins edges c a b t ∧ ∀ s, Joins edges c a b s → t ≤ s

/-- Of the tasks one edge away from `task`, `a` has been so for longer than `b`, or for as long and
is the smaller. -/
def JoinedBefore (edges : List Dependency) (c : Course) (task a b : Ident) : Prop :=
  ∃ s t, JoinsSince edges c task a s ∧ JoinsSince edges c task b t ∧ (s < t ∨ s = t ∧ a < b)

/-- The same said of the blocked task: an edge by which its source blocks its target, from the other
end. -/
def Dependency.respelled (d : Dependency) : Dependency :=
  { d with source := d.target, target := d.source, relation := .isBlockedBy }

/-- Another way to list the edges of a graph: in another order, without an edge that does not block,
with other labels on an edge, with an edge said from its other end, or with one more edge that is no
older than one that leads the same way. -/
inductive Redraws : List Dependency → List Dependency → Prop
  | permute {edges edges' : List Dependency} (h : edges.Perm edges') : Redraws edges edges'
  | forget {d : Dependency} (edges : List Dependency) (h : d.relation = .relatesTo) :
      Redraws (d :: edges) edges
  | relabel (d : Dependency) (edges : List Dependency) (id : Ident) (unblockAt : Option Role) :
      Redraws (d :: edges) ({ d with id, unblockAt } :: edges)
  | respell {d : Dependency} (edges : List Dependency) (h : d.relation = .blocks) :
      Redraws (d :: edges) (d.respelled :: edges)
  | echo {d x : Dependency} {edges : List Dependency} {a b : Ident} (hx : x ∈ edges)
      (hold : x.pair = some (a, b)) (hnew : d.pair = some (a, b))
      (hage : x.createdAt ≤ d.createdAt) : Redraws edges (d :: edges)

variable {edges edges' : List Dependency} {c : Course} {a b task : Ident} {t : Instant}

lemma near?_congr {d x : Dependency} (h : d.pair = x.pair) : d.near? c = x.near? c := by
  unfold Dependency.near? Dependency.arc?
  rw [h, Option.map_map, Option.map_map]
  cases c <;> rfl

lemma far?_congr {d x : Dependency} (h : d.pair = x.pair) : d.far? c = x.far? c := by
  unfold Dependency.far? Dependency.arc?
  rw [h, Option.map_map, Option.map_map]
  cases c <;> rfl

lemma near?_of_relatesTo {d : Dependency} (h : d.relation = .relatesTo) : d.near? c = none := by
  simp [Dependency.near?, Dependency.arc?, Dependency.pair, Relation.pair, h]

lemma pair_respelled {d : Dependency} (h : d.relation = .blocks) : d.respelled.pair = d.pair := by
  simp [Dependency.respelled, Dependency.pair, Relation.pair, h]

lemma joins_cons {d : Dependency} : Joins (d :: edges) c a b t ↔
    (d.near? c = some a ∧ d.far? c = some b ∧ d.createdAt = t) ∨ Joins edges c a b t := by
  simp [Joins]

lemma joins_cons_congr {d x : Dependency} (hpair : d.pair = x.pair)
    (hage : d.createdAt = x.createdAt) :
    Joins (d :: edges) c a b t ↔ Joins (x :: edges) c a b t := by
  rw [joins_cons, joins_cons, near?_congr hpair, far?_congr hpair, hage]

lemma joinsSince_congr (h : ∀ t, Joins edges c a b t ↔ Joins edges' c a b t) :
    JoinsSince edges c a b t ↔ JoinsSince edges' c a b t := by
  simp only [JoinsSince, h]

lemma joinsSince_echo {d x : Dependency} (hx : x ∈ edges) (hpair : d.pair = x.pair)
    (hage : x.createdAt ≤ d.createdAt) :
    JoinsSince edges c a b t ↔ JoinsSince (d :: edges) c a b t := by
  have hdouble : ∀ s, Joins (d :: edges) c a b s → ∃ r, Joins edges c a b r ∧ r ≤ s := by
    intro s hs
    rcases joins_cons.1 hs with ⟨hnear, hfar, rfl⟩ | hs
    · rw [near?_congr hpair] at hnear
      rw [far?_congr hpair] at hfar
      exact ⟨x.createdAt, ⟨x, hx, hnear, hfar, rfl⟩, hage⟩
    · exact ⟨s, hs, Int.le_refl _⟩
  constructor
  · rintro ⟨ht, hleast⟩
    refine ⟨joins_cons.2 (.inr ht), fun s hs => ?_⟩
    obtain ⟨r, hr, hrs⟩ := hdouble s hs
    exact Instant.le_trans (hleast r hr) hrs
  · rintro ⟨ht, hleast⟩
    have hold : ∀ s, Joins edges c a b s → t ≤ s := fun s hs => hleast s (joins_cons.2 (.inr hs))
    obtain ⟨r, hr, hrt⟩ := hdouble t ht
    rw [Instant.le_antisymm (hold r hr) hrt]
    exact ⟨hr, fun s hs => Instant.le_trans hrt (hold s hs)⟩

/-- However the edges are listed, the oldest one between any two tasks has the same age. -/
lemma Redraws.joinsSince_iff (h : Redraws edges edges') :
    JoinsSince edges c a b t ↔ JoinsSince edges' c a b t := by
  cases h with
  | permute h =>
    refine joinsSince_congr fun s => ?_
    simp only [Joins, h.mem_iff]
  | forget edges h =>
    refine joinsSince_congr fun s => ?_
    simp [joins_cons, near?_of_relatesTo h]
  | relabel d edges id unblockAt => exact joinsSince_congr fun s => joins_cons_congr rfl rfl
  | respell edges h =>
    exact joinsSince_congr fun s => joins_cons_congr (pair_respelled h).symm rfl
  | echo hx hold hnew hage => exact joinsSince_echo hx (hnew.trans hold.symm) hage

lemma joinsSince_of_redrawn (h : EqvGen Redraws edges edges') :
    JoinsSince edges c a b t ↔ JoinsSince edges' c a b t := by
  induction h with
  | rel edges edges' hstep => exact hstep.joinsSince_iff
  | refl edges => rfl
  | symm edges edges' _ ih => exact ih.symm
  | trans edges mid edges' _ _ ih₁ ih₂ => exact ih₁.trans ih₂

namespace Graph

lemma exists_arcsFrom_ofEdges : (∃ x ∈ (ofEdges edges).arcsFrom c task, x.far c = b ∧ x.since = t) ↔
    Joins edges c task b t := by
  simp only [mem_arcsFrom_ofEdges, Joins]
  constructor
  · rintro ⟨x, ⟨d, hd, harc, hnear⟩, rfl, rfl⟩
    refine ⟨d, hd, hnear, by rw [Dependency.far?, harc, Option.map_some], ?_⟩
    obtain ⟨p, -, rfl⟩ := Option.map_eq_some_iff.1 harc
    rfl
  · rintro ⟨d, hd, hnear, hfar, rfl⟩
    obtain ⟨x, harc, hfar⟩ := Option.map_eq_some_iff.1 hfar
    refine ⟨x, ⟨d, hd, harc, hnear⟩, hfar, ?_⟩
    obtain ⟨p, -, rfl⟩ := Option.map_eq_some_iff.1 harc
    rfl

lemma oldestTo_ofEdges : OldestTo c ((ofEdges edges).arcsFrom c task) b t ↔
    JoinsSince edges c task b t := by
  refine and_congr exists_arcsFrom_ofEdges ?_
  simp only [← exists_arcsFrom_ofEdges]
  constructor
  · rintro h s ⟨x, hx, hfar, rfl⟩
    exact h x hx hfar
  · intro h x hx hfar
    exact h x.since ⟨x, hx, hfar, rfl⟩

lemma mem_next_ofEdges : b ∈ (ofEdges edges).next c task ↔ ∃ t, Joins edges c task b t := by
  rw [mem_next_iff_step, step_ofEdges_iff]
  constructor
  · rintro ⟨d, hd, hnear, hfar⟩
    exact ⟨d.createdAt, d, hd, hnear, hfar, rfl⟩
  · rintro ⟨t, d, hd, hnear, hfar, -⟩
    exact ⟨d, hd, hnear, hfar⟩

lemma pairwise_next_ofEdges :
    ((ofEdges edges).next c task).Pairwise (JoinedBefore edges c task) := by
  refine ((ofEdges edges).pairwise_next c task).imp ?_
  rintro a b ⟨s, t, hs, ht, hst⟩
  exact ⟨s, t, oldestTo_ofEdges.1 hs, oldestTo_ofEdges.1 ht, hst⟩

lemma mem_next_converse {g : Graph} : b ∈ g.next .forward a ↔ a ∈ g.next .backward b := by
  rw [mem_next_iff_step, mem_next_iff_step, step_swap]

/-- Whatever is asked of the two graphs, they give one answer. -/
structure AnswersAlike (g g' : Graph) : Prop where
  next : ∀ c task, g.next c task = g'.next c task
  isEmpty : g.isEmpty = g'.isEmpty
  reaches : ∀ start goal, g.reaches start goal = g'.reaches start goal
  analyze : ∀ c start, g.analyze c start = g'.analyze c start

lemma isEmpty_iff_next {g : Graph} : g.isEmpty = true ↔ ∀ task, g.next .forward task = [] := by
  simp only [List.eq_nil_iff_forall_not_mem, mem_next, isEmpty, List.isEmpty_iff]
  constructor
  · rintro h task other ⟨x, hx, -⟩
    exact h x hx
  · intro h x hx
    exact h x.blocker x.blocked ⟨x, hx, rfl, rfl⟩

lemma answersAlike_of_next {g g' : Graph} (h : ∀ c task, g.next c task = g'.next c task) :
    AnswersAlike g g' where
  next := h
  isEmpty := by rw [Bool.eq_iff_iff, isEmpty_iff_next, isEmpty_iff_next, funext (h .forward)]
  reaches := by
    intro start goal
    have hstep : g.Step .forward = g'.Step .forward := by
      funext a b
      rw [← mem_next_iff_step, ← mem_next_iff_step, h]
    rw [Bool.eq_iff_iff, reaches_iff, reaches_iff, hstep]
  analyze := by
    intro c start
    have hagree : AgreeFrom g g' c start :=
      ⟨fun task _ => h c task, fun _ htask _ hother => htask.tail (mem_next_iff_step.1 hother)⟩
    exact hagree.analyze_eq

/-- The tasks one arc away from a task are listed once each, by the age of the oldest edge that
leads to them and then by themselves, and arcs are followed back as they are followed forth. So the
graph is the same for all lists of edges that are the same up to redrawing. -/
theorem next_redrawn (edges : List Dependency) :
    (∀ c task, ((ofEdges edges).next c task).Nodup ∧
      (∀ other, other ∈ (ofEdges edges).next c task ↔ ∃ t, Joins edges c task other t) ∧
      ((ofEdges edges).next c task).Pairwise (JoinedBefore edges c task)) ∧
    (∀ a b, b ∈ (ofEdges edges).next .forward a ↔ a ∈ (ofEdges edges).next .backward b) ∧
    ∀ edges', EqvGen Redraws edges edges' → AnswersAlike (ofEdges edges) (ofEdges edges') := by
  refine ⟨fun c task => ⟨nodup_next, fun other => mem_next_ofEdges, pairwise_next_ofEdges⟩,
    fun a b => mem_next_converse, fun edges' hredrawn => ?_⟩
  apply answersAlike_of_next
  intro c task
  apply next_eq_of_oldestTo
  intro other t
  rw [oldestTo_ofEdges, oldestTo_ofEdges]
  exact joinsSince_of_redrawn hredrawn

/-- The edges of `forked` backwards, without the younger of the two from the first task to the
second, and with that to the third said from there, under another identifier. -/
def reforked : List Dependency :=
  (forked.drop 2).reverse ++ (forked.tail.take 1).map fun d =>
    { d.respelled with id := .ofNat 9, unblockAt := some .work }

theorem next_redrawn_forked : EqvGen Redraws forked reforked ∧
    AnswersAlike (ofEdges forked) (ofEdges reforked) ∧
    (ofEdges reforked).next .forward ⟨1, by decide⟩ = [⟨2, by decide⟩, ⟨3, by decide⟩] := by
  obtain ⟨x, hx, hold, hage⟩ : ∃ x ∈ forked.tail,
      x.pair = some (⟨1, by decide⟩, ⟨2, by decide⟩) ∧ ∀ d ∈ forked.take 1,
        x.createdAt ≤ d.createdAt := by decide
  obtain ⟨d, htail, hblocks⟩ : ∃ d, forked.tail = d :: forked.drop 2 ∧ d.relation = .blocks :=
    ⟨_, rfl, rfl⟩
  let renamed := { d.respelled with id := .ofNat 9, unblockAt := some .work }
  have hecho : Redraws (d :: forked.drop 2) forked := by
    rw [← htail]
    exact .echo hx hold rfl (hage _ List.mem_cons_self)
  have hrespell : Redraws (d :: forked.drop 2) (d.respelled :: forked.drop 2) :=
    .respell _ hblocks
  have hrelabel : Redraws (d.respelled :: forked.drop 2) (renamed :: forked.drop 2) :=
    .relabel _ _ _ _
  have hpermute : Redraws (renamed :: forked.drop 2) reforked := by
    rw [reforked, htail]
    exact .permute
      ((List.perm_append_singleton _ _).trans ((forked.drop 2).reverse_perm.cons _)).symm
  have hredrawn : EqvGen Redraws forked reforked :=
    .trans _ _ _ (.symm _ _ (.rel _ _ hecho)) (.trans _ _ _ (.rel _ _ hrespell)
      (.trans _ _ _ (.rel _ _ hrelabel) (.rel _ _ hpermute)))
  have halike := (next_redrawn forked).2.2 reforked hredrawn
  refine ⟨hredrawn, halike, ?_⟩
  rw [← halike.next]
  cbv

end Graph

end TaskFlow

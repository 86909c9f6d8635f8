import TaskFlow.Proofs.Operations
import TaskFlow.Proofs.StoredEdges

/-!
# Admission of edges

What may be said against a requested edge, in the order in which it is said. The checks refuse a
request for the first objection that applies, whatever edges are stored, and a request against
which nothing is said is stored.
-/

open Relation (ReflTransGen)

namespace TaskFlow

open Classical in
/-- The cause that comes with the first condition that holds. -/
noncomputable def firstCause : List (Prop × EngineError) → Option EngineError
  | [] => none
  | (applies, cause) :: rest => if applies then some cause else firstCause rest

lemma firstCause_append_of_none {first later : List (Prop × EngineError)}
    (h : firstCause first = none) : firstCause (first ++ later) = firstCause later := by
  induction first with
  | nil => rfl
  | cons objection rest ih =>
    obtain ⟨applies, cause⟩ := objection
    by_cases happlies : applies
    · rw [firstCause, if_pos happlies] at h
      cases h
    · rw [firstCause, if_neg happlies] at h
      rw [List.cons_append, firstCause, if_neg happlies, ih h]

/-- The outcome of a check that refuses for the first condition that holds. -/
noncomputable def verdict (objections : List (Prop × EngineError)) : Except EngineError Unit :=
  match firstCause objections with
  | some cause => .error cause
  | none => .ok ()

lemma verdict_nil : verdict [] = .ok () :=
  rfl

lemma verdict_cons_of_pos {applies : Prop} {cause : EngineError}
    {rest : List (Prop × EngineError)} (h : applies) :
    verdict ((applies, cause) :: rest) = .error cause := by
  rw [verdict, firstCause, if_pos h]

lemma verdict_cons_of_neg {applies : Prop} {cause : EngineError}
    {rest : List (Prop × EngineError)} (h : ¬ applies) :
    verdict ((applies, cause) :: rest) = verdict rest := by
  rw [verdict, firstCause, if_neg h, verdict]

lemma verdict_append (first later : List (Prop × EngineError)) :
    verdict (first ++ later) = (verdict first >>= fun _ => verdict later) := by
  induction first with
  | nil => rfl
  | cons objection rest ih =>
    obtain ⟨applies, cause⟩ := objection
    by_cases h : applies
    · rw [List.cons_append, verdict_cons_of_pos h, verdict_cons_of_pos h]
      rfl
    · rw [List.cons_append, verdict_cons_of_neg h, verdict_cons_of_neg h, ih]

lemma verdict_single_of_bool {applies : Prop} {cause : EngineError} {found : Bool}
    (h : found = true ↔ applies) :
    verdict [(applies, cause)] = if found = true then .error cause else .ok () := by
  by_cases happlies : applies
  · rw [verdict_cons_of_pos happlies, if_pos (h.2 happlies)]
  · rw [verdict_cons_of_neg happlies, if_neg fun hfound => happlies (h.1 hfound), verdict_nil]

/-- What may be said against a request without looking at what is stored. -/
def Request.objections (q : Request) : List (Prop × EngineError) := [
  (q.source = q.target, .selfDependency q.source),
  (q.relation = .relatesTo ∧ q.unblockAt ≠ none, .invalid .unblockOnInformational),
  (q.unblockAt = some .queue, .invalid (.notUnblocking Role.queue.name)),
  (q.unblockAt = some .blocked, .invalid (.notUnblocking Role.blocked.name))]

namespace Repository

/-- An edge of the same ends and the same relation is stored. -/
def Has (r : Repository) (source target : Ident) (relation : Relation) : Prop :=
  ∃ d ∈ r.edges.toList, d.source = source ∧ d.target = target ∧ d.relation = relation

instance (r : Repository) (source target : Ident) (relation : Relation) :
    Decidable (r.Has source target relation) :=
  inferInstanceAs (Decidable (∃ d ∈ r.edges.toList, _))

/-- The requested edge would close a cycle: its blocker can be reached from the task that it
would block, over any number of stored edges. -/
def Closes (r : Repository) (q : Request) : Prop :=
  ∃ blocker blocked, q.pair = some (blocker, blocked) ∧ ReflTransGen r.Blocks blocked blocker

/-- All that may be said against a request, in the order in which it is said. -/
def objections (r : Repository) (q : Request) : List (Prop × EngineError) :=
  q.objections ++ [
    (¬ r.Stores q.source, .missing (.entity .task) q.source),
    (¬ r.Stores q.target, .missing (.entity .task) q.target),
    (r.Has q.source q.target q.relation, .duplicate q.source q.target q.relation),
    (r.Closes q, .cycle q.source q.target q.relation)]

/-- The repository `r'` is `r` with one edge more. An edge of the same identifier is replaced. -/
structure Gains (r : Repository) (d : Dependency) (r' : Repository) : Prop where
  tasks : r'.tasks = r.tasks
  features : r'.features = r.features
  projects : r'.projects = r.projects
  mem_edges : ∀ x, x ∈ r'.edges.toList ↔ x = d ∨ (x ∈ r.edges.toList ∧ x.id ≠ d.id)
  perm : (∀ x ∈ r.edges.toList, x.id ≠ d.id) → r'.edges.toList.Perm (d :: r.edges.toList)

end Repository

lemma Request.check_eq (q : Request) : q.check = verdict q.objections := by
  unfold check objections
  by_cases hself : q.source = q.target
  · rw [if_pos hself, verdict_cons_of_pos hself]
  rw [if_neg hself, verdict_cons_of_neg hself]
  rcases hrole : q.unblockAt with _ | role
  · rw [verdict_cons_of_neg (by simp), verdict_cons_of_neg (by simp),
      verdict_cons_of_neg (by simp), verdict_nil]
  by_cases hrelates : q.relation = .relatesTo
  · rw [verdict_cons_of_pos ⟨hrelates, by simp⟩, hrelates]
    rfl
  rw [verdict_cons_of_neg fun h => hrelates h.1]
  have hblocking : q.relation.isBlocking = true := by
    cases hrel : q.relation with
    | blocks => rfl
    | isBlockedBy => rfl
    | relatesTo => exact absurd hrel hrelates
  simp only [hblocking, Bool.not_true, Bool.false_eq_true, if_false]
  cases role with
  | queue => exact (verdict_cons_of_pos rfl).symm
  | blocked =>
    rw [verdict_cons_of_neg (by simp), verdict_cons_of_pos rfl]
    rfl
  | work | review | terminal =>
    rw [verdict_cons_of_neg (by simp), verdict_cons_of_neg (by simp), verdict_nil]
    rfl

namespace Repository

variable {r : Repository}

/-- A request of good shape for a new edge between stored tasks can only be refused because it
closes a cycle. -/
lemma firstCause_objections {q : Request} (hcheck : q.check = .ok ()) (hsource : r.Stores q.source)
    (htarget : r.Stores q.target) (hnew : ¬ r.Has q.source q.target q.relation) :
    firstCause (r.objections q) =
      firstCause [(r.Closes q, .cycle q.source q.target q.relation)] := by
  have hshape : firstCause q.objections = none := by
    rw [q.check_eq, verdict] at hcheck
    split at hcheck
    · cases hcheck
    · assumption
  unfold objections
  rw [firstCause_append_of_none hshape, firstCause, if_neg (not_not.2 hsource), firstCause,
    if_neg (not_not.2 htarget), firstCause, if_neg hnew]

section Checks

variable (h : r.InOrder)

include h

lemma requireTask_eq (task : Ident) : r.requireTask task =
    verdict [(¬ r.Stores task, .missing (.entity .task) task)] := by
  have hstores : (!(r.tasks.get? task).isSome) = true ↔ ¬ r.Stores task := by
    rw [Bool.not_eq_true', ← Bool.not_eq_true, Roster.isSome_get?_iff]
    rfl
  rw [verdict_single_of_bool hstores]
  unfold requireTask
  rw [hasTask_eq h]
  rfl

lemma requireTask_of_stores {task : Ident} (hstored : r.Stores task) :
    r.requireTask task = .ok () := by
  rw [requireTask_eq h, verdict_cons_of_neg (not_not.2 hstored), verdict_nil]

lemma requireNew_eq (q : Request) : r.requireNew q =
    verdict [(r.Has q.source q.target q.relation, .duplicate q.source q.target q.relation)] := by
  have hhas : ((r.edges.select (·.touches q.source)).any
      (·.joins q.source q.target q.relation)) = true ↔ r.Has q.source q.target q.relation := by
    simp only [List.any_eq_true, Roster.mem_select, Dependency.joins, Bool.and_eq_true, beq_iff_eq]
    constructor
    · rintro ⟨d, ⟨hd, -⟩, ⟨hsource, htarget⟩, hrelation⟩
      exact ⟨d, hd, hsource, htarget, hrelation⟩
    · rintro ⟨d, hd, hsource, htarget, hrelation⟩
      exact ⟨d, ⟨hd, by simp [Dependency.touches, hsource]⟩, ⟨hsource, htarget⟩, hrelation⟩
  rw [verdict_single_of_bool hhas]
  unfold requireNew
  rw [findByTask_eq h]
  rfl

lemma requireAcyclic_eq (q : Request) : r.requireAcyclic q =
    verdict [(r.Closes q, .cycle q.source q.target q.relation)] := by
  unfold requireAcyclic
  rcases hpair : q.pair with _ | ⟨blocker, blocked⟩
  · have hcloses : ¬ r.Closes q := by
      rintro ⟨a, b, hab, -⟩
      rw [hpair] at hab
      cases hab
    rw [verdict_cons_of_neg hcloses, verdict_nil]
  · obtain ⟨found, hleads, hreach⟩ := leads_eq h blocked blocker
    have hcloses : found = true ↔ r.Closes q := by
      rw [hreach]
      constructor
      · intro hback
        exact ⟨blocker, blocked, hpair, hback⟩
      · rintro ⟨a, b, hab, hback⟩
        rw [hpair] at hab
        cases hab
        exact hback
    rw [verdict_single_of_bool hcloses]
    dsimp only
    rw [hleads]
    rfl

/-- The checks refuse a request for the first objection that applies. -/
theorem checkNew_eq (q : Request) : r.checkNew q = verdict (r.objections q) := by
  unfold checkNew
  rw [q.check_eq, requireTask_eq h, requireTask_eq h, requireNew_eq h, requireAcyclic_eq h,
    ← verdict_append, ← verdict_append, ← verdict_append, ← verdict_append]
  rfl

lemma addEdge_error {o : Order} {cause : EngineError}
    (hcause : firstCause (r.objections o.request) = some cause) :
    r.addEdge o = .error cause := by
  unfold addEdge
  rw [checkNew_eq h, verdict, hcause]
  rfl

lemma addEdge_ok {o : Order} (hnone : firstCause (r.objections o.request) = none) :
    r.addEdge o = r.create o.request o.id? o.at? := by
  unfold addEdge
  rw [checkNew_eq h, verdict, hnone]
  rfl

end Checks

lemma gains_put (d : Dependency) (issued : Nat) :
    r.Gains d { r with edges := r.edges.put d, issued } where
  tasks := rfl
  features := rfl
  projects := rfl
  mem_edges := fun _ => Roster.mem_put
  perm := Roster.put_perm

end Repository

/-- A request is refused for the first objection that applies, and the engine stays as it is. A
request without objections becomes one more edge. -/
theorem Engine.store_addEdge (e : Engine) (o : Order) (h : e.repository.InOrder) :
    match firstCause (e.repository.objections o.request) with
    | some cause => store (·.addEdge o) e = (.error cause, e)
    | none => ∃ d r, store (·.addEdge o) e = (.ok d, { e with repository := r }) ∧
        e.repository.Gains d r ∧ d.Realizes o.request := by
  split
  · rename_i cause hcause
    exact store_error (Repository.addEdge_error h hcause)
  · rename_i hnone
    obtain ⟨d, hcreate, hrealizes⟩ := Repository.create_eq h o.request o.id? o.at?
    have hadd := (Repository.addEdge_ok h hnone).trans hcreate
    exact ⟨d, _, store_ok hadd, Repository.gains_put d _, hrealizes⟩

/-- The first of three tasks blocks the second, and the third is blocked by the second. -/
def Repository.chained : Repository :=
  let task (n : Nat) : Task :=
    { id := .ofNat n, title := "", status := .pending, summary := none, feature := none
      createdAt := .epoch }
  { tasks := .ofList [task 1, task 2, task 3]
    edges := .ofList [
      ⟨.ofNat 4, .ofNat 1, .ofNat 2, .blocks, none, .epoch⟩,
      ⟨.ofNat 5, .ofNat 3, .ofNat 2, .isBlockedBy, some .work, .epoch⟩]
    supply := fun n => ⟨.ofNat (8 + n), .epoch⟩ }

/-- The third task is asked to block the first. -/
def Order.closing : Order :=
  { request := ⟨.ofNat 3, .ofNat 1, .blocks, some .review⟩ }

lemma Repository.chained_closes : Repository.chained.Closes Order.closing.request := by
  refine ⟨.ofNat 3, .ofNat 1, rfl, .head (b := .ofNat 2) ?_ (.single ?_)⟩
  · exact ⟨⟨.ofNat 4, .ofNat 1, .ofNat 2, .blocks, none, .epoch⟩, by decide, rfl⟩
  · exact ⟨⟨.ofNat 5, .ofNat 3, .ofNat 2, .isBlockedBy, some .work, .epoch⟩, by decide, rfl⟩

theorem Engine.store_addEdge_chained : Repository.chained.InOrder ∧
    store (·.addEdge .closing) (ofRepository .chained) =
      (.error (.cycle (.ofNat 3) (.ofNat 1) .blocks), ofRepository .chained) := by
  have hcause : firstCause ((ofRepository .chained).repository.objections
      Order.closing.request) = some (.cycle (.ofNat 3) (.ofNat 1) .blocks) :=
    (Repository.firstCause_objections rfl (by decide) (by decide) (by decide)).trans
      (if_pos Repository.chained_closes)
  have hadd := store_addEdge (ofRepository .chained) .closing rfl
  rw [hcause] at hadd
  exact ⟨rfl, hadd⟩

end TaskFlow

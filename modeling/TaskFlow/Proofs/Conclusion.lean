import TaskFlow.Proofs.Blockers
import TaskFlow.Proofs.Caching

/-!
# Blockers that are done

An edge that names no role asks for the terminal one. Which statuses have that role is for the
document to say: the role that it gives to a status counts before the terminal statuses that it
lists, so a terminal status with another role does not end the blocking and a status that is not
terminal may.
-/

namespace TaskFlow

lemma Role.satisfies_terminal_iff {role : Role} :
    role.satisfies .terminal = true ↔ role = .terminal := by
  cases role <;> decide

lemma Role.terminal_satisfies {role : Role} (h : role = .work ∨ role = .review ∨ role = .terminal) :
    Role.terminal.satisfies role = true := by
  rcases h with rfl | rfl | rfl <;> rfl

lemma Status.nominalRole_ne_terminal (s : Status) : s.nominalRole ≠ .terminal := by
  unfold nominalRole
  split_ifs <;> exact Role.noConfusion

namespace Workflow.Spec

/-- A status ends the blocking where an edge names no role: the document gives it the terminal role,
or gives it none and lists it as terminal. -/
def Concludes (w : Spec) (s : Status) : Prop :=
  w.givenRole s = some .terminal ∨ (w.givenRole s = none ∧ s ∈ w.terminal)

variable {w : Spec} {s : Status}

lemma givenRole_eq_none_iff : w.givenRole s = none ↔ ∀ role, (s, role) ∉ w.roles := by
  unfold givenRole
  rw [List.lookup_eq_none_iff]
  constructor
  · intro h role hrole
    have hne := h (s, role) (List.mem_reverse.2 hrole)
    simp at hne
  · rintro h ⟨s', role⟩ hrole
    refine bne_iff_ne.2 ?_
    rintro rfl
    exact h role (List.mem_reverse.1 hrole)

lemma concludes_iff_mem_terminal (h : ∀ role, (s, role) ∉ w.roles) :
    w.Concludes s ↔ s ∈ w.terminal := by
  simp [Concludes, givenRole_eq_none_iff.2 h]

lemma Alike.concludes_iff {w' : Spec} (h : w.Alike w') : w'.Concludes s ↔ w.Concludes s := by
  rw [h.fields]
  rfl

lemma roleOf_eq_terminal_iff : w.roleOf s = .terminal ↔ w.Concludes s := by
  unfold roleOf Concludes
  rcases w.givenRole s with _ | role
  · by_cases hs : s ∈ w.terminal
    · simp [isTerminal, hs]
    · simp [isTerminal, hs, s.nominalRole_ne_terminal]
  · simp

end Workflow.Spec

namespace Repository

variable {r : Repository} {w : Workflow.Spec} {d : Dependency} {t : Task} {task : Ident}

lemma unsatisfied_iff_of_stored (ht : t ∈ r.tasks.toList) :
    r.Unsatisfied w t.id d ↔ (w.roleOf t.status).satisfies d.requiredRole = false := by
  constructor
  · rintro ⟨t', ht', hid, hshort⟩
    rwa [Roster.eq_of_id_eq ht ht' hid.symm]
  · intro hshort
    exact ⟨t, ht, rfl, hshort⟩

/-- An edge that names no role is satisfied just by the statuses that end the blocking. -/
theorem unsatisfied_iff_not_concludes (ht : t ∈ r.tasks.toList) (hrole : d.unblockAt = none) :
    r.Unsatisfied w t.id d ↔ ¬ w.Concludes t.status := by
  have hrequired : d.requiredRole = .terminal := by
    rw [Dependency.requiredRole, hrole]
    rfl
  rw [unsatisfied_iff_of_stored ht, hrequired, ← Bool.not_eq_true, Role.satisfies_terminal_iff,
    Workflow.Spec.roleOf_eq_terminal_iff]

lemma WellFormed.not_unsatisfied (h : r.WellFormed) (hd : d ∈ r.edges.toList)
    (ht : t ∈ r.tasks.toList) (hdone : w.Concludes t.status) : ¬ r.Unsatisfied w t.id d := by
  rcases hrole : d.unblockAt with _ | role
  · rw [unsatisfied_iff_not_concludes ht hrole]
    exact not_not.2 hdone
  · have hrequired : d.requiredRole = role := by
      rw [Dependency.requiredRole, hrole]
      rfl
    have hreached := Role.terminal_satisfies (h.unblocking d hd role hrole)
    rw [unsatisfied_iff_of_stored ht, hrequired, Workflow.Spec.roleOf_eq_terminal_iff.2 hdone,
      hreached]
    exact Bool.true_eq_false.mp

lemma WellFormed.holdsBack_iff (h : r.WellFormed) (hd : d ∈ r.edges.toList)
    (hpair : d.pair = some (t.id, task)) (hrole : d.unblockAt = none) (ht : t ∈ r.tasks.toList) :
    r.HoldsBack w t.id task ↔ ¬ w.Concludes t.status := by
  constructor
  · rintro ⟨x, hx, -, hshort⟩ hdone
    exact h.not_unsatisfied hx ht hdone hshort
  · intro hopen
    exact ⟨d, hd, hpair, (unsatisfied_iff_not_concludes ht hrole).2 hopen⟩

end Repository

namespace Engine

lemma alike_workflow_of_served {e : Engine} {kind : Kind} {document : Workflow.Document}
    {order : Workflow.KeyOrder} {w : Workflow.Spec} (hfaithful : e.cache.Faithful e.source)
    (hserved : e.source e.root = .ok (some document)) (hread : document.spec kind order = .ok w) :
    w.Alike (workflow kind e).1 := by
  have hdraws : e.Draws e.source := ⟨rfl, hfaithful⟩
  have hgives : e.source.Gives kind e.root w := .document hserved hread
  exact hgives.alike (hdraws.workflow kind).1

/-- A blocker whose edge names no role has let go of the task once the document says that its status
has the terminal role. That is a terminal status exactly where the document gives the status no
role. A blocker that has let go is not reported, and one that has not is reported if that edge is
its oldest. -/
theorem released_iff_concludes (e : Engine) (document : Workflow.Document)
    (order : Workflow.KeyOrder) (w : Workflow.Spec) (d : Dependency) (t : Task) (task : Ident)
    (horder : e.repository.InOrder) (hfaithful : e.cache.Faithful e.source)
    (hserved : e.source e.root = .ok (some document))
    (hread : document.spec .task order = .ok w) (hd : d ∈ e.repository.edges.toList)
    (hpair : d.pair = some (t.id, task)) (hrole : d.unblockAt = none)
    (ht : t ∈ e.repository.tasks.toList) (hstored : e.repository.Stores task) :
    (e.repository.Unsatisfied (workflow .task e).1 t.id d ↔ ¬ w.Concludes t.status) ∧
    (e.repository.WellFormed →
      (e.repository.HoldsBack (workflow .task e).1 t.id task ↔ ¬ w.Concludes t.status)) ∧
    ((∀ role, (t.status, role) ∉ w.roles) → (w.Concludes t.status ↔ t.status ∈ w.terminal)) ∧
    ∃ items, (blockedBy task e).1 = .ok items ∧
      (shortfall .task task .inProgress e).1 = .ok (blockerShortfall items) ∧
      (e.repository.WellFormed → t.id ∈ items.map BlockingItem.id → ¬ w.Concludes t.status) ∧
      (e.repository.IsOldest t.id task d → ¬ w.Concludes t.status →
        t.id ∈ items.map BlockingItem.id ∧ blockerShortfall items ≠ none) := by
  obtain ⟨e', hblockers⟩ := unresolvedBlockers_eq horder task
  have halike := alike_workflow_of_served hfaithful hserved hread
  have hsatisfied := Repository.unsatisfied_iff_not_concludes (w := (workflow .task e).1) ht hrole
  simp only [← halike.concludes_iff]
  refine ⟨hsatisfied, fun hwell => hwell.holdsBack_iff hd hpair hrole ht, fun hnone => ?_,
    e.repository.openBlockers (workflow .task e).1 task, ?_, ?_, ?_, ?_⟩
  · rw [halike.concludes_iff]
    exact Workflow.Spec.concludes_iff_mem_terminal hnone
  · have hrequire : e.repository.requireTask task = .ok () := by
      rw [Repository.requireTask_eq horder, verdict_cons_of_neg (not_not.2 hstored), verdict_nil]
    unfold blockedBy
    rw [bind_ok (ask_ok hrequire), hblockers]
  · have hguard : shortfall .task task .inProgress =
        (unresolvedBlockers task >>= fun items => pure (blockerShortfall items)) := rfl
    rw [hguard, bind_ok hblockers]
    rfl
  · intro hwell hreported hdone
    obtain ⟨x, hx, hshort⟩ := Repository.mem_openBlockers_iff.1 hreported
    exact hwell.not_unsatisfied hx.1 ht hdone hshort
  · intro holdest hopen
    have hreported := Repository.mem_openBlockers_iff.2 ⟨d, holdest, hsatisfied.2 hopen⟩
    exact ⟨hreported, fun hnone => blockerShortfall_eq_none_iff.1 hnone t.id hreported⟩

/-- A document by which a completed task is still to be reviewed and a tested one is done. -/
def recasting : Workflow.Document where
  tasks := some {
    flow := ["pending", "in-progress", "testing", "completed"]
    terminal := ["completed"]
    roles := .ofList [("completed", "review"), ("testing", "terminal")] }

def recast : Workflow.Spec where
  kind := .task
  allowed := Kind.task.vocabulary
  flow := [.pending, .inProgress, .testing, .completed]
  emergency := []
  terminal := [.completed]
  roles := [(.completed, .review), (.testing, .terminal)]
  rules := {}

def bare (n : Nat) (status : Status) : Task where
  id := .ofNat n
  title := "t"
  status
  summary := none
  feature := none
  createdAt := .epoch

/-- The edge by which a task blocks the second one until it is done. -/
def barrier (n : Nat) : Dependency :=
  .ofRequest ⟨.ofNat n, .ofNat 2, .blocks, none⟩ ⟨.ofNat (7 + n), .epoch⟩

/-- Under that document, the second task is blocked by the first, which is completed, and by the
third, which is tested. -/
def flanked : Engine :=
  { ofRepository {
      tasks := .ofList [bare 1 .completed, bare 2 .pending, bare 3 .testing]
      edges := .ofList [barrier 1, barrier 3]
      supply := fun n => ⟨.ofNat (8 + n), .epoch⟩
      issued := 2 } with
    source := fun _ => .ok (some recasting) }

lemma wellFormed_flanked : flanked.repository.WellFormed := by
  have hedges : ∀ d ∈ flanked.repository.edges.toList, d = barrier 1 ∨ d = barrier 3 := by decide
  have harc : ∀ a b, flanked.repository.Blocks a b → a ≠ .ofNat 2 ∧ b = .ofNat 2 := by
    rintro a b ⟨d, hd, hpair⟩
    rcases hedges d hd with rfl | rfl
    all_goals
      cases hpair
      exact ⟨by decide, rfl⟩
  constructor
  · intro task hcycle
    obtain ⟨_, hfirst, -⟩ := Relation.TransGen.head'_iff.1 hcycle
    obtain ⟨_, -, hlast⟩ := Relation.TransGen.tail'_iff.1 hcycle
    exact (harc _ _ hfirst).1 (harc _ _ hlast).2
  · intro d hd
    rcases hedges d hd with rfl | rfl <;> decide
  · intro d hd x hx
    rcases hedges d hd with rfl | rfl <;> rcases hedges x hx with rfl | rfl <;> decide
  · intro d hd
    rcases hedges d hd with rfl | rfl <;> decide
  · intro d hd hrelation
    rcases hedges d hd with rfl | rfl <;> rfl
  · intro d hd role hrole
    rcases hedges d hd with rfl | rfl <;> cases hrole

/-- The second task is not told about the third, which is tested, though that is no terminal
status. -/
theorem released_iff_concludes_flanked : flanked.repository.InOrder ∧
    flanked.repository.WellFormed ∧ flanked.cache.Faithful flanked.source ∧
    flanked.source flanked.root = .ok (some recasting) ∧ recasting.spec .task .given = .ok recast ∧
    barrier 3 ∈ flanked.repository.edges.toList ∧
    (barrier 3).pair = some ((bare 3 .testing).id, .ofNat 2) ∧ (barrier 3).unblockAt = none ∧
    bare 3 .testing ∈ flanked.repository.tasks.toList ∧ flanked.repository.Stores (.ofNat 2) ∧
    Status.testing ∉ recast.terminal ∧
    ∃ items, (blockedBy (.ofNat 2) flanked).1 = .ok items ∧
      Ident.ofNat 3 ∉ items.map BlockingItem.id := by
  have hfaithful : flanked.cache.Faithful flanked.source :=
    Workflow.Cache.faithful_of_entries_eq_none fun _ => rfl
  have hread : recasting.spec .task .given = .ok recast := by decide
  have hd : barrier 3 ∈ flanked.repository.edges.toList := by decide
  have ht : bare 3 .testing ∈ flanked.repository.tasks.toList := by decide
  have hstored : flanked.repository.Stores (.ofNat 2) := by decide
  have hdone : recast.Concludes .testing := .inl (by decide)
  obtain ⟨-, -, -, items, hitems, -, hreported, -⟩ :=
    released_iff_concludes flanked recasting .given recast (barrier 3) (bare 3 .testing) (.ofNat 2)
      rfl hfaithful rfl hread hd rfl rfl ht hstored
  exact ⟨rfl, wellFormed_flanked, hfaithful, rfl, hread, hd, rfl, rfl, ht, hstored, by decide,
    items, hitems, fun h => hreported wellFormed_flanked h hdone⟩

/-- The first task has a terminal status, but the second is told about it and may not start. -/
theorem blockedBy_flanked : recasting.spec .task .given = .ok recast ∧
    flanked.source flanked.root = .ok (some recasting) ∧
    barrier 1 ∈ flanked.repository.edges.toList ∧
    (barrier 1).pair = some ((bare 1 .completed).id, .ofNat 2) ∧ (barrier 1).unblockAt = none ∧
    bare 1 .completed ∈ flanked.repository.tasks.toList ∧ Status.completed ∈ recast.terminal ∧
    flanked.repository.Unsatisfied (workflow .task flanked).1 (.ofNat 1) (barrier 1) ∧
    (blockedBy (.ofNat 2) flanked).1 =
      .ok [blockingTask (bare 1 .completed) (some .terminal)] ∧
    (shortfall .task (.ofNat 2) .inProgress flanked).1 ≠ .ok none := by
  refine ⟨by decide, rfl, by decide, rfl, rfl, by decide, by decide, ?_, by decide, by decide⟩
  unfold Repository.Unsatisfied
  decide

end Engine

end TaskFlow

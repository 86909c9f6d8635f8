import TaskFlow.Proofs.DryRuns
import TaskFlow.Proofs.Lists
import TaskFlow.Proofs.Reached

/-!
# Starting a task

What a task is told about its blockers and the check that is made before it is started are two ways
to one list. No task is on its own list, so a task that was started is not held back by anything
from then on.
-/

namespace TaskFlow

namespace Engine

lemma nodup_blockerRoles (edges : List Dependency) : ((blockerRoles edges).map Prod.fst).Nodup := by
  unfold blockerRoles
  refine List.pairwise_map.2 (List.pairwise_filterMap.2 ((nodup_eraseDups _).imp ?_))
  rintro a b hne x hx y hy
  obtain ⟨-, -, rfl⟩ := Option.map_eq_some_iff.1 hx
  obtain ⟨-, -, rfl⟩ := Option.map_eq_some_iff.1 hy
  exact hne

lemma id_of_mem_unresolved {w : Workflow.Spec} {tasks : List Task} {blocker : Ident} {role : Role}
    {item : BlockingItem} (h : item ∈ (do
      let t ← tasks.find? (·.id == blocker)
      if (w.roleOf t.status).satisfies role then none
      else some (blockingTask t (some role)) : Option BlockingItem)) : item.id = blocker := by
  obtain ⟨t, hfind, hopen⟩ := Option.bind_eq_some_iff.1 h
  split at hopen
  · cases hopen
  · cases hopen
    exact (Roster.find?_id_eq_some hfind).2

end Engine

lemma Workflow.Spec.Alike.openBlockers {w w' : Workflow.Spec} (h : w.Alike w') {r : Repository}
    {task : Ident} : r.openBlockers w' task = r.openBlockers w task := by
  rw [h.fields]
  rfl

namespace Repository

variable {r r' : Repository} {w : Workflow.Spec} {blocker task : Ident}

lemma nodup_openBlockers : ((r.openBlockers w task).map BlockingItem.id).Nodup := by
  have hroles := List.pairwise_map.1
    (Engine.nodup_blockerRoles (r.edges.select (·.holdsBack task)))
  refine List.pairwise_map.2 (List.pairwise_filterMap.2 (hroles.imp ?_))
  rintro ⟨a, _⟩ ⟨b, _⟩ hne x hx y hy
  rw [Engine.id_of_mem_unresolved hx, Engine.id_of_mem_unresolved hy]
  exact hne

lemma WellFormed.ne_of_isOldest (h : r.WellFormed) {d : Dependency}
    (hd : r.IsOldest blocker task d) : blocker ≠ task := by
  rintro rfl
  exact h.acyclic blocker (.single ⟨d, hd.1, hd.2.1⟩)

lemma WellFormed.not_mem_openBlockers (h : r.WellFormed) :
    task ∉ (r.openBlockers w task).map BlockingItem.id := by
  intro hmem
  obtain ⟨d, hd, -⟩ := mem_openBlockers_iff.1 hmem
  exact h.ne_of_isOldest hd rfl

lemma WellFormed.openBlockers_restates (h : r.WellFormed) {status : Status}
    (hrestates : r.Restates .task task status r') (hnone : r.openBlockers w task = []) :
    r'.openBlockers w task = [] := by
  by_contra hsome
  obtain ⟨item, hitem⟩ := List.exists_mem_of_ne_nil _ hsome
  obtain ⟨d, hd, t, ht, hid, hshort⟩ := mem_openBlockers_iff.1 (List.mem_map_of_mem hitem)
  have hold : r.IsOldest item.id task d := by
    unfold IsOldest at hd ⊢
    rwa [hrestates.edges] at hd
  rw [hrestates.tasks] at ht
  obtain ⟨t₀, ht₀, rfl⟩ := List.mem_map.1 ht
  have hsame : (if Kind.task = .task ∧ t₀.id = task then { t₀ with status } else t₀) = t₀ := by
    refine if_neg fun hown => h.ne_of_isOldest hold ?_
    rw [if_pos hown] at hid
    exact hid.symm.trans hown.2
  rw [hsame] at hid hshort
  have hmem : item.id ∈ (r.openBlockers w task).map BlockingItem.id :=
    mem_openBlockers_iff.2 ⟨d, hold, t₀, ht₀, hid, hshort⟩
  rw [hnone] at hmem
  cases hmem

lemma stores_iff_status? : r.Stores task ↔ ∃ old, r.status? .task task = some old := by
  change (∃ t ∈ r.tasks.toList, Recorded.id t = task) ↔ _
  rw [← Roster.isSome_get?_iff, Option.isSome_iff_exists]
  constructor
  · rintro ⟨t, ht⟩
    exact ⟨t.status, congrArg (Option.map Task.status) ht⟩
  · rintro ⟨old, hold⟩
    obtain ⟨t, ht, -⟩ := Option.map_eq_some_iff.1 hold
    exact ⟨t, ht⟩

end Repository

namespace Engine

variable {e : Engine} {task entity : Ident} {kind : Kind} {raw : String}

/-- One engine, under a root that it keeps. -/
def Rooted (root : String) (e e' : Engine) : Prop :=
  e' = e ∧ e.root = root

lemma lockCongruence_rooted (root : String) : LockCongruence Eq (Rooted root) where
  repository := by
    rintro e _ ⟨rfl, -⟩
    rfl
  prerequisites := by
    rintro e _ ⟨rfl, -⟩
    rfl
  alike := by
    rintro w _ rfl
    exact .refl w
  workflow := by
    rintro kind e _ ⟨rfl, he⟩
    exact ⟨rfl, rfl, he⟩
  locks := by
    rintro e _ ⟨rfl, -⟩
    exact ⟨rfl, rfl⟩
  locking := by
    rintro e _ ⟨rfl, -⟩
    rfl
  setLocks := by
    rintro e _ ⟨rfl, he⟩ locks
    exact ⟨rfl, he⟩
  setTickets := by
    rintro e _ ⟨rfl, he⟩ tickets
    exact ⟨rfl, he⟩

lemma root_changeStatus (e : Engine) (entity : Ident) (kind : Kind) (raw : String) :
    (changeStatus entity kind raw e).2.root = e.root := by
  have hR := lockCongruence_rooted e.root
  have hwrite (target : Status) :
      Carries (Rooted e.root) (·.updateStatus kind entity target) := by
    rintro e' _ ⟨rfl, he⟩ a r -
    exact ⟨rfl, he⟩
  exact (hR.changeStatus entity kind raw hwrite e e ⟨rfl, rfl⟩).2.2

lemma blockedBy_stored (horder : e.repository.InOrder) (hstored : e.repository.Stores task) :
    (blockedBy task e).1 = .ok (e.repository.openBlockers (workflow .task e).1 task) := by
  obtain ⟨e', hblockers⟩ := unresolvedBlockers_eq horder task
  unfold blockedBy
  rw [bind_ok (ask_ok (Repository.requireTask_of_stores horder hstored)), hblockers]

lemma readiness_checked {old target : Status} {found : Option Shortfall}
    (horder : e.repository.InOrder) (hdraws : e.Draws e.source)
    (hold : e.repository.status? kind entity = some old)
    (henabled : e.settings.prerequisites.enabled = true)
    (hrules : (workflow kind e).1.rules.validatePrerequisites = true)
    (hfound : (shortfall kind entity target e).1 = .ok found) :
    (readiness entity kind target e).1 = .ok (found.elim .satisfied .unmet) := by
  have halike : Alike e.source e (workflow kind e).2 :=
    ⟨hdraws, (hdraws.workflow kind).2, rfl, rfl, rfl⟩
  have hafter : (shortfall kind entity target (workflow kind e).2).1 = .ok found :=
    halike.shortfall_eq.trans hfound
  have hchecked : ¬ (!(workflow kind e).2.settings.prerequisites.enabled ||
      !(workflow kind e).1.rules.validatePrerequisites) = true := by
    change ¬ (!e.settings.prerequisites.enabled ||
      !(workflow kind e).1.rules.validatePrerequisites) = true
    simp [henabled, hrules]
  unfold readiness
  rw [bind_ok (requireStatus_stored horder hold), bind_ok (liftM_workflow kind e), get_bind,
    if_neg hchecked]
  rcases hshort : shortfall kind entity target (workflow kind e).2 with ⟨answer, e'⟩
  rw [hshort] at hafter
  cases hafter
  rw [bind_ok hshort]
  rcases found with _ | s
  · rfl
  · rfl

lemma shortfall_inProgress (horder : e.repository.InOrder) :
    (shortfall .task task .inProgress e).1 =
      .ok (blockerShortfall (e.repository.openBlockers (workflow .task e).1 task)) := by
  obtain ⟨e', hblockers⟩ := unresolvedBlockers_eq horder task
  have hguard : shortfall .task task .inProgress =
      (unresolvedBlockers task >>= fun items => pure (blockerShortfall items)) := rfl
  rw [hguard, bind_ok hblockers]
  rfl

lemma readiness_inProgress {old : Status} (horder : e.repository.InOrder)
    (hdraws : e.Draws e.source) (hold : e.repository.status? .task task = some old)
    (henabled : e.settings.prerequisites.enabled = true)
    (hrules : (workflow .task e).1.rules.validatePrerequisites = true) :
    (readiness task .task .inProgress e).1 =
      .ok (match blockerShortfall (e.repository.openBlockers (workflow .task e).1 task) with
        | none => .satisfied
        | some s => .unmet s) := by
  rw [readiness_checked horder hdraws hold henabled hrules (shortfall_inProgress horder)]
  rcases blockerShortfall (e.repository.openBlockers (workflow .task e).1 task) with _ | s
  · rfl
  · rfl

/-- A task that was started has nothing left that holds it back. -/
lemma Reached.blockedBy_started (h : Reached e) (hstored : e.repository.Stores task)
    (hparse : Status.parse raw = .ok .inProgress)
    (hready : (readiness task .task .inProgress e).1 = .ok .satisfied →
      e.repository.openBlockers (workflow .task e).1 task = [])
    {c : StatusChange} (hmade : (changeStatus task .task raw e).1 = .ok c) :
    (blockedBy task (changeStatus task .task raw e).2).1 = .ok [] := by
  have hafter : Reached (changeStatus task .task raw e).2 := h.act (.changeStatus task .task raw)
  obtain ⟨old, hold⟩ := Repository.stores_iff_status?.1 hstored
  have hfree : e.locks.isLocked task = false := by
    by_contra hheld
    rw [Bool.not_eq_false] at hheld
    have htimeout := (withLock_held hheld (applyStatus task .task .inProgress)).1
    rw [changeStatus_readable hparse, htimeout] at hmade
    cases hmade
  have hnone : e.repository.openBlockers (workflow .task e).1 task = [] := by
    apply hready
    rcases changeStatus_stored h.tidy.1 hfree hparse h.draws.faithful hold with
      ⟨cause, -, hfails⟩ | ⟨-, ⟨s, -, hfails⟩ | ⟨hsatisfied, -⟩⟩
    · rw [hfails] at hmade
      cases hmade
    · rw [hfails] at hmade
      cases hmade
    · exact hsatisfied
  rcases changeStatus_cases h.tidy.1 task .task raw with
    ⟨cause, hfails, -⟩ | ⟨old, target, -, -, -, -, hrestates⟩
  · rw [hfails] at hmade
    cases hmade
  have hstored' : (changeStatus task .task raw e).2.repository.Stores task := by
    refine Repository.stores_iff_status?.2 ⟨target, ?_⟩
    rw [hrestates.status? .task task, if_pos ⟨rfl, rfl⟩, hold]
    rfl
  have hdraws : (changeStatus task .task raw e).2.Draws e.source :=
    h.draws.perform (.changeStatus task .task raw)
  have hgives := (hdraws.workflow .task).1
  rw [root_changeStatus] at hgives
  rw [(hgives.alike (h.draws.workflow .task).1).openBlockers] at hnone
  rw [blockedBy_stored hafter.tidy.1 hstored', h.tidy.2.openBlockers_restates hrestates hnone]

/-- Where prerequisites are checked, a stored task is ready to be started just if it is told of no
blocker, and otherwise what it lacks is the very list that it is told, on which no blocker stands
twice and the task itself does not stand. A task that was started is told of no blocker. -/
theorem Reached.starting_agrees (h : Reached e) (hstored : e.repository.Stores task)
    (hparse : Status.parse raw = .ok .inProgress)
    (henabled : e.settings.prerequisites.enabled = true)
    (hrules : (workflow .task e).1.rules.validatePrerequisites = true) :
    let ready := (validatePrerequisites task .task raw e).1
    let started := changeStatus task .task raw e
    ∃ items, (blockedBy task e).1 = .ok items ∧
      (ready = .ok .satisfied ↔ items = []) ∧
      (items ≠ [] → ∃ s, ready = .ok (.unmet s) ∧
        s.requirement = .blockingDependencies ∧ s.items = items) ∧
      (items.map BlockingItem.id).Nodup ∧ task ∉ items.map BlockingItem.id ∧
      ((∃ c, started.1 = .ok c) → (blockedBy task started.2).1 = .ok []) := by
  intro ready started
  obtain ⟨old, hold⟩ := Repository.stores_iff_status?.1 hstored
  have hready := readiness_inProgress h.tidy.1 h.draws hold henabled hrules
  have hverdict : ready = (readiness task .task .inProgress e).1 :=
    congrArg Prod.fst (validatePrerequisites_readable hparse)
  have hsatisfied : (readiness task .task .inProgress e).1 = .ok .satisfied ↔
      e.repository.openBlockers (workflow .task e).1 task = [] := by
    rw [hready]
    unfold blockerShortfall
    rcases e.repository.openBlockers (workflow .task e).1 task with _ | ⟨item, items⟩
    · simp
    · simp
  refine ⟨_, blockedBy_stored h.tidy.1 hstored, hverdict ▸ hsatisfied, fun hsome => ?_,
    Repository.nodup_openBlockers, h.tidy.2.not_mem_openBlockers, ?_⟩
  · rw [hverdict, hready]
    unfold blockerShortfall
    rw [if_neg (by simpa using hsome)]
    exact ⟨_, rfl, rfl, rfl⟩
  · rintro ⟨c, hmade⟩
    exact h.blockedBy_started hstored hparse hsatisfied.1 hmade

/-- Two tasks, of which the first blocks the second until it is done. -/
def awaiting : Engine :=
  let edge := Dependency.ofRequest echo.request ⟨.ofNat 9, .epoch⟩
  { pair with repository := { pair.repository with edges := .ofList [edge], issued := 1 } }

lemma reached_awaiting : Reached awaiting := by
  have hopen : ¬ pair.repository.Closes echo.request := by
    rintro ⟨blocker, blocked, hpair, hback⟩
    cases hpair
    rcases hback.cases_head with heq | ⟨task, ⟨d, hd, -⟩, -⟩
    · exact absurd heq (by decide)
    · exact List.not_mem_nil hd
  have hnone : firstCause (pair.repository.objections echo.request) = none :=
    (Repository.firstCause_objections rfl (by decide) (by decide) (by decide)).trans
      (if_neg hopen)
  have hadd := Repository.addEdge_ok (r := pair.repository) rfl hnone
  have hreached : Reached (store (·.addEdge echo) pair).2 := reached_pair.act (.storeEdge echo)
  rw [store_ok hadd] at hreached
  exact hreached

theorem Reached.starting_agrees_awaiting :
    Reached awaiting ∧ awaiting.repository.Stores (.ofNat 2) ∧
    Status.parse "in-progress" = .ok .inProgress ∧
    awaiting.settings.prerequisites.enabled = true ∧
    (workflow .task awaiting).1.rules.validatePrerequisites = true ∧
    (∃ item, (blockedBy (.ofNat 2) awaiting).1 = .ok [item] ∧ item.id = .ofNat 1) ∧
    ∃ s, (validatePrerequisites (.ofNat 2) .task "in-progress" awaiting).1 = .ok (.unmet s) ∧
      s.requirement = .blockingDependencies ∧ s.items.map BlockingItem.id = [.ofNat 1] := by
  have hstored : awaiting.repository.Stores (.ofNat 2) := by decide
  have hparse : Status.parse "in-progress" = .ok .inProgress := rfl
  obtain ⟨items, hitems, -, hunmet, -⟩ :=
    reached_awaiting.starting_agrees hstored hparse rfl rfl
  have hitem : ∃ item, (blockedBy (.ofNat 2) awaiting).1 = .ok [item] ∧ item.id = .ofNat 1 :=
    ⟨_, rfl, rfl⟩
  refine ⟨reached_awaiting, hstored, hparse, rfl, rfl, hitem, ?_⟩
  obtain ⟨item, hone, hid⟩ := hitem
  obtain rfl : items = [item] := Except.ok.inj (hitems.symm.trans hone)
  obtain ⟨s, hs, hrequirement, hsame⟩ := hunmet (List.cons_ne_nil _ _)
  refine ⟨s, hs, hrequirement, ?_⟩
  rw [hsame, List.map_singleton, hid]

end Engine

end TaskFlow

import TaskFlow.Proofs.Runs

/-!
# Blockers

What a task is told about its blockers. Of several edges by which one task blocks another only the
oldest is asked for its role, so the report is the one that all edges give just if, for each
blocker, the others are satisfied when the oldest is.
-/

namespace TaskFlow

lemma Dependency.holdsBack_iff {d : Dependency} {task : Ident} :
    d.holdsBack task = true ↔ ∃ blocker, d.pair = some (blocker, task) := by
  unfold holdsBack
  split
  · rename_i blocker blocked hpair
    simp [hpair]
  · rename_i hpair
    simp [hpair]

/-- The blocker that an edge names, with the role that it asks for. -/
def Dependency.demand? (d : Dependency) : Option (Ident × Role) :=
  d.pair.map fun (blocker, _) => (blocker, d.requiredRole)

namespace Repository

/-- Of the stored edges by which `blocker` blocks `task` this one is listed first. -/
def IsOldest (r : Repository) (blocker task : Ident) (d : Dependency) : Prop :=
  d ∈ r.edges.toList ∧ d.pair = some (blocker, task) ∧
    ∀ x ∈ r.edges.toList, x.pair = some (blocker, task) → x = d ∨ Recorded.Precedes d x

/-- The blocker is stored and its status has not come to the role that the edge asks for. -/
def Unsatisfied (r : Repository) (w : Workflow.Spec) (blocker : Ident) (d : Dependency) : Prop :=
  ∃ t ∈ r.tasks.toList, t.id = blocker ∧ (w.roleOf t.status).satisfies d.requiredRole = false

/-- Some stored edge by which `blocker` blocks `task` is unsatisfied. -/
def HoldsBack (r : Repository) (w : Workflow.Spec) (blocker task : Ident) : Prop :=
  ∃ d ∈ r.edges.toList, d.pair = some (blocker, task) ∧ r.Unsatisfied w blocker d

/-- No blocker of the task has satisfied the oldest of its edges and another one not. -/
def OldestDecides (r : Repository) (w : Workflow.Spec) (task : Ident) : Prop :=
  ∀ blocker d, r.IsOldest blocker task d → r.HoldsBack w blocker task → r.Unsatisfied w blocker d

/-- The blockers that a task is told about. -/
def openBlockers (r : Repository) (w : Workflow.Spec) (task : Ident) : List BlockingItem :=
  let roles := Engine.blockerRoles (r.edges.select (·.holdsBack task))
  Engine.unresolved w ((roles.map Prod.fst).filterMap r.tasks.get?) roles

variable {r : Repository} {w : Workflow.Spec} {blocker task : Ident} {d : Dependency}

lemma IsOldest.unique {x : Dependency} (hd : r.IsOldest blocker task d)
    (hx : r.IsOldest blocker task x) : d = x := by
  rcases hd.2.2 x hx.1 hx.2.1 with heq | hdx
  · exact heq.symm
  · rcases hx.2.2 d hd.1 hd.2.1 with heq | hxd
    · exact heq
    · exact absurd hxd hdx.asymm

lemma exists_isOldest (hd : d ∈ r.edges.toList) (hpair : d.pair = some (blocker, task)) :
    ∃ x, r.IsOldest blocker task x :=
  exists_first_of_pairwise r.edges.ordered ⟨d, hd, hpair⟩

lemma lookup_demand_of_first {l : List Dependency} (hsorted : l.Pairwise Recorded.Precedes)
    (hpair : ∀ x ∈ l, ∃ b, x.pair = some (b, task)) (hd : d ∈ l)
    (hdpair : d.pair = some (blocker, task))
    (hfirst : ∀ x ∈ l, x.pair = some (blocker, task) → x = d ∨ Recorded.Precedes d x) :
    (l.filterMap Dependency.demand?).lookup blocker = some d.requiredRole := by
  induction l with
  | nil => cases hd
  | cons x rest ih =>
    obtain ⟨b, hx⟩ := hpair x List.mem_cons_self
    have hdemand : x.demand? = some (b, x.requiredRole) := by
      rw [Dependency.demand?, hx]
      rfl
    rw [List.filterMap_cons_some hdemand]
    by_cases hb : blocker = b
    · subst hb
      have heq : x = d := by
        rcases List.mem_cons.1 hd with heq | hd
        · exact heq.symm
        · refine (hfirst x List.mem_cons_self hx).resolve_right fun hdx => ?_
          exact hdx.asymm (List.rel_of_pairwise_cons hsorted hd)
      rw [List.lookup_cons_self, heq]
    · have hne : d ≠ x := by
        rintro rfl
        rw [hdpair] at hx
        cases hx
        exact hb rfl
      rw [List.lookup_cons, beq_false_of_ne hb]
      apply ih hsorted.of_cons
      · intro y hy
        exact hpair y (List.mem_cons_of_mem _ hy)
      · exact (List.mem_cons.1 hd).resolve_left hne
      · intro y hy
        exact hfirst y (List.mem_cons_of_mem _ hy)

lemma mem_select_holdsBack_iff :
    d ∈ r.edges.select (·.holdsBack task) ↔ d ∈ r.edges.toList ∧ ∃ b, d.pair = some (b, task) := by
  rw [Roster.mem_select, Dependency.holdsBack_iff]

lemma IsOldest.lookup_demand (h : r.IsOldest blocker task d) :
    ((r.edges.select (·.holdsBack task)).filterMap Dependency.demand?).lookup blocker =
      some d.requiredRole := by
  obtain ⟨hd, hpair, hfirst⟩ := h
  apply lookup_demand_of_first (r.edges.ordered.filter (·.holdsBack task))
  · intro x hx
    exact (mem_select_holdsBack_iff.1 hx).2
  · exact mem_select_holdsBack_iff.2 ⟨hd, blocker, hpair⟩
  · exact hpair
  · intro x hx
    exact hfirst x (mem_select_holdsBack_iff.1 hx).1

/-- Each blocker is listed with the role that its oldest edge asks for. -/
lemma mem_blockerRoles_iff {role : Role} :
    (blocker, role) ∈ Engine.blockerRoles (r.edges.select (·.holdsBack task)) ↔
      ∃ d, r.IsOldest blocker task d ∧ d.requiredRole = role := by
  let demands := (r.edges.select (·.holdsBack task)).filterMap Dependency.demand?
  change _ ∈ (demands.map Prod.fst).eraseDups.filterMap
    (fun b => (demands.lookup b).map fun role => (b, role)) ↔ _
  simp only [List.mem_filterMap, Option.map_eq_some_iff, List.mem_eraseDups, Prod.mk.injEq]
  constructor
  · rintro ⟨b, hb, role', hrole, rfl, rfl⟩
    obtain ⟨⟨b', role''⟩, hdemand, rfl⟩ := List.mem_map.1 hb
    obtain ⟨x, hx, hxdemand⟩ := List.mem_filterMap.1 hdemand
    obtain ⟨⟨_, _⟩, hpair, hfirst⟩ := Option.map_eq_some_iff.1 hxdemand
    cases hfirst
    obtain ⟨hx, b, hpair'⟩ := mem_select_holdsBack_iff.1 hx
    rw [hpair] at hpair'
    cases hpair'
    obtain ⟨d, hd⟩ := exists_isOldest hx hpair
    have hlookup := hd.lookup_demand.symm.trans hrole
    exact ⟨d, hd, Option.some.inj hlookup⟩
  · rintro ⟨d, hd, rfl⟩
    have hlookup := hd.lookup_demand
    obtain ⟨before, after, hsplit, -⟩ := List.lookup_eq_some_iff.1 hlookup
    refine ⟨blocker, ?_, d.requiredRole, hlookup, rfl, rfl⟩
    exact List.mem_map.2 ⟨(blocker, d.requiredRole), by simp [demands, hsplit], rfl⟩

/-- A task is told about the stored blockers that have not satisfied their oldest edge. -/
theorem mem_openBlockers_iff :
    blocker ∈ (r.openBlockers w task).map BlockingItem.id ↔
      ∃ d, r.IsOldest blocker task d ∧ r.Unsatisfied w blocker d := by
  let roles := Engine.blockerRoles (r.edges.select (·.holdsBack task))
  have hfound : ∀ {b role}, (b, role) ∈ roles →
      ((roles.map Prod.fst).filterMap r.tasks.get?).find? (·.id == b) = r.tasks.get? b :=
    fun hb => Roster.find?_filterMap_get? (List.mem_map.2 ⟨_, hb, rfl⟩)
  rw [List.mem_map]
  constructor
  · rintro ⟨item, hitem, rfl⟩
    obtain ⟨⟨b, role⟩, hrole, hopen⟩ := List.mem_filterMap.1 hitem
    obtain ⟨t, hget, hopen⟩ := Option.bind_eq_some_iff.1 hopen
    rw [hfound hrole] at hget
    split at hopen
    · cases hopen
    · rename_i hshort
      cases hopen
      obtain ⟨ht, rfl⟩ := Roster.get?_eq_some_iff.1 hget
      obtain ⟨d, hd, rfl⟩ := mem_blockerRoles_iff.1 hrole
      exact ⟨d, hd, t, ht, rfl, Bool.eq_false_iff.2 hshort⟩
  · rintro ⟨d, hd, t, ht, rfl, hshort⟩
    have hrole : (t.id, d.requiredRole) ∈ roles := mem_blockerRoles_iff.2 ⟨d, hd, rfl⟩
    refine ⟨Engine.blockingTask t (some d.requiredRole), List.mem_filterMap.2 ⟨_, hrole, ?_⟩, rfl⟩
    refine Option.bind_eq_some_iff.2 ⟨t, ?_, ?_⟩
    · rw [hfound hrole]
      exact Roster.get?_eq_some_iff.2 ⟨ht, rfl⟩
    · rw [hshort]
      rfl

lemma openBlockers_iff_oldestDecides :
    (∀ blocker, blocker ∈ (r.openBlockers w task).map BlockingItem.id ↔
      r.HoldsBack w blocker task) ↔ r.OldestDecides w task := by
  constructor
  · intro hreport blocker d hd hholds
    obtain ⟨x, hx, hshort⟩ := mem_openBlockers_iff.1 ((hreport blocker).2 hholds)
    rwa [hd.unique hx]
  · intro hdecides blocker
    rw [mem_openBlockers_iff]
    constructor
    · rintro ⟨d, hd, hshort⟩
      exact ⟨d, hd.1, hd.2.1, hshort⟩
    · intro hholds
      obtain ⟨x, hx, hpair, -⟩ := id hholds
      obtain ⟨d, hd⟩ := exists_isOldest hx hpair
      exact ⟨d, hd, hdecides blocker d hd hholds⟩

lemma blockersOf_eq (h : r.InOrder) (task : Ident) :
    r.blockersOf task = .ok (r.edges.select (·.holdsBack task)) := by
  have hheld : (r.edges.select (·.touches task)).filter (·.holdsBack task) =
      r.edges.select (·.holdsBack task) := by
    apply filter_select_touches
    intro d hd
    obtain ⟨blocker, hpair⟩ := Dependency.holdsBack_iff.1 hd
    exact (Dependency.touches_of_pair hpair).2
  unfold blockersOf
  rw [findByTask_eq h, ← hheld]
  rfl

end Repository

namespace Engine

lemma unresolvedBlockers_eq {e : Engine} (h : e.repository.InOrder) (task : Ident) :
    ∃ e', unresolvedBlockers task e =
      (.ok (e.repository.openBlockers (workflow .task e).1 task), e') := by
  unfold unresolvedBlockers
  rw [bind_ok (ask_ok (Repository.blockersOf_eq h task))]
  unfold Repository.openBlockers
  split
  · rename_i hempty
    rw [List.isEmpty_iff.1 hempty]
    exact ⟨e, rfl⟩
  · dsimp only
    rw [bind_ok (liftM_workflow .task e), bind_ok (ask_ok (Repository.getTasks_eq h _))]
    exact ⟨_, rfl⟩

lemma blockerShortfall_eq_none_iff {items : List BlockingItem} :
    blockerShortfall items = none ↔ ∀ blocker, blocker ∉ items.map BlockingItem.id := by
  unfold blockerShortfall
  cases items with
  | nil => simp
  | cons item items =>
    simp only [List.isEmpty_cons, Bool.false_eq_true, if_false, reduceCtorEq, false_iff]
    intro hnone
    exact hnone item.id List.mem_cons_self

/-- What a stored task is told about its blockers, and the guard of its start, rest on the oldest
edge from each. This is what all its edges say exactly if the oldest ones decide. -/
theorem blockedBy_iff (e : Engine) (task : Ident) (horder : e.repository.InOrder)
    (hstored : e.repository.Stores task) :
    ∃ items, (blockedBy task e).1 = .ok items ∧
      (shortfall .task task .inProgress e).1 = .ok (blockerShortfall items) ∧
      (∀ blocker, blocker ∈ items.map BlockingItem.id ↔ ∃ d,
        e.repository.IsOldest blocker task d ∧
          e.repository.Unsatisfied (workflow .task e).1 blocker d) ∧
      ((∀ blocker, blocker ∈ items.map BlockingItem.id ↔
          e.repository.HoldsBack (workflow .task e).1 blocker task) ↔
        e.repository.OldestDecides (workflow .task e).1 task) ∧
      (e.repository.OldestDecides (workflow .task e).1 task →
        (blockerShortfall items = none ↔
          ∀ blocker, ¬ e.repository.HoldsBack (workflow .task e).1 blocker task)) := by
  obtain ⟨e', hblockers⟩ := unresolvedBlockers_eq horder task
  refine ⟨_, ?_, ?_, fun _ => Repository.mem_openBlockers_iff,
    Repository.openBlockers_iff_oldestDecides, fun hdecides => ?_⟩
  · have hrequire : e.repository.requireTask task = .ok () := by
      rw [Repository.requireTask_eq horder, verdict_cons_of_neg (not_not.2 hstored), verdict_nil]
    unfold blockedBy
    rw [bind_ok (ask_ok hrequire), hblockers]
  · have hguard : shortfall .task task .inProgress =
        (unresolvedBlockers task >>= fun items => pure (blockerShortfall items)) := rfl
    rw [hguard, bind_ok hblockers]
    rfl
  · have hreport := Repository.openBlockers_iff_oldestDecides.2 hdecides
    rw [blockerShortfall_eq_none_iff]
    exact forall_congr' fun blocker => not_congr (hreport blocker)

theorem blockedBy_joined : joined.repository.InOrder ∧ joined.repository.Stores (.ofNat 2) ∧
    ∃ items, (blockedBy (.ofNat 2) joined).1 = .ok items ∧
      ∀ blocker, blocker ∈ items.map BlockingItem.id ↔
        joined.repository.HoldsBack (workflow .task joined).1 blocker (.ofNat 2) := by
  have hstored : joined.repository.Stores (.ofNat 2) := by decide
  have hdecides : joined.repository.OldestDecides (workflow .task joined).1 (.ofNat 2) := by
    rintro blocker d hd ⟨x, hx, -, hshort⟩
    rw [List.mem_singleton.1 hx] at hshort
    rw [List.mem_singleton.1 hd.1]
    exact hshort
  obtain ⟨items, hitems, -, -, hreport, -⟩ := blockedBy_iff joined (.ofNat 2) rfl hstored
  exact ⟨rfl, hstored, items, hitems, hreport.2 hdecides⟩

/-- The second of two tasks is asked to be blocked by the first until that is done. -/
def echo : Order :=
  { request := ⟨.ofNat 2, .ofNat 1, .isBlockedBy, none⟩ }

/-- Two tasks, of which the first blocks the second until it is worked on and, said from the other
end, until it is done. -/
def echoed : Engine :=
  let edge := Dependency.ofRequest joining.request ⟨.ofNat 9, .epoch⟩
  let younger := Dependency.ofRequest echo.request ⟨.ofNat 10, .epoch⟩
  { pair with repository := { pair.repository with edges := .ofList [edge, younger], issued := 2 } }

lemma objections_echo : firstCause (joined.repository.objections echo.request) = none := by
  have hopen : ¬ joined.repository.Closes echo.request := by
    rintro ⟨blocker, blocked, hpair, hback⟩
    cases hpair
    rcases hback.cases_head with heq | ⟨task, ⟨d, hd, hstep⟩, -⟩
    · exact absurd heq (by decide)
    · rw [List.mem_singleton.1 hd] at hstep
      have hends : Ident.ofNat 1 = .ofNat 2 := congrArg Prod.fst (Option.some.inj hstep)
      exact absurd hends (by decide)
  exact (Repository.firstCause_objections rfl (by decide) (by decide) (by decide)).trans
    (if_neg hopen)

lemma run_echoed : Run pair echoed := by
  have hadd := Repository.addEdge_ok (r := joined.repository) rfl objections_echo
  have hrun : Run pair (store (·.addEdge echo) joined).2 := .act run_joined (.storeEdge echo)
  rw [store_ok hadd] at hrun
  exact hrun

/-- The first task is not done, but the second is not told about it and may start. -/
theorem blockedBy_echoed : Run pair echoed ∧ (blockedBy (.ofNat 2) echoed).1 = .ok [] ∧
    (shortfall .task (.ofNat 2) .inProgress echoed).1 = .ok none ∧
    echoed.repository.Stores (.ofNat 2) ∧
    echoed.repository.HoldsBack (workflow .task echoed).1 (.ofNat 1) (.ofNat 2) := by
  refine ⟨run_echoed, rfl, rfl, by decide, ?_⟩
  unfold Repository.HoldsBack Repository.Unsatisfied
  decide

end Engine

end TaskFlow

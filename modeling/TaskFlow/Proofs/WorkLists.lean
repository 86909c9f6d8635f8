import TaskFlow.Proofs.Mirror

/-!
# Work lists

A walk through the stored edges keeps a list of the tasks that it has still to leave. In each round
it leaves the first of them and meets the tasks beyond it. The rounds come to an end, whatever edges
are stored, and by then every task that can be reached was left just once. So there are three ways
to find out whether one task holds back another, and they agree.
-/

open Relation (ReflTransGen)

namespace TaskFlow

/-- A walk that is under way: the tasks met so far, those of them that it has still to leave, those
that it left, and the edges fetched by then. -/
structure WorkList where
  seen : List Ident
  queue : List Ident
  visited : List Ident := []
  fetched : List Dependency := []

namespace WorkList

variable {r : Repository} {c : Course} {start : Ident} {w w' w'' last : WorkList}

/-- The work list of a walk that is about to leave its start. -/
def starting (start : Ident) : WorkList where
  seen := [start]
  queue := [start]

/-- One round of a walk: the first task of the queue is left by the edges that are fetched for it,
and the tasks at their far ends that are new are met. -/
inductive Round (r : Repository) (c : Course) : WorkList → WorkList → Prop
  | leave {seen queue visited fresh : List Ident} {fetched found : List Dependency} {task : Ident}
      (hfound : r.edgesFrom c task = .ok found) (hfresh : Repository.ahead c seen found = fresh) :
      Round r c ⟨seen, task :: queue, visited, fetched⟩
        ⟨seen ++ fresh, queue ++ fresh, visited ++ [task], fetched ++ found⟩

/-- A walk gets from one work list to another in any number of rounds. -/
abbrev Leads (r : Repository) (c : Course) : WorkList → WorkList → Prop :=
  ReflTransGen (Round r c)

lemma Round.unique (h : Round r c w w') (h' : Round r c w w'') : w' = w'' := by
  cases h with
  | leave hfound hfresh =>
    cases h' with
    | leave hfound' hfresh' =>
      cases hfound.symm.trans hfound'
      rw [← hfresh, ← hfresh']

lemma Round.queue_ne_nil (h : Round r c w w') : w.queue ≠ [] := by
  cases h with
  | leave => exact List.cons_ne_nil _ _

lemma Leads.to_last (hlast : Leads r c w last) (hqueue : last.queue = []) (h : Leads r c w w') :
    Leads r c w' last := by
  have hunique : Relator.RightUnique (Round r c) := fun _ _ _ h h' => h.unique h'
  rcases ReflTransGen.total_of_right_unique hunique hlast h with hmore | hback
  · rcases hmore.cases_head with rfl | ⟨next, hround, -⟩
    · exact .refl
    · exact absurd hqueue hround.queue_ne_nil
  · exact hback

lemma walk_cons {seen queue : List Ident} {task : Ident} {found : List Dependency}
    (hfound : r.edgesFrom c task = .ok found) :
    r.walk c seen (task :: queue) = (r.walk c (seen ++ Repository.ahead c seen found)
      (queue ++ Repository.ahead c seen found)).map (found ++ ·) := by
  rw [Repository.walk]
  split
  · rename_i herror
    cases hfound.symm.trans herror
  · rename_i hfound'
    cases hfound.symm.trans hfound'
    split
    · rename_i hnone
      rw [hnone, List.append_nil, List.append_nil]
    · rename_i hahead
      rw [hahead]

/-- The rounds come to an end, with the edges fetched by now and those that the walk still gives. -/
def Finishes (r : Repository) (c : Course) (w : WorkList) : Prop :=
  ∃ last, Leads r c w last ∧ last.queue = [] ∧
    (r.walk c w.seen w.queue).map (w.fetched ++ ·) = .ok last.fetched

lemma Finishes.head (hround : Round r c w w') (h : Finishes r c w') : Finishes r c w := by
  obtain ⟨last, hleads, hqueue, hwalk⟩ := h
  refine ⟨last, hleads.head hround, hqueue, ?_⟩
  cases hround with
  | leave hfound hfresh =>
    rw [← hwalk, walk_cons hfound, hfresh]
    cases r.walk c _ _ with
    | error e => rfl
    | ok more => simp [Except.map]

/-- The rounds come to an end whatever edges are stored, since each of them either meets a task or
shortens the queue. -/
lemma finishes (h : r.InOrder) (c : Course) (seen queue visited : List Ident)
    (fetched : List Dependency) : Finishes r c ⟨seen, queue, visited, fetched⟩ := by
  fun_induction Repository.walk r c seen queue generalizing visited fetched with
  | case1 seen => exact ⟨_, .refl, rfl, by simp [Repository.walk, Except.map]⟩
  | case2 seen task queue e herror =>
    rw [Repository.edgesFrom_eq h] at herror
    cases herror
  | case3 seen task queue found hfound hnone ih =>
    refine (ih (visited ++ [task]) (fetched ++ found)).head ?_
    simpa using Round.leave hfound hnone
  | case4 seen task queue found hfound first rest hahead ih =>
    exact (ih (visited ++ [task]) (fetched ++ found)).head (.leave hfound hahead)

/-- The accounts of a walk: every task met is one that can be reached, and either was left or waits
in the queue, each once; beyond the tasks that were left all is met and fetched. -/
structure Accounted (r : Repository) (c : Course) (start : Ident) (w : WorkList) : Prop where
  nodup : w.seen.Nodup
  perm : w.seen.Perm (w.visited ++ w.queue)
  start_mem : start ∈ w.seen
  reached : ∀ x ∈ w.seen, ReflTransGen (r.graph.Step c) start x
  closed : ∀ x ∈ w.visited, ∀ y, r.graph.Step c x y → y ∈ w.seen
  fetched_eq : w.fetched = w.visited.flatMap (r.leaving c)

lemma accounted_starting (r : Repository) (c : Course) (start : Ident) :
    Accounted r c start (starting start) where
  nodup := List.nodup_singleton start
  perm := .refl _
  start_mem := List.mem_singleton_self start
  reached := by
    intro x hx
    rw [List.mem_singleton.1 hx]
  closed := by simp [starting]
  fetched_eq := rfl

lemma mem_ahead_leaving {seen : List Ident} {task x : Ident} :
    x ∈ Repository.ahead c seen (r.leaving c task) ↔ r.graph.Step c task x ∧ x ∉ seen := by
  unfold Repository.graph
  rw [Repository.mem_ahead, Graph.step_ofEdges_iff]
  simp [Repository.leaving, and_assoc]

lemma nodup_ahead {seen : List Ident} {edges : List Dependency} :
    (Repository.ahead c seen edges).Nodup :=
  (nodup_eraseDups _).filter _

lemma Accounted.round (h : r.InOrder) (hw : Accounted r c start w) (hround : Round r c w w') :
    Accounted r c start w' := by
  cases hround with
  | @leave seen queue visited fresh fetched found task hfound hfresh =>
    rw [Repository.edgesFrom_eq h] at hfound
    cases hfound
    have hmem : ∀ x, x ∈ fresh ↔ r.graph.Step c task x ∧ x ∉ seen := by
      intro x
      rw [← hfresh, mem_ahead_leaving]
    have hnew : fresh.Nodup := hfresh ▸ nodup_ahead
    obtain ⟨hnodup, hperm, hstart, hreached, hclosed, hfetched⟩ := hw
    dsimp only at hnodup hperm hstart hreached hclosed hfetched
    have htask : task ∈ seen := hperm.mem_iff.2 (by simp)
    refine ⟨?_, ?_, List.mem_append_left _ hstart, ?_, ?_, ?_⟩
    · exact hnodup.append hnew fun x hx hfresh => ((hmem x).1 hfresh).2 hx
    · simpa using hperm.append_right fresh
    · intro x hx
      rcases List.mem_append.1 hx with hx | hx
      · exact hreached x hx
      · exact (hreached task htask).tail ((hmem x).1 hx).1
    · intro x hx y hstep
      rw [List.mem_append]
      rcases List.mem_append.1 hx with hx | hx
      · exact .inl (hclosed x hx y hstep)
      · rw [List.mem_singleton.1 hx] at hstep
        by_cases hy : y ∈ seen
        · exact .inl hy
        · exact .inr ((hmem y).2 ⟨hstep, hy⟩)
    · rw [hfetched, List.flatMap_append, List.flatMap_singleton]

lemma Accounted.leads (h : r.InOrder) (hw : Accounted r c start w) (hleads : Leads r c w w') :
    Accounted r c start w' := by
  induction hleads with
  | refl => exact hw
  | tail _ hround ih => exact ih.round h hround

lemma Accounted.mem_visited_iff (hw : Accounted r c start w) (hqueue : w.queue = []) {x : Ident} :
    x ∈ w.visited ↔ ReflTransGen (r.graph.Step c) start x := by
  have hperm : w.seen.Perm w.visited := by
    have hperm := hw.perm
    rwa [hqueue, List.append_nil] at hperm
  constructor
  · intro hx
    exact hw.reached x (hperm.mem_iff.2 hx)
  · intro hx
    induction hx with
    | refl => exact hperm.mem_iff.1 hw.start_mem
    | tail _ hstep ih => exact hperm.mem_iff.1 (hw.closed _ ih _ hstep)

lemma Accounted.nodup_visited (hw : Accounted r c start w) : w.visited.Nodup :=
  (List.nodup_append'.1 (hw.perm.nodup_iff.1 hw.nodup)).1

lemma Accounted.mem_fetched_iff (hw : Accounted r c start w) {d : Dependency} :
    d ∈ w.fetched ↔ d ∈ r.edges.toList ∧ ∃ task ∈ w.visited, d.near? c = some task := by
  rw [hw.fetched_eq, List.mem_flatMap]
  constructor
  · rintro ⟨task, htask, hd⟩
    obtain ⟨hd, hnear⟩ := List.mem_filter.1 hd
    exact ⟨hd, task, htask, eq_of_beq hnear⟩
  · rintro ⟨hd, task, htask, hnear⟩
    exact ⟨task, htask, List.mem_filter.2 ⟨hd, beq_iff_eq.2 hnear⟩⟩

lemma Accounted.nodup_fetched (hw : Accounted r c start w) : w.fetched.Nodup := by
  rw [hw.fetched_eq, List.nodup_flatMap]
  constructor
  · intro task _
    have hedges : r.edges.toList.Nodup := by
      refine r.edges.distinct.imp fun hne heq => hne ?_
      rw [heq]
    exact hedges.filter _
  · refine hw.nodup_visited.imp fun hne d hd hd' => hne ?_
    have hnear := eq_of_beq (List.mem_filter.1 hd).2
    have hnear' := eq_of_beq (List.mem_filter.1 hd').2
    exact Option.some.inj (hnear.symm.trans hnear')

lemma Accounted.nodup_ids (hw : Accounted r c start w) :
    (w.fetched.map Dependency.id).Nodup := by
  refine hw.nodup_fetched.map_on fun d hd e he hid => ?_
  exact Roster.eq_of_id_eq (hw.mem_fetched_iff.1 hd).1 (hw.mem_fetched_iff.1 he).1 hid

/-- A walk from `start` is at its end, where every walk from there gets to. It left each task that
can be reached once, and what it fetched are the stored edges that leave one of them, each once. -/
structure Complete (r : Repository) (c : Course) (start : Ident) (last : WorkList) : Prop where
  queue_eq : last.queue = []
  ends : ∀ w, Leads r c (starting start) w → Leads r c w last
  nodup_visited : last.visited.Nodup
  mem_visited : ∀ x, x ∈ last.visited ↔ ReflTransGen (r.graph.Step c) start x
  blockingEdges_eq : r.blockingEdges c start = .ok last.fetched
  nodup_ids : (last.fetched.map Dependency.id).Nodup
  mem_fetched : ∀ d, d ∈ last.fetched ↔ d ∈ r.edges.toList ∧
    ∃ task, d.near? c = some task ∧ ReflTransGen (r.graph.Step c) start task

lemma exists_complete (h : r.InOrder) (c : Course) (start : Ident) :
    ∃ last, Complete r c start last := by
  obtain ⟨last, hleads, hqueue, hwalk⟩ := finishes h c [start] [start] [] []
  have hlast := (accounted_starting r c start).leads h hleads
  have hfetched : r.blockingEdges c start = .ok last.fetched := by
    rw [← hwalk, Repository.blockingEdges]
    cases r.walk c [start] [start] with
    | error e => rfl
    | ok fetched => rfl
  refine ⟨last, hqueue, fun w hw => hleads.to_last hqueue hw, hlast.nodup_visited,
    fun x => hlast.mem_visited_iff hqueue, hfetched, hlast.nodup_ids, fun d => ?_⟩
  rw [hlast.mem_fetched_iff]
  refine and_congr_right fun _ => exists_congr fun task => ?_
  rw [hlast.mem_visited_iff hqueue, and_comm]

end WorkList

namespace Repository

variable {r : Repository}

lemma step_perm {edges : List Dependency} (h : edges.Perm r.edges.toList) :
    (Graph.ofEdges edges).Step .forward = r.Blocks := by
  funext a b
  refine propext (Graph.step_ofEdges.trans ?_)
  simp only [h.mem_iff, Blocks]

/-- The walk through the stored edges comes to an end, whatever edges are stored: it leaves each
task that can be reached once, and fetches the edges that leave them, each once. Whether one task
holds back another is found out alike by a search through all edges, by a search through those that
the walk fetches, and by a look at the report on what the one task blocks. -/
theorem walk_complete (r : Repository) (h : r.InOrder) (start : Ident) :
    (∀ c, ∃ last, WorkList.Complete r c start last) ∧
      (∀ goal, r.leads start goal = .ok (r.graph.reaches start goal)) ∧
      ∃ fetched, r.blockingEdges .forward start = .ok fetched ∧
        ∀ (edges all : List Dependency) (goal : Ident),
          edges.Perm fetched → all.Perm r.edges.toList →
          ((Graph.ofEdges all).reaches start goal = true ↔ ReflTransGen r.Blocks start goal) ∧
          ((Graph.ofEdges edges).reaches start goal = true ↔ ReflTransGen r.Blocks start goal) ∧
          (goal ∈ ((Graph.ofEdges all).analyze .forward start).chain ↔
            ReflTransGen r.Blocks start goal) := by
  have hall {all : List Dependency} (hperm : all.Perm r.edges.toList) (goal : Ident) :
      (Graph.ofEdges all).reaches start goal = true ↔ ReflTransGen r.Blocks start goal := by
    rw [Graph.reaches_iff, step_perm hperm]
  refine ⟨fun c => WorkList.exists_complete h c start, fun goal => ?_, ?_⟩
  · obtain ⟨found, hfound, hleads⟩ := leads_eq h start goal
    rw [hfound, Bool.eq_iff_iff.2 (hleads.trans (hall (.refl _) goal).symm)]
    rfl
  · obtain ⟨fetched, hfetched, hreport⟩ := analyze_fetched h .forward start
    refine ⟨fetched, hfetched, fun edges all goal hedges hperm => ?_⟩
    have hchain : goal ∈ ((Graph.ofEdges all).analyze .forward start).chain ↔
        ReflTransGen r.Blocks start goal := by
      rw [Graph.chain_analyze, Graph.mem_chain_iff, step_perm hperm]
    refine ⟨hall hperm goal, ?_, hchain⟩
    -- The report does not notice the edges that were not fetched, so its chain is the same.
    rw [← hchain, ← hreport edges all hedges hperm, Graph.chain_analyze, Graph.mem_chain_iff,
      Graph.reaches_iff]

/-- Round the ring the second task holds back the third, which is left once. -/
theorem walk_complete_ringed : ringed.InOrder ∧
    ringed.leads ⟨2, by decide⟩ ⟨3, by decide⟩ = .ok true ∧
    ∃ last, WorkList.Complete ringed .forward ⟨2, by decide⟩ last ∧
      last.visited.count ⟨3, by decide⟩ = 1 := by
  have hcomplete := walk_complete ringed rfl ⟨2, by decide⟩
  obtain ⟨hends, hleads, fetched, hfetched, hagree⟩ := hcomplete
  have hpath : ReflTransGen ringed.Blocks ⟨2, by decide⟩ ⟨3, by decide⟩ := by
    have hblocks : ∀ p ∈ [((⟨2, by decide⟩ : Ident), (⟨4, by decide⟩ : Ident)),
        (⟨4, by decide⟩, ⟨1, by decide⟩), (⟨1, by decide⟩, ⟨3, by decide⟩)],
        ∃ d ∈ ringed.edges.toList, d.pair = some p := by decide
    have hfirst := hblocks (⟨2, by decide⟩, ⟨4, by decide⟩) (by decide)
    have hsecond := hblocks (⟨4, by decide⟩, ⟨1, by decide⟩) (by decide)
    have hthird := hblocks (⟨1, by decide⟩, ⟨3, by decide⟩) (by decide)
    exact ((ReflTransGen.single hfirst).tail hsecond).tail hthird
  have hfound := (hagree fetched ringed.edges.toList _ (.refl _) (.refl _)).1.2 hpath
  obtain ⟨last, hlast⟩ := hends .forward
  refine ⟨rfl, (hleads _).trans (congrArg Except.ok hfound), last, hlast, ?_⟩
  refine List.count_eq_one_of_mem hlast.nodup_visited ((hlast.mem_visited _).2 ?_)
  have hstep : ringed.graph.Step .forward = ringed.Blocks := step_perm (.refl _)
  rwa [hstep]

end Repository

end TaskFlow

import TaskFlow.Proofs.CriticalPath
import TaskFlow.Proofs.Distances
import Mathlib.Data.Set.Card

/-!
# Branches and groups

Beside the chain a report lists the tasks at which the walk branches, and the distances at which
several tasks lie that no arc joins. Such tasks do not hold each other back themselves. Where the
arcs take a detour by tasks at other distances one of them may still have to wait for another.
-/

open Relation (ReflTransGen TransGen)

namespace TaskFlow

namespace Bottleneck

lemma comesFirst_iff {a b : Bottleneck} : comesFirst a b = true ↔
    b.fanOut < a.fanOut ∨ a.fanOut = b.fanOut ∧ a.task ≤ b.task := by
  simp [comesFirst]

end Bottleneck

namespace Graph

/-- Two or more tasks lie `n` arcs from the start, and no arc leads from one of these tasks to one
of them. -/
def FormGroup (g : Graph) (c : Course) (start : Ident) (n : Nat) : Prop :=
  (∃ a b, a ≠ b ∧ g.Distance c start a n ∧ g.Distance c start b n) ∧
    ∀ a b, g.Distance c start a n → g.Distance c start b n → ¬ g.Step .forward a b

variable {g : Graph} {c : Course} {start a b : Ident} {n : Nat} {tasks : List Ident}

lemma length_next (g : Graph) (c : Course) (task : Ident) :
    (g.next c task).length = {other | g.Step c task other}.ncard := by
  have hset : {other | g.Step c task other} = ↑(g.next c task).toFinset := by
    ext other
    rw [Finset.mem_coe, List.mem_toFinset, mem_next_iff_step]
    rfl
  rw [hset, Set.ncard_coe_finset, List.toFinset_card_of_nodup nodup_next]

lemma mem_bottlenecks {b : Bottleneck} : b ∈ g.bottlenecks c tasks ↔
    b.task ∈ tasks ∧ 2 ≤ b.fanOut ∧ b = ⟨b.task, (g.next c b.task).length, none⟩ := by
  simp only [bottlenecks, List.mem_mergeSort, List.mem_filter, List.mem_map, decide_eq_true_eq]
  constructor
  · rintro ⟨⟨task, htask, rfl⟩, hwide⟩
    exact ⟨htask, hwide, rfl⟩
  · rintro ⟨htask, hwide, heq⟩
    exact ⟨⟨b.task, htask, heq.symm⟩, hwide⟩

lemma nodup_bottlenecks (h : tasks.Nodup) :
    ((g.bottlenecks c tasks).map Bottleneck.task).Nodup := by
  let branches := tasks.map fun task => ({ task, fanOut := (g.next c task).length } : Bottleneck)
  have hperm : (g.bottlenecks c tasks).Perm (branches.filter fun b => 2 ≤ b.fanOut) :=
    List.mergeSort_perm ..
  have hbranches : branches.map Bottleneck.task = tasks := by
    simp [branches, Function.comp_def]
  have hsub := (List.filter_sublist (p := fun b => 2 ≤ b.fanOut) (l := branches)).map
    Bottleneck.task
  rw [hbranches] at hsub
  exact (hperm.map Bottleneck.task).nodup_iff.2 (h.sublist hsub)

lemma pairwise_bottlenecks (h : tasks.Nodup) : (g.bottlenecks c tasks).Pairwise fun a b =>
    b.fanOut < a.fanOut ∨ a.fanOut = b.fanOut ∧ a.task < b.task := by
  have hrank : ∀ a b : Bottleneck, a.comesFirst b = true ↔
      -(a.fanOut : Int) < -b.fanOut ∨ -(a.fanOut : Int) = -b.fanOut ∧ a.task ≤ b.task := by
    intro a b
    rw [Bottleneck.comesFirst_iff]
    exact or_congr (by omega) (and_congr_left fun _ => by omega)
  have hsorted : (g.bottlenecks c tasks).Pairwise fun a b => a.comesFirst b = true :=
    pairwise_mergeSort_of_rank hrank _
  refine (hsorted.and (List.pairwise_map.1 (nodup_bottlenecks h))).imp ?_
  rintro a b ⟨hab, hne⟩
  refine (Bottleneck.comesFirst_iff.1 hab).imp_right fun ⟨hwide, hle⟩ => ⟨hwide, ?_⟩
  exact Nat.lt_of_le_of_ne hle fun heq => hne (Ident.ext heq)

lemma independent_iff : g.independent tasks = true ↔
    ∀ a ∈ tasks, ∀ b ∈ tasks, ¬ g.Step .forward a b := by
  simp only [independent, List.all_eq_true, decide_eq_true_eq, mem_next_iff_step]
  exact forall₂_congr fun a _ => forall_congr' fun b => imp_not_comm

lemma pairwise_parallelGroups (layers : List (List Ident)) :
    (g.parallelGroups layers).Pairwise fun p q => p.depth < q.depth := by
  have hindices : layers.zipIdx.Pairwise fun p q => p.2 < q.2 := by
    rw [← List.pairwise_map (f := Prod.snd) (R := (· < ·)), List.zipIdx_map_snd]
    exact List.pairwise_lt_range'
  exact List.pairwise_map.2 (hindices.filter _)

lemma two_le_length_iff (h : tasks.Nodup) :
    2 ≤ tasks.length ↔ ∃ a ∈ tasks, ∃ b ∈ tasks, a ≠ b := by
  rcases tasks with _ | ⟨a, _ | ⟨b, rest⟩⟩
  · simp
  · simp
  · have hne : a ≠ b := fun heq => (List.nodup_cons.1 h).1 (heq ▸ List.mem_cons_self)
    simp [hne]

lemma exists_parallelGroups_iff :
    (∃ p ∈ g.parallelGroups (g.layers c start), p.depth = n) ↔ g.FormGroup c start n := by
  have hmem : ∀ x, x ∈ (g.layers c start)[n]?.getD [] ↔ g.Distance c start x n :=
    fun x => mem_layer_iff
  have hnodup : ((g.layers c start)[n]?.getD []).Nodup := nodup_chain.sublist layer_sublist_chain
  have hgroup : 2 ≤ ((g.layers c start)[n]?.getD []).length ∧
      g.independent ((g.layers c start)[n]?.getD []) = true ↔ g.FormGroup c start n := by
    rw [two_le_length_iff hnodup, independent_iff, FormGroup]
    simp only [hmem]
    constructor
    · rintro ⟨⟨a, ha, b, hb, hne⟩, hfree⟩
      exact ⟨⟨a, b, hne, ha, hb⟩, fun a b ha hb => hfree a ha b hb⟩
    · rintro ⟨⟨a, b, hne, ha, hb⟩, hfree⟩
      exact ⟨⟨a, ha, b, hb, hne⟩, fun a ha b hb => hfree a b ha hb⟩
  rw [← hgroup]
  constructor
  · rintro ⟨p, hp, rfl⟩
    obtain ⟨hlayer, hmany, hfree⟩ := mem_parallelGroups.1 hp
    rw [hlayer, Option.getD_some]
    exact ⟨hmany, hfree⟩
  · rintro ⟨hmany, hfree⟩
    rcases hlayer : (g.layers c start)[n]? with _ | layer
    · rw [hlayer] at hmany
      exact absurd hmany (by simp)
    · rw [hlayer, Option.getD_some] at hmany hfree
      exact ⟨⟨n, layer⟩, mem_parallelGroups.2 ⟨hlayer, hmany, hfree⟩, rfl⟩

/-- On any graph a report lists as bottlenecks just the tasks in reach that lead to two or more
others, each once and with their number, the widest first and then by task, and all that they lead
to is in the chain. It lists one group for each distance at which the tasks form one, the nearest
first, with all tasks at this distance as they stand in the chain. -/
theorem analyze_branches_and_groups (edges : List Dependency) (c : Course) (start : Ident) :
    let g := ofEdges edges
    let report := g.analyze c start
    (∀ b, b ∈ report.bottlenecks ↔ ReflTransGen (g.Step c) start b.task ∧
        2 ≤ {other | g.Step c b.task other}.ncard ∧
        b = ⟨b.task, {other | g.Step c b.task other}.ncard, none⟩) ∧
      (report.bottlenecks.map Bottleneck.task).Nodup ∧
      (report.bottlenecks.Pairwise fun a b =>
        b.fanOut < a.fanOut ∨ a.fanOut = b.fanOut ∧ a.task < b.task) ∧
      (∀ b ∈ report.bottlenecks, ∀ other, g.Step c b.task other → other ∈ report.chain) ∧
      (∀ n, (∃ p ∈ report.parallel, p.depth = n) ↔ g.FormGroup c start n) ∧
      (report.parallel.Pairwise fun p q => p.depth < q.depth) ∧
      ∀ p ∈ report.parallel, p.tasks.Sublist report.chain ∧
        ∀ x, x ∈ p.tasks ↔ g.Distance c start x p.depth := by
  intro g report
  have hreport : report = g.survey c start := analyze_eq_survey g c start
  have hbranch : ∀ b, b ∈ report.bottlenecks ↔ ReflTransGen (g.Step c) start b.task ∧
      2 ≤ b.fanOut ∧ b = ⟨b.task, {other | g.Step c b.task other}.ncard, none⟩ := by
    intro b
    rw [hreport, survey, mem_bottlenecks, mem_chain_iff, length_next]
  have hchain : report.chain = g.chain c start := congrArg GraphReport.chain hreport
  refine ⟨fun b => ?_, ?_, ?_, fun b hb other hstep => ?_, fun n => ?_, ?_, fun p hp => ?_⟩
  · refine (hbranch b).trans (and_congr_right fun _ => and_congr_left fun heq => ?_)
    rw [heq]
  · rw [hreport]
    exact nodup_bottlenecks nodup_chain
  · rw [hreport]
    exact pairwise_bottlenecks nodup_chain
  · rw [hchain, mem_chain_iff]
    exact ((hbranch b).1 hb).1.tail hstep
  · rw [hreport]
    exact exists_parallelGroups_iff
  · rw [hreport]
    exact pairwise_parallelGroups _
  · rw [hreport] at hp ⊢
    exact tasks_of_mem_parallelGroups hp

section Detours

variable {p : ParallelGroup}

lemma reach_of_between {x : Ident} (ha : ReflTransGen (g.Step c) start a)
    (hb : ReflTransGen (g.Step c) start b) (hax : g.Step .forward a x)
    (hxb : ReflTransGen (g.Step .forward) x b) : ReflTransGen (g.Step c) start x := by
  cases c with
  | forward => exact ha.tail hax
  | backward =>
    rw [step_backward] at hb ⊢
    exact hb.trans (Relation.reflTransGen_swap.2 hxb)

lemma not_step_of_mem_group (h : p ∈ g.parallelGroups (g.layers c start)) (ha : a ∈ p.tasks)
    (hb : b ∈ p.tasks) : ¬ g.Step .forward a b :=
  independent_iff.1 (mem_parallelGroups.1 h).2.2 a ha b hb

/-- The first arc from one member towards another leaves the group. -/
lemma exists_between_of_mem_group (h : p ∈ g.parallelGroups (g.layers c start))
    (ha : a ∈ p.tasks) (hb : b ∈ p.tasks) (hreach : TransGen (g.Step .forward) a b) :
    ∃ x n, g.Distance c start x n ∧ n ≠ p.depth ∧
      TransGen (g.Step .forward) a x ∧ TransGen (g.Step .forward) x b := by
  have hmem := (tasks_of_mem_parallelGroups h).2
  obtain ⟨x, hax, hxb⟩ := TransGen.head'_iff.1 hreach
  have hout : x ∉ p.tasks := fun hx => not_step_of_mem_group h ha hx hax
  have hstart := reach_of_between (exists_distance_iff.1 ⟨_, (hmem a).1 ha⟩)
    (exists_distance_iff.1 ⟨_, (hmem b).1 hb⟩) hax hxb
  obtain ⟨n, hn⟩ := exists_distance_iff.2 hstart
  refine ⟨x, n, hn, fun heq => hout ((hmem x).2 (heq ▸ hn)), .single hax, ?_⟩
  refine (Relation.reflTransGen_iff_eq_or_transGen.1 hxb).resolve_left ?_
  rintro rfl
  exact hout hb

/-- No arc leads from a member of a group to another. One is held back by another over several arcs
just if a task at another distance lies between them, and no member is that by another as long as no
walk from the start gets to it over more arcs than its distance. -/
theorem analyze_group_reaches_iff (edges : List Dependency) (c : Course) (start : Ident) :
    let g := ofEdges edges
    ∀ p ∈ (g.analyze c start).parallel, ∀ a ∈ p.tasks, ∀ b ∈ p.tasks,
      ¬ g.Step .forward a b ∧
      (TransGen (g.Step .forward) a b ↔ ∃ x n, g.Distance c start x n ∧ n ≠ p.depth ∧
        TransGen (g.Step .forward) a x ∧ TransGen (g.Step .forward) x b) ∧
      ((∀ n, g.Walk c start n b → n ≤ p.depth) → ¬ TransGen (g.Step c) a b) := by
  intro g p hp a ha b hb
  rw [analyze_eq_survey] at hp
  refine ⟨not_step_of_mem_group hp ha hb, ⟨exists_between_of_mem_group hp ha hb, ?_⟩, ?_⟩
  · rintro ⟨x, n, -, -, hax, hxb⟩
    exact hax.trans hxb
  · intro hshort hreach
    have hdist := ((tasks_of_mem_parallelGroups hp).2 a).1 ha
    obtain ⟨m, hlong, walk⟩ := hdist.1.exists_longer hreach
    exact absurd (hshort m walk) (Nat.not_le.2 hlong)

/-- The first task blocks the second and the fourth, and the second blocks the fourth over the
third. -/
def bypassed : List Dependency :=
  let task (n : Fin 5) : Ident := ⟨n.val, Nat.lt_trans n.isLt (by decide)⟩
  let edge (n source target : Fin 5) (relation : Relation) : Dependency :=
    { id := task n, source := task source, target := task target, relation, unblockAt := none
      createdAt := .epoch }
  [edge 1 1 2 .blocks, edge 2 1 4 .blocks, edge 3 3 2 .isBlockedBy, edge 4 3 4 .blocks]

lemma layers_bypassed : (ofEdges bypassed).layers .forward ⟨1, by decide⟩ =
    [[⟨1, by decide⟩], [⟨2, by decide⟩, ⟨4, by decide⟩], [⟨3, by decide⟩]] := by
  have hsecond : (ofEdges bypassed).beyond .forward [⟨1, by decide⟩] [⟨1, by decide⟩] =
      [⟨2, by decide⟩, ⟨4, by decide⟩] := by cbv
  have hthird : (ofEdges bypassed).beyond .forward
      ([⟨1, by decide⟩] ++ [⟨2, by decide⟩, ⟨4, by decide⟩]) [⟨2, by decide⟩, ⟨4, by decide⟩] =
        [⟨3, by decide⟩] := by cbv
  have hend : (ofEdges bypassed).beyond .forward
      ([⟨1, by decide⟩] ++ [⟨2, by decide⟩, ⟨4, by decide⟩] ++ [⟨3, by decide⟩])
        [⟨3, by decide⟩] = [] := by cbv
  rw [layers, layersFrom_of_beyond_cons hsecond, layersFrom_of_beyond_cons hthird,
    layersFrom_of_beyond_nil hend]

lemma group_bypassed : ⟨1, [⟨2, by decide⟩, ⟨4, by decide⟩]⟩ ∈
    ((ofEdges bypassed).analyze .forward ⟨1, by decide⟩).parallel := by
  rw [analyze_eq_survey, survey, layers_bypassed, mem_parallelGroups]
  exact ⟨rfl, le_rfl, by cbv⟩

lemma transGen_bypassed :
    TransGen ((ofEdges bypassed).Step .forward) ⟨2, by decide⟩ ⟨4, by decide⟩ := by
  have hsecond : (ofEdges bypassed).Step .forward ⟨2, by decide⟩ ⟨3, by decide⟩ := by
    unfold Step
    decide
  have hthird : (ofEdges bypassed).Step .forward ⟨3, by decide⟩ ⟨4, by decide⟩ := by
    unfold Step
    decide
  exact .tail (.single hsecond) hthird

theorem analyze_group_reaches_bypassed :
    ⟨1, [⟨2, by decide⟩, ⟨4, by decide⟩]⟩ ∈
        ((ofEdges bypassed).analyze .forward ⟨1, by decide⟩).parallel ∧
      ∃ x n, (ofEdges bypassed).Distance .forward ⟨1, by decide⟩ x n ∧ n ≠ 1 ∧
        TransGen ((ofEdges bypassed).Step .forward) ⟨2, by decide⟩ x ∧
        TransGen ((ofEdges bypassed).Step .forward) x ⟨4, by decide⟩ := by
  have hreaches := analyze_group_reaches_iff bypassed .forward ⟨1, by decide⟩ _ group_bypassed
    ⟨2, by decide⟩ (by decide) ⟨4, by decide⟩ (by decide)
  exact ⟨group_bypassed, hreaches.2.1.1 transGen_bypassed⟩

/-- No arcs go round, and yet one task of a group holds back another. -/
theorem reaches_within_group_bypassed : (ofEdges bypassed).Acyclic ∧
    ∃ p ∈ ((ofEdges bypassed).analyze .forward ⟨1, by decide⟩).parallel,
      ∃ a ∈ p.tasks, ∃ b ∈ p.tasks, a ≠ b ∧ TransGen ((ofEdges bypassed).Step .forward) a b :=
  ⟨acyclic_of_forall_lt (by decide), _, group_bypassed, ⟨2, by decide⟩, by decide,
    ⟨4, by decide⟩, by decide, by decide, transGen_bypassed⟩

end Detours

end Graph

end TaskFlow

import TaskFlow.Repository.Query
import TaskFlow.Proofs.CriticalPath
import TaskFlow.Proofs.Lists
import TaskFlow.Proofs.StoredEdges
import TaskFlow.Status

/-!
# Reports on a part of the graph

A report looks at the tasks that a walk can reach and at the arcs between them, and at nothing
else. The walk through the stored edges fetches all of these arcs, so the report on what it
fetches is the report on all stored edges, in whatever order they come.
-/

open Relation (ReflTransGen)

namespace TaskFlow

namespace Graph

/-- Walks through the two graphs lead on alike out of the tasks of `S`, and stay among them. -/
structure LeadAlike (g g' : Graph) (c c' : Course) (S : Ident → Prop) : Prop where
  next : ∀ task, S task → g.next c task = g'.next c' task
  closed : ∀ task, S task → ∀ other ∈ g.next c task, S other

/-- No arc leads out of the tasks of `S`, and out of these the graphs lead on alike. -/
structure AgreeOn (g g' : Graph) (c : Course) (S : Ident → Prop) : Prop where
  next : ∀ task, S task → g.next c task = g'.next c task
  closed : ∀ task, S task → ∀ other ∈ g.next c task, S other

variable {g g' : Graph} {c c' : Course} {S : Ident → Prop} {task start : Ident}

lemma AgreeOn.leadAlike (h : AgreeOn g g' c S) : LeadAlike g g' c c S :=
  ⟨h.next, h.closed⟩

lemma nodup_next : (g.next c task).Nodup := by
  refine (g.pairwise_next c task).imp ?_
  rintro a b hled rfl
  exact hled.irrefl

lemma next_eq_of_oldestTo (h : ∀ other t,
    OldestTo c (g.arcsFrom c task) other t ↔ OldestTo c (g'.arcsFrom c task) other t) :
    g.next c task = g'.next c task := by
  have hmem : ∀ other, other ∈ g.next c task ↔ other ∈ g'.next c task := by
    intro other
    simp only [mem_next_iff_oldestTo, h]
  have hperm := (List.perm_ext_iff_of_nodup nodup_next nodup_next).2 hmem
  have hsorted : (g'.next c task).Pairwise (LedToFirst c (g.arcsFrom c task)) := by
    refine (g'.pairwise_next c task).imp ?_
    rintro a b ⟨s, t, hs, ht, hst⟩
    exact ⟨s, t, (h a s).2 hs, (h b t).2 ht, hst⟩
  exact hperm.eq_of_pairwise (fun a b _ _ hab hba => absurd hba hab.asymm)
    (g.pairwise_next c task) hsorted

lemma next_congr (h : ∀ x, x ∈ g.arcsFrom c task ↔ x ∈ g'.arcsFrom c task) :
    g.next c task = g'.next c task :=
  next_eq_of_oldestTo fun _ _ =>
    ⟨OldestTo.congr fun x _ => h x, OldestTo.congr fun x _ => (h x).symm⟩

lemma LeadAlike.beyond_eq (h : LeadAlike g g' c c' S) {layer : List Ident}
    (hlayer : ∀ x ∈ layer, S x) (seen : List Ident) :
    g.beyond c seen layer = g'.beyond c' seen layer := by
  have hnext : layer.flatMap (g.next c) = layer.flatMap (g'.next c') :=
    List.flatMap_congr fun x hx => h.next x (hlayer x hx)
  rw [beyond, beyond, hnext]

lemma LeadAlike.mem_of_mem_beyond (h : LeadAlike g g' c c' S) {seen layer : List Ident}
    (hlayer : ∀ x ∈ layer, S x) : ∀ x ∈ g.beyond c seen layer, S x := by
  intro x hx
  obtain ⟨⟨near, hnear, hstep⟩, -⟩ := mem_beyond.1 hx
  exact h.closed near (hlayer near hnear) x hstep

lemma layersFrom_of_beyond_nil {seen layer : List Ident} (h : g.beyond c seen layer = []) :
    g.layersFrom c seen layer = [layer] := by
  rw [layersFrom]
  split
  · rfl
  · rename_i hmore
    rw [h] at hmore
    cases hmore

lemma layersFrom_of_beyond_cons {seen layer more : List Ident} {first : Ident}
    (h : g.beyond c seen layer = first :: more) : g.layersFrom c seen layer =
      layer :: g.layersFrom c (seen ++ first :: more) (first :: more) := by
  rw [layersFrom]
  split
  · rename_i hnone
    rw [h] at hnone
    cases hnone
  · rename_i hmore
    rw [h] at hmore
    cases hmore
    rfl

lemma LeadAlike.layersFrom_eq (h : LeadAlike g g' c c' S) (seen layer : List Ident)
    (hlayer : ∀ x ∈ layer, S x) :
    g.layersFrom c seen layer = g'.layersFrom c' seen layer ∧
      ∀ l ∈ g.layersFrom c seen layer, ∀ x ∈ l, S x := by
  fun_induction layersFrom g c seen layer with
  | case1 seen layer hnone =>
    rw [h.beyond_eq hlayer] at hnone
    rw [layersFrom_of_beyond_nil hnone]
    exact ⟨rfl, by simpa using hlayer⟩
  | case2 seen layer first more hfresh ih =>
    have hmore : ∀ x ∈ first :: more, S x := by
      rw [← hfresh]
      exact h.mem_of_mem_beyond hlayer
    obtain ⟨hrest, hmem⟩ := ih hmore
    rw [h.beyond_eq hlayer] at hfresh
    rw [layersFrom_of_beyond_cons hfresh, hrest]
    rw [hrest] at hmem
    exact ⟨rfl, List.forall_mem_cons.2 ⟨hlayer, hmem⟩⟩

lemma LeadAlike.bottlenecks_eq (h : LeadAlike g g' c c' S) {tasks : List Ident}
    (htasks : ∀ x ∈ tasks, S x) : g.bottlenecks c tasks = g'.bottlenecks c' tasks := by
  have hmap : (tasks.map fun task => ({ task, fanOut := (g.next c task).length } : Bottleneck)) =
      tasks.map fun task => { task, fanOut := (g'.next c' task).length } :=
    List.map_congr_left fun x hx => by rw [h.next x (htasks x hx)]
  rw [bottlenecks, bottlenecks, hmap]

lemma AgreeOn.mem_next_forward_iff (h : AgreeOn g g' c S) {a b : Ident} (ha : S a) (hb : S b) :
    b ∈ g.next .forward a ↔ b ∈ g'.next .forward a := by
  cases c with
  | forward => rw [h.next a ha]
  | backward =>
    rw [mem_next_iff_step, mem_next_iff_step, ← step_swap, ← step_swap, ← mem_next_iff_step,
      ← mem_next_iff_step, h.next b hb]

lemma AgreeOn.independent_eq (h : AgreeOn g g' c S) {tasks : List Ident}
    (htasks : ∀ x ∈ tasks, S x) : g.independent tasks = g'.independent tasks := by
  rw [Bool.eq_iff_iff]
  simp only [independent, List.all_eq_true, decide_eq_true_eq]
  refine forall₂_congr fun a ha => ⟨fun hfree b hb hmem => ?_, fun hfree b hb hmem => ?_⟩
  · exact hfree b ((h.mem_next_forward_iff (htasks a ha) (htasks b hmem)).2 hb) hmem
  · exact hfree b ((h.mem_next_forward_iff (htasks a ha) (htasks b hmem)).1 hb) hmem

lemma parallelGroups_congr {layers : List (List Ident)}
    (h : ∀ l ∈ layers, g.independent l = g'.independent l) :
    g.parallelGroups layers = g'.parallelGroups layers := by
  unfold parallelGroups
  refine congrArg (List.map _) (List.filter_congr ?_)
  rintro ⟨tasks, depth⟩ hmem
  dsimp only
  rw [h tasks (List.fst_mem_of_mem_zipIdx hmem)]

/-- The legs lead to tasks of `S` only. -/
def Legs.LeadInto (S : Ident → Prop) (legs : Legs) : Prop :=
  ∀ task leg, legs.lookup task = some leg → ∀ x, leg.next = some x → S x

lemma Legs.LeadInto.cons {legs : Legs} {leg : Leg} (h : legs.LeadInto S)
    (hleg : ∀ x, leg.next = some x → S x) : Legs.LeadInto S ((task, leg) :: legs) := by
  intro other oleg hlookup
  rcases Legs.lookup_cons_cases hlookup with ⟨rfl, rfl⟩ | hlookup
  · exact hleg
  · exact h other oleg hlookup

/-- The same tasks of `S` may be entered. -/
structure SameFree (S : Ident → Prop) (free free' : List Ident) : Prop where
  nodup : free.Nodup
  nodup' : free'.Nodup
  mem_iff : ∀ x, S x → (x ∈ free ↔ x ∈ free')

lemma SameFree.erase {free free' : List Ident} (h : SameFree S free free') (task : Ident) :
    SameFree S (free.erase task) (free'.erase task) where
  nodup := h.nodup.erase task
  nodup' := h.nodup'.erase task
  mem_iff := by
    intro x hx
    rw [h.nodup.mem_erase_iff, h.nodup'.mem_erase_iff, h.mem_iff x hx]

lemma longestVia_congr {free free' : List Ident} (hfree : SameFree S free free')
    (hfind : ∀ x ∈ free, S x → ∀ legs : Legs, legs.LeadInto S →
      g.longest c (free.erase x) x legs = g'.longest c' (free'.erase x) x legs ∧
        (g.longest c (free.erase x) x legs).2.LeadInto S)
    (nexts : List Ident) : ∀ (best : Leg) (legs : Legs), (∀ x ∈ nexts, S x) →
      (∀ x, best.next = some x → S x) → legs.LeadInto S →
      g.longestVia c free nexts best legs = g'.longestVia c' free' nexts best legs ∧
        (∀ x, (g.longestVia c free nexts best legs).1.next = some x → S x) ∧
        (g.longestVia c free nexts best legs).2.LeadInto S := by
  induction nexts with
  | nil =>
    intro best legs _ hbest hlegs
    rw [longestVia, longestVia]
    exact ⟨rfl, hbest, hlegs⟩
  | cons task nexts ih =>
    intro best legs hnexts hbest hlegs
    have htask := hnexts task List.mem_cons_self
    have hrest : ∀ x ∈ nexts, S x := fun x hx => hnexts x (List.mem_cons_of_mem _ hx)
    rw [longestVia, longestVia]
    by_cases hmem : task ∈ free
    · obtain ⟨hsame, hlead⟩ := hfind task hmem htask legs hlegs
      rw [dif_pos hmem, dif_pos ((hfree.mem_iff task htask).1 hmem), ← hsame]
      rcases hres : g.longest c (free.erase task) task legs with ⟨hops, legs'⟩
      rw [hres] at hlead
      refine ih _ legs' hrest (fun x hx => ?_) hlead
      split at hx
      · cases hx
        exact htask
      · exact hbest x hx
    · rw [dif_neg hmem, dif_neg fun hmem' => hmem ((hfree.mem_iff task htask).2 hmem')]
      exact ih best legs hrest hbest hlegs

theorem LeadAlike.longest_eq (h : LeadAlike g g' c c' S) (free : List Ident) :
    ∀ (free' : List Ident) (task : Ident) (legs : Legs), SameFree S free free' → S task →
      legs.LeadInto S → g.longest c free task legs = g'.longest c' free' task legs ∧
        (g.longest c free task legs).2.LeadInto S := by
  induction free using erase_induction with
  | step free ih =>
    intro free' task legs hfree htask hlegs
    rw [longest, longest]
    split
    · exact ⟨rfl, hlegs⟩
    · have hfind : ∀ x ∈ free, S x → ∀ legs : Legs, legs.LeadInto S →
          g.longest c (free.erase x) x legs = g'.longest c' (free'.erase x) x legs ∧
            (g.longest c (free.erase x) x legs).2.LeadInto S :=
        fun x hmem hx legs hlegs => ih x hmem _ x legs (hfree.erase x) hx hlegs
      obtain ⟨hsame, hbest, hlead⟩ := longestVia_congr hfree hfind (g.next c task) ⟨0, none⟩ legs
        (h.closed task htask) (by simp) hlegs
      rw [← h.next task htask, ← hsame]
      exact ⟨rfl, hlead.cons hbest⟩

lemma follow_of_mem {legs : Legs} {free : List Ident} {next : Ident}
    (hnext : (legs.lookup task).bind Leg.next = some next) (hmem : next ∈ free) :
    follow legs free task = next :: follow legs (free.erase next) next := by
  rw [follow]
  split
  · rename_i hnone
    rw [hnext] at hnone
    cases hnone
  · rename_i hagain
    rw [hnext] at hagain
    cases hagain
    rw [dif_pos hmem]

lemma follow_of_not_mem {legs : Legs} {free : List Ident}
    (h : ∀ next, (legs.lookup task).bind Leg.next = some next → next ∉ free) :
    follow legs free task = [] := by
  rw [follow]
  split
  · rfl
  · rename_i next hnext
    rw [dif_neg (h next hnext)]

lemma follow_congr {legs : Legs} (hlegs : legs.LeadInto S) (free : List Ident) (task : Ident) :
    ∀ free', SameFree S free free' → follow legs free task = follow legs free' task := by
  have hlead : ∀ task next, (legs.lookup task).bind Leg.next = some next → S next := by
    intro task next hnext
    obtain ⟨leg, hlookup, hleg⟩ := Option.bind_eq_some_iff.1 hnext
    exact hlegs task leg hlookup next hleg
  fun_induction follow legs free task with
  | case1 free task hnone =>
    intro free' _
    rw [follow_of_not_mem (by simp [hnone])]
  | case2 free task next hnext hmem ih =>
    intro free' hfree
    have hmem' := (hfree.mem_iff next (hlead task next hnext)).1 hmem
    rw [ih _ (hfree.erase next), follow_of_mem hnext hmem']
  | case3 free task next hnext hmem =>
    intro free' hfree
    refine (follow_of_not_mem fun next' hnext' hmem' => hmem ?_).symm
    rw [hnext] at hnext'
    cases hnext'
    exact (hfree.mem_iff next (hlead task next hnext)).2 hmem'

lemma nodup_nodes : g.nodes.Nodup :=
  nodup_eraseDups _

/-- The report on a walk from `start`, put together in full also when no arc leaves it. -/
def survey (g : Graph) (c : Course) (start : Ident) : GraphReport where
  chain := g.chain c start
  depth := (g.criticalPath c start).1
  criticalPath := (g.criticalPath c start).2
  bottlenecks := g.bottlenecks c (g.chain c start)
  parallel := g.parallelGroups (g.layers c start)

lemma layers_of_next_nil (h : g.next c start = []) : g.layers c start = [[start]] :=
  layersFrom_of_beyond_nil (by simp [beyond, h])

lemma criticalPath_of_next_nil (h : g.next c start = []) :
    g.criticalPath c start = (0, [start]) := by
  have hlongest : g.longest c (g.nodes.erase start) start [] = (0, [(start, ⟨0, none⟩)]) := by
    rw [longest, h, longestVia]
    rfl
  have hfollow : follow [(start, ⟨0, none⟩)] (g.nodes.erase start) start = [] :=
    follow_of_not_mem (by simp)
  rw [criticalPath, hlongest]
  dsimp only
  rw [hfollow]

lemma analyze_eq_survey (g : Graph) (c : Course) (start : Ident) :
    g.analyze c start = g.survey c start := by
  unfold analyze
  split
  · rename_i hempty
    have hnone := List.isEmpty_iff.1 hempty
    simp [survey, chain, layers_of_next_nil hnone, criticalPath_of_next_nil hnone, bottlenecks,
      parallelGroups, hnone, GraphReport.single]
  · rfl

lemma LeadAlike.criticalPath_eq (h : LeadAlike g g' c c' S) (hstart : S start)
    (hfree : SameFree S (g.nodes.erase start) (g'.nodes.erase start)) :
    g.criticalPath c start = g'.criticalPath c' start := by
  have hempty : Legs.LeadInto S [] := by simp [Legs.LeadInto]
  obtain ⟨hsame, hlead⟩ := h.longest_eq _ _ start [] hfree hstart hempty
  simp only [criticalPath]
  rw [← hsame]
  rcases hres : g.longest c (g.nodes.erase start) start [] with ⟨depth, legs⟩
  rw [hres] at hlead
  rw [follow_congr hlead _ start _ hfree]

lemma LeadAlike.layers_eq (h : LeadAlike g g' c c' S) (hstart : S start) :
    g.layers c start = g'.layers c' start ∧ ∀ l ∈ g.layers c start, ∀ x ∈ l, S x :=
  h.layersFrom_eq [start] [start] (by simpa using hstart)

/-- Walks that lead on alike are reported alike, when the same tasks are there to be entered and
the same tasks are independent. -/
lemma LeadAlike.analyze_eq (h : LeadAlike g g' c c' S) (hstart : S start)
    (hfree : SameFree S (g.nodes.erase start) (g'.nodes.erase start))
    (hindependent : ∀ tasks, (∀ x ∈ tasks, S x) → g.independent tasks = g'.independent tasks) :
    g.analyze c start = g'.analyze c' start := by
  obtain ⟨hlayers, hmem⟩ := h.layers_eq hstart
  have hchain : ∀ x ∈ (g.layers c start).flatten, S x := by
    intro x hx
    obtain ⟨l, hl, hxl⟩ := List.mem_flatten.1 hx
    exact hmem l hl x hxl
  have hparallel : g.parallelGroups (g.layers c start) = g'.parallelGroups (g.layers c start) :=
    parallelGroups_congr fun l hl => hindependent l (hmem l hl)
  rw [analyze_eq_survey, analyze_eq_survey]
  unfold survey chain
  rw [← h.criticalPath_eq hstart hfree, ← hlayers, h.bottlenecks_eq hchain, hparallel]

/-- Whatever a walk from `start` can reach, the graphs lead on alike from there. -/
abbrev AgreeFrom (g g' : Graph) (c : Course) (start : Ident) : Prop :=
  AgreeOn g g' c (ReflTransGen (g.Step c) start)

lemma agreeFrom_of_arcsFrom (h : ∀ task, ReflTransGen (g.Step c) start task →
    ∀ x, x ∈ g.arcsFrom c task ↔ x ∈ g'.arcsFrom c task) : AgreeFrom g g' c start where
  next := fun task htask => next_congr (h task htask)
  closed := fun _ htask _ hother => htask.tail (mem_next_iff_step.1 hother)

lemma AgreeFrom.sameFree (h : AgreeFrom g g' c start) :
    SameFree (ReflTransGen (g.Step c) start) (g.nodes.erase start) (g'.nodes.erase start) where
  nodup := nodup_nodes.erase start
  nodup' := nodup_nodes.erase start
  mem_iff := by
    intro x hx
    rw [nodup_nodes.mem_erase_iff, nodup_nodes.mem_erase_iff]
    refine and_congr_right fun hne => ?_
    rcases ReflTransGen.cases_tail hx with heq | ⟨near, hnear, hstep⟩
    · exact absurd heq hne
    · have hmem := mem_next_iff_step.2 hstep
      have hmem' : x ∈ g'.next c near := by rwa [← h.next near hnear]
      exact iff_of_true (mem_nodes_of_mem_next hmem) (mem_nodes_of_mem_next hmem')

/-- The report on a walk depends only on the part of the graph that the walk can reach. -/
theorem AgreeFrom.analyze_eq (h : AgreeFrom g g' c start) :
    g.analyze c start = g'.analyze c start :=
  h.leadAlike.analyze_eq .refl h.sameFree fun _ htasks => h.independent_eq htasks

end Graph

lemma Graph.mem_arcsFrom_ofEdges {edges : List Dependency} {c : Course} {task : Ident} {x : Arc} :
    x ∈ (ofEdges edges).arcsFrom c task ↔ ∃ d ∈ edges, d.arc? = some x ∧ d.near? c = some task := by
  simp only [arcsFrom, ofEdges, List.mem_filter, List.mem_filterMap, beq_iff_eq]
  constructor
  · rintro ⟨⟨d, hd, harc⟩, hnear⟩
    exact ⟨d, hd, harc, by rw [Dependency.near?, harc, Option.map_some, hnear]⟩
  · rintro ⟨d, hd, harc, hnear⟩
    rw [Dependency.near?, harc, Option.map_some] at hnear
    exact ⟨⟨d, hd, harc⟩, Option.some.inj hnear⟩

lemma Graph.step_ofEdges_iff {edges : List Dependency} {c : Course} {a b : Ident} :
    (ofEdges edges).Step c a b ↔ ∃ d ∈ edges, d.near? c = some a ∧ d.far? c = some b := by
  simp only [Step, ofEdges, List.mem_filterMap, Dependency.near?, Dependency.far?,
    Option.map_eq_some_iff]
  constructor
  · rintro ⟨x, ⟨d, hd, harc⟩, hnear, hfar⟩
    exact ⟨d, hd, ⟨x, harc, hnear⟩, x, harc, hfar⟩
  · rintro ⟨d, hd, ⟨x, harc, hnear⟩, y, harc', hfar⟩
    rw [harc] at harc'
    cases harc'
    exact ⟨x, ⟨d, hd, harc⟩, hnear, hfar⟩

namespace Repository

variable {r : Repository}

/-- The edges that a walk fetches give the report that all stored edges give, in whatever order
both come. -/
theorem analyze_fetched (h : r.InOrder) (c : Course) (start : Ident) :
    ∃ fetched, r.blockingEdges c start = .ok fetched ∧ ∀ edges all : List Dependency,
      edges.Perm fetched → all.Perm r.edges.toList →
        (Graph.ofEdges edges).analyze c start = (Graph.ofEdges all).analyze c start := by
  obtain ⟨fetched, hwalk, hmem⟩ := blockingEdges_eq h c start
  refine ⟨fetched, hwalk, fun edges all hedges hall => ?_⟩
  have hstep : (Graph.ofEdges all).Step c = fun a b =>
      ∃ x ∈ r.edges.toList, x.near? c = some a ∧ x.far? c = some b := by
    funext a b
    simp only [Graph.step_ofEdges_iff, hall.mem_iff]
  refine (Graph.AgreeFrom.analyze_eq (Graph.agreeFrom_of_arcsFrom fun task htask x => ?_)).symm
  rw [hstep] at htask
  rw [Graph.mem_arcsFrom_ofEdges, Graph.mem_arcsFrom_ofEdges]
  refine exists_congr fun d => ?_
  rw [hall.mem_iff, hedges.mem_iff, hmem]
  constructor
  · rintro ⟨hd, harc, hnear⟩
    exact ⟨⟨hd, task, hnear, htask⟩, harc, hnear⟩
  · rintro ⟨⟨hd, -⟩, harc, hnear⟩
    exact ⟨hd, harc, hnear⟩

/-- The report with the title of each bottleneck whose task is stored. -/
def entitle (r : Repository) (p : GraphReport) : GraphReport :=
  { p with bottlenecks := p.bottlenecks.map fun b =>
      { b with title := (r.tasks.get? b.task).map Task.title } }

lemma map_titled (bottlenecks : List Bottleneck) :
    bottlenecks.map (titled ((bottlenecks.map Bottleneck.task).filterMap r.tasks.get?)) =
      bottlenecks.map fun b => { b with title := (r.tasks.get? b.task).map Task.title } := by
  refine List.map_congr_left fun b hb => ?_
  have hfind : ((bottlenecks.map Bottleneck.task).filterMap r.tasks.get?).find? (·.id == b.task) =
      r.tasks.get? b.task :=
    Roster.find?_filterMap_get? (List.mem_map_of_mem hb)
  rw [titled, hfind]

/-- A walk through the stored edges gives the report on the graph of all of them. Where titles are
wanted, each bottleneck has that of its task if this is stored, and nothing else is different. -/
theorem traverse_eq_analyze (r : Repository) (h : r.InOrder) (start : Ident) (d : Direction) :
    r.traverse start d false = .ok (r.graph.analyze d.course start) ∧
      r.traverse start d true = .ok (r.entitle (r.graph.analyze d.course start)) ∧
      (∀ withTitles, r.traverse start .all withTitles = r.traverse start .outgoing withTitles) ∧
      ∃ fetched, r.blockingEdges d.course start = .ok fetched ∧ ∀ edges all : List Dependency,
        edges.Perm fetched → all.Perm r.edges.toList →
          (Graph.ofEdges edges).analyze d.course start =
            (Graph.ofEdges all).analyze d.course start := by
  obtain ⟨fetched, hwalk, hreport⟩ := analyze_fetched h d.course start
  have hgraph : (Graph.ofEdges fetched).analyze d.course start = r.graph.analyze d.course start :=
    hreport fetched r.edges.toList (.refl _) (.refl _)
  rw [← hgraph]
  refine ⟨?_, ?_, fun _ => rfl, fetched, hwalk, hreport⟩
  · unfold traverse
    rw [hwalk]
    rfl
  · unfold traverse entitle
    rw [hwalk, ← map_titled]
    change (if _ then _ else _) = _
    split
    · rw [getTasks_eq h]
      rfl
    · rename_i hempty
      have hnone : ((Graph.ofEdges fetched).analyze d.course start).bottlenecks = [] := by
        simpa using hempty
      conv_rhs => rw [hnone, List.map_nil, ← hnone]
      rfl

/-- Two ways lead from the first task to the fourth, which blocks the first in turn. The third
also blocks a fifth task, to which no walk against the arcs leads. -/
def ringed : Repository :=
  let task (id : Ident) (title : String) : Task :=
    { id, title, status := .pending, summary := none, feature := none, createdAt := .epoch }
  { tasks := .ofList [task ⟨1, by decide⟩ "plan", task ⟨2, by decide⟩ "build",
      task ⟨4, by decide⟩ "ship"]
    edges := .ofList (Graph.forked ++ [
      ⟨⟨6, by decide⟩, ⟨4, by decide⟩, ⟨1, by decide⟩, .blocks, none, .epoch⟩,
      ⟨⟨7, by decide⟩, ⟨5, by decide⟩, ⟨3, by decide⟩, .isBlockedBy, some .work, .epoch⟩])
    supply := fun n => ⟨.ofNat (8 + n), .epoch⟩ }

lemma layers_ringed : ringed.graph.layers .backward ⟨4, by decide⟩ =
    [[⟨4, by decide⟩], [⟨2, by decide⟩, ⟨3, by decide⟩], [⟨1, by decide⟩]] := by
  have hsecond : ringed.graph.beyond .backward [⟨4, by decide⟩] [⟨4, by decide⟩] =
      [⟨2, by decide⟩, ⟨3, by decide⟩] := by cbv
  have hthird : ringed.graph.beyond .backward
      ([⟨4, by decide⟩] ++ [⟨2, by decide⟩, ⟨3, by decide⟩]) [⟨2, by decide⟩, ⟨3, by decide⟩] =
        [⟨1, by decide⟩] := by cbv
  have hend : ringed.graph.beyond .backward
      ([⟨4, by decide⟩] ++ [⟨2, by decide⟩, ⟨3, by decide⟩] ++ [⟨1, by decide⟩])
        [⟨1, by decide⟩] = [] := by cbv
  rw [Graph.layers, Graph.layersFrom_of_beyond_cons hsecond,
    Graph.layersFrom_of_beyond_cons hthird, Graph.layersFrom_of_beyond_nil hend]

theorem traverse_ringed : ringed.InOrder ∧ ringed.traverse ⟨4, by decide⟩ .incoming true = .ok {
    chain := [⟨4, by decide⟩, ⟨2, by decide⟩, ⟨3, by decide⟩, ⟨1, by decide⟩]
    depth := 2
    criticalPath := [⟨4, by decide⟩, ⟨2, by decide⟩, ⟨1, by decide⟩]
    bottlenecks := [{ task := ⟨4, by decide⟩, fanOut := 2, title := some "ship" }]
    parallel := [{ depth := 1, tasks := [⟨2, by decide⟩, ⟨3, by decide⟩] }] } := by
  have htraverse := (traverse_eq_analyze ringed rfl ⟨4, by decide⟩ .incoming).2.1
  rw [Direction.course, Graph.analyze, layers_ringed] at htraverse
  refine ⟨rfl, htraverse.trans (congrArg Except.ok ?_)⟩
  cbv

end Repository

end TaskFlow

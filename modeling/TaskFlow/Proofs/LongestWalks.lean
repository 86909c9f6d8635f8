import TaskFlow.Proofs.CriticalPath
import TaskFlow.Proofs.Distances

/-!
# Longest walks on any graph

On a graph with cycles a settled task keeps the length that it was settled with, also where some
tasks could not be entered because the search was on its way through them. All the same what is
settled stays coherent: each leg leads to a settled task whose own leg is one arc shorter, and no
task that a search settles lies further from its start than the search says that it gets. So the
critical path has as many arcs as the report says and needs no guard against going round.
-/

open Relation (ReflTransGen)

namespace TaskFlow.Graph

/-- The leg leads nowhere, or by an arc to a settled task and one arc further than the leg of that
task. -/
def Leg.Joins (g : Graph) (c : Course) (legs : Legs) (task : Ident) (leg : Leg) : Prop :=
  leg = ⟨0, none⟩ ∨ ∃ other rest, legs.lookup other = some rest ∧ g.Step c task other ∧
    leg = ⟨rest.hops + 1, some other⟩

/-- The legs of all settled tasks join one another. -/
def Legs.Linked (g : Graph) (c : Course) (legs : Legs) : Prop :=
  ∀ task leg, legs.lookup task = some leg → leg.Joins g c legs task

/-- What is settled in the first legs stays as it is in the second. -/
def Legs.KeptIn (legs legs' : Legs) : Prop :=
  ∀ task leg, legs.lookup task = some leg → legs'.lookup task = some leg

/-- The arcs out of settled tasks lead to settled tasks or to tasks that may not be entered. -/
def Legs.Covers (g : Graph) (c : Course) (free : List Ident) (legs : Legs) : Prop :=
  ∀ task, legs.Settled task → ∀ other, g.Step c task other → legs.Settled other ∨ other ∉ free

/-- The second legs are what a search from `task` makes of the first. It settles tasks that may be
entered only, and by way of each of them it gets no further than `bound` arcs. -/
structure Legs.Grows (g : Graph) (c : Course) (free : List Ident) (task : Ident) (bound : Nat)
    (legs legs' : Legs) : Prop where
  linked : legs'.Linked g c
  kept : legs.KeptIn legs'
  gained : ∀ x leg, legs'.lookup x = some leg → legs.lookup x = some leg ∨
    x ∈ free ∧ ∃ k, g.Walk c task k x ∧ k + leg.hops ≤ bound
  covers : legs'.Covers g c free

/-- What a search from `task` comes to when the tasks of `free` may be entered. -/
structure Explores (g : Graph) (c : Course) (free : List Ident) (task : Ident) (legs : Legs)
    (result : Nat × Legs) : Prop where
  grows : legs.Grows g c (task :: free) task result.1 result.2
  settled : ∃ leg, result.2.lookup task = some leg ∧ leg.hops = result.1

/-- The tasks met by following the legs from a task until one leads nowhere, whether or not a task
is met twice. -/
inductive Trail (legs : Legs) : Ident → List Ident → Prop
  | stop {task : Ident} (h : (legs.lookup task).bind Leg.next = none) : Trail legs task [task]
  | on {task other : Ident} {path : List Ident}
      (h : (legs.lookup task).bind Leg.next = some other) (rest : Trail legs other path) :
      Trail legs task (task :: path)

/-- The legs that the search for the longest walk from `start` ends with. -/
def legsFrom (g : Graph) (c : Course) (start : Ident) : Legs :=
  (g.longest c (g.nodes.erase start) start []).2

variable {g : Graph} {c : Course} {start task other x : Ident}
variable {free : List Ident} {legs legs' legs'' : Legs} {leg best : Leg} {bound bound' : Nat}

lemma Legs.KeptIn.settled (h : legs.KeptIn legs') (hx : legs.Settled x) : legs'.Settled x := by
  obtain ⟨leg, hleg⟩ := hx
  exact ⟨leg, h x leg hleg⟩

lemma Leg.Joins.mono (h : leg.Joins g c legs task) (hkept : legs.KeptIn legs') :
    leg.Joins g c legs' task := by
  rcases h with hnone | ⟨other, rest, hrest, hstep, hleg⟩
  · exact .inl hnone
  · exact .inr ⟨other, rest, hkept other rest hrest, hstep, hleg⟩

lemma Legs.Covers.anti {free' : List Ident} (h : legs.Covers g c free)
    (hfree : ∀ x ∈ free', x ∈ free) : legs.Covers g c free' := by
  intro task htask other hstep
  exact (h task htask other hstep).imp_right fun hnot hmem => hnot (hfree other hmem)

lemma mem_cons_erase (h : other ∈ free) : x ∈ other :: free.erase other ↔ x ∈ free := by
  by_cases hx : x = other
  · simp [hx, h]
  · simp [hx, List.mem_erase_of_ne hx]

lemma Legs.grows_refl (hlinked : legs.Linked g c) (hcovers : legs.Covers g c free) :
    legs.Grows g c free task bound legs where
  linked := hlinked
  kept := fun _ _ => id
  gained := fun _ _ => .inl
  covers := hcovers

lemma Legs.Grows.trans (h : legs.Grows g c free task bound legs')
    (h' : legs'.Grows g c free task bound' legs'') (hle : bound ≤ bound') :
    legs.Grows g c free task bound' legs'' where
  linked := h'.linked
  kept := fun x leg hx => h'.kept x leg (h.kept x leg hx)
  gained := by
    intro x leg hx
    rcases h'.gained x leg hx with hx | hx
    · refine (h.gained x leg hx).imp_right ?_
      rintro ⟨hfree, k, walk, hk⟩
      exact ⟨hfree, k, walk, hk.trans hle⟩
    · exact .inr hx
  covers := h'.covers

lemma Legs.Grows.along (h : legs.Grows g c (other :: free.erase other) other bound legs')
    (hfree : other ∈ free) (hstep : g.Step c task other) :
    legs.Grows g c free task (bound + 1) legs' where
  linked := h.linked
  kept := h.kept
  gained := by
    intro x leg hx
    refine (h.gained x leg hx).imp_right ?_
    rintro ⟨hmem, k, walk, hk⟩
    exact ⟨(mem_cons_erase hfree).1 hmem, k + 1, walk.head hstep, by omega⟩
  covers := h.covers.anti fun x hx => (mem_cons_erase hfree).2 hx

lemma Legs.keptIn_settle (h : legs.lookup task = none) : legs.KeptIn ((task, best) :: legs) := by
  intro x leg hx
  have hne : x ≠ task := by
    rintro rfl
    rw [h] at hx
    cases hx
  rwa [List.lookup_cons, beq_false_of_ne hne]

/-- The task itself is settled last, when all arcs out of it have been tried. It could not be
entered meanwhile, so it was not settled on the way. -/
lemma Legs.Grows.settle (h : legs.Grows g c free task best.hops legs')
    (hjoins : best.Joins g c legs' task) (htask : task ∉ free) (hnew : legs.lookup task = none)
    (htried : ∀ other, g.Step c task other → legs'.Settled other ∨ other ∉ free) :
    legs.Grows g c (task :: free) task best.hops ((task, best) :: legs') := by
  have hfresh : legs'.lookup task = none := by
    rcases hlook : legs'.lookup task with _ | leg
    · rfl
    · rcases h.gained task leg hlook with hold | ⟨hfree, -⟩
      · rw [hnew] at hold
        cases hold
      · exact absurd hfree htask
  have hkept : legs'.KeptIn ((task, best) :: legs') := keptIn_settle hfresh
  refine ⟨?_, fun x leg hx => hkept x leg (h.kept x leg hx), ?_, ?_⟩
  · intro x leg hx
    rcases lookup_cons_cases hx with ⟨rfl, rfl⟩ | hx
    · exact hjoins.mono hkept
    · exact (h.linked x leg hx).mono hkept
  · intro x leg hx
    rcases lookup_cons_cases hx with ⟨rfl, rfl⟩ | hx
    · exact .inr ⟨List.mem_cons_self, 0, .stay, by omega⟩
    · exact (h.gained x leg hx).imp_right fun hx => ⟨List.mem_cons_of_mem _ hx.1, hx.2⟩
  · intro x hx other hstep
    have hother : legs'.Settled other ∨ other ∉ free := by
      rcases settled_cons.1 hx with rfl | hx
      · exact htried other hstep
      · exact h.covers x hx other hstep
    by_cases heq : other = task
    · exact .inl (settled_cons.2 (.inl heq))
    · exact hother.imp hkept.settled fun hnot => by simp [heq, hnot]

lemma hops_le_better (best : Leg) (hops : Nat) (x : Ident) :
    best.hops ≤ (if best.hops < hops + 1 then ⟨hops + 1, some x⟩ else best : Leg).hops ∧
      hops + 1 ≤ (if best.hops < hops + 1 then ⟨hops + 1, some x⟩ else best : Leg).hops := by
  split
  · rename_i hlt
    exact ⟨Nat.le_of_lt hlt, le_rfl⟩
  · rename_i hge
    exact ⟨le_rfl, Nat.not_lt.1 hge⟩

lemma longestVia_grows (task : Ident)
    (hfind : ∀ x ∈ free, ∀ legs : Legs, legs.Linked g c → legs.Covers g c (x :: free.erase x) →
      Explores g c (free.erase x) x legs (g.longest c (free.erase x) x legs))
    (nexts : List Ident) : ∀ (best : Leg) (legs : Legs), (∀ x ∈ nexts, g.Step c task x) →
      best.Joins g c legs task → legs.Linked g c → legs.Covers g c free →
      let result := g.longestVia c free nexts best legs
      best.hops ≤ result.1.hops ∧ result.1.Joins g c result.2 task ∧
        legs.Grows g c free task result.1.hops result.2 ∧
        ∀ x ∈ nexts, result.2.Settled x ∨ x ∉ free := by
  induction nexts with
  | nil =>
    intro best legs _ hbest hlinked hcovers
    rw [longestVia]
    exact ⟨le_rfl, hbest, Legs.grows_refl hlinked hcovers, by simp⟩
  | cons x nexts ih =>
    intro best legs hsteps hbest hlinked hcovers
    have hrest : ∀ y ∈ nexts, g.Step c task y := fun y hy => hsteps y (List.mem_cons_of_mem _ hy)
    rw [longestVia]
    by_cases hmem : x ∈ free
    · have hfound := hfind x hmem legs hlinked
        (hcovers.anti fun y hy => (mem_cons_erase hmem).1 hy)
      rw [dif_pos hmem]
      rcases hres : g.longest c (free.erase x) x legs with ⟨hops, legs'⟩
      rw [hres] at hfound
      obtain ⟨leg, hleg, rfl⟩ := hfound.settled
      have hstep := hsteps x List.mem_cons_self
      have hgrows := hfound.grows.along hmem hstep
      have hbest' : (if best.hops < leg.hops + 1 then ⟨leg.hops + 1, some x⟩ else best : Leg).Joins
          g c legs' task := by
        split
        · exact .inr ⟨x, leg, hleg, hstep, rfl⟩
        · exact hbest.mono hgrows.kept
      obtain ⟨hle, hjoins, hgrows', htried⟩ :=
        ih _ legs' hrest hbest' hgrows.linked hgrows.covers
      obtain ⟨hkeeps, htakes⟩ := hops_le_better best leg.hops x
      refine ⟨hkeeps.trans hle, hjoins, hgrows.trans hgrows' (htakes.trans hle), ?_⟩
      exact List.forall_mem_cons.2 ⟨.inl (hgrows'.kept.settled ⟨leg, hleg⟩), htried⟩
    · rw [dif_neg hmem]
      obtain ⟨hle, hjoins, hgrows, htried⟩ := ih best legs hrest hbest hlinked hcovers
      exact ⟨hle, hjoins, hgrows, List.forall_mem_cons.2 ⟨.inr hmem, htried⟩⟩

theorem longest_explores (free : List Ident) : ∀ (task : Ident) (legs : Legs), free.Nodup →
    task ∉ free → legs.Linked g c → legs.Covers g c (task :: free) →
      Explores g c free task legs (g.longest c free task legs) := by
  induction free using erase_induction with
  | step free ih =>
    intro task legs hnodup htask hlinked hcovers
    rw [longest]
    split
    · rename_i leg hleg
      exact ⟨Legs.grows_refl hlinked hcovers, leg, hleg, rfl⟩
    · rename_i hnew
      have hfind : ∀ x ∈ free, ∀ legs : Legs, legs.Linked g c →
          legs.Covers g c (x :: free.erase x) →
          Explores g c (free.erase x) x legs (g.longest c (free.erase x) x legs) :=
        fun x hx legs => ih x hx x legs (hnodup.erase x) hnodup.not_mem_erase
      obtain ⟨-, hjoins, hgrows, htried⟩ := longestVia_grows task hfind (g.next c task) ⟨0, none⟩
        legs (fun x => mem_next_iff_step.1) (.inl rfl) hlinked
        (hcovers.anti fun x hx => List.mem_cons_of_mem _ hx)
      refine ⟨hgrows.settle hjoins htask hnew ?_, _, List.lookup_cons_self, rfl⟩
      exact fun other hstep => htried other (mem_next_iff_step.2 hstep)

lemma explores_start (g : Graph) (c : Course) (start : Ident) :
    Explores g c (g.nodes.erase start) start []
      (g.longest c (g.nodes.erase start) start []) :=
  longest_explores _ start [] (nodup_nodes.erase start) nodup_nodes.not_mem_erase
    (by simp [Legs.Linked]) (by simp [Legs.Covers, Legs.Settled])

lemma settled_of_reflTransGen (h : ReflTransGen (g.Step c) start x) :
    (g.legsFrom c start).Settled x := by
  obtain ⟨hgrows, leg, hleg, -⟩ := explores_start g c start
  induction h with
  | refl => exact ⟨leg, hleg⟩
  | @tail x y _ hstep ih =>
    -- Nothing but the start was closed to the search, and the start is settled as well.
    refine (hgrows.covers x ih y hstep).resolve_right fun hnot => hnot ?_
    by_cases heq : y = start
    · rw [heq]
      exact List.mem_cons_self
    · have hnode := mem_nodes_of_mem_next (mem_next_iff_step.2 hstep)
      exact List.mem_cons_of_mem _ ((List.mem_erase_of_ne heq).2 hnode)

lemma exists_distance_le_depth (h : ReflTransGen (g.Step c) start x) :
    ∃ n ≤ (g.criticalPath c start).1, g.Distance c start x n := by
  obtain ⟨leg, hleg⟩ := settled_of_reflTransGen h
  rcases (explores_start g c start).grows.gained x leg hleg with hnone | ⟨-, k, walk, hk⟩
  · cases hnone
  · obtain ⟨n, hn, hdist⟩ := walk.exists_distance
    exact ⟨n, hn.trans ((Nat.le_add_right k leg.hops).trans hk), hdist⟩

/-- Linked legs lead to an end over as many arcs as the first of them says, and they get shorter
on the way, so no task is met twice. -/
lemma Legs.Linked.exists_trail (h : legs.Linked g c) (n : Nat) : ∀ (task : Ident) (leg : Leg),
    legs.lookup task = some leg → leg.hops = n →
      ∃ path, Trail legs task path ∧ g.Path c task path ∧ path.length = n + 1 ∧ path.Nodup ∧
        ∀ x ∈ path, ∃ leg, legs.lookup x = some leg ∧ leg.hops ≤ n := by
  induction n with
  | zero =>
    intro task leg hleg hhops
    rcases h task leg hleg with rfl | ⟨other, rest, -, -, rfl⟩
    · refine ⟨[task], .stop (by rw [hleg]; rfl), .stay task, rfl, List.nodup_singleton task, ?_⟩
      intro x hx
      rw [List.mem_singleton.1 hx]
      exact ⟨_, hleg, le_rfl⟩
    · cases hhops
  | succ n ih =>
    intro task leg hleg hhops
    rcases h task leg hleg with rfl | ⟨other, rest, hrest, hstep, rfl⟩
    · cases hhops
    · obtain ⟨path, htrail, hpath, hlen, hnodup, hshort⟩ :=
        ih other rest hrest (Nat.succ.inj hhops)
      have hnew : task ∉ path := by
        intro hmem
        obtain ⟨leg', hleg', hle⟩ := hshort task hmem
        rw [hleg] at hleg'
        cases hleg'
        omega
      refine ⟨task :: path, .on (by rw [hleg]; rfl) htrail, .go hstep hpath, by simp [hlen],
        List.nodup_cons.2 ⟨hnew, hnodup⟩, List.forall_mem_cons.2 ⟨⟨_, hleg, hhops.le⟩, ?_⟩⟩
      intro x hx
      obtain ⟨leg', hleg', hle⟩ := hshort x hx
      exact ⟨leg', hleg', Nat.le_succ_of_le hle⟩

lemma Trail.mem {path : List Ident} (h : Trail legs task path) : task ∈ path := by
  cases h <;> exact List.mem_cons_self

lemma Trail.cons_follow {path : List Ident} (h : Trail legs task path) (hnodup : path.Nodup) :
    ∀ free : List Ident, (∀ x ∈ path, x ≠ task → x ∈ free) →
      task :: follow legs free task = path := by
  induction h with
  | stop hnone =>
    intro free _
    rw [follow_of_not_mem (by simp [hnone])]
  | @on task other path hnext rest ih =>
    intro free hfree
    obtain ⟨htask, hrest⟩ := List.nodup_cons.1 hnodup
    have hmem : ∀ x ∈ path, x ∈ free := by
      intro x hx
      exact hfree x (List.mem_cons_of_mem _ hx) fun heq => htask (heq ▸ hx)
    rw [follow_of_mem hnext (hmem other rest.mem)]
    rw [ih hrest (free.erase other) fun x hx hne => (List.mem_erase_of_ne hne).2 (hmem x hx)]

lemma Trail.next_eq {path : List Ident} (h : Trail legs task path) :
    ∀ (listed : List Ident) (x : Ident) (rest : List Ident), path = listed ++ x :: rest →
      (legs.lookup x).bind Leg.next = rest.head? := by
  induction h with
  | stop hnone =>
    intro listed x rest heq
    rcases listed with _ | ⟨first, listed⟩
    · cases heq
      exact hnone
    · simp at heq
  | on hnext hrest ih =>
    intro listed x rest heq
    rcases listed with _ | ⟨first, listed⟩
    · cases heq
      rw [hnext]
      cases hrest <;> rfl
    · exact ih listed x rest (List.cons.inj heq).2

lemma Path.mem_nodes {path : List Ident} (h : g.Path c task path) :
    ∀ x ∈ path, x ≠ task → x ∈ g.nodes := by
  induction h with
  | stay => simp
  | @go task other path step rest ih =>
    intro x hx hne
    by_cases hother : x = other
    · rw [hother]
      exact mem_nodes_of_mem_next (mem_next_iff_step.2 step)
    · exact ih x ((List.mem_cons.1 hx).resolve_left hne) hother

lemma criticalPath_trail (g : Graph) (c : Course) (start : Ident) :
    Trail (g.legsFrom c start) start (g.criticalPath c start).2 ∧
      g.Path c start (g.criticalPath c start).2 ∧
      (g.criticalPath c start).2.length = (g.criticalPath c start).1 + 1 ∧
      (g.criticalPath c start).2.Nodup := by
  obtain ⟨hgrows, leg, hleg, hhops⟩ := explores_start g c start
  obtain ⟨path, htrail, hpath, hlen, hnodup, -⟩ :=
    hgrows.linked.exists_trail _ start leg hleg hhops
  have hpath_eq : (g.criticalPath c start).2 = path :=
    htrail.cons_follow hnodup (g.nodes.erase start)
      fun x hx hne => (List.mem_erase_of_ne hne).2 (hpath.mem_nodes x hx hne)
  rw [hpath_eq]
  exact ⟨htrail, hpath, hlen, hnodup⟩

/-- On any graph a report comes about, with a critical path that begins with the start, goes along
arcs, repeats no task and has as many arcs as the depth says. The depth is at least the distance of
every task in the chain. The path is all that is met by following the legs that the search has
settled: it ends where a leg leads nowhere, and at no place does a leg lead back to a task listed
before. -/
theorem analyze_depth_agrees (edges : List Dependency) (c : Course) (start : Ident) :
    let g := ofEdges edges
    let report := g.analyze c start
    report.criticalPath.head? = some start ∧ report.criticalPath.Nodup ∧
      report.criticalPath.length = report.depth + 1 ∧ g.Path c start report.criticalPath ∧
      (∀ x ∈ report.chain, ∃ n ≤ report.depth, g.Distance c start x n) ∧
      Trail (g.legsFrom c start) start report.criticalPath ∧
      ∀ listed x rest, report.criticalPath = listed ++ x :: rest →
        ∀ y, ((g.legsFrom c start).lookup x).bind Leg.next = some y → y ∉ listed ++ [x] := by
  intro g report
  have hreport : report = g.survey c start := analyze_eq_survey g c start
  obtain ⟨htrail, hpath, hlen, hnodup⟩ := criticalPath_trail g c start
  rw [hreport]
  refine ⟨?_, hnodup, hlen, hpath, ?_, htrail, ?_⟩
  · obtain ⟨rest, hrest⟩ := hpath.exists_eq_cons
    rw [survey, hrest]
    rfl
  · intro x hx
    exact exists_distance_le_depth (mem_chain_iff.1 hx)
  · intro listed x rest heq y hy hmem
    rw [htrail.next_eq listed x rest heq] at hy
    obtain ⟨rest, rfl⟩ := List.head?_eq_some_iff.1 hy
    have hsplit : (g.criticalPath c start).2 = (listed ++ [x]) ++ y :: rest := by
      rw [List.append_assoc]
      exact heq
    rw [hsplit] at hnodup
    exact (List.nodup_append'.1 hnodup).2.2 hmem List.mem_cons_self

end TaskFlow.Graph

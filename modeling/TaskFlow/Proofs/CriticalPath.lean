import TaskFlow.Graph.Report
import TaskFlow.Proofs.ArcOrder
import TaskFlow.Proofs.Reachability
import Mathlib

/-!
# The critical path

On a graph without cycles the search settles each task with the length of the longest path from
it and with the first arc that begins such a path. Following these arcs from the start gives the
first of all longest paths, when paths are compared where they part.
-/

open Relation (TransGen)

namespace TaskFlow.Graph

/-- The tasks of a walk from a task, each of which leads to the next by an arc. -/
inductive Path (g : Graph) (c : Course) : Ident → List Ident → Prop
  | stay (task : Ident) : Path g c task [task]
  | go {task other : Ident} {path : List Ident} (step : g.Step c task other)
      (rest : Path g c other path) : Path g c task (task :: path)

/-- The first path comes before the second: where they part, it goes on by the arc that comes
first. -/
inductive PathBefore (g : Graph) (c : Course) : List Ident → List Ident → Prop
  | part {task a b : Ident} {p q : List Ident} (first : LedToFirst c (g.arcsFrom c task) a b) :
      PathBefore g c (task :: a :: p) (task :: b :: q)
  | along {task : Ident} {p q : List Ident} (later : PathBefore g c p q) :
      PathBefore g c (task :: p) (task :: q)

/-- The longest paths from a task have this many arcs. -/
def Height (g : Graph) (c : Course) (task : Ident) (hops : Nat) : Prop :=
  (∃ p, g.Path c task p ∧ p.length = hops + 1) ∧ ∀ p, g.Path c task p → p.length ≤ hops + 1

/-- A path of `depth` arcs that is as long as any from `start`, comes before all others of its
length and cannot be continued. -/
structure IsCritical (g : Graph) (c : Course) (start : Ident) (depth : Nat)
    (path : List Ident) : Prop where
  isPath : g.Path c start path
  length : path.length = depth + 1
  longest : ∀ p, g.Path c start p → p.length ≤ depth + 1
  first : ∀ p, g.Path c start p → p.length = depth + 1 → p ≠ path →
    g.PathBefore c path p ∧ ¬ g.PathBefore c p path
  ends : ∃ last, path.getLast? = some last ∧ ∀ other, ¬ g.Step c last other

variable {g : Graph} {c : Course} {task other start : Ident}

lemma Path.exists_eq_cons {p : List Ident} (h : g.Path c task p) : ∃ rest, p = task :: rest := by
  cases h with
  | stay => exact ⟨[], rfl⟩
  | go step rest => exact ⟨_, rfl⟩

lemma PathBefore.asymm {p q : List Ident} (h : g.PathBefore c p q) : ¬ g.PathBefore c q p := by
  induction h with
  | part first =>
    intro k
    cases k with
    | part second => exact first.asymm second
    | along later =>
      cases later with
      | part => exact first.irrefl
      | along => exact first.irrefl
  | along later ih =>
    intro k
    cases k with
    | part first =>
      cases later with
      | part => exact first.irrefl
      | along => exact first.irrefl
    | along later' => exact ih later'

lemma Height.unique {m n : Nat} (hm : g.Height c task m) (hn : g.Height c task n) : m = n := by
  obtain ⟨⟨p, hp, hplen⟩, hmax⟩ := hm
  obtain ⟨⟨q, hq, hqlen⟩, hnax⟩ := hn
  have h1 := hnax p hp
  have h2 := hmax q hq
  omega

lemma height_zero (h : ∀ other, ¬ g.Step c task other) : g.Height c task 0 := by
  refine ⟨⟨[task], .stay task, rfl⟩, fun p hp => ?_⟩
  cases hp with
  | stay => exact Nat.le_refl 1
  | go step rest => exact absurd step (h _)

lemma height_succ {n : Nat} (hstep : g.Step c task other) (hother : g.Height c other n)
    (hmax : ∀ x, g.Step c task x → ∃ m ≤ n, g.Height c x m) : g.Height c task (n + 1) := by
  obtain ⟨p, hp, hlen⟩ := hother.1
  refine ⟨⟨task :: p, .go hstep hp, by simp [hlen]⟩, fun q hq => ?_⟩
  cases hq with
  | stay => simp
  | go step rest =>
    obtain ⟨m, hm, hx⟩ := hmax _ step
    have hrest := hx.2 _ rest
    simp only [List.length_cons]
    omega

/-- The leg is the best one over the arcs to `nexts`: it takes the first task from which the
longest paths are longest. -/
def Leg.IsBest (g : Graph) (c : Course) (nexts : List Ident) (leg : Leg) : Prop :=
  (leg.next = none ∧ leg.hops = 0 ∧ nexts = []) ∨
    ∃ before task after n, nexts = before ++ task :: after ∧ leg = ⟨n + 1, some task⟩ ∧
      g.Height c task n ∧ (∀ x ∈ before, ∃ m < n, g.Height c x m) ∧
      ∀ x ∈ after, ∃ m ≤ n, g.Height c x m

/-- A task is settled. -/
def Legs.Settled (legs : Legs) (task : Ident) : Prop :=
  ∃ leg, legs.lookup task = some leg

/-- What is known of settled tasks is right, and leads to settled tasks only. -/
structure Legs.Sound (g : Graph) (c : Course) (legs : Legs) : Prop where
  best : ∀ {task leg}, legs.lookup task = some leg → leg.IsBest g c (g.next c task)
  closed : ∀ {task other leg}, legs.lookup task = some leg → leg.next = some other →
    legs.Settled other

/-- What a search for the longest path from `task` comes to. -/
structure Finds (g : Graph) (c : Course) (task : Ident) (legs : Legs) (result : Nat × Legs) :
    Prop where
  height : g.Height c task result.1
  sound : result.2.Sound g c
  settled : result.2.Settled task
  kept : ∀ x, legs.Settled x → result.2.Settled x

lemma Leg.isBest_nil : (⟨0, none⟩ : Leg).IsBest g c [] :=
  .inl ⟨rfl, rfl, rfl⟩

lemma Leg.IsBest.append {nexts : List Ident} {best : Leg} {n : Nat} (h : best.IsBest g c nexts)
    (htask : g.Height c task n) :
    (if best.hops < n + 1 then ⟨n + 1, some task⟩ else best : Leg).IsBest g c
      (nexts ++ [task]) := by
  rcases h with ⟨-, hhops, rfl⟩ | ⟨before, old, after, m, rfl, rfl, hold, hbefore, hafter⟩
  · rw [if_pos (by omega)]
    exact .inr ⟨[], task, [], n, rfl, rfl, htask, by simp, by simp⟩
  · by_cases hlt : m + 1 < n + 1
    · rw [if_pos hlt]
      refine .inr ⟨before ++ old :: after, task, [], n, rfl, rfl, htask, fun x hx => ?_, by simp⟩
      have hle : ∃ k ≤ m, g.Height c x k := by
        rcases List.mem_append.1 hx with hx | hx
        · obtain ⟨k, hk, hxk⟩ := hbefore x hx
          exact ⟨k, Nat.le_of_lt hk, hxk⟩
        · rcases List.mem_cons.1 hx with rfl | hx
          · exact ⟨m, Nat.le_refl m, hold⟩
          · exact hafter x hx
      obtain ⟨k, hk, hxk⟩ := hle
      exact ⟨k, by omega, hxk⟩
    · rw [if_neg hlt]
      refine .inr ⟨before, old, after ++ [task], m, by simp, rfl, hold, hbefore, fun x hx => ?_⟩
      rcases List.mem_append.1 hx with hx | hx
      · exact hafter x hx
      · rw [List.mem_singleton.1 hx]
        exact ⟨n, by omega, htask⟩

lemma Leg.IsBest.height {leg : Leg} (h : leg.IsBest g c (g.next c task)) :
    g.Height c task leg.hops := by
  rcases h with ⟨-, hhops, hnone⟩ | ⟨before, other, after, n, hnext, rfl, hother, hbefore, hafter⟩
  · rw [hhops]
    refine height_zero fun x hx => ?_
    have hmem := mem_next_iff_step.2 hx
    simp [hnone] at hmem
  · have hstep : g.Step c task other := mem_next_iff_step.1 (by simp [hnext])
    refine height_succ hstep hother fun x hx => ?_
    have hmem := mem_next_iff_step.2 hx
    rw [hnext] at hmem
    rcases List.mem_append.1 hmem with hx | hx
    · obtain ⟨m, hm, hxm⟩ := hbefore x hx
      exact ⟨m, Nat.le_of_lt hm, hxm⟩
    · rcases List.mem_cons.1 hx with rfl | hx
      · exact ⟨n, Nat.le_refl n, hother⟩
      · exact hafter x hx

lemma Legs.settled_cons {legs : Legs} {leg : Leg} {x : Ident} :
    Legs.Settled ((task, leg) :: legs) x ↔ x = task ∨ legs.Settled x := by
  by_cases hx : x = task
  · subst hx
    simp [Settled]
  · simp [Settled, List.lookup_cons, beq_false_of_ne hx, hx]

lemma Legs.lookup_cons_cases {legs : Legs} {best leg : Leg} {x : Ident}
    (h : List.lookup x ((task, best) :: legs) = some leg) :
    x = task ∧ leg = best ∨ legs.lookup x = some leg := by
  rw [List.lookup_cons] at h
  split at h
  · rename_i heq
    cases h
    exact .inl ⟨eq_of_beq heq, rfl⟩
  · exact .inr h

lemma Legs.Sound.cons {legs : Legs} {leg : Leg} (h : legs.Sound g c)
    (hbest : leg.IsBest g c (g.next c task))
    (hsettled : ∀ x, leg.next = some x → legs.Settled x) :
    Legs.Sound g c ((task, leg) :: legs) := by
  constructor
  · intro x xleg hx
    rcases lookup_cons_cases hx with ⟨rfl, rfl⟩ | hx
    · exact hbest
    · exact h.best hx
  · intro x y xleg hx hy
    rcases lookup_cons_cases hx with ⟨rfl, rfl⟩ | hx
    · exact settled_cons.2 (.inr (hsettled y hy))
    · exact settled_cons.2 (.inr (h.closed hx hy))

/-- No way leads back to a task, so it need not be entered any more. -/
lemma mem_erase_of_transGen (hacyclic : ∀ x, ¬ TransGen (g.Step c) x x) {free : List Ident}
    (hreach : ∀ y, TransGen (g.Step c) task y → y ∈ free) :
    ∀ y, TransGen (g.Step c) task y → y ∈ free.erase task := by
  intro y hy
  have hne : y ≠ task := by
    rintro rfl
    exact hacyclic y hy
  exact (List.mem_erase_of_ne hne).2 (hreach y hy)

lemma longestVia_sound {free : List Ident}
    (hfind : ∀ x ∈ free, (∀ y, TransGen (g.Step c) x y → y ∈ free.erase x) →
      ∀ legs : Legs, legs.Sound g c → Finds g c x legs (g.longest c (free.erase x) x legs))
    (nexts : List Ident) : ∀ (tried : List Ident) (best : Leg) (legs : Legs),
      (∀ x ∈ nexts, x ∈ free ∧ ∀ y, TransGen (g.Step c) x y → y ∈ free.erase x) →
      best.IsBest g c tried → legs.Sound g c → (∀ x, best.next = some x → legs.Settled x) →
      (g.longestVia c free nexts best legs).1.IsBest g c (tried ++ nexts) ∧
        (g.longestVia c free nexts best legs).2.Sound g c ∧
        (∀ x, (g.longestVia c free nexts best legs).1.next = some x →
          (g.longestVia c free nexts best legs).2.Settled x) ∧
        ∀ x, legs.Settled x → (g.longestVia c free nexts best legs).2.Settled x := by
  induction nexts with
  | nil =>
    intro tried best legs _ hbest hsound hsettled
    rw [longestVia, List.append_nil]
    exact ⟨hbest, hsound, hsettled, fun _ => id⟩
  | cons task nexts ih =>
    intro tried best legs hfree hbest hsound hsettled
    obtain ⟨hmem, hreach⟩ := hfree task List.mem_cons_self
    have hfound := hfind task hmem hreach legs hsound
    rw [longestVia, dif_pos hmem]
    rcases hres : g.longest c (free.erase task) task legs with ⟨hops, legs'⟩
    rw [hres] at hfound
    have hnext : ∀ x, (if best.hops < hops + 1 then ⟨hops + 1, some task⟩ else best : Leg).next =
        some x → legs'.Settled x := by
      intro x hx
      split at hx
      · cases hx
        exact hfound.settled
      · exact hfound.kept x (hsettled x hx)
    have hrest := ih (tried ++ [task]) _ legs'
      (fun x hx => hfree x (List.mem_cons_of_mem _ hx)) (hbest.append hfound.height)
      hfound.sound hnext
    rw [List.append_assoc, List.singleton_append] at hrest
    obtain ⟨hbest', hsound', hsettled', hkept⟩ := hrest
    exact ⟨hbest', hsound', hsettled', fun x hx => hkept x (hfound.kept x hx)⟩

/-- The search finds the longest path when the tasks that can be reached are free. -/
theorem longest_finds (hacyclic : ∀ x, ¬ TransGen (g.Step c) x x) (free : List Ident) :
    ∀ (task : Ident) (legs : Legs), (∀ y, TransGen (g.Step c) task y → y ∈ free) →
      legs.Sound g c → Finds g c task legs (g.longest c free task legs) := by
  induction free using erase_induction with
  | step free ih =>
    intro task legs hreach hsound
    rw [longest]
    split
    · rename_i leg hleg
      exact ⟨(hsound.best hleg).height, hsound, ⟨leg, hleg⟩, fun _ => id⟩
    · have hfind : ∀ x ∈ free, (∀ y, TransGen (g.Step c) x y → y ∈ free.erase x) →
          ∀ legs : Legs, legs.Sound g c →
            Finds g c x legs (g.longest c (free.erase x) x legs) :=
        fun x hx hxreach legs hlegs => ih x hx x legs hxreach hlegs
      have hfree : ∀ x ∈ g.next c task,
          x ∈ free ∧ ∀ y, TransGen (g.Step c) x y → y ∈ free.erase x := by
        intro x hx
        have hstep := mem_next_iff_step.1 hx
        exact ⟨hreach x (.single hstep),
          mem_erase_of_transGen hacyclic fun y hy => hreach y (.head hstep hy)⟩
      obtain ⟨hbest, hsound', hsettled, hkept⟩ := longestVia_sound hfind (g.next c task) []
        ⟨0, none⟩ legs hfree Leg.isBest_nil hsound (by simp)
      rw [List.nil_append] at hbest
      exact ⟨hbest.height, hsound'.cons hbest hsettled, Legs.settled_cons.2 (.inl rfl),
        fun x hx => Legs.settled_cons.2 (.inr (hkept x hx))⟩

lemma isCritical_single (h : ∀ other, ¬ g.Step c task other) : g.IsCritical c task 0 [task] where
  isPath := .stay task
  length := rfl
  longest := (height_zero h).2
  first := by
    intro p hp _ hne
    cases hp with
    | stay => exact absurd rfl hne
    | go step rest => exact absurd step (h _)
  ends := ⟨task, rfl, h⟩

lemma IsCritical.cons {before after path : List Ident} {n : Nat}
    (hnext : g.next c task = before ++ other :: after)
    (hbefore : ∀ x ∈ before, ∃ m < n, g.Height c x m) (htask : g.Height c task (n + 1))
    (h : g.IsCritical c other n path) : g.IsCritical c task (n + 1) (task :: path) where
  isPath := .go (mem_next_iff_step.1 (by simp [hnext])) h.isPath
  length := by simp [h.length]
  longest := htask.2
  first := by
    intro p hp hlen hne
    suffices hfirst : g.PathBefore c (task :: path) p from ⟨hfirst, hfirst.asymm⟩
    cases hp with
    | stay => simp at hlen
    | @go _ x q step rest =>
      simp only [List.length_cons, Nat.add_right_cancel_iff] at hlen
      by_cases hx : x = other
      · subst hx
        exact .along (h.first q rest hlen fun e => hne (by rw [e])).1
      · have hmem := mem_next_iff_step.2 step
        rw [hnext] at hmem
        have hafter : x ∈ after := by
          rcases List.mem_append.1 hmem with hx' | hx'
          · obtain ⟨m, hm, hxm⟩ := hbefore x hx'
            have hle := hxm.2 q rest
            omega
          · exact (List.mem_cons.1 hx').resolve_left hx
        have hsorted := g.pairwise_next c task
        rw [hnext] at hsorted
        have hled := List.rel_of_pairwise_cons (List.pairwise_append.1 hsorted).2.1 hafter
        obtain ⟨p', rfl⟩ := h.isPath.exists_eq_cons
        obtain ⟨q', rfl⟩ := rest.exists_eq_cons
        exact .part hled
  ends := by
    obtain ⟨last, hlast, hends⟩ := h.ends
    obtain ⟨p', rfl⟩ := h.isPath.exists_eq_cons
    exact ⟨last, by rwa [List.getLast?_cons_cons], hends⟩

/-- Following the legs from a settled task gives its critical path, when the tasks that can be
reached are free. -/
theorem follow_isCritical (hacyclic : ∀ x, ¬ TransGen (g.Step c) x x) {legs : Legs}
    (hsound : legs.Sound g c) (free : List Ident) (task : Ident)
    (hreach : ∀ y, TransGen (g.Step c) task y → y ∈ free) :
    ∀ leg, legs.lookup task = some leg →
      g.IsCritical c task leg.hops (task :: follow legs free task) := by
  fun_induction follow legs free task with
  | case1 free task hnone =>
    intro leg hleg
    rw [hleg, Option.bind_some] at hnone
    rcases hsound.best hleg with ⟨-, hhops, hnext⟩ | ⟨before, other, after, n, -, rfl, -⟩
    · rw [hhops]
      refine isCritical_single fun x hx => ?_
      have hmem := mem_next_iff_step.2 hx
      simp [hnext] at hmem
    · cases hnone
  | case2 free task other hother hfree ih =>
    intro leg hleg
    rw [hleg, Option.bind_some] at hother
    have hheight := (hsound.best hleg).height
    obtain ⟨leg', hleg'⟩ := hsound.closed hleg hother
    rcases hsound.best hleg with ⟨hnone, -⟩ | ⟨before, x, after, n, hnext, rfl, hx, hbefore, -⟩
    · rw [hnone] at hother
      cases hother
    · cases hother
      have hn := hx.unique (hsound.best hleg').height
      have hstep : g.Step c task other := mem_next_iff_step.1 (by simp [hnext])
      have hrest := ih
        (mem_erase_of_transGen hacyclic fun y hy => hreach y (.head hstep hy)) leg' hleg'
      rw [← hn] at hrest
      exact hrest.cons hnext hbefore hheight
  | case3 free task other hother hfree =>
    intro leg hleg
    rw [hleg, Option.bind_some] at hother
    rcases hsound.best hleg with ⟨hnone, -⟩ | ⟨before, x, after, n, hnext, rfl, -⟩
    · rw [hnone] at hother
      cases hother
    · cases hother
      exact absurd (hreach other (.single (mem_next_iff_step.1 (by simp [hnext])))) hfree

lemma mem_nodes_of_transGen {x : Ident} (h : TransGen (g.Step c) start x) : x ∈ g.nodes := by
  obtain ⟨y, -, hstep⟩ := TransGen.tail'_iff.1 h
  exact mem_nodes_of_mem_next (mem_next_iff_step.2 hstep)

/-- On a graph without cycles the search gives the critical path from a task. -/
theorem criticalPath_isCritical (hacyclic : ∀ x, ¬ TransGen (g.Step c) x x) (start : Ident) :
    g.IsCritical c start (g.criticalPath c start).1 (g.criticalPath c start).2 := by
  have hreach : ∀ y, TransGen (g.Step c) start y → y ∈ g.nodes.erase start :=
    mem_erase_of_transGen hacyclic fun y hy => mem_nodes_of_transGen hy
  have hempty : Legs.Sound g c [] := ⟨by simp, by simp⟩
  have hfound := longest_finds hacyclic (g.nodes.erase start) start [] hreach hempty
  simp only [criticalPath]
  rcases hres : g.longest c (g.nodes.erase start) start [] with ⟨depth, legs⟩
  rw [hres] at hfound
  obtain ⟨leg, hleg⟩ := hfound.settled
  have hdepth := hfound.height.unique (hfound.sound.best hleg).height
  dsimp only at hdepth ⊢
  rw [hdepth]
  exact follow_isCritical hacyclic hfound.sound _ start hreach leg hleg

/-- The report on edges without cycles of blocking arcs gives the length of the longest paths from
the start, and the first of these paths. -/
theorem analyze_isCritical (edges : List Dependency) (c : Course) (start : Ident)
    (hacyclic : (ofEdges edges).Acyclic) :
    (ofEdges edges).IsCritical c start ((ofEdges edges).analyze c start).depth
      ((ofEdges edges).analyze c start).criticalPath := by
  unfold analyze
  split
  · rename_i hempty
    refine isCritical_single fun other hother => ?_
    have hmem := mem_next_iff_step.2 hother
    simp [List.isEmpty_iff.1 hempty] at hmem
  · exact criticalPath_isCritical (hacyclic.not_transGen c) start

/-- Two ways lead from the first task to the fourth. The way over the second task begins with the
youngest arc, which has an older twin in the other spelling. -/
def forked : List Dependency :=
  let task (n : Fin 8) : Ident := ⟨n.val, Nat.lt_trans n.isLt (by decide)⟩
  let edge (n source target : Fin 8) (relation : Relation) (hour : Fin 8) : Dependency :=
    { id := task n, source := task source, target := task target, relation, unblockAt := none
      createdAt := { Instant.epoch with hour := hour.val, valid := by revert hour; decide } }
  [edge 1 1 2 .blocks 7, edge 2 1 3 .blocks 4, edge 3 2 1 .isBlockedBy 3, edge 4 2 4 .blocks 5,
    edge 5 3 4 .blocks 6]

lemma acyclic_of_forall_lt (h : ∀ x ∈ g.arcs, x.blocker < x.blocked) : g.Acyclic := by
  have hlt : ∀ a b, TransGen (g.Step .forward) a b → a < b := by
    intro a b hab
    induction hab with
    | single hstep =>
      obtain ⟨x, hx, rfl, rfl⟩ := hstep
      exact h x hx
    | tail _ hstep ih =>
      obtain ⟨x, hx, rfl, rfl⟩ := hstep
      exact Nat.lt_trans ih (h x hx)
  intro task hcycle
  exact Nat.lt_irrefl _ (hlt task task hcycle)

lemma forked_acyclic : (ofEdges forked).Acyclic :=
  acyclic_of_forall_lt (by decide)

theorem analyze_forked_isCritical : (ofEdges forked).Acyclic ∧
    (ofEdges forked).IsCritical .forward ⟨1, by decide⟩ 2
      [⟨1, by decide⟩, ⟨2, by decide⟩, ⟨4, by decide⟩] := by
  have hcritical := analyze_isCritical forked .forward ⟨1, by decide⟩ forked_acyclic
  have hdepth : ((ofEdges forked).analyze .forward ⟨1, by decide⟩).depth = 2 := by cbv
  have hpath : ((ofEdges forked).analyze .forward ⟨1, by decide⟩).criticalPath =
      [⟨1, by decide⟩, ⟨2, by decide⟩, ⟨4, by decide⟩] := by cbv
  rw [hdepth, hpath] at hcritical
  exact ⟨forked_acyclic, hcritical⟩

end TaskFlow.Graph

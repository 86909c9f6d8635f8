import TaskFlow.Graph
import TaskFlow.Proofs.Lists
import TaskFlow.Proofs.Rosters

/-!
# The order of arcs

Several arcs may join the same two tasks. The tasks one arc away from a task come in the order of
the oldest arc that leads to each, and among those of one age in the order of their identifiers.
-/

namespace TaskFlow

/-- Of the arcs in a list that lead to `task`, the oldest is from the time `t`. -/
def OldestTo (c : Course) (arcs : List Arc) (task : Ident) (t : Instant) : Prop :=
  (∃ x ∈ arcs, x.far c = task ∧ x.since = t) ∧ ∀ x ∈ arcs, x.far c = task → t ≤ x.since

/-- The oldest arc to `a` is older than the oldest one to `b`, or as old and `a` is smaller. -/
def LedToFirst (c : Course) (arcs : List Arc) (a b : Ident) : Prop :=
  ∃ s t, OldestTo c arcs a s ∧ OldestTo c arcs b t ∧ (s < t ∨ (s = t ∧ a < b))

lemma OldestTo.unique {c : Course} {arcs : List Arc} {task : Ident} {s t : Instant}
    (hs : OldestTo c arcs task s) (ht : OldestTo c arcs task t) : s = t := by
  obtain ⟨⟨x, hx, hxtask, rfl⟩, hsleast⟩ := hs
  obtain ⟨⟨y, hy, hytask, rfl⟩, htleast⟩ := ht
  exact Instant.le_antisymm (hsleast y hy hytask) (htleast x hx hxtask)

lemma OldestTo.congr {c : Course} {l l' : List Arc} {task : Ident} {t : Instant}
    (h : ∀ x : Arc, x.far c = task → (x ∈ l ↔ x ∈ l')) (ht : OldestTo c l task t) :
    OldestTo c l' task t := by
  obtain ⟨⟨x, hx, hxtask, hxt⟩, hleast⟩ := ht
  exact ⟨⟨x, (h x hxtask).1 hx, hxtask, hxt⟩, fun y hy hytask =>
    hleast y ((h y hytask).2 hy) hytask⟩

lemma LedToFirst.asymm {c : Course} {arcs : List Arc} {a b : Ident}
    (h : LedToFirst c arcs a b) : ¬ LedToFirst c arcs b a := by
  rintro ⟨t', s', ht', hs', k⟩
  obtain ⟨s, t, hs, ht, h⟩ := h
  rw [hs'.unique hs, ht'.unique ht] at k
  rcases h with h | ⟨rfl, h⟩ <;> rcases k with k | ⟨k, k'⟩
  · exact Int.lt_asymm h k
  · exact Int.lt_irrefl _ (k ▸ h : s < s)
  · exact Int.lt_irrefl _ k
  · exact Nat.lt_asymm h k'

lemma LedToFirst.irrefl {c : Course} {arcs : List Arc} {a : Ident} :
    ¬ LedToFirst c arcs a a :=
  fun h => h.asymm h

namespace Arc

variable {c : Course} {x y : Arc}

lemma comesFirst_iff : comesFirst c x y = true ↔
    x.since < y.since ∨ (x.since = y.since ∧ x.far c ≤ y.far c) := by
  simp [comesFirst]

lemma since_le_of_comesFirst (h : comesFirst c x y = true) : x.since ≤ y.since := by
  rcases comesFirst_iff.1 h with h | ⟨h, -⟩
  · exact Int.le_of_lt h
  · rw [h]
    exact Int.le_refl _

end Arc

section Sorted

variable {c : Course} {arcs : List Arc}

lemma oldestTo_head {x : Arc} (h : (x :: arcs).Pairwise fun a b => Arc.comesFirst c a b = true) :
    OldestTo c (x :: arcs) (x.far c) x.since := by
  refine ⟨⟨x, List.mem_cons_self, rfl, rfl⟩, fun y hy _ => ?_⟩
  rcases List.mem_cons.1 hy with rfl | hy
  · exact Int.le_refl _
  · exact Arc.since_le_of_comesFirst (List.rel_of_pairwise_cons h hy)

lemma exists_oldestTo {task : Ident} (h : arcs.Pairwise fun a b => Arc.comesFirst c a b = true)
    (htask : ∃ x ∈ arcs, x.far c = task) :
    ∃ y ∈ arcs, y.far c = task ∧ OldestTo c arcs task y.since := by
  obtain ⟨y, hy, hytask, hfirst⟩ := exists_first_of_pairwise h htask
  refine ⟨y, hy, hytask, ⟨y, hy, hytask, rfl⟩, fun z hz hztask => ?_⟩
  rcases hfirst z hz hztask with rfl | hyz
  · exact Int.le_refl _
  · exact Arc.since_le_of_comesFirst hyz

/-- In a sorted list of arcs the far ends, each taken where it occurs first, stand in the order of
the oldest arcs that lead to them. -/
lemma pairwise_eraseDups_far : ∀ arcs : List Arc,
    (arcs.Pairwise fun a b => Arc.comesFirst c a b = true) →
    ((arcs.map (Arc.far · c)).eraseDups).Pairwise (LedToFirst c arcs)
  | [], _ => by simp
  | x :: rest, h => by
    let others := rest.filter fun y => !(y.far c == x.far c)
    have hmem : ∀ {task : Ident}, task ∈ (others.map (Arc.far · c)).eraseDups →
        task ≠ x.far c ∧ ∃ y ∈ rest, y.far c = task := by
      intro task htask
      obtain ⟨y, hy, rfl⟩ := List.mem_map.1 (List.mem_eraseDups.1 htask)
      obtain ⟨hy, hne⟩ := List.mem_filter.1 hy
      exact ⟨by simpa using hne, y, hy, rfl⟩
    have hothers : ∀ {task : Ident} {t : Instant}, task ≠ x.far c →
        OldestTo c others task t → OldestTo c (x :: rest) task t := by
      intro task t hne ht
      refine ht.congr fun y hy => ?_
      have hyx : y ≠ x := fun e => hne (by rw [← hy, e])
      simp [others, hyx, hy, hne]
    have htail := pairwise_eraseDups_far others (h.of_cons.filter _)
    rw [List.map_cons, List.eraseDups_cons, List.filter_map]
    refine List.Pairwise.cons (fun task htask => ?_) (htail.imp_of_mem ?_)
    · obtain ⟨hne, hrest⟩ := hmem htask
      obtain ⟨y, hy, rfl, hold⟩ := exists_oldestTo h.of_cons hrest
      refine ⟨x.since, y.since, oldestTo_head h, hold.congr fun z hz => ?_, ?_⟩
      · have hzx : z ≠ x := fun e => hne (by rw [← hz, e])
        simp [hzx]
      · refine (Arc.comesFirst_iff.1 (List.rel_of_pairwise_cons h hy)).imp_right fun hxy => ?_
        refine ⟨hxy.1, Nat.lt_of_le_of_ne hxy.2 fun e => hne (Ident.ext e.symm)⟩
    · rintro a b ha hb ⟨s, t, hs, ht, hst⟩
      exact ⟨s, t, hothers (hmem ha).1 hs, hothers (hmem hb).1 ht, hst⟩
  termination_by arcs => arcs.length
  decreasing_by exact Nat.lt_succ_of_le (List.length_filter_le ..)

end Sorted

namespace Graph

/-- The arcs by which a walk leaves a task. -/
def arcsFrom (g : Graph) (c : Course) (task : Ident) : List Arc :=
  g.arcs.filter fun a => a.near c == task

lemma pairwise_mergeSort_comesFirst (c : Course) (arcs : List Arc) :
    (arcs.mergeSort (Arc.comesFirst c)).Pairwise fun x y => Arc.comesFirst c x y = true := by
  have hrank : ∀ x y : Arc, Arc.comesFirst c x y = true ↔ x.since.rank < y.since.rank ∨
      x.since.rank = y.since.rank ∧ x.far c ≤ y.far c := by
    intro x y
    rw [Arc.comesFirst_iff]
    exact or_congr_right (and_congr_left fun _ => ⟨congrArg _, Instant.rank_injective⟩)
  exact pairwise_mergeSort_of_rank hrank arcs

/-- The tasks one arc away come in the order of the oldest arc that leads to each. -/
theorem pairwise_next (g : Graph) (c : Course) (task : Ident) :
    (g.next c task).Pairwise (LedToFirst c (g.arcsFrom c task)) := by
  have hsorted := pairwise_mergeSort_comesFirst c (g.arcsFrom c task)
  refine (pairwise_eraseDups_far _ hsorted).imp ?_
  rintro a b ⟨s, t, hs, ht, hst⟩
  exact ⟨s, t, hs.congr fun _ _ => List.mem_mergeSort, ht.congr fun _ _ => List.mem_mergeSort, hst⟩

lemma mem_next_iff_oldestTo {g : Graph} {c : Course} {task other : Ident} :
    other ∈ g.next c task ↔ ∃ t, OldestTo c (g.arcsFrom c task) other t := by
  rw [mem_next]
  constructor
  · rintro ⟨x, hx, hnear, hfar⟩
    have hleaving : x ∈ (g.arcsFrom c task).mergeSort (Arc.comesFirst c) :=
      List.mem_mergeSort.2 (List.mem_filter.2 ⟨hx, by simpa using hnear⟩)
    obtain ⟨y, -, -, hold⟩ :=
      exists_oldestTo (pairwise_mergeSort_comesFirst c _) ⟨x, hleaving, hfar⟩
    exact ⟨y.since, hold.congr fun _ _ => List.mem_mergeSort⟩
  · rintro ⟨t, ⟨x, hx, hfar, -⟩, -⟩
    obtain ⟨hx, hnear⟩ := List.mem_filter.1 hx
    exact ⟨x, hx, by simpa using hnear, hfar⟩

end Graph

end TaskFlow

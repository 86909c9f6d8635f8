import TaskFlow.Graph.Search
import Mathlib.Logic.Relation
import Mathlib.Tactic.ByContra
import Mathlib.Tactic.Lemma

/-!
# Reachability

The searches of the graph take tasks from a queue and put the tasks that they lead to and that
have not been seen at its end. Such a sweep from one task visits just the tasks that can be
reached from it, so the search for a goal says whether arcs lead to it.
-/

open Relation (ReflTransGen TransGen)

namespace TaskFlow

/-- A sweep of a queue, when `seen` holds all tasks met so far. The last list holds the tasks in
the order in which they are taken from the queue. -/
inductive Sweep (next : Ident → List Ident) : List Ident → List Ident → List Ident → Prop
  | done (seen : List Ident) : Sweep next seen [] []
  | take {seen queue visited : List Ident} (task : Ident) (fresh : List Ident)
      (mem_fresh : ∀ x, x ∈ fresh ↔ x ∈ next task ∧ x ∉ seen)
      (rest : Sweep next (seen ++ fresh) (queue ++ fresh) visited) :
      Sweep next seen (task :: queue) (task :: visited)

namespace Sweep

variable {next : Ident → List Ident} {seen queue visited : List Ident} {start : Ident}

lemma mem_of_mem_queue (h : Sweep next seen queue visited) {x : Ident} (hx : x ∈ queue) :
    x ∈ visited := by
  induction h with
  | done seen => cases hx
  | take task fresh mem_fresh rest ih =>
    rcases List.mem_cons.1 hx with rfl | hx
    · exact List.mem_cons_self
    · exact List.mem_cons_of_mem _ (ih (List.mem_append_left _ hx))

lemma mem_or_mem_of_next (h : Sweep next seen queue visited) {x y : Ident} (hx : x ∈ visited)
    (hy : y ∈ next x) : y ∈ seen ∨ y ∈ visited := by
  induction h with
  | done seen => cases hx
  | @take seen queue visited task fresh mem_fresh rest ih =>
    have hfresh : y ∈ fresh → y ∈ task :: visited := fun hf =>
      List.mem_cons_of_mem _ (rest.mem_of_mem_queue (List.mem_append_right _ hf))
    rcases List.mem_cons.1 hx with rfl | hx
    · by_cases hs : y ∈ seen
      · exact .inl hs
      · exact .inr (hfresh ((mem_fresh y).2 ⟨hy, hs⟩))
    · rcases ih hx with hs | hv
      · exact (List.mem_append.1 hs).imp_right hfresh
      · exact .inr (List.mem_cons_of_mem _ hv)

lemma exists_reflTransGen (h : Sweep next seen queue visited) {x : Ident} (hx : x ∈ visited) :
    ∃ q ∈ queue, ReflTransGen (fun a b => b ∈ next a) q x := by
  induction h with
  | done seen => cases hx
  | take task fresh mem_fresh rest ih =>
    rcases List.mem_cons.1 hx with rfl | hx
    · exact ⟨x, List.mem_cons_self, .refl⟩
    · obtain ⟨q, hq, hqx⟩ := ih hx
      rcases List.mem_append.1 hq with hq | hq
      · exact ⟨q, List.mem_cons_of_mem _ hq, hqx⟩
      · exact ⟨task, List.mem_cons_self, .head ((mem_fresh q).1 hq).1 hqx⟩

/-- A sweep from one task visits the tasks that can be reached from it, and no others. -/
theorem mem_iff (h : Sweep next [start] [start] visited) {x : Ident} :
    x ∈ visited ↔ ReflTransGen (fun a b => b ∈ next a) start x := by
  constructor
  · intro hx
    obtain ⟨q, hq, hqx⟩ := h.exists_reflTransGen hx
    rwa [List.mem_singleton.1 hq] at hqx
  · intro hx
    have hstart : start ∈ visited := h.mem_of_mem_queue (List.mem_singleton.2 rfl)
    induction hx with
    | refl => exact hstart
    | tail _ hstep ih =>
      rcases h.mem_or_mem_of_next ih hstep with hs | hv
      · rwa [List.mem_singleton.1 hs]
      · exact hv

end Sweep

namespace Graph

/-- An arc of the graph leads from `a` to `b` for a walk on this course. -/
def Step (g : Graph) (c : Course) (a b : Ident) : Prop :=
  ∃ x ∈ g.arcs, x.near c = a ∧ x.far c = b

/-- No task can be reached from itself by one or more arcs. -/
def Acyclic (g : Graph) : Prop :=
  ∀ task, ¬ TransGen (g.Step .forward) task task

lemma mem_next_iff_step {g : Graph} {c : Course} {a b : Ident} :
    b ∈ g.next c a ↔ g.Step c a b :=
  mem_next

lemma step_swap {g : Graph} {a b : Ident} : g.Step .backward a b ↔ g.Step .forward b a := by
  simp only [Step, Arc.near, Arc.far, and_comm]

lemma step_backward (g : Graph) : g.Step .backward = Function.swap (g.Step .forward) := by
  funext a b
  exact propext step_swap

lemma Acyclic.not_transGen {g : Graph} (h : g.Acyclic) (c : Course) (task : Ident) :
    ¬ TransGen (g.Step c) task task := by
  cases c with
  | forward => exact h task
  | backward =>
    intro hcycle
    rw [step_backward] at hcycle
    exact h task (Relation.transGen_swap.1 hcycle)

lemma mem_beyond_singleton {g : Graph} {c : Course} {seen : List Ident} {task x : Ident} :
    x ∈ g.beyond c seen [task] ↔ x ∈ g.next c task ∧ x ∉ seen := by
  simp [mem_beyond]

lemma exists_transGen_of_seek {g : Graph} {goal : Ident} {seen queue : List Ident}
    (h : g.seek goal seen queue = true) :
    ∃ q ∈ queue, TransGen (g.Step .forward) q goal := by
  fun_induction seek g goal seen queue with
  | case1 => cases h
  | case2 seen task queue hgoal =>
    exact ⟨task, List.mem_cons_self, .single (mem_next_iff_step.1 hgoal)⟩
  | case3 seen task queue hgoal hnone ih =>
    obtain ⟨q, hq, hqx⟩ := ih h
    exact ⟨q, List.mem_cons_of_mem _ hq, hqx⟩
  | case4 seen task queue hgoal first more hfresh ih =>
    obtain ⟨q, hq, hqx⟩ := ih h
    rcases List.mem_append.1 hq with hq | hq
    · exact ⟨q, List.mem_cons_of_mem _ hq, hqx⟩
    · rw [← hfresh] at hq
      exact ⟨task, List.mem_cons_self,
        .head (mem_next_iff_step.1 (mem_beyond_singleton.1 hq).1) hqx⟩

lemma exists_sweep_of_seek_eq_false {g : Graph} {goal : Ident} {seen queue : List Ident}
    (h : g.seek goal seen queue = false) :
    ∃ visited, Sweep (g.next .forward) seen queue visited ∧
      ∀ x ∈ visited, goal ∉ g.next .forward x := by
  fun_induction seek g goal seen queue with
  | case1 => exact ⟨[], .done _, by simp⟩
  | case2 => cases h
  | case3 seen task queue hgoal hnone ih =>
    obtain ⟨visited, hsweep, hmiss⟩ := ih h
    refine ⟨task :: visited, .take task [] (fun x => ?_) (by simpa using hsweep), ?_⟩
    · rw [← hnone, mem_beyond_singleton]
    · simpa using ⟨hgoal, hmiss⟩
  | case4 seen task queue hgoal first more hfresh ih =>
    obtain ⟨visited, hsweep, hmiss⟩ := ih h
    refine ⟨task :: visited, .take task (first :: more) (fun x => ?_) hsweep, ?_⟩
    · rw [← hfresh, mem_beyond_singleton]
    · simpa using ⟨hgoal, hmiss⟩

/-- The search finds out whether zero or more arcs lead from `start` to `goal`. -/
theorem reaches_iff {g : Graph} {start goal : Ident} :
    g.reaches start goal = true ↔ ReflTransGen (g.Step .forward) start goal := by
  rw [reaches, Bool.or_eq_true, beq_iff_eq, Relation.reflTransGen_iff_eq_or_transGen]
  refine or_congr eq_comm ?_
  constructor
  · intro h
    obtain ⟨q, hq, hqx⟩ := exists_transGen_of_seek h
    rwa [List.mem_singleton.1 hq] at hqx
  · intro h
    by_contra hseek
    obtain ⟨visited, hsweep, hmiss⟩ := exists_sweep_of_seek_eq_false (Bool.eq_false_iff.2 hseek)
    obtain ⟨last, hlast, hstep⟩ := TransGen.tail'_iff.1 h
    have hnext : (fun a b => b ∈ g.next .forward a) = g.Step .forward := by
      funext a b
      exact propext mem_next_iff_step
    have hvisited : last ∈ visited := by rw [hsweep.mem_iff, hnext]; exact hlast
    exact hmiss last hvisited (mem_next_iff_step.2 hstep)

end Graph

end TaskFlow

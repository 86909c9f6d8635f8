import TaskFlow.Workflow.Transition
import TaskFlow.Proofs.Workflows
import Mathlib.Logic.Basic
import Mathlib.Tactic.SplitIfs

/-!
# The changes of status that a workflow accepts

The rules of transition shadow each other: each is tried only where those before it do not apply.
Said one beside the other they are five ways to pass, and a change between two different statuses
that are allowed is accepted just if one of them is open.
-/

namespace TaskFlow.Workflow.Spec

/-- The flow leads from one status to another: one step on, or back where that is allowed. A status
stands in the flow where it is named first. -/
def Leads (w : Spec) (source target : Status) : Prop :=
  ∃ i j, w.position source = some i ∧ w.position target = some j ∧
    (j = i + 1 ∨ j < i ∧ w.rules.allowBackward = true)

/-- The ways by which one status may follow another. -/
inductive Permits (w : Spec) (source target : Status) : Prop
  | free (hfree : w.rules.enforceSequential = false)
  | flow (hleads : w.Leads source target)
  | emergency (hallowed : w.rules.allowEmergency = true) (htarget : target ∈ w.emergency)
  | reopening (hallowed : w.rules.allowEmergency = true) (hsource : source ∈ w.terminal)
      (htarget : target ∈ w.flow) (hopen : ∃ e ∈ w.emergency, e ∉ w.terminal)
  | resuming (hsource : source ∉ w.flow) (hopen : source ∉ w.terminal) (htarget : target ∈ w.flow)
      (hunfinished : target ∉ w.terminal)

/-- The workflow accepts the change. -/
def Step (w : Spec) (source target : Status) : Prop :=
  w.checkTransition source target = .ok ()

instance (w : Spec) (source target : Status) : Decidable (w.Step source target) :=
  match h : w.checkTransition source target with
  | .ok () => .isTrue h
  | .error _ => .isFalse fun hstep => nomatch h.symm.trans hstep

variable {w : Spec} {s source target next : Status} {i j : Nat}

lemma isAllowed_iff : w.isAllowed s = true ↔ s ∈ w.allowed := by
  simp [isAllowed]

lemma isTerminal_iff : w.isTerminal s = true ↔ s ∈ w.terminal := by
  simp [isTerminal]

lemma isEmergency_iff : w.isEmergency s = true ↔ s ∈ w.emergency := by
  simp [isEmergency]

lemma hasOpenEmergency_iff : w.hasOpenEmergency = true ↔ ∃ e ∈ w.emergency, e ∉ w.terminal := by
  simp [hasOpenEmergency, isTerminal]

lemma idxOf?_eq_some_iff_first {l : List Status} :
    l.idxOf? s = some i ↔ l[i]? = some s ∧ ∀ j < i, l[j]? ≠ some s := by
  rw [List.idxOf?_eq_some_iff, List.getElem?_eq_some_iff]
  constructor
  · rintro ⟨hi, heq, hfirst⟩
    refine ⟨⟨hi, heq⟩, fun j hj hsome => ?_⟩
    obtain ⟨_, heq'⟩ := List.getElem?_eq_some_iff.1 hsome
    exact hfirst j hj heq'
  · rintro ⟨⟨hi, heq⟩, hfirst⟩
    refine ⟨hi, heq, fun j hj heq' => hfirst j hj ?_⟩
    exact List.getElem?_eq_some_iff.2 ⟨Nat.lt_trans hj hi, heq'⟩

lemma position_eq_some_iff :
    w.position s = some i ↔ w.flow[i]? = some s ∧ ∀ j < i, w.flow[j]? ≠ some s :=
  idxOf?_eq_some_iff_first

lemma position_eq_none_iff : w.position s = none ↔ s ∉ w.flow :=
  List.idxOf?_eq_none_iff

lemma isSome_position_iff : (w.position s).isSome = true ↔ s ∈ w.flow :=
  List.isSome_idxOf?

lemma exists_position (hs : s ∈ w.flow) : ∃ i, w.position s = some i :=
  Option.isSome_iff_exists.1 (isSome_position_iff.2 hs)

lemma mem_flow_of_position (h : w.position s = some i) : s ∈ w.flow :=
  List.mem_of_getElem? (position_eq_some_iff.1 h).1

lemma Leads.mem_flow (h : w.Leads source target) : source ∈ w.flow ∧ target ∈ w.flow := by
  obtain ⟨i, j, hi, hj, -⟩ := h
  exact ⟨mem_flow_of_position hi, mem_flow_of_position hj⟩

lemma flowLeads_iff :
    w.flowLeads (w.position source) (w.position target) = true ↔ w.Leads source target := by
  unfold Leads
  rcases hi : w.position source with _ | i
  · simp [flowLeads]
  rcases hj : w.position target with _ | j
  · simp [flowLeads]
  simp [flowLeads]

instance (w : Spec) (source target : Status) : Decidable (w.Leads source target) :=
  decidable_of_iff _ flowLeads_iff

lemma Permits.of_late (h : w.Permits source target) (hordered : w.rules.enforceSequential = true)
    (hleads : ¬ w.Leads source target)
    (hemergency : ¬ (w.rules.allowEmergency = true ∧ target ∈ w.emergency)) :
    (source ∈ w.terminal ∧ (w.rules.allowEmergency = true ∧ target ∈ w.flow) ∧
      ∃ e ∈ w.emergency, e ∉ w.terminal) ∨
    (source ∉ w.terminal ∧ (source ∉ w.flow ∧ target ∈ w.flow) ∧ target ∉ w.terminal) := by
  cases h with
  | free hfree =>
    rw [hordered] at hfree
    cases hfree
  | flow h => exact absurd h hleads
  | emergency hallowed htarget => exact absurd ⟨hallowed, htarget⟩ hemergency
  | reopening hallowed hsource htarget hopen =>
    exact .inl ⟨hsource, ⟨hallowed, htarget⟩, hopen⟩
  | resuming hsource hopen htarget hunfinished =>
    exact .inr ⟨hopen, ⟨hsource, htarget⟩, hunfinished⟩

section Rules

variable {p : Prop} [Decidable p] {cause found : Rejection} {rest : Except Rejection Unit}

lemma accepts_else_eq_ok_iff : (if p then .ok () else rest) = .ok () ↔ p ∨ rest = .ok () := by
  by_cases h : p <;> simp [h]

lemma rejects_else_eq_ok_iff :
    (if p then .error cause else rest) = .ok () ↔ ¬ p ∧ rest = .ok () := by
  by_cases h : p <;> simp [h]

lemma accepts_else_eq_error_iff :
    (if p then .ok () else rest) = .error found ↔ ¬ p ∧ rest = .error found := by
  by_cases h : p <;> simp [h]

lemma rejects_else_eq_error_iff (hcause : cause ≠ found) :
    (if p then .error cause else rest) = .error found ↔ ¬ p ∧ rest = .error found := by
  by_cases h : p <;> simp [h, hcause]

end Rules

/-- The rules tell the accepted changes from the others just as the five ways to pass do. -/
theorem step_iff : w.Step source target ↔
    source ∈ w.allowed ∧ target ∈ w.allowed ∧ source ≠ target ∧ w.Permits source target := by
  unfold Step checkTransition
  simp only [rejects_else_eq_ok_iff, accepts_else_eq_ok_iff, Bool.not_eq_true', Bool.and_eq_true,
    ← Bool.not_eq_true, not_not, isAllowed_iff, isTerminal_iff, isEmergency_iff,
    hasOpenEmergency_iff, isSome_position_iff, flowLeads_iff, Option.isNone_iff_eq_none,
    position_eq_none_iff]
  refine and_congr_right fun _ => and_congr_right fun _ => and_congr_right fun _ => ?_
  constructor
  · rintro (hfree | hleads | ⟨hallowed, htarget⟩ | hlate)
    · exact .free (Bool.eq_false_iff.2 hfree)
    · exact .flow hleads
    · exact .emergency hallowed htarget
    · split_ifs at hlate with hterminal hreopens hresumes hfinished
      · exact .reopening hreopens.1.1 hterminal hreopens.1.2 hreopens.2
      · exact .resuming hresumes.1 hterminal hresumes.2 hfinished
  · intro hpermits
    by_cases hfree : ¬ w.rules.enforceSequential = true
    · exact .inl hfree
    by_cases hleads : w.Leads source target
    · exact .inr (.inl hleads)
    by_cases hemergency : w.rules.allowEmergency = true ∧ target ∈ w.emergency
    · exact .inr (.inr (.inl hemergency))
    -- Only the two late ways are left, and what opens one of them closes the other.
    refine .inr (.inr (.inr ?_))
    rcases hpermits.of_late (not_not.1 hfree) hleads hemergency with
      ⟨hterminal, hreopens⟩ | ⟨hopen, hresumes, hunfinished⟩
    · rw [if_pos hterminal, if_pos hreopens]
    · rw [if_neg hopen, if_pos hresumes, if_neg hunfinished]

lemma Leads.ne (h : w.Leads source target) : source ≠ target := by
  rintro rfl
  obtain ⟨i, j, hi, hj, horder⟩ := h
  have hij : i = j := Option.some.inj (hi.symm.trans hj)
  omega

lemma Leads.step (h : w.Leads source target) (hclosed : w.Closed) : w.Step source target :=
  step_iff.2 ⟨hclosed.flow _ h.mem_flow.1, hclosed.flow _ h.mem_flow.2, h.ne, .flow h⟩

lemma of_refusal_eq_skips {a b : Status} {i? j? : Option Nat}
    (h : w.refusal source target i? j? = .skips a b next) :
    ∃ i j, i? = some i ∧ j? = some j ∧ i < j ∧ w.flow[i + 1]? = some next := by
  unfold refusal at h
  split at h
  · rename_i i j
    split at h
    · rename_i hij
      split at h
      · rename_i hnext
        cases h
        exact ⟨i, j, rfl, rfl, hij, hnext⟩
      · cases h
    · cases h
  · cases h

/-- A change is refused as a skip only between two places of the flow, and what the refusal names
stands next to the first of them. -/
lemma of_checkTransition_skips {a b : Status}
    (h : w.checkTransition source target = .error (.skips a b next)) :
    ∃ i j, w.position source = some i ∧ w.position target = some j ∧ i < j ∧
      w.flow[i + 1]? = some next := by
  unfold checkTransition at h
  rw [rejects_else_eq_error_iff Rejection.noConfusion,
    rejects_else_eq_error_iff Rejection.noConfusion,
    rejects_else_eq_error_iff Rejection.noConfusion, accepts_else_eq_error_iff,
    accepts_else_eq_error_iff, accepts_else_eq_error_iff] at h
  obtain ⟨-, -, -, -, -, -, h⟩ := h
  split_ifs at h
  · cases h
  · cases h
  · exact of_refusal_eq_skips (Except.error.inj h)

end TaskFlow.Workflow.Spec

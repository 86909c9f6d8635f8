import TaskFlow.Proofs.Transitions

/-!
# Strict and lenient rules

The rules of a workflow let a change pass or stand aside, and none of them takes back what another
lets pass. So a workflow that enforces less or allows more accepts all that a stricter one accepts.
-/

namespace TaskFlow.Workflow.Spec

/-- The flow names the status at this place and nowhere before it. -/
def FirstAt (w : Spec) (s : Status) (i : Nat) : Prop :=
  w.flow[i]? = some s ∧ ∀ j < i, w.flow[j]? ≠ some s

/-- The second workflow is the first under rules of which none is stricter. -/
structure Loosens (w w' : Spec) : Prop where
  same : w' = { w with rules := w'.rules }
  sequence : w'.rules.enforceSequential = true → w.rules.enforceSequential = true
  backward : w.rules.allowBackward = true → w'.rules.allowBackward = true
  emergency : w.rules.allowEmergency = true → w'.rules.allowEmergency = true

variable {w w' : Spec} {s source target : Status} {i j : Nat} {r : Rejection}

lemma FirstAt.unique (hi : w.FirstAt s i) (hj : w.FirstAt s j) : i = j := by
  have hile : i ≤ j := Nat.le_of_not_lt fun hlt => hi.2 j hlt hj.1
  have hjle : j ≤ i := Nat.le_of_not_lt fun hlt => hj.2 i hlt hi.1
  omega

lemma ofCheck_eq_valid_iff {check : Except Rejection Unit} :
    Verdict.ofCheck check = .valid ↔ check = .ok () := by
  rcases check with r | _ <;> simp [Verdict.ofCheck]

lemma position_iff_firstAt : w.position s = some i ↔ w.FirstAt s i :=
  position_eq_some_iff

lemma leads_iff_firstAt : w.Leads source target ↔
    (∃ i, w.FirstAt source i ∧ w.FirstAt target (i + 1)) ∨
    ∃ i j, w.FirstAt source i ∧ w.FirstAt target j ∧ j < i ∧ w.rules.allowBackward = true := by
  unfold Leads
  simp only [position_iff_firstAt]
  constructor
  · rintro ⟨i, j, hi, hj, rfl | ⟨hji, hallowed⟩⟩
    · exact .inl ⟨i, hi, hj⟩
    · exact .inr ⟨i, j, hi, hj, hji, hallowed⟩
  · rintro (⟨i, hi, hj⟩ | ⟨i, j, hi, hj, hji, hallowed⟩)
    · exact ⟨i, i + 1, hi, hj, .inl rfl⟩
    · exact ⟨i, j, hi, hj, .inr ⟨hji, hallowed⟩⟩

/-- The ways to pass, beside one another. -/
lemma permits_iff : w.Permits source target ↔
    w.rules.enforceSequential = false ∨
    (∃ i, w.FirstAt source i ∧ w.FirstAt target (i + 1)) ∨
    (∃ i j, w.FirstAt source i ∧ w.FirstAt target j ∧ j < i ∧ w.rules.allowBackward = true) ∨
    (target ∈ w.emergency ∧ w.rules.allowEmergency = true) ∨
    (source ∈ w.terminal ∧ w.rules.allowEmergency = true ∧ target ∈ w.flow ∧
      ∃ e ∈ w.emergency, e ∉ w.terminal) ∨
    (source ∉ w.terminal ∧ source ∉ w.flow ∧ target ∈ w.flow ∧ target ∉ w.terminal) := by
  constructor
  · intro h
    cases h with
    | free hfree => exact .inl hfree
    | flow hleads =>
      rcases leads_iff_firstAt.1 hleads with honward | hback
      · exact .inr (.inl honward)
      · exact .inr (.inr (.inl hback))
    | emergency hallowed htarget => exact .inr (.inr (.inr (.inl ⟨htarget, hallowed⟩)))
    | reopening hallowed hsource htarget hopen =>
      exact .inr (.inr (.inr (.inr (.inl ⟨hsource, hallowed, htarget, hopen⟩))))
    | resuming hsource hopen htarget hunfinished =>
      exact .inr (.inr (.inr (.inr (.inr ⟨hopen, hsource, htarget, hunfinished⟩))))
  · rintro (hfree | honward | hback | ⟨htarget, hallowed⟩ | ⟨hsource, hallowed, htarget, hopen⟩ |
      ⟨hopen, hsource, htarget, hunfinished⟩)
    · exact .free hfree
    · exact .flow (leads_iff_firstAt.2 (.inl honward))
    · exact .flow (leads_iff_firstAt.2 (.inr hback))
    · exact .emergency hallowed htarget
    · exact .reopening hallowed hsource htarget hopen
    · exact .resuming hsource hopen htarget hunfinished

lemma refusal_onward (source : Status) (hj : w.FirstAt target j) (hij : i < j) :
    ∃ h : i + 1 < w.flow.length,
      w.refusal source target (some i) (some j) = .skips source target w.flow[i + 1] := by
  obtain ⟨hjlen, -⟩ := List.getElem?_eq_some_iff.1 hj.1
  have hlen : i + 1 < w.flow.length := Nat.lt_of_le_of_lt hij hjlen
  refine ⟨hlen, ?_⟩
  simp [refusal, hij, List.getElem?_eq_getElem hlen]

lemma rejection_onward (hi : w.FirstAt source i) (hj : w.FirstAt target j) (hij : i < j) :
    ∃ h : i + 1 < w.flow.length, ∀ r, w.checkTransition source target = .error r →
      r = w.unknown source ∨ r = w.unknown target ∨ r = .leavesTerminal source target ∨
        r = .skips source target w.flow[i + 1] := by
  obtain ⟨hlen, hskips⟩ := refusal_onward source hj hij
  refine ⟨hlen, fun r hr => ?_⟩
  have hne : source ≠ target := by
    rintro rfl
    exact absurd (hi.unique hj) (by omega)
  rw [checkTransition, position_iff_firstAt.2 hi, position_iff_firstAt.2 hj, hskips] at hr
  simp only [hne, if_false, Option.isNone_some, Bool.false_and, Bool.false_eq_true] at hr
  split_ifs at hr <;> cases hr <;> simp

lemma Loosens.firstAt_iff (h : w.Loosens w') : w'.FirstAt s i ↔ w.FirstAt s i := by
  rw [h.same]
  rfl

lemma Loosens.permits (h : w.Loosens w') (hpermits : w.Permits source target) :
    w'.Permits source target := by
  have hsame := h.same
  cases hpermits with
  | free hfree =>
    refine .free (Bool.eq_false_iff.2 fun hordered => ?_)
    rw [h.sequence hordered] at hfree
    cases hfree
  | flow hleads =>
    refine .flow (leads_iff_firstAt.2 ?_)
    simp only [h.firstAt_iff]
    refine (leads_iff_firstAt.1 hleads).imp_right ?_
    rintro ⟨i, j, hi, hj, hji, hallowed⟩
    exact ⟨i, j, hi, hj, hji, h.backward hallowed⟩
  | emergency hallowed htarget =>
    exact .emergency (h.emergency hallowed) (by rwa [hsame])
  | reopening hallowed hsource htarget hopen =>
    exact .reopening (h.emergency hallowed) (by rwa [hsame]) (by rwa [hsame]) (by rwa [hsame])
  | resuming hsource hopen htarget hunfinished =>
    exact .resuming (by rwa [hsame]) (by rwa [hsame]) (by rwa [hsame]) (by rwa [hsame])

lemma Loosens.step (h : w.Loosens w') (hstep : w.Step source target) : w'.Step source target := by
  obtain ⟨hsource, htarget, hne, hpermits⟩ := step_iff.1 hstep
  exact step_iff.2 ⟨by rwa [h.same], by rwa [h.same], hne, h.permits hpermits⟩

/-- A change is valid just if both statuses are allowed and differ and one of the ways to pass is
open. What a refusal reads from the flow stands in it, and looser rules refuse nothing that
stricter ones let pass. -/
theorem checkTransition_valid_iff (w : Spec) (source target : Status) :
    (Verdict.ofCheck (w.checkTransition source target) = .valid ↔
      source ∈ w.allowed ∧ target ∈ w.allowed ∧ source ≠ target ∧
      (w.rules.enforceSequential = false ∨
      (∃ i, w.FirstAt source i ∧ w.FirstAt target (i + 1)) ∨
      (∃ i j, w.FirstAt source i ∧ w.FirstAt target j ∧ j < i ∧ w.rules.allowBackward = true) ∨
      (target ∈ w.emergency ∧ w.rules.allowEmergency = true) ∨
      (source ∈ w.terminal ∧ w.rules.allowEmergency = true ∧ target ∈ w.flow ∧
        ∃ e ∈ w.emergency, e ∉ w.terminal) ∨
      (source ∉ w.terminal ∧ source ∉ w.flow ∧ target ∈ w.flow ∧ target ∉ w.terminal))) ∧
    (∀ i j, w.FirstAt source i → w.FirstAt target j → i < j →
      ∃ h : i + 1 < w.flow.length,
        w.refusal source target (w.position source) (w.position target) =
          .skips source target w.flow[i + 1] ∧
        ∀ r, w.checkTransition source target = .error r →
          r = w.unknown source ∨ r = w.unknown target ∨ r = .leavesTerminal source target ∨
            r = .skips source target w.flow[i + 1]) ∧
    ∀ w', w.Loosens w' → Verdict.ofCheck (w.checkTransition source target) = .valid →
      Verdict.ofCheck (w'.checkTransition source target) = .valid := by
  refine ⟨?_, fun i j hi hj hij => ?_, fun w' hloosens hvalid => ?_⟩
  · rw [ofCheck_eq_valid_iff, ← permits_iff]
    exact step_iff
  · obtain ⟨hlen, hreject⟩ := rejection_onward hi hj hij
    obtain ⟨_, hskips⟩ := refusal_onward source hj hij
    refine ⟨hlen, ?_, hreject⟩
    rw [position_iff_firstAt.2 hi, position_iff_firstAt.2 hj]
    exact hskips
  · exact ofCheck_eq_valid_iff.2 (hloosens.step (ofCheck_eq_valid_iff.1 hvalid))

/-- A flow that comes back to its first status, under rules that leave no other way. -/
def recurring : Spec where
  kind := .task
  allowed := Kind.task.vocabulary
  flow := [.pending, .inProgress, .pending, .testing]
  emergency := [.onHold]
  terminal := [.completed]
  roles := []
  rules := { allowBackward := false, allowEmergency := false }

theorem checkTransition_valid_recurring :
    recurring.FirstAt .pending 0 ∧ recurring.FirstAt .testing 3 ∧
    recurring.checkTransition .pending .testing =
      .error (.skips .pending .testing .inProgress) ∧
    recurring.Loosens { recurring with rules := {} } ∧
    Verdict.ofCheck (recurring.checkTransition .pending .inProgress) = .valid ∧
    Verdict.ofCheck (checkTransition { recurring with rules := {} } .pending .inProgress) =
      .valid := by
  have hsource : recurring.FirstAt .pending 0 := by simp [FirstAt, recurring]
  have htarget : recurring.FirstAt .testing 3 :=
    ⟨rfl, by decide⟩
  have hloosens : recurring.Loosens { recurring with rules := {} } :=
    ⟨rfl, fun _ => rfl, fun _ => rfl, fun _ => rfl⟩
  have hvalid : Verdict.ofCheck (recurring.checkTransition .pending .inProgress) = .valid := by
    decide
  obtain ⟨-, honward, -⟩ := checkTransition_valid_iff recurring .pending .testing
  obtain ⟨_, -, hreject⟩ := honward 0 3 hsource htarget (by decide)
  obtain ⟨-, -, hlenient⟩ := checkTransition_valid_iff recurring .pending .inProgress
  refine ⟨hsource, htarget, ?_, hloosens, hvalid, hlenient _ hloosens hvalid⟩
  rcases hcheck : recurring.checkTransition .pending .testing with r | _
  · rcases hreject r hcheck with rfl | rfl | rfl | rfl
    · cases hcheck
    · cases hcheck
    · cases hcheck
    · rfl
  · cases hcheck

end TaskFlow.Workflow.Spec

import TaskFlow.Proofs.Transitions

/-!
# Out of a terminal status

A terminal status may be left straight for the flow where some emergency status is not terminal.
That is no short cut for the way through such an emergency status: the way in is always open, but
the way on may be closed.
-/

namespace TaskFlow.Workflow.Spec

variable {w : Spec} {source target e : Status}

lemma step_emergency (hclosed : w.Closed) (hallowed : w.rules.allowEmergency = true)
    (hsource : source ∈ w.allowed) (he : e ∈ w.emergency) (hne : source ≠ e) : w.Step source e :=
  step_iff.2 ⟨hsource, hclosed.emergency e he, hne, .emergency hallowed he⟩

lemma step_resuming_iff (hclosed : w.Closed) (hordered : w.rules.enforceSequential = true)
    (hsource : source ∈ w.allowed) (hopen : source ∉ w.terminal) (htarget : target ∈ w.flow)
    (hemergency : target ∉ w.emergency) (hne : source ≠ target) :
    w.Step source target ↔ w.Leads source target ∨ source ∉ w.flow ∧ target ∉ w.terminal := by
  rw [step_iff]
  constructor
  · rintro ⟨-, -, -, hpermits⟩
    by_cases hleads : w.Leads source target
    · exact .inl hleads
    rcases hpermits.of_late hordered hleads (fun h => hemergency h.2) with
      ⟨hterminal, -⟩ | ⟨-, ⟨hout, -⟩, hunfinished⟩
    · exact absurd hterminal hopen
    · exact .inr ⟨hout, hunfinished⟩
  · intro h
    refine ⟨hsource, hclosed.flow target htarget, hne, ?_⟩
    rcases h with hleads | ⟨hout, hunfinished⟩
    · exact .flow hleads
    · exact .resuming hout hopen htarget hunfinished

/-- Where a terminal status is left for a status of the flow, though neither the flow leads there
nor is it an emergency status, some emergency status that is not terminal can be entered instead.
The target can then be resumed from one of these just if one of them lies outside the flow and the
target is not terminal, or the flow leads from one of them to the target. -/
theorem resumes_from_emergency_iff (w : Spec) (hadmitted : w.Admitted) (source target : Status)
    (hordered : w.rules.enforceSequential = true) (hallowed : w.rules.allowEmergency = true)
    (hsource : source ∈ w.terminal) (htarget : target ∈ w.flow) (hstep : w.Step source target)
    (hleads : ¬ w.Leads source target) (hemergency : target ∉ w.emergency) :
    (∃ e ∈ w.emergency, e ∉ w.terminal ∧ w.Step source e) ∧
    ((∃ e ∈ w.emergency, e ∉ w.terminal ∧ w.Step source e ∧ w.Step e target) ↔
      (target ∉ w.terminal ∧ ∃ e ∈ w.emergency, e ∉ w.terminal ∧ e ∉ w.flow) ∨
      ∃ e ∈ w.emergency, e ∉ w.terminal ∧ w.Leads e target) := by
  have hclosed := hadmitted.closed
  have henter : ∀ e ∈ w.emergency, e ∉ w.terminal → w.Step source e := by
    intro e he hopen
    refine step_emergency hclosed hallowed (hclosed.terminal source hsource) he ?_
    rintro rfl
    exact hopen hsource
  have hresume : ∀ e ∈ w.emergency, e ∉ w.terminal →
      (w.Step e target ↔ w.Leads e target ∨ e ∉ w.flow ∧ target ∉ w.terminal) := by
    intro e he hopen
    refine step_resuming_iff hclosed hordered (hclosed.emergency e he) hopen htarget hemergency ?_
    rintro rfl
    exact hemergency he
  obtain ⟨-, -, -, hpermits⟩ := step_iff.1 hstep
  rcases hpermits.of_late hordered hleads (fun h => hemergency h.2) with
    ⟨-, -, hescape⟩ | ⟨hopen, -⟩
  · obtain ⟨e, he, hopen⟩ := hescape
    refine ⟨⟨e, he, hopen, henter e he hopen⟩, ?_⟩
    constructor
    · rintro ⟨e, he, hopen, -, hon⟩
      rcases (hresume e he hopen).1 hon with hleads | ⟨hout, hunfinished⟩
      · exact .inr ⟨e, he, hopen, hleads⟩
      · exact .inl ⟨hunfinished, e, he, hopen, hout⟩
    · rintro (⟨hunfinished, e, he, hopen, hout⟩ | ⟨e, he, hopen, hleads⟩)
      · exact ⟨e, he, hopen, henter e he hopen, (hresume e he hopen).2 (.inr ⟨hout, hunfinished⟩)⟩
      · exact ⟨e, he, hopen, henter e he hopen, (hresume e he hopen).2 (.inl hleads)⟩
  · exact absurd hsource hopen

theorem resumes_from_emergency_testing : (builtIn .task).Admitted ∧
    (builtIn .task).rules.enforceSequential = true ∧ (builtIn .task).rules.allowEmergency = true ∧
    Status.cancelled ∈ (builtIn .task).terminal ∧ Status.testing ∈ (builtIn .task).flow ∧
    (builtIn .task).Step .cancelled .testing ∧ ¬ (builtIn .task).Leads .cancelled .testing ∧
    Status.testing ∉ (builtIn .task).emergency ∧
    ∃ e ∈ (builtIn .task).emergency, e ∉ (builtIn .task).terminal ∧
      (builtIn .task).Step .cancelled e ∧ (builtIn .task).Step e .testing := by
  have hsource : Status.cancelled ∈ (builtIn .task).terminal := by decide
  have htarget : Status.testing ∈ (builtIn .task).flow := by decide
  have hstep : (builtIn .task).Step .cancelled .testing := by decide
  have hleads : ¬ (builtIn .task).Leads .cancelled .testing := by decide
  have hemergency : Status.testing ∉ (builtIn .task).emergency := by decide
  obtain ⟨-, hiff⟩ := resumes_from_emergency_iff (builtIn .task) (.builtIn .task {}) .cancelled
    .testing rfl rfl hsource htarget hstep hleads hemergency
  exact ⟨.builtIn .task {}, rfl, rfl, hsource, htarget, hstep, hleads, hemergency,
    hiff.2 (.inl ⟨by decide, .onHold, by decide⟩)⟩

/-- A cancelled task may be completed at once, but it may not after any emergency. -/
theorem completes_past_emergency : (builtIn .task).Admitted ∧
    (builtIn .task).rules.enforceSequential = true ∧ (builtIn .task).rules.allowEmergency = true ∧
    Status.cancelled ∈ (builtIn .task).terminal ∧ Status.completed ∈ (builtIn .task).flow ∧
    (builtIn .task).Step .cancelled .completed ∧ ¬ (builtIn .task).Leads .cancelled .completed ∧
    Status.completed ∉ (builtIn .task).emergency ∧
    ¬ ∃ e ∈ (builtIn .task).emergency, e ∉ (builtIn .task).terminal ∧
      (builtIn .task).Step .cancelled e ∧ (builtIn .task).Step e .completed :=
  ⟨.builtIn .task {}, rfl, rfl, by decide, by decide, by decide, by decide, by decide, by decide⟩

end TaskFlow.Workflow.Spec

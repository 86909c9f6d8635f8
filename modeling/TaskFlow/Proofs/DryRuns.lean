import TaskFlow.Proofs.Caching
import TaskFlow.Proofs.StatusChanges
import TaskFlow.Proofs.StatusNames

/-!
# Dry runs

Queries tell beforehand whether a change of status will be made. They look up workflows and read
the store by themselves, and come to the same as the change that is made under the lock. Only where
a status is refused as unknown may the two list what is allowed in different orders.
-/

namespace TaskFlow

namespace Engine

variable {e : Engine} {kind : Kind} {entity : Ident} {raw : String} {old target : Status}

lemma validateTransition_readable (hparse : Status.parse raw = .ok target) :
    (validateTransition kind old.name raw e).1 =
      .ofCheck ((workflow kind e).1.checkTransition old target) := by
  unfold validateTransition
  rw [Status.parse_name, hparse]
  rfl

lemma validateTransition_unreadable {cause : ReadError} (hparse : Status.parse raw = .error cause) :
    (validateTransition kind old.name raw e).1 = .invalid cause.message := by
  unfold validateTransition
  rw [Status.parse_name, hparse]
  rfl

lemma validatePrerequisites_readable (hparse : Status.parse raw = .ok target) :
    validatePrerequisites entity kind raw e = readiness entity kind target e := by
  unfold validatePrerequisites
  rw [hparse]
  rfl

lemma checkTransition_of_alike {w w' : Workflow.Spec} (h : w.Alike w')
    (hcheck : w'.checkTransition old target = .ok ()) :
    w.checkTransition old target = .ok () := by
  rcases checkTransition_reworded h h old target with ⟨hsame, -⟩ | ⟨-, cause, -, hother, -⟩
  · exact hsame
  · rw [hcheck] at hother
    cases hother

/-- A change that one look-up of the workflow refuses is refused by any other. It is so in the same
words just if both statuses are known or the two look-ups list the allowed statuses alike. -/
lemma refused_of_alike {w w' : Workflow.Spec} {cause' : Workflow.Rejection} (h : w.Alike w')
    (hcheck : w'.checkTransition old target = .error cause') :
    ∃ cause, w.checkTransition old target = .error cause ∧
      Reworded Workflow.Spec.Alike cause.message cause'.message ∧
      (cause'.message = cause.message ↔
        (w.isAllowed old = true ∧ w.isAllowed target = true) ∨ w = w') := by
  obtain ⟨hknown, hunknown⟩ := h.checkTransition old target
  by_cases hboth : w.isAllowed old = true ∧ w.isAllowed target = true
  · rw [hknown hboth] at hcheck
    exact ⟨cause', hcheck, .same _, iff_of_true rfl (.inl hboth)⟩
  · obtain ⟨s, hfirst, hsecond⟩ := hunknown hboth
    rw [hcheck] at hsecond
    cases hsecond
    refine ⟨_, hfirst, .unknown h s, ?_⟩
    rw [h.message_unknown_inj, or_iff_right hboth]

lemma Alike.shortfall_eq {source : Workflow.Source} {dry : Engine} (h : Alike source dry e) :
    (shortfall kind entity target e).1 = (shortfall kind entity target dry).1 :=
  ((congruence_alike Workflow.Source.relates_alike).shortfall kind entity target _ _ h).1

lemma Alike.readiness_eq {source : Workflow.Source} {dry : Engine} (h : Alike source dry e) :
    (readiness entity kind target e).1 = (readiness entity kind target dry).1 :=
  ((congruence_alike Workflow.Source.relates_alike).readiness entity kind target _ _ h).1

lemma readiness_after_workflow (h : e.cache.Faithful e.source) (locks : Lock.Table)
    (tickets : Nat) :
    (readiness entity kind target (workflow kind { e with locks, tickets }).2).1 =
      (readiness entity kind target e).1 := by
  have hdraws : e.Draws e.source := ⟨rfl, h⟩
  have hlocked : ({ e with locks, tickets } : Engine).Draws e.source := ⟨rfl, h⟩
  have halike : Alike e.source e (workflow kind { e with locks, tickets }).2 :=
    ⟨hdraws, (hlocked.workflow kind).2, rfl, rfl, rfl⟩
  exact halike.readiness_eq

section Free

variable (horder : e.repository.InOrder) (hfree : e.locks.isLocked entity = false)
  (hparse : Status.parse raw = .ok target)

include horder hfree hparse

lemma changeStatus_missing (hnone : e.repository.status? kind entity = none) :
    (changeStatus entity kind raw e).1 = .error (.missing (.entity kind) entity) := by
  rw [changeStatus_readable hparse]
  obtain ⟨locks, tickets, hanswer, -⟩ := withLock_free hfree (applyStatus entity kind target)
  have hmissing : applyStatus entity kind target { e with locks, tickets } = _ :=
    applyStatus_missing horder hnone
  rw [hanswer, hmissing]

lemma changeStatus_stored (hfaithful : e.cache.Faithful e.source)
    (hold : e.repository.status? kind entity = some old) :
    (∃ cause, (workflow kind e).1.checkTransition old target = .error cause ∧
      (changeStatus entity kind raw e).1 = .error (.invalid (.rejected cause.message))) ∨
    (workflow kind e).1.checkTransition old target = .ok () ∧
      ((∃ s, (readiness entity kind target e).1 = .ok (.unmet s) ∧
        (changeStatus entity kind raw e).1 = .error (.prerequisite s)) ∨
      (readiness entity kind target e).1 = .ok .satisfied ∧
        (changeStatus entity kind raw e).1 = .ok ⟨entity, kind, old, target⟩) := by
  rw [changeStatus_readable hparse]
  obtain ⟨locks, tickets, hanswer, -⟩ := withLock_free hfree (applyStatus entity kind target)
  rw [hanswer, ← readiness_after_workflow hfaithful locks tickets]
  rcases applyStatus_stored (e := { e with locks, tickets }) horder hold target with
    ⟨cause, hcheck, hrejected, -⟩ | ⟨hcheck, ⟨s, hready, hunmet, -⟩ | ⟨hready, hmade, -⟩⟩
  · exact .inl ⟨cause, hcheck, hrejected⟩
  · exact .inr ⟨hcheck, .inl ⟨s, hready, hunmet⟩⟩
  · exact .inr ⟨hcheck, .inr ⟨hready, hmade⟩⟩

end Free

/-- While the documents stay as they are, a change of status whose lock is free is made just if the
entity is stored and both dry runs agree to it, also if these look up workflows through another
cache. Otherwise it fails for the first of these causes: the text names no status, the entity is not
stored, the transition is refused as its dry run says, or a prerequisite is unmet as its dry run
says. The reason of a refusal is told in the same words, unless a status is not known and the two
have gone through the keys of the document in different orders, which takes a document with several
statuses that only have a role. -/
theorem changeStatus_agrees (dry e : Engine) (entity : Ident) (kind : Kind) (raw : String)
    (halike : Alike e.source dry e) (horder : e.repository.InOrder)
    (hfree : e.locks.isLocked entity = false) :
    let outcome := (changeStatus entity kind raw e).1
    let verdict (old : Status) := (validateTransition kind old.name raw dry).1
    let ready := (validatePrerequisites entity kind raw dry).1
    let w := (workflow kind dry).1
    ((∃ c, outcome = .ok c) ↔ ∃ old, e.repository.status? kind entity = some old ∧
      verdict old = .valid ∧ ready = .ok .satisfied) ∧
    (∀ cause, Status.parse raw = .error cause →
      outcome = .error (.invalid (.unreadable cause))) ∧
    ∀ target, Status.parse raw = .ok target →
      (e.repository.status? kind entity = none →
        outcome = .error (.missing (.entity kind) entity)) ∧
      ∀ old, e.repository.status? kind entity = some old →
        (∀ reason, verdict old = .invalid reason → ∃ reason',
          outcome = .error (.invalid (.rejected reason')) ∧
          Reworded Workflow.Spec.Alike reason reason' ∧
          (reason' = reason ↔
            (w.isAllowed old = true ∧ w.isAllowed target = true) ∨ w = (workflow kind e).1) ∧
          (w.Settled → reason' = reason)) ∧
        (verdict old = .valid → outcome = .ok ⟨entity, kind, old, target⟩ ∨
          ∃ s, ready = .ok (.unmet s) ∧ outcome = .error (.prerequisite s)) := by
  intro outcome verdict ready w
  rcases hparse : Status.parse raw with cause | target
  · have hfails : outcome = .error (.invalid (.unreadable cause)) :=
      congrArg Prod.fst (changeStatus_unreadable hparse)
    refine ⟨⟨?_, ?_⟩, ?_, ?_⟩
    · rintro ⟨c, hc⟩
      rw [hfails] at hc
      cases hc
    · rintro ⟨old, -, hvalid, -⟩
      have hinvalid : verdict old = .invalid cause.message := validateTransition_unreadable hparse
      rw [hvalid] at hinvalid
      cases hinvalid
    · rintro _ ⟨⟩
      exact hfails
    · rintro target ⟨⟩
  rcases hold : e.repository.status? kind entity with _ | old
  · have hfails : outcome = .error (.missing (.entity kind) entity) :=
      changeStatus_missing horder hfree hparse hold
    simp [hfails]
  have hspecs : w.Alike (workflow kind e).1 := by
    have hgives := (halike.right.workflow kind).1
    rw [halike.root] at hgives
    exact (halike.left.workflow kind).1.alike hgives
  have hverdict : verdict old = .ofCheck (w.checkTransition old target) :=
    validateTransition_readable hparse
  have hready : ready = (readiness entity kind target e).1 :=
    (congrArg Prod.fst (validatePrerequisites_readable hparse)).trans halike.readiness_eq.symm
  rcases changeStatus_stored horder hfree hparse halike.right.faithful hold with
    ⟨cause', hcheck, hrejected⟩ | ⟨hcheck, ⟨s, hunmet, hfails⟩ | ⟨hsatisfied, hmade⟩⟩
  · have hout : outcome = .error (.invalid (.rejected cause'.message)) := hrejected
    obtain ⟨cause, hdry, hreworded, hwords⟩ := refused_of_alike hspecs hcheck
    have hinvalid : verdict old = .invalid cause.message := by rw [hverdict, hdry]; rfl
    have hsettled : w.Settled → cause'.message = cause.message :=
      fun h => hwords.2 (.inr (hspecs.eq_of_settled h))
    simpa [hout, hinvalid] using ⟨hreworded, hwords, hsettled⟩
  · have hvalid : verdict old = .valid := by
      rw [hverdict, checkTransition_of_alike hspecs hcheck]
      rfl
    have hout : outcome = .error (.prerequisite s) := hfails
    simp [hout, hvalid, hready, hunmet]
  · have hvalid : verdict old = .valid := by
      rw [hverdict, checkTransition_of_alike hspecs hcheck]
      rfl
    have hout : outcome = .ok ⟨entity, kind, old, target⟩ := hmade
    simp [hout, hvalid, hready, hsatisfied]

def uncached (e : Engine) : Engine :=
  e.caching false 0 (fun _ => 0) fun _ => .given

theorem changeStatus_agrees_joined : Alike joined.source joined.uncached joined ∧
    joined.repository.InOrder ∧ joined.locks.isLocked (.ofNat 2) = false ∧
    (validateTransition .task "PENDING" "in-progress" joined.uncached).1 = .valid ∧
    (validatePrerequisites (.ofNat 2) .task "in-progress" joined.uncached).1 = .ok .satisfied ∧
    ∃ c, (changeStatus (.ofNat 2) .task "in-progress" joined).1 = .ok c := by
  have halike : Alike joined.source joined.uncached joined :=
    ⟨joined.draws_caching _ _ _ _, ⟨rfl, Workflow.Cache.faithful_of_entries_eq_none fun _ => rfl⟩,
      rfl, rfl, rfl⟩
  have hvalid : (validateTransition .task "PENDING" "in-progress" joined.uncached).1 = .valid := rfl
  have hready : (validatePrerequisites (.ofNat 2) .task "in-progress" joined.uncached).1 =
      .ok .satisfied := rfl
  obtain ⟨hagrees, -⟩ :=
    changeStatus_agrees joined.uncached joined (.ofNat 2) .task "in-progress" halike rfl rfl
  exact ⟨halike, rfl, rfl, hvalid, hready, hagrees.2 ⟨.pending, rfl, hvalid, hready⟩⟩

/-- The dry run and the change that follows it both refuse an unknown status, and list the statuses
that only have a role in different orders. -/
theorem changeStatus_unordered :
    let asked := validateTransition .task "PENDING" "zzz" unordered
    let refusal (added : String) := "Invalid status 'ZZZ' for task. Allowed statuses: " ++
      String.intercalate ", " (Kind.task.vocabulary.map Status.name) ++ added
    asked.2.repository = unordered.repository ∧ asked.2.locks.isLocked (.ofNat 2) = false ∧
    unordered.repository.status? .task (.ofNat 2) = some .pending ∧
    asked.1 = .invalid (refusal ", ALPHA, BETA") ∧
    (changeStatus (.ofNat 2) .task "zzz" asked.2).1 =
      .error (.invalid (.rejected (refusal ", BETA, ALPHA"))) := by
  intro asked refusal
  exact ⟨rfl, rfl, rfl, by decide +kernel, by decide +kernel⟩

end Engine

end TaskFlow

import TaskFlow.Proofs.Blockers

/-!
# Changes of status

A change of status asks in turn whether the entity is stored, whether the workflow of its kind
accepts the transition and whether the entity is ready. It overwrites the status of one record, or
ends with an error and leaves the store as it is.
-/

namespace TaskFlow

namespace Repository

def status? (r : Repository) : Kind → Ident → Option Status
  | .task, entity => (r.tasks.get? entity).map Task.status
  | .feature, entity => (r.features.get? entity).map Feature.status
  | .project, entity => (r.projects.get? entity).map Project.status

/-- The repository `r'` has another status for one entity. All other records, all other fields and
all edges are those of `r`. -/
structure Restates (r : Repository) (kind : Kind) (entity : Ident) (status : Status)
    (r' : Repository) : Prop where
  edges : r'.edges = r.edges
  outages : r'.outages = r.outages
  tasks : r'.tasks.toList = r.tasks.toList.map fun t =>
    if kind = .task ∧ t.id = entity then { t with status } else t
  features : r'.features.toList = r.features.toList.map fun f =>
    if kind = .feature ∧ f.id = entity then { f with status } else f
  projects : r'.projects.toList = r.projects.toList.map fun p =>
    if kind = .project ∧ p.id = entity then { p with status } else p

variable {r r' : Repository} {kind : Kind} {entity : Ident} {status : Status}

section Amend

variable {α : Type} [Recorded α] {p : Prop} [Decidable p] {s : Roster α} {a : α} {f : α → α}

lemma map_ite_of_not (hp : ¬ p) (l : List α) (i : Ident) :
    (l.map fun c => if p ∧ Recorded.id c = i then f c else c) = l := by
  simp [hp]

variable (hid : ∀ c, Recorded.id (f c) = Recorded.id c)

include hid

lemma id_ite (i : Ident) (c : α) :
    Recorded.id (if p ∧ Recorded.id c = i then f c else c) = Recorded.id c := by
  split
  · exact hid c
  · rfl

lemma toList_put_ite (hage : ∀ c, Recorded.createdAt (f c) = Recorded.createdAt c) (hp : p)
    {i : Ident} (h : s.get? i = some a) :
    (s.put (f a)).toList = s.toList.map fun c => if p ∧ Recorded.id c = i then f c else c := by
  obtain ⟨ha, rfl⟩ := Roster.get?_eq_some_iff.1 h
  have hage' : ∀ c, Recorded.createdAt (if p ∧ Recorded.id c = Recorded.id a then f c else c) =
      Recorded.createdAt c := by
    intro c
    split
    · exact hage c
    · rfl
  have hput := Roster.toList_put_amended (id_ite hid _) hage' ha
    fun c _ hne => if_neg fun hsame => hne hsame.2
  rwa [if_pos ⟨hp, rfl⟩] at hput

lemma status_get?_ite {s' : Roster α} {i x : Ident} {g : α → Status} (hg : ∀ c, g (f c) = status)
    (h : s'.toList = s.toList.map fun c => if p ∧ Recorded.id c = i then f c else c) :
    (s'.get? x).map g =
      if p ∧ x = i then ((s.get? x).map g).map fun _ => status else (s.get? x).map g := by
  rw [Roster.get?_of_toList_eq_map (id_ite hid i) h, Option.map_map]
  rcases hget : s.get? x with _ | c
  · simp
  · obtain ⟨-, rfl⟩ := Roster.get?_eq_some_iff.1 hget
    by_cases hc : p ∧ Recorded.id c = i
    · simp [hc, hg]
    · simp [hc]

end Amend

lemma restates_of_setStatus (h : r.setStatus kind entity status = some r') :
    r.Restates kind entity status r' := by
  unfold setStatus at h
  cases kind with
  | task =>
    obtain ⟨t, hget, rfl⟩ := Option.map_eq_some_iff.1 h
    exact {
      edges := rfl
      outages := rfl
      tasks := toList_put_ite (f := fun t : Task => { t with status }) (fun _ => rfl)
        (fun _ => rfl) rfl hget
      features := (map_ite_of_not (by decide) _ _).symm
      projects := (map_ite_of_not (by decide) _ _).symm }
  | feature =>
    obtain ⟨f, hget, rfl⟩ := Option.map_eq_some_iff.1 h
    exact {
      edges := rfl
      outages := rfl
      tasks := (map_ite_of_not (by decide) _ _).symm
      features := toList_put_ite (f := fun f : Feature => { f with status }) (fun _ => rfl)
        (fun _ => rfl) rfl hget
      projects := (map_ite_of_not (by decide) _ _).symm }
  | project =>
    obtain ⟨p, hget, rfl⟩ := Option.map_eq_some_iff.1 h
    exact {
      edges := rfl
      outages := rfl
      tasks := (map_ite_of_not (by decide) _ _).symm
      features := (map_ite_of_not (by decide) _ _).symm
      projects := toList_put_ite (f := fun p : Project => { p with status }) (fun _ => rfl)
        (fun _ => rfl) rfl hget }

lemma Restates.status? (h : r.Restates kind entity status r') (k : Kind) (x : Ident) :
    r'.status? k x = if kind = k ∧ x = entity then (r.status? k x).map fun _ => status
      else r.status? k x := by
  cases k with
  | task =>
    exact status_get?_ite (f := fun t : Task => { t with status }) (g := Task.status)
      (fun _ => rfl) (fun _ => rfl) h.tasks
  | feature =>
    exact status_get?_ite (f := fun f : Feature => { f with status }) (g := Feature.status)
      (fun _ => rfl) (fun _ => rfl) h.features
  | project =>
    exact status_get?_ite (f := fun p : Project => { p with status }) (g := Project.status)
      (fun _ => rfl) (fun _ => rfl) h.projects

lemma setStatus_ne_none (h : r.status? kind entity ≠ none) (status : Status) :
    ∃ r', r.setStatus kind entity status = some r' := by
  refine Option.ne_none_iff_exists'.1 fun hnone => h ?_
  cases kind with
  | task => exact Option.map_eq_none_iff.2 (Option.map_eq_none_iff.1 hnone)
  | feature => exact Option.map_eq_none_iff.2 (Option.map_eq_none_iff.1 hnone)
  | project => exact Option.map_eq_none_iff.2 (Option.map_eq_none_iff.1 hnone)

section Calls

variable (h : r.InOrder)

include h

lemma statusOf_eq (kind : Kind) (entity : Ident) :
    r.statusOf kind entity = .ok (r.status? kind entity) := by
  unfold statusOf
  cases kind with
  | task =>
    dsimp only
    rw [getTask_eq h]
    rfl
  | feature =>
    have hfound : r.getFeature entity = .ok (r.features.get? entity) := answer_eq h ..
    dsimp only
    rw [hfound]
    rfl
  | project =>
    have hfound : r.getProject entity = .ok (r.projects.get? entity) := answer_eq h ..
    dsimp only
    rw [hfound]
    rfl

lemma updateStatus_stored {old : Status} (hold : r.status? kind entity = some old)
    (status : Status) : ∃ r', r.updateStatus kind entity status = .ok (true, r') ∧
      r.Restates kind entity status r' := by
  have hstored : r.status? kind entity ≠ none := by simp [hold]
  obtain ⟨r', hset⟩ := setStatus_ne_none hstored status
  refine ⟨r', ?_, restates_of_setStatus hset⟩
  unfold updateStatus
  rw [answer_eq h, hset]

end Calls

end Repository

namespace Engine

variable {e : Engine} {r : Repository} {kind : Kind} {entity : Ident} {old target : Status}

lemma requireStatus_stored (h : e.repository.InOrder)
    (hold : e.repository.status? kind entity = some old) :
    requireStatus kind entity e = (.ok old, e) := by
  unfold requireStatus
  rw [bind_ok (ask_ok (Repository.statusOf_eq h kind entity)), hold]
  rfl

lemma requireStatus_missing (h : e.repository.InOrder)
    (hnone : e.repository.status? kind entity = none) :
    requireStatus kind entity e = (.error (.missing (.entity kind) entity), e) := by
  unfold requireStatus
  rw [bind_ok (ask_ok (Repository.statusOf_eq h kind entity)), hnone]
  rfl

/-- An operation answers, and leaves the store as it is. -/
def Answers {α : Type} (r : Repository) (op : Operation α) : Prop :=
  Ends r op fun answer r' => r' = r ∧ ∃ a, answer = .ok a

section Answers

variable {α β : Type}

lemma Answers.pure (a : α) : Answers r (Pure.pure a) :=
  Ends.pure ⟨rfl, a, rfl⟩

lemma Answers.get {f : Engine → Operation α} (h : ∀ e, Answers r (f e)) :
    Answers r (MonadState.get >>= f : Operation α) :=
  Ends.get h

lemma Answers.ite {p : Prop} [Decidable p] {op op' : Operation α} (h : Answers r op)
    (h' : Answers r op') : Answers r (if p then op else op') :=
  Ends.ite h h'

lemma Answers.bind {op : Operation α} {f : α → Operation β} (hop : Answers r op)
    (hf : ∀ a, Answers r (f a)) : Answers r (op >>= f) := by
  refine Ends.bind hop ?_ ?_
  · rintro a r' ⟨rfl, -⟩
    exact hf a
  · rintro cause r' ⟨-, a, ha⟩
    cases ha

lemma Answers.ask {call : Repository → Except EngineError α} {f : α → Operation β} {a : α}
    (h : call r = .ok a) (hf : Answers r (f a)) : Answers r (Engine.ask call >>= f) := by
  rintro e rfl
  rw [bind_ok (ask_ok h)]
  exact hf e rfl

lemma Answers.workflow {kind : Kind} {f : Workflow.Spec → Operation β}
    (hf : ∀ w, Answers r (f w)) : Answers r (liftM (Engine.workflow kind) >>= f) :=
  Answers.bind (Ends.workflow fun w => ⟨rfl, w, rfl⟩) hf

end Answers

lemma unresolvedBlockers_answers (h : r.InOrder) (task : Ident) :
    Answers r (unresolvedBlockers task) := by
  refine .ask (Repository.blockersOf_eq h task) (.ite (.pure _) ?_)
  exact .workflow fun w => .ask (Repository.getTasks_eq h _) (.pure _)

lemma shortfall_answers (h : r.InOrder) (hold : r.status? kind entity = some old)
    (target : Status) : Answers r (shortfall kind entity target) := by
  cases kind with
  | task =>
    obtain ⟨t, ht, -⟩ := Option.map_eq_some_iff.1 hold
    have hfound : r.getTask entity = .ok (some t) := ht ▸ Repository.getTask_eq h entity
    refine .ite (.ask hfound (.get fun e => .pure _)) (.ite ?_ (.pure _))
    exact (unresolvedBlockers_answers h entity).bind fun items => .pure _
  | feature =>
    have htasks : r.tasksForFeature entity = .ok _ := Repository.answer_eq h ..
    refine .ite (.ask htasks (.ite (.pure _) (.pure _))) (.ite ?_ (.pure _))
    exact .workflow fun w => .ask htasks (.pure _)
  | project =>
    have hfeatures : r.featuresForProject entity = .ok _ := Repository.answer_eq h ..
    exact .ite (.workflow fun w => .ask hfeatures (.pure _)) (.pure _)

lemma readiness_answers (h : r.InOrder) (hold : r.status? kind entity = some old)
    (target : Status) : Answers r (readiness entity kind target) := by
  have hrequire : Answers r (requireStatus kind entity) := by
    rintro e rfl
    rw [requireStatus_stored h hold]
    exact ⟨rfl, old, rfl⟩
  refine hrequire.bind fun _ => .workflow fun w => .get fun e => .ite (.pure _) ?_
  refine (shortfall_answers h hold target).bind fun found => ?_
  cases found with
  | none => exact .pure _
  | some s => exact .pure _

section Apply

variable (h : e.repository.InOrder)

include h

lemma applyStatus_missing (hnone : e.repository.status? kind entity = none) :
    applyStatus entity kind target e = (.error (.missing (.entity kind) entity), e) := by
  unfold applyStatus
  exact bind_error (requireStatus_missing h hnone)

variable (hold : e.repository.status? kind entity = some old)

include hold

lemma applyStatus_rejected {cause : Workflow.Rejection}
    (hcheck : (workflow kind e).1.checkTransition old target = .error cause) :
    applyStatus entity kind target e =
      (.error (.invalid (.rejected cause.message)), (workflow kind e).2) := by
  unfold applyStatus
  rw [bind_ok (requireStatus_stored h hold), bind_ok (liftM_workflow kind e), hcheck]
  rfl

variable {e' : Engine} (hcheck : (workflow kind e).1.checkTransition old target = .ok ())

include hcheck

lemma applyStatus_unmet {s : Shortfall}
    (hready : readiness entity kind target (workflow kind e).2 = (.ok (.unmet s), e')) :
    applyStatus entity kind target e = (.error (.prerequisite s), e') := by
  unfold applyStatus
  rw [bind_ok (requireStatus_stored h hold), bind_ok (liftM_workflow kind e), hcheck]
  change (readiness entity kind target >>= _ : Operation StatusChange) (workflow kind e).2 = _
  rw [bind_ok hready]
  rfl

lemma applyStatus_satisfied (hstored : e'.repository = e.repository)
    (hready : readiness entity kind target (workflow kind e).2 = (.ok .satisfied, e')) :
    ∃ r', e.repository.Restates kind entity target r' ∧
      applyStatus entity kind target e =
        (.ok ⟨entity, kind, old, target⟩, { e' with repository := r' }) := by
  obtain ⟨r', hwrite, hrestates⟩ := Repository.updateStatus_stored h hold target
  rw [← hstored] at hwrite
  refine ⟨r', hrestates, ?_⟩
  unfold applyStatus
  rw [bind_ok (requireStatus_stored h hold), bind_ok (liftM_workflow kind e), hcheck]
  change (readiness entity kind target >>= _ : Operation StatusChange) (workflow kind e).2 = _
  rw [bind_ok hready]
  change (store _ >>= _ : Operation StatusChange) e' = _
  rw [bind_ok (store_ok hwrite)]
  rfl

end Apply

lemma applyStatus_stored (h : e.repository.InOrder)
    (hold : e.repository.status? kind entity = some old) (target : Status) :
    (∃ cause, (workflow kind e).1.checkTransition old target = .error cause ∧
      (applyStatus entity kind target e).1 = .error (.invalid (.rejected cause.message)) ∧
      (applyStatus entity kind target e).2.repository = e.repository) ∨
    (workflow kind e).1.checkTransition old target = .ok () ∧
      ((∃ s, (readiness entity kind target (workflow kind e).2).1 = .ok (.unmet s) ∧
        (applyStatus entity kind target e).1 = .error (.prerequisite s) ∧
        (applyStatus entity kind target e).2.repository = e.repository) ∨
      (readiness entity kind target (workflow kind e).2).1 = .ok .satisfied ∧
        (applyStatus entity kind target e).1 = .ok ⟨entity, kind, old, target⟩ ∧
        e.repository.Restates kind entity target
          (applyStatus entity kind target e).2.repository) := by
  rcases hcheck : (workflow kind e).1.checkTransition old target with cause | _
  · rw [applyStatus_rejected h hold hcheck]
    exact .inl ⟨cause, rfl, rfl, rfl⟩
  obtain ⟨hstored, found, hfound⟩ :=
    readiness_answers h hold target (workflow kind e).2 rfl
  rcases hready : readiness entity kind target (workflow kind e).2 with ⟨answer, e'⟩
  rw [hready] at hstored hfound
  dsimp only at hstored hfound
  subst hfound
  cases found with
  | unmet s =>
    rw [applyStatus_unmet h hold hcheck hready]
    exact .inr ⟨rfl, .inl ⟨s, rfl, rfl, hstored⟩⟩
  | satisfied =>
    obtain ⟨r', hrestates, hmade⟩ := applyStatus_satisfied h hold hcheck hstored hready
    rw [hmade]
    exact .inr ⟨rfl, .inr ⟨rfl, rfl, hrestates⟩⟩

/-- A change of status whose lock is held is made as the workflow accepts it, or it fails. -/
lemma applyStatus_cases (h : e.repository.InOrder) (entity : Ident) (kind : Kind)
    (target : Status) :
    (∃ cause, (applyStatus entity kind target e).1 = .error cause ∧
      (applyStatus entity kind target e).2.repository = e.repository) ∨
    ∃ old, e.repository.status? kind entity = some old ∧
      (workflow kind e).1.checkTransition old target = .ok () ∧
      (applyStatus entity kind target e).1 = .ok ⟨entity, kind, old, target⟩ ∧
      e.repository.Restates kind entity target (applyStatus entity kind target e).2.repository := by
  rcases hold : e.repository.status? kind entity with _ | old
  · rw [applyStatus_missing h hold]
    exact .inl ⟨_, rfl, rfl⟩
  rcases applyStatus_stored h hold target with
    ⟨cause, -, hrejected⟩ | ⟨hcheck, ⟨s, -, hunmet⟩ | ⟨-, hmade⟩⟩
  · exact .inl ⟨_, hrejected⟩
  · exact .inl ⟨_, hunmet⟩
  · exact .inr ⟨old, rfl, hcheck, hmade⟩

lemma changeStatus_unreadable {raw : String} {cause : ReadError}
    (hparse : Status.parse raw = .error cause) :
    changeStatus entity kind raw e = (.error (.invalid (.unreadable cause)), e) := by
  unfold changeStatus
  rw [hparse]
  rfl

lemma changeStatus_readable {raw : String} (hparse : Status.parse raw = .ok target) :
    changeStatus entity kind raw e = withLock entity (applyStatus entity kind target) e := by
  unfold changeStatus
  rw [hparse]
  rfl

/-- A change of status is made as the text and the workflow have it, or it fails. -/
theorem changeStatus_cases (h : e.repository.InOrder) (entity : Ident) (kind : Kind)
    (raw : String) :
    (∃ cause, (changeStatus entity kind raw e).1 = .error cause ∧
      (changeStatus entity kind raw e).2.repository = e.repository) ∨
    ∃ old target, Status.parse raw = .ok target ∧ e.repository.status? kind entity = some old ∧
      (workflow kind e).1.checkTransition old target = .ok () ∧
      (changeStatus entity kind raw e).1 = .ok ⟨entity, kind, old, target⟩ ∧
      e.repository.Restates kind entity target (changeStatus entity kind raw e).2.repository := by
  rcases hparse : Status.parse raw with cause | target
  · rw [changeStatus_unreadable hparse]
    exact .inl ⟨_, rfl, rfl⟩
  rw [changeStatus_readable hparse]
  rcases hlocked : e.locks.isLocked entity with _ | _
  · obtain ⟨locks, tickets, hanswer, hstored⟩ :=
      withLock_free hlocked (applyStatus entity kind target)
    rw [hanswer, hstored]
    have hcases := applyStatus_cases (e := { e with locks, tickets }) h entity kind target
    refine hcases.imp_right ?_
    rintro ⟨old, hold, hcheck, hmade⟩
    exact ⟨old, target, rfl, hold, hcheck, hmade⟩
  · obtain ⟨hanswer, hstored⟩ := withLock_held hlocked (applyStatus entity kind target)
    exact .inl ⟨_, hanswer, hstored⟩

end Engine

end TaskFlow

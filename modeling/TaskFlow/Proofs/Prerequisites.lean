import TaskFlow.Proofs.Starting

/-!
# What a change of status is refused for

Where prerequisites are checked, each kind lacks something for a few of its statuses only. A task
lacks a summary of a fitting length or the end of what blocks it; a feature or a project lacks
children, or children that have come to an end by the workflow of their own kind.
-/

namespace TaskFlow

namespace Engine

/-- The children of an entity, and those of them that have not come to an end in their workflow, of
which there are some. -/
structure Unfinished {α : Type} [Recorded α] (r : Roster α) (belongs : α → Prop)
    (status : α → Status) (w : Workflow.Spec) (children rest : List α) : Prop where
  lists_children : Recorded.Lists children fun a => a ∈ r.toList ∧ belongs a
  lists_rest : Recorded.Lists rest fun a => (a ∈ r.toList ∧ belongs a) ∧ status a ∉ w.terminal
  nonempty : rest ≠ []

/-- What an entity lacks for its target status. -/
inductive Lacks (e : Engine) (specs : Kind → Workflow.Spec) (entity : Ident) (target : Status) :
    Kind → Shortfall → Prop
  | brief {t : Task} {n min max : Nat} (htarget : target = .completed)
      (ht : t ∈ e.repository.tasks.toList) (hid : t.id = entity) (hlength : t.summaryLength = n)
      (hmin : e.settings.prerequisites.summaryMin = min)
      (hmax : e.settings.prerequisites.summaryMax = max) (hshort : n < min) :
      Lacks e specs entity target .task {
        requirement := .summaryLength n min max
        reason := s!"Task summary is {n} characters, below the minimum of {min} " ++
          s!"(required range {min}-{max})" }
  | lengthy {t : Task} {n min max : Nat} (htarget : target = .completed)
      (ht : t ∈ e.repository.tasks.toList) (hid : t.id = entity) (hlength : t.summaryLength = n)
      (hmin : e.settings.prerequisites.summaryMin = min)
      (hmax : e.settings.prerequisites.summaryMax = max) (hlong : max < n) (henough : min ≤ n) :
      Lacks e specs entity target .task {
        requirement := .summaryLength n min max
        reason := s!"Task summary is {n} characters, above the maximum of {max} " ++
          s!"(required range {min}-{max})" }
  | blocked {items : List BlockingItem} (htarget : target = .inProgress)
      (hitems : (blockedBy entity e).1 = .ok items) (hsome : items ≠ []) :
      Lacks e specs entity target .task {
        requirement := .blockingDependencies
        reason := s!"Task is blocked by {items.length} incomplete " ++
          (if items.length = 1 then "task" else "tasks")
        items }
  | childless (htarget : target = .inDevelopment)
      (hnone : ∀ t ∈ e.repository.tasks.toList, t.feature ≠ some entity) :
      Lacks e specs entity target .feature {
        requirement := .noChildTasks
        reason := "Feature must have at least 1 task before moving to IN_DEVELOPMENT" }
  | openTasks {children rest : List Task} (htarget : target = .testing ∨ target = .completed)
      (hopen : Unfinished e.repository.tasks (·.feature = some entity) Task.status (specs .task)
        children rest) :
      Lacks e specs entity target .feature {
        requirement := .incompleteChildTasks
        reason := s!"{rest.length} of {children.length} tasks in the feature are not complete"
        items := rest.map (blockingTask · none) }
  | openFeatures {children rest : List Feature} (htarget : target = .completed)
      (hopen : Unfinished e.repository.features (·.project = some entity) Feature.status
        (specs .feature) children rest) :
      Lacks e specs entity target .project {
        requirement := .incompleteChildFeatures
        reason := s!"{rest.length} of {children.length} features in the project are not complete"
        items := rest.map blockingFeature }

/-- The statuses of each kind that an entity can lack something for. -/
def Demands : Kind → Status → Prop
  | .task, target => target = .completed ∨ target = .inProgress
  | .feature, target => target = .inDevelopment ∨ target = .testing ∨ target = .completed
  | .project, target => target = .completed

variable {e : Engine} {specs : Kind → Workflow.Spec} {entity : Ident} {kind : Kind}
  {target old : Status} {s : Shortfall}

lemma Lacks.demands (h : Lacks e specs entity target kind s) : Demands kind target := by
  cases h with
  | brief htarget => exact .inl htarget
  | lengthy htarget => exact .inl htarget
  | blocked htarget => exact .inr htarget
  | childless htarget => exact .inl htarget
  | openTasks htarget => exact .inr htarget
  | openFeatures htarget => exact htarget

lemma shortfall_of_not_demands (h : ¬ Demands kind target) :
    (shortfall kind entity target e).1 = .ok none := by
  unfold shortfall
  cases kind with
  | task =>
    obtain ⟨hdone, hstart⟩ := not_or.1 h
    dsimp only
    rw [if_neg hdone, if_neg hstart]
    rfl
  | feature =>
    obtain ⟨hstart, hdone⟩ := not_or.1 h
    dsimp only
    rw [if_neg hstart, if_neg hdone]
    rfl
  | project =>
    have hdone : target ≠ .completed := h
    dsimp only
    rw [if_neg hdone]
    rfl

lemma summaryShortfall_eq_some_iff {p : PrerequisiteSettings} {n : Nat} :
    summaryShortfall p n = some s ↔
      (n < p.summaryMin ∧ s = {
        requirement := .summaryLength n p.summaryMin p.summaryMax
        reason := s!"Task summary is {n} characters, below the minimum of {p.summaryMin} " ++
          s!"(required range {p.summaryMin}-{p.summaryMax})" }) ∨
      (p.summaryMax < n ∧ p.summaryMin ≤ n ∧ s = {
        requirement := .summaryLength n p.summaryMin p.summaryMax
        reason := s!"Task summary is {n} characters, above the maximum of {p.summaryMax} " ++
          s!"(required range {p.summaryMin}-{p.summaryMax})" }) := by
  unfold summaryShortfall
  simp only [String.append_assoc]
  by_cases hshort : n < p.summaryMin
  · have henough : ¬ p.summaryMin ≤ n := Nat.not_le.2 hshort
    rw [if_pos hshort, Option.some.injEq]
    simp only [hshort, henough, true_and, false_and, and_false, or_false]
    exact eq_comm
  · rw [if_neg hshort]
    by_cases hlong : p.summaryMax < n
    · rw [if_pos hlong, Option.some.injEq]
      simp only [hshort, hlong, Nat.not_lt.1 hshort, true_and, false_and, false_or]
      exact eq_comm
    · simp [hshort, hlong]

lemma blockerShortfall_eq_some_iff {items : List BlockingItem} :
    blockerShortfall items = some s ↔ items ≠ [] ∧ s = {
      requirement := .blockingDependencies
      reason := s!"Task is blocked by {items.length} incomplete " ++
        (if items.length = 1 then "task" else "tasks")
      items } := by
  unfold blockerShortfall
  by_cases hnone : items = []
  · simp [hnone]
  · rw [if_neg (by simpa using hnone), Option.some.injEq]
    exact eq_comm.trans (and_iff_right hnone).symm

section Children

variable {α : Type} [Recorded α] {r : Roster α} {test : α → Bool} {belongs : α → Prop}
  {status : α → Status} {w : Workflow.Spec} {children rest : List α}

lemma unfinished_iff (htest : ∀ a, test a = true ↔ belongs a) :
    Unfinished r belongs status w children rest ↔
      children = r.select test ∧
        rest = (r.select test).filter (fun a => !w.isTerminal (status a)) ∧ rest ≠ [] := by
  have hchildren : Recorded.Lists (r.select test) fun a => a ∈ r.toList ∧ belongs a :=
    (r.lists_select test).congr fun a => and_congr_right fun _ => htest a
  have hrest : Recorded.Lists ((r.select test).filter fun a => !w.isTerminal (status a)) fun a =>
      (a ∈ r.toList ∧ belongs a) ∧ status a ∉ w.terminal :=
    (hchildren.filter _).congr fun a => by simp [Workflow.Spec.isTerminal]
  constructor
  · intro h
    exact ⟨h.lists_children.unique hchildren, h.lists_rest.unique hrest, h.nonempty⟩
  · rintro ⟨rfl, rfl, hsome⟩
    exact ⟨hchildren, hrest, hsome⟩

lemma unfinished_iff_of_alike {w' : Workflow.Spec} (h : w.Alike w') :
    Unfinished r belongs status w' children rest ↔ Unfinished r belongs status w children rest := by
  rw [h.fields]
  exact ⟨fun ⟨hall, hopen, hsome⟩ => ⟨hall, hopen, hsome⟩,
    fun ⟨hall, hopen, hsome⟩ => ⟨hall, hopen, hsome⟩⟩

lemma childShortfall_eq_some_iff (htest : ∀ a, test a = true ↔ belongs a)
    {requirement : Requirement} {noun owner : String} {item : α → BlockingItem} :
    childShortfall requirement noun owner (r.select test).length
        (((r.select test).filter fun a => !w.isTerminal (status a)).map item) = some s ↔
      ∃ children rest, Unfinished r belongs status w children rest ∧ s = {
        requirement
        reason := s!"{rest.length} of {children.length} {noun} in the {owner} are not complete"
        items := rest.map item } := by
  simp only [unfinished_iff htest]
  unfold childShortfall
  by_cases hnone : (r.select test).filter (fun a => !w.isTerminal (status a)) = []
  · constructor
    · intro h
      rw [hnone] at h
      cases h
    · rintro ⟨children, rest, ⟨-, rfl, hsome⟩, -⟩
      exact absurd hnone hsome
  · rw [if_neg (by simpa using hnone), Option.some.injEq, List.length_map]
    constructor
    · rintro rfl
      exact ⟨_, _, ⟨rfl, rfl, hnone⟩, rfl⟩
    · rintro ⟨children, rest, ⟨rfl, rfl, -⟩, rfl⟩
      rfl

end Children

section Stored

variable (horder : e.repository.InOrder)

include horder

lemma shortfall_completed {t : Task} (ht : e.repository.tasks.get? entity = some t) :
    (shortfall .task entity .completed e).1 =
      .ok (summaryShortfall e.settings.prerequisites t.summaryLength) := by
  have hfound : e.repository.getTask entity = .ok (some t) :=
    ht ▸ Repository.getTask_eq horder entity
  unfold shortfall
  dsimp only
  rw [if_pos rfl, bind_ok (ask_ok hfound)]
  rfl

lemma shortfall_inDevelopment : (shortfall .feature entity .inDevelopment e).1 =
    .ok (if (e.repository.tasks.select (·.feature == some entity)).isEmpty then
      some {
        requirement := .noChildTasks
        reason := "Feature must have at least 1 task before moving to IN_DEVELOPMENT" }
      else none) := by
  have htasks : e.repository.tasksForFeature entity = .ok _ := Repository.answer_eq horder ..
  unfold shortfall
  dsimp only
  rw [if_pos rfl, bind_ok (ask_ok htasks)]
  split <;> rfl

lemma shortfall_openTasks (htarget : target = .testing ∨ target = .completed) :
    (shortfall .feature entity target e).1 =
      .ok (childShortfall .incompleteChildTasks "tasks" "feature"
        (e.repository.tasks.select (·.feature == some entity)).length
        (((e.repository.tasks.select (·.feature == some entity)).filter
          fun t => !(workflow .task e).1.isTerminal t.status).map (blockingTask · none))) := by
  have htasks : e.repository.tasksForFeature entity = .ok _ := Repository.answer_eq horder ..
  have hother : target ≠ .inDevelopment := by
    rcases htarget with rfl | rfl <;> decide
  unfold shortfall
  dsimp only
  rw [if_neg hother, if_pos htarget, bind_ok (liftM_workflow .task e), bind_ok (ask_ok htasks)]
  rfl

lemma shortfall_openFeatures : (shortfall .project entity .completed e).1 =
    .ok (childShortfall .incompleteChildFeatures "features" "project"
      (e.repository.features.select (·.project == some entity)).length
      (((e.repository.features.select (·.project == some entity)).filter
        fun f => !(workflow .feature e).1.isTerminal f.status).map blockingFeature)) := by
  have hfeatures : e.repository.featuresForProject entity = .ok _ :=
    Repository.answer_eq horder ..
  unfold shortfall
  dsimp only
  rw [if_pos rfl, bind_ok (liftM_workflow .feature e), bind_ok (ask_ok hfeatures)]
  rfl

lemma shortfall_completed_iff {t : Task} (ht : e.repository.tasks.get? entity = some t) :
    (shortfall .task entity .completed e).1 = .ok (some s) ↔
      Lacks e specs entity .completed .task s := by
  obtain ⟨hmem, hid⟩ := Roster.get?_eq_some_iff.1 ht
  rw [shortfall_completed horder ht, Except.ok.injEq, summaryShortfall_eq_some_iff]
  constructor
  · rintro (⟨hshort, rfl⟩ | ⟨hlong, henough, rfl⟩)
    · exact .brief rfl hmem hid rfl rfl rfl hshort
    · exact .lengthy rfl hmem hid rfl rfl rfl hlong henough
  · intro h
    cases h with
    | brief _ ht' hid' hlength hmin hmax hshort =>
      obtain rfl := Roster.eq_of_id_eq hmem ht' (hid.trans hid'.symm)
      subst hlength hmin hmax
      exact .inl ⟨hshort, rfl⟩
    | lengthy _ ht' hid' hlength hmin hmax hlong henough =>
      obtain rfl := Roster.eq_of_id_eq hmem ht' (hid.trans hid'.symm)
      subst hlength hmin hmax
      exact .inr ⟨hlong, henough, rfl⟩
    | blocked htarget => exact absurd htarget (by decide)

lemma shortfall_inProgress_iff (hstored : e.repository.Stores entity) :
    (shortfall .task entity .inProgress e).1 = .ok (some s) ↔
      Lacks e specs entity .inProgress .task s := by
  have hblocked := blockedBy_stored horder hstored
  rw [shortfall_inProgress horder, Except.ok.injEq, blockerShortfall_eq_some_iff]
  constructor
  · rintro ⟨hsome, rfl⟩
    exact .blocked rfl hblocked hsome
  · intro h
    cases h with
    | brief htarget => exact absurd htarget (by decide)
    | lengthy htarget => exact absurd htarget (by decide)
    | blocked _ hitems hsome =>
      rw [hblocked] at hitems
      cases hitems
      exact ⟨hsome, rfl⟩

lemma shortfall_inDevelopment_iff : (shortfall .feature entity .inDevelopment e).1 = .ok (some s) ↔
    Lacks e specs entity .inDevelopment .feature s := by
  have hnone : (e.repository.tasks.select (·.feature == some entity)).isEmpty = true ↔
      ∀ t ∈ e.repository.tasks.toList, t.feature ≠ some entity := by
    simp [Roster.select]
  rw [shortfall_inDevelopment horder, Except.ok.injEq]
  constructor
  · intro h
    split at h
    · rename_i hempty
      cases h
      exact .childless rfl (hnone.1 hempty)
    · cases h
  · intro h
    cases h with
    | childless _ hchildless => rw [if_pos (hnone.2 hchildless)]
    | openTasks htarget => exact absurd htarget (by decide)

lemma shortfall_openTasks_iff (hspec : (specs .task).Alike (workflow .task e).1)
    (htarget : target = .testing ∨ target = .completed) :
    (shortfall .feature entity target e).1 = .ok (some s) ↔
      Lacks e specs entity target .feature s := by
  have htest : ∀ t : Task, (t.feature == some entity) = true ↔ t.feature = some entity :=
    fun t => beq_iff_eq
  rw [shortfall_openTasks horder htarget, Except.ok.injEq, childShortfall_eq_some_iff htest]
  simp only [unfinished_iff_of_alike hspec]
  constructor
  · rintro ⟨children, rest, hopen, rfl⟩
    have hlacks : Lacks e specs entity target .feature _ := .openTasks htarget hopen
    simp only [String.append_assoc] at hlacks ⊢
    exact hlacks
  · intro h
    cases h with
    | childless hstart =>
      subst hstart
      exact absurd htarget (by decide)
    | openTasks _ hopen => exact ⟨_, _, hopen, by simp only [String.append_assoc]; rfl⟩

lemma shortfall_openFeatures_iff (hspec : (specs .feature).Alike (workflow .feature e).1) :
    (shortfall .project entity .completed e).1 = .ok (some s) ↔
      Lacks e specs entity .completed .project s := by
  have htest : ∀ f : Feature, (f.project == some entity) = true ↔ f.project = some entity :=
    fun f => beq_iff_eq
  rw [shortfall_openFeatures horder, Except.ok.injEq, childShortfall_eq_some_iff htest]
  simp only [unfinished_iff_of_alike hspec]
  constructor
  · rintro ⟨children, rest, hopen, rfl⟩
    have hlacks : Lacks e specs entity .completed .project _ := .openFeatures rfl hopen
    simp only [String.append_assoc] at hlacks ⊢
    exact hlacks
  · intro h
    cases h with
    | openFeatures _ hopen => exact ⟨_, _, hopen, by simp only [String.append_assoc]; rfl⟩

lemma shortfall_iff (hold : e.repository.status? kind entity = some old)
    (hspecs : ∀ kind, (specs kind).Alike (workflow kind e).1) :
    (shortfall kind entity target e).1 = .ok (some s) ↔ Lacks e specs entity target kind s := by
  by_cases hdemands : Demands kind target
  · cases kind with
    | task =>
      obtain ⟨t, ht, -⟩ := Option.map_eq_some_iff.1 hold
      rcases hdemands with rfl | rfl
      · exact shortfall_completed_iff horder ht
      · exact shortfall_inProgress_iff horder ⟨t, Roster.get?_eq_some_iff.1 ht⟩
    | feature =>
      rcases hdemands with rfl | htarget
      · exact shortfall_inDevelopment_iff horder
      · exact shortfall_openTasks_iff horder (hspecs .task) htarget
    | project =>
      obtain rfl : target = .completed := hdemands
      exact shortfall_openFeatures_iff horder (hspecs .feature)
  · rw [shortfall_of_not_demands hdemands]
    constructor
    · rintro ⟨⟩
    · intro h
      exact absurd h.demands hdemands

lemma readiness_missing (hnone : e.repository.status? kind entity = none) :
    (readiness entity kind target e).1 = .error (.missing (.entity kind) entity) := by
  unfold readiness
  rw [bind_error (requireStatus_missing horder hnone)]

lemma readiness_unchecked (hold : e.repository.status? kind entity = some old)
    (hunchecked : e.settings.prerequisites.enabled = false ∨
      (workflow kind e).1.rules.validatePrerequisites = false) :
    (readiness entity kind target e).1 = .ok .satisfied := by
  have hpasses : (!(workflow kind e).2.settings.prerequisites.enabled ||
      !(workflow kind e).1.rules.validatePrerequisites) = true := by
    change (!e.settings.prerequisites.enabled ||
      !(workflow kind e).1.rules.validatePrerequisites) = true
    rcases hunchecked with hoff | hoff <;> simp [hoff]
  unfold readiness
  rw [bind_ok (requireStatus_stored horder hold), bind_ok (liftM_workflow kind e), get_bind,
    if_pos hpasses]
  rfl

end Stored

lemma repository_readiness (e : Engine) :
    (readiness entity kind target e).2.repository = e.repository := by
  have hreads := lockCongruence_having (P := (· = e.repository))
  exact (hreads.readiness entity kind target).keeps e rfl

/-- An entity that is not stored is missing; one whose prerequisites are not checked is ready. Any
other is ready just if it lacks nothing, and what it is told otherwise is what it lacks. Nothing
that is stored is changed by asking. -/
theorem readiness_iff_lacks (e : Engine) (specs : Kind → Workflow.Spec) (entity : Ident)
    (kind : Kind) (target : Status) (horder : e.repository.InOrder)
    (hfaithful : e.cache.Faithful e.source)
    (hspecs : ∀ kind, e.source.Gives kind e.root (specs kind)) :
    let answer := (readiness entity kind target e).1
    (e.repository.status? kind entity = none → answer = .error (.missing (.entity kind) entity)) ∧
    (e.repository.status? kind entity ≠ none →
      (e.settings.prerequisites.enabled = false ∨
          (specs kind).rules.validatePrerequisites = false → answer = .ok .satisfied) ∧
      (e.settings.prerequisites.enabled = true →
          (specs kind).rules.validatePrerequisites = true →
        (∀ s, answer = .ok (.unmet s) ↔ Lacks e specs entity target kind s) ∧
        (answer = .ok .satisfied ↔ ∀ s, ¬ Lacks e specs entity target kind s))) ∧
    (readiness entity kind target e).2.repository = e.repository := by
  intro answer
  have hdraws : e.Draws e.source := ⟨rfl, hfaithful⟩
  have hgiven : ∀ kind, (specs kind).Alike (workflow kind e).1 :=
    fun kind => (hspecs kind).alike (hdraws.workflow kind).1
  refine ⟨readiness_missing horder, fun hstored => ?_, repository_readiness e⟩
  obtain ⟨old, hold⟩ := Option.ne_none_iff_exists'.1 hstored
  have hrules : (workflow kind e).1.rules = (specs kind).rules := by rw [(hgiven kind).fields]
  rw [← hrules]
  refine ⟨readiness_unchecked horder hold, fun henabled hchecks => ?_⟩
  obtain ⟨-, found, hfound⟩ := shortfall_answers horder hold target e rfl
  have hanswer : answer = .ok (found.elim .satisfied .unmet) :=
    readiness_checked horder hdraws hold henabled hchecks hfound
  have hlacks : ∀ s, found = some s ↔ Lacks e specs entity target kind s := by
    intro s
    rw [← shortfall_iff horder hold hgiven, hfound, Except.ok.injEq]
  simp only [← hlacks, hanswer]
  rcases found with _ | s
  · simp
  · simp

/-- A feature with three tasks, of which the first is done. -/
def staffed : Engine :=
  let task (n : Nat) (status : Status) : Task :=
    { id := .ofNat n, title := "", status, summary := none, feature := some (.ofNat 9),
      createdAt := .epoch }
  let feature : Feature :=
    { id := .ofNat 9, name := "", status := .validating, project := none, createdAt := .epoch }
  .ofRepository {
    tasks := .ofList [task 1 .completed, task 3 .pending, task 2 .testing]
    features := .ofList [feature]
    supply := fun n => ⟨.ofNat n, .epoch⟩ }

theorem readiness_staffed : staffed.repository.InOrder ∧
    staffed.cache.Faithful staffed.source ∧
    (∀ kind, staffed.source.Gives kind staffed.root (.builtIn kind)) ∧
    (readiness (.ofNat 9) .feature .completed staffed).1 = .ok (.unmet {
      requirement := .incompleteChildTasks
      reason := "2 of 3 tasks in the feature are not complete"
      items := [⟨.ofNat 2, .task, "", "TESTING", none⟩,
        ⟨.ofNat 3, .task, "", "PENDING", none⟩] }) := by
  have hfaithful : staffed.cache.Faithful staffed.source :=
    Workflow.Cache.faithful_of_entries_eq_none fun _ => rfl
  have hgives : ∀ kind, staffed.source.Gives kind staffed.root (.builtIn kind) := by
    intro kind
    refine .builtIn ?_
    rintro d order w ⟨⟩
  have htest : ∀ t : Task, (t.feature == some (Ident.ofNat 9)) = true ↔
      t.feature = some (.ofNat 9) := fun t => beq_iff_eq
  have hopen : Unfinished staffed.repository.tasks (·.feature = some (.ofNat 9)) Task.status
      (.builtIn .task) _ _ := (unfinished_iff htest).2 ⟨rfl, rfl, by decide⟩
  obtain ⟨-, hstored, -⟩ := readiness_iff_lacks staffed (fun kind => .builtIn kind) (.ofNat 9)
    .feature .completed rfl hfaithful hgives
  obtain ⟨-, hchecked⟩ := hstored (Option.some_ne_none _)
  have hunmet := ((hchecked rfl rfl).1 _).2 (.openTasks (.inr rfl) hopen)
  exact ⟨rfl, hfaithful, hgives, hunmet⟩

end Engine

end TaskFlow

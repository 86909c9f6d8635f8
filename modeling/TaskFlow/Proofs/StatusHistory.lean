import TaskFlow.Proofs.Caching
import TaskFlow.Proofs.StatusChanges

/-!
# The history of a status

Records change only where a change of status answers that it was made, and then one record in its
status alone. So the statuses of an entity follow each other as these answers say, and while the
documents stay as they are the workflow of the caller's root accepts each step.
-/

namespace TaskFlow

namespace Repository

/-- All records are the same, whatever became of the edges. -/
structure SameRecords (r r' : Repository) : Prop where
  tasks : r'.tasks = r.tasks
  features : r'.features = r.features
  projects : r'.projects = r.projects
  outages : r'.outages = r.outages

variable {r r' r'' : Repository}

lemma SameRecords.refl : r.SameRecords r :=
  ⟨rfl, rfl, rfl, rfl⟩

lemma SameRecords.trans (h : r.SameRecords r') (k : r'.SameRecords r'') : r.SameRecords r'' :=
  ⟨k.tasks.trans h.tasks, k.features.trans h.features, k.projects.trans h.projects,
    k.outages.trans h.outages⟩

lemma SameRecords.status? (h : r.SameRecords r') (kind : Kind) (entity : Ident) :
    r'.status? kind entity = r.status? kind entity := by
  cases kind with
  | task => exact congrArg (fun s => (s.get? entity).map Task.status) h.tasks
  | feature => exact congrArg (fun s => (s.get? entity).map Feature.status) h.features
  | project => exact congrArg (fun s => (s.get? entity).map Project.status) h.projects

lemma eq_of_answer_eq_ok {α : Type} {call : Call} {id : Option Ident} {absent result a : α}
    (h : r.answer call id absent result = .ok a) : a = absent ∨ a = result := by
  unfold answer at h
  split at h
  · exact .inr (Except.ok.inj h).symm
  · cases h
  · exact .inl (Except.ok.inj h).symm

lemma sameRecords_deleteById {edge : Ident} {found : Bool}
    (hcall : r.deleteById edge = .ok (found, r')) : r.SameRecords r' := by
  rcases eq_of_answer_eq_ok hcall with heq | heq
  · cases heq
    exact .refl
  · cases heq
    exact ⟨rfl, rfl, rfl, rfl⟩

lemma sameRecords_deleteByTask {task : Ident} {count : Nat}
    (hcall : r.deleteByTask task = .ok (count, r')) : r.SameRecords r' := by
  rcases eq_of_answer_eq_ok hcall with heq | heq <;> cases heq <;> exact ⟨rfl, rfl, rfl, rfl⟩

lemma sameRecords_addEdge {o : Order} {d : Dependency} (hcall : r.addEdge o = .ok (d, r')) :
    r.SameRecords r' := by
  unfold addEdge at hcall
  rcases hcheck : r.checkNew o.request with cause | _
  · rw [hcheck] at hcall
    cases hcall
  · rw [hcheck] at hcall
    have hcreate : r.create o.request o.id? o.at? = .ok (d, r') := hcall
    rcases eq_of_answer_eq_ok hcreate with heq | heq <;> cases heq <;> exact ⟨rfl, rfl, rfl, rfl⟩

end Repository

namespace Engine

variable {α : Type} {e : Engine} {r : Repository}

lemma actionCongruence_sameRecords : ActionCongruence Eq (Having r.SameRecords) :=
  actionCongruence_having
    (fun _ _ h _ _ hcall => h.trans (Repository.sameRecords_deleteById hcall))
    (fun _ _ h _ _ hcall => h.trans (Repository.sameRecords_addEdge hcall))
    (fun _ _ h _ _ hcall => h.trans (Repository.sameRecords_deleteByTask hcall))

lemma perform_sameRecords (action : Action α) (hstatus : action.writesStatus = false) :
    e.repository.SameRecords (action.perform e).2.repository := by
  have hkeeps : Keeps e.repository.SameRecords action.perform :=
    (actionCongruence_sameRecords.perform action fun htrue => by
      rw [hstatus] at htrue
      cases htrue).keeps
  exact hkeeps e .refl

/-- The change of status that an answer reports. -/
def Action.change? {α : Type} : Action α → α → Option StatusChange
  | changeStatus .., answer => answer.toOption
  | _, _ => none

/-- The action asks for the change of status. -/
def Action.Asks {α : Type} : Action α → StatusChange → Prop
  | changeStatus entity kind raw, change =>
    change.entity = entity ∧ change.kind = kind ∧ Status.parse raw = .ok change.target
  | _, _ => False

def failureOf {α : Type} : Except EngineError α → Option EngineError
  | .ok _ => none
  | .error cause => some cause

/-- The error for which a call fails. Calls that answer for many requests at once do not fail, nor
do those that only give a verdict. -/
def Action.failure? {α : Type} : Action α → α → Option EngineError
  | ask _, answer | storeEdge _, answer | removeEdge _, answer | removeEdges .., answer
  | removeEdgesAt _, answer | addDependency _, answer | createDependency .., answer
  | createFromText .., answer | deleteDependency _, answer | deleteDependencies .., answer
  | deleteTaskDependencies _, answer | queryNeighbors .., answer | queryGraph .., answer
  | blockedBy _, answer | validatePrerequisites .., answer | changeStatus .., answer
  | hold _, answer => failureOf answer
  | storeEdges _, _ | addDependencies _, _ | workflow _, _ | validateStatus .., _
  | validateTransition .., _ | withRoot _, _ | invalidate _, _ | unhold _, _ => none

/-- An operation that fails leaves the store as it is. -/
def Atomic {α : Type} (r : Repository) (op : Operation α) : Prop :=
  Ends r op fun answer r' => ∀ cause, answer = .error cause → r' = r

section Atomic

variable {β : Type}

lemma atomic_store (call : Repository → Except EngineError (α × Repository)) :
    Atomic r (store call) := by
  refine Ends.store ?_ fun _ _ _ _ => rfl
  rintro a r' - cause ⟨⟩

lemma Atomic.withLock {op : Operation α} (h : Atomic r op) (entity : Ident) :
    Atomic r (Engine.withLock entity op) :=
  Ends.withLock h fun _ _ _ _ => rfl

lemma Atomic.withLocks {op : Operation α} (h : Atomic r op) (a b : Ident) :
    Atomic r (Engine.withLocks a b op) :=
  Ends.withLocks h fun _ _ _ _ => rfl

lemma Atomic.bind {op : Operation β} {f : β → Operation α} (hop : Keeps (· = r) op)
    (hf : ∀ b, (∃ e, e.repository = r ∧ (op e).1 = .ok b) → Atomic r (f b)) :
    Atomic r (op >>= f) := by
  intro e he
  have hstored := hop e he
  rcases hres : op e with ⟨result, e'⟩
  rw [hres] at hstored
  cases result with
  | ok b =>
    rw [bind_ok hres]
    exact hf b ⟨e, he, by rw [hres]⟩ e' hstored
  | error cause =>
    rw [bind_error hres]
    rintro _ -
    exact hstored

lemma atomic_addDependency (o : Order) : Atomic r (addDependency o) :=
  .bind (Respects.demand _).keeps fun _ _ => (atomic_store _).withLocks _ _

lemma atomic_createDependency (o : Order) (unblockAt : Option String) :
    Atomic r (createDependency o unblockAt) :=
  .bind (Respects.demand _).keeps fun _ _ => atomic_addDependency _

lemma atomic_createFromText (source target : Ident) (relation : String)
    (unblockAt : Option String) (edge : Option Ident) (time : Option Instant) :
    Atomic r (createFromText source target relation unblockAt edge time) := by
  have hread : Keeps (· = r) (readName (Relation.parse relation)) := (Respects.readName _).keeps
  exact .bind hread fun _ _ => atomic_createDependency _ unblockAt

lemma atomic_deleteDependency (h : r.InOrder) (edge : Ident) :
    Atomic r (deleteDependency edge) := by
  refine .bind (lockCongruence_having.ask _).keeps ?_
  rintro (_ | d) ⟨e, rfl, hfound⟩
  · rintro e' he' _ -
    exact he'
  · refine Atomic.withLocks ?_ _ _
    have hfind : e.repository.findById edge = .ok (e.repository.edges.get? edge) :=
      Repository.answer_eq h ..
    rw [ask_ok hfind] at hfound
    have hget : e.repository.edges.get? edge = some d := Except.ok.inj hfound
    have hdelete := Repository.deleteById_eq h edge
    rw [hget] at hdelete
    intro e' he'
    rw [← he'] at hdelete
    rw [bind_ok (store_ok hdelete)]
    rintro cause ⟨⟩

lemma atomic_deleteDependencies (source : Ident) (target : Option Ident)
    (relation : Option Relation) : Atomic r (deleteDependencies source target relation) := by
  have hdelete : Atomic r (store (·.removeWhere source target relation)) := atomic_store _
  cases target with
  | none => exact hdelete.withLock source
  | some task => exact Ends.ite (hdelete.withLock source) (hdelete.withLocks source task)

lemma atomic_changeStatus (h : r.InOrder) (entity : Ident) (kind : Kind) (raw : String) :
    Atomic r (changeStatus entity kind raw) := by
  rintro e rfl cause hfails
  rcases changeStatus_cases h entity kind raw with ⟨_, -, hstored⟩ | ⟨_, _, -, -, -, hmade, -⟩
  · exact hstored
  · rw [hmade] at hfails
    cases hfails

lemma Atomic.failureOf {op : Operation α} (h : Atomic e.repository op)
    (hfails : Engine.failureOf (op e).1 ≠ none) : (op e).2.repository = e.repository := by
  rcases hres : (op e).1 with cause | a
  · exact h e rfl cause hres
  · rw [hres] at hfails
    exact absurd rfl hfails

end Atomic

/-- An action that fails leaves the store as it is. -/
theorem Action.perform_failure (h : e.repository.InOrder) (action : Action α)
    (hfails : action.failure? (action.perform e).1 ≠ none) :
    (action.perform e).2.repository = e.repository := by
  have hreads := lockCongruence_having (P := (· = e.repository))
  cases action with
  | ask call => exact (hreads.ask call).keeps e rfl
  | storeEdge o => exact (atomic_store (·.addEdge o)).failureOf hfails
  | removeEdge edge => exact (atomic_store (·.deleteById edge)).failureOf hfails
  | removeEdges source target relation =>
    exact (atomic_store (·.removeWhere source target relation)).failureOf hfails
  | removeEdgesAt task => exact (atomic_store (·.deleteByTask task)).failureOf hfails
  | addDependency o => exact (atomic_addDependency o).failureOf hfails
  -- Where a text is read, both sides are put in one form first, or the reading is evaluated.
  | createDependency o unblockAt =>
    simp only [Action.perform, Action.failure?, run_apply] at hfails ⊢
    exact (atomic_createDependency o unblockAt).failureOf hfails
  | createFromText source target relation unblockAt edge time =>
    simp only [Action.perform, Action.failure?, run_apply] at hfails ⊢
    exact (atomic_createFromText source target relation unblockAt edge time).failureOf hfails
  | deleteDependency edge => exact (atomic_deleteDependency h edge).failureOf hfails
  | deleteDependencies source target relation =>
    exact (atomic_deleteDependencies source target relation).failureOf hfails
  | deleteTaskDependencies task =>
    exact ((atomic_store (·.deleteByTask task)).withLock task).failureOf hfails
  | queryNeighbors task q => exact (hreads.queryNeighbors task q).keeps e rfl
  | queryGraph task d withTitles => exact (hreads.queryGraph task d withTitles).keeps e rfl
  | blockedBy task => exact (hreads.blockedBy task).keeps e rfl
  | validatePrerequisites entity kind raw =>
    exact (hreads.validatePrerequisites entity kind raw).keeps e rfl
  | changeStatus entity kind raw =>
    simp only [Action.perform, Action.failure?, run_apply] at hfails ⊢
    exact (atomic_changeStatus h entity kind raw).failureOf hfails
  | hold entity => exact (hreads.hold entity).keeps e rfl
  | _ => exact absurd rfl hfails

/-- An action changes a status as it says and was asked to, or no record at all. -/
theorem Action.perform_cases (h : e.repository.InOrder) (action : Action α) :
    (∃ c, action.change? (action.perform e).1 = some c ∧ action.Asks c ∧
      e.repository.status? c.kind c.entity = some c.source ∧
      (Engine.workflow c.kind e).1.checkTransition c.source c.target = .ok () ∧
      e.repository.Restates c.kind c.entity c.target (action.perform e).2.repository) ∨
    action.change? (action.perform e).1 = none ∧
      e.repository.SameRecords (action.perform e).2.repository := by
  cases action with
  | changeStatus entity kind raw =>
    simp only [Action.perform, run_apply]
    rcases changeStatus_cases h entity kind raw with
      ⟨cause, hfails, hstored⟩ | ⟨old, target, hparse, hold, hcheck, hmade, hrestates⟩
    · rw [hfails, hstored]
      exact .inr ⟨rfl, .refl⟩
    · rw [hmade]
      exact .inl ⟨_, rfl, ⟨rfl, rfl, hparse⟩, hold, hcheck, hrestates⟩
  | _ => exact .inr ⟨rfl, perform_sameRecords _ rfl⟩

/-- What may happen to an engine: somebody acts on it, or other documents are served from then
on. -/
inductive Event : Type 1
  | act {α : Type} (action : Action α)
  | serve (source : Workflow.Source)

def Event.next : Event → Engine → Engine
  | act action, e => (action.perform e).2
  | serve source, e => { e with source }

/-- The change of status that an event makes, with the root under which it is made. -/
def Event.change? : Event → Engine → Option (String × StatusChange)
  | act action, e => (action.change? (action.perform e).1).map fun c => (e.root, c)
  | serve _, _ => none

def after (e : Engine) : List Event → Engine
  | [] => e
  | event :: events => (event.next e).after events

/-- The changes of status that events make, in their order. -/
def changes (e : Engine) : List Event → List (String × StatusChange)
  | [] => []
  | event :: events => (event.change? e).toList ++ (event.next e).changes events

def changesOf (e : Engine) (kind : Kind) (entity : Ident) (events : List Event) :
    List StatusChange :=
  ((e.changes events).map Prod.snd).filter fun c => c.kind = kind ∧ c.entity = entity

/-- From one status to another by changes, each of which begins where the one before ended. -/
inductive Succession : Option Status → List StatusChange → Option Status → Prop
  | stay (status : Option Status) : Succession status [] status
  | step {c : StatusChange} {rest : List StatusChange} {last : Option Status}
      (h : Succession (some c.target) rest last) : Succession (some c.source) (c :: rest) last

lemma Event.next_cases (h : e.repository.InOrder) (event : Event) :
    (∃ c, event.change? e = some (e.root, c) ∧
      e.repository.status? c.kind c.entity = some c.source ∧
      (workflow c.kind e).1.checkTransition c.source c.target = .ok () ∧
      e.repository.Restates c.kind c.entity c.target (event.next e).repository) ∨
    event.change? e = none ∧ e.repository.SameRecords (event.next e).repository := by
  cases event with
  | serve source => exact .inr ⟨rfl, .refl⟩
  | act action =>
    simp only [Event.change?, Event.next]
    rcases action.perform_cases h with ⟨c, hchange, -, hmade⟩ | ⟨hchange, hsame⟩
    · rw [hchange]
      exact .inl ⟨c, rfl, hmade⟩
    · rw [hchange]
      exact .inr ⟨rfl, hsame⟩

lemma Event.inOrder_next (h : e.repository.InOrder) (event : Event) :
    (event.next e).repository.InOrder := by
  rcases event.next_cases h with ⟨c, -, -, -, hrestates⟩ | ⟨-, hsame⟩
  · exact hrestates.outages.trans h
  · exact hsame.outages.trans h

lemma Event.draws_next {source : Workflow.Source} (hdraws : e.Draws source) {event : Event}
    (hfixed : ∀ other, event = .serve other → other = source) : (event.next e).Draws source := by
  cases event with
  | act action => exact hdraws.perform action
  | serve other =>
    obtain rfl := hfixed other rfl
    exact ⟨rfl, hdraws.faithful⟩

lemma inOrder_after (h : e.repository.InOrder) (events : List Event) :
    (e.after events).repository.InOrder := by
  induction events generalizing e with
  | nil => exact h
  | cons event events ih => exact ih (event.inOrder_next h)

lemma changesOf_cons (e : Engine) (kind : Kind) (entity : Ident) (event : Event)
    (events : List Event) : e.changesOf kind entity (event :: events) =
      (((event.change? e).toList.map Prod.snd).filter fun c => c.kind = kind ∧ c.entity = entity) ++
        (event.next e).changesOf kind entity events := by
  simp [changesOf, changes]

lemma succession_after (h : e.repository.InOrder) (kind : Kind) (entity : Ident)
    (events : List Event) : Succession (e.repository.status? kind entity)
      (e.changesOf kind entity events) ((e.after events).repository.status? kind entity) := by
  induction events generalizing e with
  | nil => exact .stay _
  | cons event events ih =>
    have hrest := ih (event.inOrder_next h)
    rw [changesOf_cons, after]
    rcases event.next_cases h with ⟨c, hchange, hold, -, hrestates⟩ | ⟨hchange, hsame⟩
    · have hnow := hrestates.status? kind entity
      by_cases hc : c.kind = kind ∧ c.entity = entity
      · obtain ⟨rfl, rfl⟩ := hc
        rw [if_pos ⟨rfl, rfl⟩, hold] at hnow
        rw [hnow] at hrest
        simpa [hchange, hold] using hrest.step
      · rw [if_neg fun hsame => hc ⟨hsame.1, hsame.2.symm⟩] at hnow
        rw [hnow] at hrest
        simpa [hchange, hc] using hrest
    · rw [hsame.status? kind entity] at hrest
      simpa [hchange] using hrest

lemma isAllowed_of_checkTransition {w : Workflow.Spec} {old target : Status}
    (h : w.checkTransition old target = .ok ()) : w.isAllowed target = true := by
  by_contra hnot
  rw [Bool.not_eq_true] at hnot
  unfold Workflow.Spec.checkTransition at h
  rw [hnot] at h
  dsimp only at h
  split at h <;> simp at h

/-- While the documents stay as they are, each change is one that the workflow of its kind accepts
under the root of the caller. -/
lemma accepted_of_mem_changes {source : Workflow.Source} (h : e.repository.InOrder)
    (hdraws : e.Draws source) {events : List Event}
    (hfixed : ∀ other, Event.serve other ∈ events → other = source) {root : String}
    {c : StatusChange} (hc : (root, c) ∈ e.changes events) : ∃ w, source.Gives c.kind root w ∧
      w.checkTransition c.source c.target = .ok () := by
  induction events generalizing e with
  | nil => cases hc
  | cons event events ih =>
    have hnext : (event.next e).Draws source := by
      refine event.draws_next hdraws ?_
      rintro other rfl
      exact hfixed other List.mem_cons_self
    rcases List.mem_append.1 hc with hfirst | hrest
    · rcases event.next_cases h with ⟨c', hchange, -, hcheck, -⟩ | ⟨hchange, -⟩
      · rw [hchange] at hfirst
        cases List.mem_singleton.1 hfirst
        exact ⟨_, (hdraws.workflow c.kind).1, hcheck⟩
      · rw [hchange] at hfirst
        cases hfirst
    · exact ih (event.inOrder_next h) hnext
        (fun other hother => hfixed other (List.mem_cons_of_mem _ hother)) hrest

/-- Whatever happens, records change only where an action answers that it changed a status: it was
asked for this change, it found the status that it names, and it overwrote that status and nothing
else. An action that fails changes nothing. So the statuses of an entity follow each other as the
answers say, and if the documents stay as they are, their workflow for the root of the caller
accepts each change and allows each status that is written. -/
theorem statuses_after (e : Engine) (horder : e.repository.InOrder) (events : List Event) :
    (∀ {α : Type} (action : Action α),
      let now := e.after events
      let answer := (action.perform now).1
      let later := (action.perform now).2.repository
      (∀ c, action.change? answer = some c → action.Asks c ∧
        now.repository.status? c.kind c.entity = some c.source ∧
        now.repository.Restates c.kind c.entity c.target later) ∧
      (action.change? answer = none → now.repository.SameRecords later) ∧
      (action.failure? answer ≠ none → later = now.repository)) ∧
    (∀ kind entity, Succession (e.repository.status? kind entity)
      (e.changesOf kind entity events) ((e.after events).repository.status? kind entity)) ∧
    ∀ source, e.Draws source → (∀ other, Event.serve other ∈ events → other = source) →
      ∀ root c, (root, c) ∈ e.changes events → ∃ w, source.Gives c.kind root w ∧
        w.checkTransition c.source c.target = .ok () ∧ w.isAllowed c.target = true := by
  have hnow := inOrder_after horder events
  refine ⟨fun action => ⟨fun c hc => ?_, fun hnone => ?_, action.perform_failure hnow⟩,
    fun kind entity => succession_after horder kind entity events,
    fun source hdraws hfixed root c hc => ?_⟩
  · rcases action.perform_cases hnow with ⟨c', hchange, hasks, hold, -, hrestates⟩ | ⟨hchange, -⟩
    · rw [hchange] at hc
      cases hc
      exact ⟨hasks, hold, hrestates⟩
    · rw [hchange] at hc
      cases hc
  · rcases action.perform_cases hnow with ⟨c, hchange, -⟩ | ⟨-, hsame⟩
    · rw [hchange] at hnone
      cases hnone
    · exact hsame
  · obtain ⟨w, hgives, hcheck⟩ := accepted_of_mem_changes horder hdraws hfixed hc
    exact ⟨w, hgives, hcheck, isAllowed_of_checkTransition hcheck⟩

/-- The second of two tasks is started under another root. -/
def starting : List Event :=
  [.act (.withRoot "a"), .act (.changeStatus (.ofNat 2) .task "in-progress")]

theorem statuses_after_starting : pair.repository.InOrder ∧ pair.Draws pair.source ∧
    (∀ other, Event.serve other ∈ starting → other = pair.source) ∧
    ("a", ⟨.ofNat 2, .task, .pending, .inProgress⟩) ∈ pair.changes starting ∧
    ∃ w, pair.source.Gives .task "a" w ∧ w.checkTransition .pending .inProgress = .ok () ∧
      w.isAllowed .inProgress = true := by
  have hdraws : pair.Draws pair.source :=
    ⟨rfl, Workflow.Cache.faithful_of_entries_eq_none fun _ => rfl⟩
  have hfixed : ∀ other, Event.serve other ∈ starting → other = pair.source := by
    simp [starting]
  have hchanged : ("a", ⟨.ofNat 2, .task, .pending, .inProgress⟩) ∈ pair.changes starting :=
    List.mem_singleton.2 rfl
  obtain ⟨-, -, haccepted⟩ := statuses_after pair rfl starting
  exact ⟨rfl, hdraws, hfixed, hchanged, haccepted _ hdraws hfixed _ _ hchanged⟩

end Engine

end TaskFlow

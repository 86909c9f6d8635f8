import TaskFlow.Proofs.EdgeInvariant

/-!
# Runs

A run performs operations one after the other, whether they succeed or fail. On a store that
begins without edges every run keeps the stored edges well-formed.
-/

namespace TaskFlow.Engine

/-- What callers may do, by the type of the answer: read the store, change it past the locks,
work through the engine, or keep a lock to themselves. -/
inductive Action : Type → Type 1
  | ask {α : Type} (call : Repository → Except EngineError α) : Action (Except EngineError α)
  | storeEdge (o : Order) : Action (Except EngineError Dependency)
  | storeEdges (orders : List Order) : Action (List (Except EngineError Dependency))
  | removeEdge (edge : Ident) : Action (Except EngineError Bool)
  | removeEdges (source : Ident) (target : Option Ident) (relation : Option Relation) :
      Action (Except EngineError DeletionReport)
  | removeEdgesAt (task : Ident) : Action (Except EngineError Nat)
  | addDependency (o : Order) : Action (Except EngineError Dependency)
  | addDependencies (orders : List Order) : Action (List (Except EngineError Dependency))
  | createDependency (o : Order) (unblockAt : Option String) :
      Action (Except EngineError Dependency)
  | createFromText (source target : Ident) (relation : String) (unblockAt : Option String)
      (edge : Option Ident) (time : Option Instant) : Action (Except EngineError Dependency)
  | deleteDependency (edge : Ident) : Action (Except EngineError Unit)
  | deleteDependencies (source : Ident) (target : Option Ident) (relation : Option Relation) :
      Action (Except EngineError DeletionReport)
  | deleteTaskDependencies (task : Ident) : Action (Except EngineError Nat)
  | queryNeighbors (task : Ident) (q : NeighborQuery) : Action (Except EngineError NeighborSet)
  | queryGraph (task : Ident) (d : Direction) (withTitles : Bool) :
      Action (Except EngineError GraphReport)
  | blockedBy (task : Ident) : Action (Except EngineError (List BlockingItem))
  | workflow (kind : Kind) : Action Workflow.Spec
  | validateStatus (kind : Kind) (raw : String) : Action Workflow.Verdict
  | validateTransition (kind : Kind) (source target : String) : Action Workflow.Verdict
  | validatePrerequisites (entity : Ident) (kind : Kind) (raw : String) :
      Action (Except EngineError Readiness)
  | changeStatus (entity : Ident) (kind : Kind) (raw : String) :
      Action (Except EngineError StatusChange)
  | withRoot (root : String) : Action Unit
  | invalidate (kind : Option Kind) : Action Unit
  | hold (entity : Ident) : Action (Except EngineError Unit)
  | unhold (entity : Ident) : Action Bool

def Action.perform {α : Type} : Action α → StateM Engine α
  | ask call => (Engine.ask call).run
  | storeEdge o => (store (·.addEdge o)).run
  | storeEdges orders => each (fun o => store (·.addEdge o)) orders
  | removeEdge edge => (store (·.deleteById edge)).run
  | removeEdges source target relation => (store (·.removeWhere source target relation)).run
  | removeEdgesAt task => (store (·.deleteByTask task)).run
  | addDependency o => (Engine.addDependency o).run
  | addDependencies orders => each Engine.addDependency orders
  | createDependency o unblockAt => (Engine.createDependency o unblockAt).run
  | createFromText source target relation unblockAt edge time =>
    (Engine.createFromText source target relation unblockAt edge time).run
  | deleteDependency edge => (Engine.deleteDependency edge).run
  | deleteDependencies source target relation =>
    (Engine.deleteDependencies source target relation).run
  | deleteTaskDependencies task => (Engine.deleteTaskDependencies task).run
  | queryNeighbors task q => (Engine.queryNeighbors task q).run
  | queryGraph task d withTitles => (Engine.queryGraph task d withTitles).run
  | blockedBy task => (Engine.blockedBy task).run
  | workflow kind => Engine.workflow kind
  | validateStatus kind raw => Engine.validateStatus kind raw
  | validateTransition kind source target => Engine.validateTransition kind source target
  | validatePrerequisites entity kind raw => (Engine.validatePrerequisites entity kind raw).run
  | changeStatus entity kind raw => (Engine.changeStatus entity kind raw).run
  | withRoot root => modify (Engine.withRoot · root)
  | invalidate kind => modify (Engine.invalidate · kind)
  | hold entity => (Engine.hold entity).run
  | unhold entity => modifyGet (Engine.unhold · entity)

/-- A run leads from one engine to another. -/
inductive Run (e : Engine) : Engine → Prop
  | start : Run e e
  | act {e' : Engine} {α : Type} (before : Run e e') (action : Action α) :
      Run e (action.perform e').2

def Action.writesStatus {α : Type} : Action α → Bool
  | changeStatus .. => true
  | _ => false

/-- Two answers to an action are the same, but for what they say of workflows that are related. -/
def Action.Agrees (S : Workflow.Spec → Workflow.Spec → Prop) {α : Type} : Action α → α → α → Prop
  | workflow _ => S
  | validateStatus .. | validateTransition .. => Echoes S
  | changeStatus .. => Resembles S
  | _ => Eq

/-- Related engines stay related under all that actions change, a status apart. -/
structure ActionCongruence (S : Workflow.Spec → Workflow.Spec → Prop)
    (R : Engine → Engine → Prop) : Prop extends LockCongruence S R where
  addEdge : ∀ o, Carries R (·.addEdge o)
  deleteById : ∀ edge, Carries R (·.deleteById edge)
  deleteByTask : ∀ task, Carries R (·.deleteByTask task)
  removeWhere : ∀ source target relation, Carries R (·.removeWhere source target relation)
  withRoot : ∀ {e e' : Engine}, R e e' → ∀ root, R (e.withRoot root) (e'.withRoot root)
  invalidate : ∀ {e e' : Engine}, R e e' → ∀ kind, R (e.invalidate kind) (e'.invalidate kind)

namespace ActionCongruence

variable {S : Workflow.Spec → Workflow.Spec → Prop} {R : Engine → Engine → Prop}
  (hR : ActionCongruence S R)

include hR

lemma addDependency (o : Order) : Respects R (Engine.addDependency o) :=
  (Respects.demand _).bind fun _ => hR.withLocks _ _ (hR.store (hR.addEdge o))

lemma createDependency (o : Order) (unblockAt : Option String) :
    Respects R (Engine.createDependency o unblockAt) :=
  (Respects.demand _).bind fun _ => hR.addDependency _

lemma createFromText (source target : Ident) (relation : String) (unblockAt : Option String)
    (edge : Option Ident) (time : Option Instant) :
    Respects R (Engine.createFromText source target relation unblockAt edge time) :=
  (Respects.readName _).bind fun _ => hR.createDependency _ unblockAt

lemma deleteDependency (edge : Ident) : Respects R (Engine.deleteDependency edge) := by
  refine (hR.ask _).bind fun found => ?_
  cases found with
  | none => exact .throw _
  | some d =>
    refine hR.withLocks _ _ ((hR.store (hR.deleteById edge)).bind fun deleted => ?_)
    exact .ite (.throw _) (.pure _)

lemma deleteDependencies (source : Ident) (target : Option Ident) (relation : Option Relation) :
    Respects R (Engine.deleteDependencies source target relation) := by
  have hdelete := hR.store (hR.removeWhere source target relation)
  cases target with
  | none => exact hR.withLock source hdelete
  | some task => exact .ite (hR.withLock source hdelete) (hR.withLocks source task hdelete)

/-- Every action respects such a relation, if it may write a status only where the relation is
carried along. -/
theorem perform {α : Type} (action : Action α) (hstatus : action.writesStatus = true →
      ∀ kind entity status, Carries R (·.updateStatus kind entity status)) :
    RespectsUpTo (action.Agrees S) R action.perform := by
  cases action with
  | ask call => exact hR.ask call
  | storeEdge o => exact hR.store (hR.addEdge o)
  | storeEdges orders => exact Respects.each (fun o => hR.store (hR.addEdge o)) orders
  | removeEdge edge => exact hR.store (hR.deleteById edge)
  | removeEdges source target relation => exact hR.store (hR.removeWhere source target relation)
  | removeEdgesAt task => exact hR.store (hR.deleteByTask task)
  | addDependency o => exact hR.addDependency o
  | addDependencies orders => exact Respects.each hR.addDependency orders
  | createDependency o unblockAt => exact hR.createDependency o unblockAt
  | createFromText source target relation unblockAt edge time =>
    exact hR.createFromText source target relation unblockAt edge time
  | deleteDependency edge => exact hR.deleteDependency edge
  | deleteDependencies source target relation => exact hR.deleteDependencies source target relation
  | deleteTaskDependencies task => exact hR.withLock task (hR.store (hR.deleteByTask task))
  | queryNeighbors task q => exact hR.queryNeighbors task q
  | queryGraph task d withTitles => exact hR.queryGraph task d withTitles
  | blockedBy task => exact hR.blockedBy task
  | workflow kind => exact hR.workflow kind
  | validateStatus kind raw => exact hR.validateStatus kind raw
  | validateTransition kind source target => exact hR.validateTransition kind source target
  | validatePrerequisites entity kind raw => exact hR.validatePrerequisites entity kind raw
  | changeStatus entity kind raw => exact hR.changeStatus entity kind raw (hstatus rfl kind entity)
  | withRoot root => exact fun e e' he => ⟨rfl, hR.withRoot he root⟩
  | invalidate kind => exact fun e e' he => ⟨rfl, hR.invalidate he kind⟩
  | hold entity => exact hR.hold entity
  | unhold entity => exact hR.unhold entity

end ActionCongruence

section Having

variable {P : Repository → Prop} (hdeleteById : ∀ edge, CallKeeps P (·.deleteById edge))

include hdeleteById

lemma deleteEach_keeps (r : Repository) (edges : List Ident) (h : P r) :
    P (r.deleteEach edges).2 := by
  fun_induction Repository.deleteEach r edges with
  | case1 r => exact h
  | case2 r edge edges r' hdelete p r'' hrest ih =>
    rw [hrest] at ih
    exact ih (hdeleteById edge r h _ r' hdelete)
  | case3 r edge edges r' hdelete p r'' hrest ih =>
    rw [hrest] at ih
    exact ih (hdeleteById edge r h _ r' hdelete)
  | case4 r edge edges cause hdelete p r' hrest ih =>
    rw [hrest] at ih
    exact ih h

lemma removeWhere_keeps (source : Ident) (target : Option Ident) (relation : Option Relation) :
    CallKeeps P (·.removeWhere source target relation) := by
  intro r h report r' hcall
  dsimp only at hcall
  unfold Repository.removeWhere at hcall
  rcases hfind : r.findByTask source with cause | edges
  · rw [hfind] at hcall
    cases hcall
  · rw [hfind] at hcall
    have hresult := Except.ok.inj hcall
    have hkept := deleteEach_keeps hdeleteById r
      ((edges.filter (Repository.isMeant source target relation)).map Dependency.id) h
    rwa [hresult] at hkept

lemma actionCongruence_having (haddEdge : ∀ o, CallKeeps P (·.addEdge o))
    (hdeleteByTask : ∀ task, CallKeeps P (·.deleteByTask task)) :
    ActionCongruence Eq (Having P) where
  toLockCongruence := lockCongruence_having
  addEdge := fun o => (haddEdge o).carries
  deleteById := fun edge => (hdeleteById edge).carries
  deleteByTask := fun task => (hdeleteByTask task).carries
  removeWhere := fun source target relation =>
    (removeWhere_keeps hdeleteById source target relation).carries
  withRoot := by
    rintro e _ ⟨rfl, he⟩ root
    exact ⟨rfl, he⟩
  invalidate := by
    rintro e _ ⟨rfl, he⟩ kind
    exact ⟨rfl, he⟩

end Having

section Tidy

/-- The calls are in order and the stored edges well-formed. -/
def Tidy (r : Repository) : Prop :=
  r.InOrder ∧ r.WellFormed

variable {r r' : Repository}

lemma Tidy.shrink (h : Tidy r) (hshrinks : r.Shrinks r') : Tidy r' :=
  ⟨hshrinks.outages.trans h.1, h.2.shrink hshrinks⟩

lemma addEdge_keeps (o : Order) : CallKeeps Tidy (·.addEdge o) := by
  rintro r ⟨horder, hformed⟩ d r' hadd
  dsimp only at hadd
  rcases hcause : firstCause (r.objections o.request) with _ | cause
  · obtain ⟨d', hcreate, hrealizes⟩ := Repository.create_eq horder o.request o.id? o.at?
    rw [Repository.addEdge_ok horder hcause, hcreate] at hadd
    cases hadd
    exact ⟨horder, hformed.gain hcause (Repository.gains_put _ _) hrealizes⟩
  · rw [Repository.addEdge_error horder hcause] at hadd
    cases hadd

lemma updateStatus_keeps (kind : Kind) (entity : Ident) (status : Status) :
    CallKeeps Tidy (·.updateStatus kind entity status) :=
  fun _ h _ _ hcall => h.shrink (Repository.shrinks_updateStatus h.1 hcall)

lemma actionCongruence_tidy : ActionCongruence Eq (Having Tidy) :=
  actionCongruence_having
    (fun _ _ h _ _ hcall => h.shrink (Repository.shrinks_deleteById h.1 hcall)) addEdge_keeps
    (fun _ _ h _ _ hcall => h.shrink (Repository.shrinks_deleteByTask h.1 hcall))

/-- Every action keeps the store tidy, whatever it answers. -/
theorem Action.perform_keeps {α : Type} (action : Action α) : Keeps Tidy action.perform :=
  (actionCongruence_tidy.perform action fun _ kind entity status =>
    (updateStatus_keeps kind entity status).carries).keeps

end Tidy

lemma Run.tidy {e e' : Engine} (run : Run e e') (h : Tidy e.repository) : Tidy e'.repository := by
  induction run with
  | start => exact h
  | act before action ih => exact action.perform_keeps _ ih

/-- Whatever was done since the store had no edges, the stored edges are well-formed. -/
theorem Run.wellFormed {e e' : Engine} (run : Run e e') (hempty : e.repository.edges = .empty)
    (horder : e.repository.InOrder) : e'.repository.WellFormed :=
  (run.tidy ⟨horder, Repository.wellFormed_of_edges_eq_empty hempty⟩).2

/-- Two tasks without edges, of which the first is worked on. -/
def pair : Engine :=
  let task (n : Nat) (status : Status) : Task :=
    { id := .ofNat n, title := "t", status, summary := none, feature := none, createdAt := .epoch }
  ofRepository {
    tasks := .ofList [task 1 .inProgress, task 2 .pending]
    supply := fun n => ⟨.ofNat (8 + n), .epoch⟩ }

/-- The first of two tasks is asked to block the second until it is worked on. -/
def joining : Order :=
  { request := ⟨.ofNat 1, .ofNat 2, .blocks, some .work⟩ }

def joined : Engine :=
  let edge := Dependency.ofRequest joining.request ⟨.ofNat 9, .epoch⟩
  { pair with repository := { pair.repository with edges := .ofList [edge], issued := 1 } }

lemma objections_joining : firstCause (pair.repository.objections joining.request) = none := by
  have hopen : ¬ pair.repository.Closes joining.request := by
    rintro ⟨blocker, blocked, hpair, hback⟩
    cases hpair
    rcases hback.cases_head with heq | ⟨task, ⟨d, hd, -⟩, -⟩
    · exact absurd heq (by decide)
    · exact List.not_mem_nil hd
  exact (Repository.firstCause_objections rfl (by decide) (by decide) (by decide)).trans
    (if_neg hopen)

lemma run_joined : Run pair joined := by
  have hadd := Repository.addEdge_ok (r := pair.repository) rfl objections_joining
  have hrun : Run pair (store (·.addEdge joining) pair).2 := .act .start (.storeEdge joining)
  rw [store_ok hadd] at hrun
  exact hrun

theorem Run.wellFormed_joined : pair.repository.edges = .empty ∧ pair.repository.InOrder ∧
    Run pair joined ∧ (∃ d ∈ joined.repository.edges.toList,
      d.pair = some (.ofNat 1, .ofNat 2)) ∧ joined.repository.WellFormed :=
  ⟨rfl, rfl, run_joined, ⟨_, .head _, rfl⟩, run_joined.wellFormed rfl rfl⟩

end TaskFlow.Engine

import TaskFlow.Engine.Operations
import TaskFlow.Proofs.Workflows

/-!
# Operations step by step

What the building blocks of operations do to an engine: a call to the repository hands on the
answer of the call, and a sequence stops at the first step that fails. A relation between engines
that each step respects is respected by the operation; this says at once which properties of the
repository operations keep, and on which parts of the engine their answers depend. Where only the
answer and the store matter, an operation is followed from the store that it begins with.
-/

namespace TaskFlow.Engine

/-- An engine with the settings that it has by default, without workflow documents. -/
def ofRepository (r : Repository) : Engine where
  settings := {}
  repository := r
  source := fun _ => .ok none
  cache := { enabled := true, ttl := 60 }
  root := ""

variable {α β : Type}

lemma run_apply (op : Operation α) (e : Engine) : op.run e = op e :=
  rfl

lemma get_bind {f : Engine → Operation β} {e : Engine} : (get >>= f : Operation β) e = f e e :=
  rfl

lemma bind_eq {op : Operation α} {f : α → Operation β} {e : Engine} :
    (op >>= f) e = ExceptT.bindCont f (op e).1 (op e).2 :=
  rfl

lemma bind_ok {op : Operation α} {f : α → Operation β} {e e' : Engine} {a : α}
    (h : op e = (.ok a, e')) : (op >>= f) e = f a e' := by
  rw [bind_eq, h]
  rfl

lemma bind_error {op : Operation α} {f : α → Operation β} {e e' : Engine} {cause : EngineError}
    (h : op e = (.error cause, e')) : (op >>= f) e = (.error cause, e') := by
  rw [bind_eq, h]
  rfl

lemma ask_ok {call : Repository → Except EngineError α} {e : Engine} {a : α}
    (h : call e.repository = .ok a) : ask call e = (.ok a, e) := by
  unfold ask
  rw [get_bind, h]
  rfl

lemma ask_error {call : Repository → Except EngineError α} {e : Engine} {cause : EngineError}
    (h : call e.repository = .error cause) : ask call e = (.error cause, e) := by
  unfold ask
  rw [get_bind, h]
  rfl

lemma store_ok {call : Repository → Except EngineError (α × Repository)} {e : Engine} {a : α}
    {r : Repository} (h : call e.repository = .ok (a, r)) :
    store call e = (.ok a, { e with repository := r }) := by
  unfold store
  rw [get_bind, h]
  rfl

lemma store_error {call : Repository → Except EngineError (α × Repository)} {e : Engine}
    {cause : EngineError} (h : call e.repository = .error cause) :
    store call e = (.error cause, e) := by
  unfold store
  rw [get_bind, h]
  rfl

lemma liftM_workflow (kind : Kind) (e : Engine) :
    (liftM (workflow kind) : Operation Workflow.Spec) e =
      (.ok (workflow kind e).1, (workflow kind e).2) :=
  rfl

/-- An operation keeps a property of the repository, whether it succeeds or fails. -/
def Keeps (P : Repository → Prop) (op : StateM Engine α) : Prop :=
  ∀ e : Engine, P e.repository → P (op e).2.repository

/-- A call to the repository keeps a property of it. -/
def CallKeeps (P : Repository → Prop)
    (call : Repository → Except EngineError (α × Repository)) : Prop :=
  ∀ r, P r → ∀ a r', call r = .ok (a, r') → P r'

/-- From related engines an operation gives related answers and leads to related engines. -/
def RespectsUpTo (T : α → α → Prop) (R : Engine → Engine → Prop) (op : StateM Engine α) : Prop :=
  ∀ e e' : Engine, R e e' → T (op e').1 (op e).1 ∧ R (op e).2 (op e').2

/-- From related engines an operation gives the same answer and leads to related engines. -/
abbrev Respects (R : Engine → Engine → Prop) (op : StateM Engine α) : Prop :=
  RespectsUpTo Eq R op

/-- Related engines stay related when a call changes the repository of both. -/
def Carries (R : Engine → Engine → Prop)
    (call : Repository → Except EngineError (α × Repository)) : Prop :=
  ∀ e e' : Engine, R e e' → ∀ a r, call e.repository = .ok (a, r) →
    R { e with repository := r } { e' with repository := r }

/-- The reasons are the same, or refuse a status by workflows that are related. -/
inductive Reworded (S : Workflow.Spec → Workflow.Spec → Prop) : String → String → Prop
  | same (reason : String) : Reworded S reason reason
  | unknown {w w' : Workflow.Spec} (h : S w w') (s : Status) :
      Reworded S (w.unknown s).message (w'.unknown s).message

/-- The verdicts are the same, up to such reasons. -/
inductive Echoes (S : Workflow.Spec → Workflow.Spec → Prop) :
    Workflow.Verdict → Workflow.Verdict → Prop
  | valid : Echoes S .valid .valid
  | invalid {reason reason' : String} (h : Reworded S reason reason') :
      Echoes S (.invalid reason) (.invalid reason')

/-- The outcomes are the same, up to such reasons for a change that is refused. -/
inductive Resembles (S : Workflow.Spec → Workflow.Spec → Prop) :
    Except EngineError StatusChange → Except EngineError StatusChange → Prop
  | same (outcome : Except EngineError StatusChange) : Resembles S outcome outcome
  | refused {reason reason' : String} (h : Reworded S reason reason') :
      Resembles S (.error (.invalid (.rejected reason))) (.error (.invalid (.rejected reason')))

lemma Reworded.eq {reason reason' : String} (h : Reworded Eq reason reason') :
    reason = reason' := by
  rcases h with _ | ⟨rfl, s⟩
  · rfl
  · rfl

lemma Echoes.eq {v v' : Workflow.Verdict} (h : Echoes Eq v v') : v = v' := by
  rcases h with _ | h
  · rfl
  · rw [h.eq]

lemma Resembles.eq {outcome outcome' : Except EngineError StatusChange}
    (h : Resembles Eq outcome outcome') : outcome = outcome' := by
  rcases h with _ | h
  · rfl
  · rw [h.eq]

instance {S : Workflow.Spec → Workflow.Spec → Prop} : Std.Refl (Echoes S) where
  refl
    | .valid => .valid
    | .invalid reason => .invalid (.same reason)

instance {S : Workflow.Spec → Workflow.Spec → Prop} : Std.Refl (Resembles S) where
  refl := .same

/-- Related engines store the same, check prerequisites by the same settings and find workflows that
are related, and that differ in the order of the allowed statuses at most. -/
structure Congruence (S : Workflow.Spec → Workflow.Spec → Prop) (R : Engine → Engine → Prop) :
    Prop where
  repository : ∀ {e e' : Engine}, R e e' → e'.repository = e.repository
  prerequisites : ∀ {e e' : Engine}, R e e' →
    e'.settings.prerequisites = e.settings.prerequisites
  alike : ∀ {w w' : Workflow.Spec}, S w w' → w.Alike w'
  workflow : ∀ kind, RespectsUpTo S R (Engine.workflow kind)

/-- Related engines also have the same locks, and wait for them equally long. -/
structure LockCongruence (S : Workflow.Spec → Workflow.Spec → Prop) (R : Engine → Engine → Prop) :
    Prop extends Congruence S R where
  locks : ∀ {e e' : Engine}, R e e' → e'.locks = e.locks ∧ e'.tickets = e.tickets
  locking : ∀ {e e' : Engine}, R e e' → e'.settings.locking = e.settings.locking
  setLocks : ∀ {e e' : Engine}, R e e' → ∀ locks, R { e with locks } { e' with locks }
  setTickets : ∀ {e e' : Engine}, R e e' → ∀ tickets, R { e with tickets } { e' with tickets }

section Steps

variable {S : Workflow.Spec → Workflow.Spec → Prop} {R : Engine → Engine → Prop}

namespace RespectsUpTo

lemma seq {T : β → β → Prop} {op : StateM Engine α} {f : α → StateM Engine β}
    (hop : Respects R op) (hf : ∀ a, RespectsUpTo T R (f a)) : RespectsUpTo T R (op >>= f) := by
  intro e e' he
  obtain ⟨hanswer, hstate⟩ := hop e e' he
  change T (f (op e').1 (op e').2).1 (f (op e).1 (op e).2).1 ∧
    R (f (op e).1 (op e).2).2 (f (op e').1 (op e').2).2
  rw [hanswer]
  exact hf _ _ _ hstate

lemma answer {T : α → α → Prop} [Std.Refl T] (a : α) :
    RespectsUpTo T R (Pure.pure a : StateM Engine α) :=
  fun _ _ he => ⟨Std.Refl.refl _, he⟩

section Checked

variable {T : Except EngineError β → Except EngineError β → Prop}

lemma pure [Std.Refl T] (b : β) : RespectsUpTo T R (Pure.pure b : Operation β) :=
  fun _ _ he => ⟨Std.Refl.refl _, he⟩

lemma throw [Std.Refl T] (cause : EngineError) :
    RespectsUpTo T R (MonadExcept.throw cause : Operation β) :=
  fun _ _ he => ⟨Std.Refl.refl _, he⟩

lemma bind [Std.Refl T] {op : Operation α} {f : α → Operation β} (hop : Respects R op)
    (hf : ∀ a, RespectsUpTo T R (f a)) : RespectsUpTo T R (op >>= f : Operation β) := by
  intro e e' he
  obtain ⟨hanswer, hstate⟩ := hop e e' he
  rcases hres : op e with ⟨result, e₁⟩
  rcases hres' : op e' with ⟨result', e₁'⟩
  rw [hres, hres'] at hanswer hstate
  dsimp only at hanswer
  subst hanswer
  cases result' with
  | ok a =>
    rw [bind_ok hres, bind_ok hres']
    exact hf a _ _ hstate
  | error cause =>
    rw [bind_error hres, bind_error hres']
    exact ⟨Std.Refl.refl _, hstate⟩

lemma throw_bind [Std.Refl T] (cause : EngineError) (f : α → Operation β) :
    RespectsUpTo T R (MonadExcept.throw cause >>= f : Operation β) := by
  have hthrow : ∀ e, (MonadExcept.throw cause : Operation α) e = (.error cause, e) := fun _ => rfl
  intro e e' he
  rw [bind_error (hthrow e), bind_error (hthrow e')]
  exact ⟨Std.Refl.refl _, he⟩

lemma ite {p : Prop} [Decidable p] {op op' : Operation β} (h : RespectsUpTo T R op)
    (h' : RespectsUpTo T R op') : RespectsUpTo T R (if p then op else op') := by
  split
  · exact h
  · exact h'

end Checked

end RespectsUpTo

lemma RespectsUpTo.mono {T T' : α → α → Prop} {op : StateM Engine α} (h : RespectsUpTo T R op)
    (himp : ∀ {a a'}, T a a' → T' a a') : RespectsUpTo T' R op :=
  fun e e' he => (h e e' he).imp_left himp

lemma Respects.each {f : α → Operation β} (h : ∀ a, Respects R (f a)) (l : List α) :
    Respects R (Engine.each f l) := by
  induction l with
  | nil => exact .answer _
  | cons a rest ih => exact (h a).seq fun _ => ih.seq fun _ => .answer _

lemma Respects.demand (result : Except EngineError α) : Respects R (Engine.demand result) := by
  cases result with
  | ok a => exact .pure a
  | error cause => exact .throw cause

lemma Respects.readName (result : Except ReadError α) : Respects R (Engine.readName result) := by
  cases result with
  | ok a => exact .pure a
  | error cause => exact .throw _

lemma checkStatus_reworded {w w' : Workflow.Spec} (h : S w w') (halike : w.Alike w') (s : Status) :
    Echoes S (.ofCheck (w.checkStatus s)) (.ofCheck (w'.checkStatus s)) := by
  rcases halike.checkStatus s with ⟨hcheck, hcheck'⟩ | ⟨hcheck, hcheck'⟩
  · rw [hcheck, hcheck']
    exact .valid
  · rw [hcheck, hcheck']
    exact .invalid (.unknown h s)

lemma checkTransition_reworded {w w' : Workflow.Spec} (h : S w w') (halike : w.Alike w')
    (s t : Status) :
    w.checkTransition s t = .ok () ∧ w'.checkTransition s t = .ok () ∨
      ∃ r r', w.checkTransition s t = .error r ∧ w'.checkTransition s t = .error r' ∧
        Reworded S r.message r'.message := by
  obtain ⟨hknown, hunknown⟩ := halike.checkTransition s t
  by_cases hboth : w.isAllowed s = true ∧ w.isAllowed t = true
  · rw [hknown hboth]
    rcases w.checkTransition s t with r | _
    · exact .inr ⟨r, r, rfl, rfl, .same _⟩
    · exact .inl ⟨rfl, rfl⟩
  · obtain ⟨u, hcheck, hcheck'⟩ := hunknown hboth
    exact .inr ⟨_, _, hcheck, hcheck', .unknown h u⟩

/-! ### Steps that read -/

namespace Congruence

variable (hR : Congruence S R)

include hR

lemma settings {f : Engine → Operation β}
    (hread : ∀ e e' : Engine,
      e'.settings.prerequisites = e.settings.prerequisites → f e' = f e)
    (hf : ∀ e, Respects R (f e)) : Respects R (MonadState.get >>= f : Operation β) := by
  intro e e' he
  rw [get_bind, get_bind, hread e e' (hR.prerequisites he)]
  exact hf e e e' he

lemma ask (call : Repository → Except EngineError α) : Respects R (Engine.ask call) := by
  intro e e' he
  have hcall := congrArg call (hR.repository he)
  rcases hres : call e.repository with cause | a
  · rw [ask_error hres, ask_error (hcall.trans hres)]
    exact ⟨rfl, he⟩
  · rw [ask_ok hres, ask_ok (hcall.trans hres)]
    exact ⟨rfl, he⟩

lemma store {call : Repository → Except EngineError (α × Repository)} (h : Carries R call) :
    Respects R (Engine.store call) := by
  intro e e' he
  have hcall := congrArg call (hR.repository he)
  rcases hres : call e.repository with cause | ⟨a, r⟩
  · rw [store_error hres, store_error (hcall.trans hres)]
    exact ⟨rfl, he⟩
  · rw [store_ok hres, store_ok (hcall.trans hres)]
    exact ⟨rfl, h e e' he a r hres⟩

lemma requireStatus (kind : Kind) (entity : Ident) :
    Respects R (Engine.requireStatus kind entity) := by
  refine (hR.ask _).bind fun status => ?_
  cases status with
  | none => exact .throw _
  | some status => exact .pure status

/-- To go on with the workflow of a kind, it is enough to go on alike with workflows that are
related. -/
lemma consult {T : Except EngineError β → Except EngineError β → Prop} (kind : Kind)
    {f : Workflow.Spec → Operation β}
    (hf : ∀ w w', S w' w → ∀ e e', R e e' → T (f w' e').1 (f w e).1 ∧ R (f w e).2 (f w' e').2) :
    RespectsUpTo T R (liftM (Engine.workflow kind) >>= f : Operation β) := by
  intro e e' he
  obtain ⟨hspec, hstate⟩ := hR.workflow kind e e' he
  rw [bind_ok (liftM_workflow kind e), bind_ok (liftM_workflow kind e')]
  exact hf _ _ hspec _ _ hstate

lemma consult_same (kind : Kind) {f : Workflow.Spec → Operation β}
    (hsame : ∀ {w w' : Workflow.Spec}, w.Alike w' → f w' = f w) (hf : ∀ w, Respects R (f w)) :
    Respects R (liftM (Engine.workflow kind) >>= f : Operation β) := by
  refine hR.consult kind fun w w' h e e' he => ?_
  rw [hsame (hR.alike h)]
  exact hf w' e e' he

lemma unresolvedBlockers (task : Ident) : Respects R (Engine.unresolvedBlockers task) := by
  refine (hR.ask _).bind fun edges => .ite (.pure _) ?_
  refine hR.consult_same .task (fun h => ?_) fun w => (hR.ask _).bind fun tasks => .pure _
  rw [h.fields]
  rfl

lemma shortfall (kind : Kind) (entity : Ident) (target : Status) :
    Respects R (Engine.shortfall kind entity target) := by
  cases kind with
  | task =>
    refine .ite ((hR.ask _).bind fun found => ?_)
      (.ite ((hR.unresolvedBlockers entity).bind fun _ => .pure _) (.pure _))
    cases found with
    | none => exact .throw _
    | some t =>
      refine hR.settings (fun e e' hsame => ?_) fun _ => .pure _
      rw [hsame]
  | feature =>
    refine .ite ((hR.ask _).bind fun tasks => .ite (.pure _) (.pure _)) (.ite ?_ (.pure _))
    refine hR.consult_same .task (fun h => ?_) fun w => (hR.ask _).bind fun tasks => .pure _
    rw [h.fields]
    rfl
  | project =>
    refine .ite ?_ (.pure _)
    refine hR.consult_same .feature (fun h => ?_) fun w => (hR.ask _).bind fun tasks => .pure _
    rw [h.fields]
    rfl

lemma readiness (entity : Ident) (kind : Kind) (target : Status) :
    Respects R (Engine.readiness entity kind target) := by
  refine (hR.requireStatus kind entity).bind fun _ => ?_
  refine hR.consult_same kind (fun h => ?_) fun w => ?_
  · rw [h.fields]
  · refine hR.settings (fun e e' hsame => ?_) fun _ =>
      .ite (.pure _) ((hR.shortfall kind entity target).bind fun found => ?_)
    · rw [hsame]
    · cases found with
      | none => exact .pure _
      | some s => exact .pure _

lemma queryNeighbors (task : Ident) (q : NeighborQuery) :
    Respects R (Engine.queryNeighbors task q) :=
  (hR.ask _).bind fun _ => hR.ask _

lemma queryGraph (task : Ident) (d : Direction) (withTitles : Bool) :
    Respects R (Engine.queryGraph task d withTitles) :=
  (hR.ask _).bind fun _ => hR.ask _

lemma blockedBy (task : Ident) : Respects R (Engine.blockedBy task) :=
  (hR.ask _).bind fun _ => hR.unresolvedBlockers task

lemma validatePrerequisites (entity : Ident) (kind : Kind) (raw : String) :
    Respects R (Engine.validatePrerequisites entity kind raw) :=
  (Respects.readName _).bind fun target => hR.readiness entity kind target

lemma validateStatus (kind : Kind) (raw : String) :
    RespectsUpTo (Echoes S) R (Engine.validateStatus kind raw) := by
  unfold Engine.validateStatus
  split
  · exact .answer _
  · rename_i s hparse
    intro e e' he
    obtain ⟨hspec, hstate⟩ := hR.workflow kind e e' he
    exact ⟨checkStatus_reworded hspec (hR.alike hspec) s, hstate⟩

lemma validateTransition (kind : Kind) (source target : String) :
    RespectsUpTo (Echoes S) R (Engine.validateTransition kind source target) := by
  unfold Engine.validateTransition
  split
  · exact .answer _
  · exact .answer _
  · rename_i s t hparse hparse'
    intro e e' he
    obtain ⟨hspec, hstate⟩ := hR.workflow kind e e' he
    refine ⟨?_, hstate⟩
    change Echoes S (.ofCheck ((Engine.workflow kind e').1.checkTransition s t))
      (.ofCheck ((Engine.workflow kind e).1.checkTransition s t))
    rcases checkTransition_reworded hspec (hR.alike hspec) s t with
      ⟨hcheck, hcheck'⟩ | ⟨r, r', hcheck, hcheck', hreworded⟩
    · rw [hcheck, hcheck']
      exact .valid
    · rw [hcheck, hcheck']
      exact .invalid hreworded

lemma applyStatus {kind : Kind} {entity : Ident} {target : Status}
    (hwrite : Carries R (·.updateStatus kind entity target)) :
    RespectsUpTo (Resembles S) R (Engine.applyStatus entity kind target) := by
  refine (hR.requireStatus kind entity).bind fun source => ?_
  refine hR.consult kind fun w w' h e e' he => ?_
  dsimp only
  rcases checkTransition_reworded h (hR.alike h) source target with
    ⟨hcheck, hcheck'⟩ | ⟨r, r', hcheck, hcheck', hreworded⟩
  · rw [hcheck, hcheck']
    refine RespectsUpTo.bind (hR.readiness entity kind target) (fun found => ?_) e e' he
    cases found with
    | unmet s => exact .throw_bind _ _
    | satisfied => exact (hR.store hwrite).bind fun found => .ite (.pure _) (.throw _)
  · rw [hcheck, hcheck']
    exact ⟨.refused hreworded, he⟩

end Congruence

/-! ### Steps under locks -/

namespace LockCongruence

variable (hR : LockCongruence S R)

include hR

lemma acquire {e e' : Engine} (he : R e e') (entity : Ident) :
    ∃ granted ticket e₁ e₁', e.acquire entity = (granted, ticket, e₁) ∧
      e'.acquire entity = (granted, ticket, e₁') ∧ R e₁ e₁' := by
  obtain ⟨hlocks, htickets⟩ := hR.locks he
  unfold Engine.acquire
  rw [hlocks, htickets]
  have htaken := hR.setTickets (hR.setLocks he (e.locks.acquire entity e.tickets).2)
    (e.tickets + 1)
  exact ⟨_, _, _, _, rfl, rfl, htaken⟩

lemma withLock {T : Except EngineError α → Except EngineError α → Prop} [Std.Refl T]
    {op : Operation α} (entity : Ident) (h : RespectsUpTo T R op) :
    RespectsUpTo T R (Engine.withLock entity op) := by
  intro e e' he
  obtain ⟨granted, ticket, e₁, e₁', hacquire, hacquire', htaken⟩ := hR.acquire he entity
  unfold Engine.withLock
  rw [hacquire, hacquire']
  dsimp only
  split
  · obtain ⟨hanswer, hend⟩ := h e₁ e₁' htaken
    refine ⟨hanswer, ?_⟩
    change R { (op e₁).2 with locks := (op e₁).2.locks.release entity ticket }
      { (op e₁').2 with locks := (op e₁').2.locks.release entity ticket }
    rw [(hR.locks hend).1]
    exact hR.setLocks hend _
  · rw [hR.locking htaken, (hR.locks htaken).1]
    exact ⟨Std.Refl.refl _, hR.setLocks htaken _⟩

lemma withLocks {op : Operation α} (a b : Ident) (h : Respects R op) :
    Respects R (Engine.withLocks a b op) := by
  unfold Engine.withLocks
  split
  · exact hR.withLock a (hR.withLock b h)
  · exact hR.withLock b (hR.withLock a h)

lemma changeStatus (entity : Ident) (kind : Kind) (raw : String)
    (hwrite : ∀ target, Carries R (·.updateStatus kind entity target)) :
    RespectsUpTo (Resembles S) R (Engine.changeStatus entity kind raw) :=
  (Respects.readName _).bind fun target => hR.withLock entity (hR.applyStatus (hwrite target))

lemma hold (entity : Ident) : Respects R (Engine.hold entity) := by
  intro e e' he
  obtain ⟨granted, ticket, e₁, e₁', hacquire, hacquire', htaken⟩ := hR.acquire he entity
  unfold Engine.hold
  rw [hacquire, hacquire']
  dsimp only
  split
  · exact ⟨rfl, htaken⟩
  · rw [hR.locking htaken, (hR.locks htaken).1]
    exact ⟨rfl, hR.setLocks htaken _⟩

lemma unhold (entity : Ident) : Respects R (modifyGet (Engine.unhold · entity)) := by
  intro e e' he
  change (Engine.unhold e' entity).1 = (Engine.unhold e entity).1 ∧
    R (Engine.unhold e entity).2 (Engine.unhold e' entity).2
  unfold Engine.unhold
  rw [(hR.locks he).1]
  split
  · exact ⟨rfl, hR.setLocks he _⟩
  · exact ⟨rfl, he⟩

end LockCongruence

/-- One engine, with a property of its repository. -/
def Having (P : Repository → Prop) (e e' : Engine) : Prop :=
  e' = e ∧ P e.repository

variable {P : Repository → Prop}

lemma Keeps.respects {op : StateM Engine α} (h : Keeps P op) : Respects (Having P) op := by
  rintro e _ ⟨rfl, he⟩
  exact ⟨rfl, rfl, h _ he⟩

lemma RespectsUpTo.keeps {T : α → α → Prop} {op : StateM Engine α}
    (h : RespectsUpTo T (Having P) op) : Keeps P op :=
  fun e he => (h e e ⟨rfl, he⟩).2.2

lemma CallKeeps.carries {call : Repository → Except EngineError (α × Repository)}
    (h : CallKeeps P call) : Carries (Having P) call := by
  rintro e _ ⟨rfl, he⟩ a r hcall
  exact ⟨rfl, h _ he a r hcall⟩

lemma lockCongruence_having : LockCongruence Eq (Having P) where
  repository := by
    rintro e _ ⟨rfl, -⟩
    rfl
  prerequisites := by
    rintro e _ ⟨rfl, -⟩
    rfl
  alike := by
    rintro w _ rfl
    exact .refl w
  workflow := fun _ => Keeps.respects fun _ => id
  locks := by
    rintro e _ ⟨rfl, -⟩
    exact ⟨rfl, rfl⟩
  locking := by
    rintro e _ ⟨rfl, -⟩
    rfl
  setLocks := by
    rintro e _ ⟨rfl, he⟩ locks
    exact ⟨rfl, he⟩
  setTickets := by
    rintro e _ ⟨rfl, he⟩ tickets
    exact ⟨rfl, he⟩

end Steps

/-- From every engine that stores `r`, an operation ends with an answer and a store as `Q` says. -/
def Ends (r : Repository) (op : Operation α) (Q : Except EngineError α → Repository → Prop) :
    Prop :=
  ∀ e : Engine, e.repository = r → Q (op e).1 (op e).2.repository

section Ends

variable {r : Repository} {Q : Except EngineError α → Repository → Prop}

lemma Ends.pure {a : α} (h : Q (.ok a) r) : Ends r (Pure.pure a) Q := by
  rintro e rfl
  exact h

lemma Ends.bind {op : Operation β} {f : β → Operation α}
    {P : Except EngineError β → Repository → Prop} (hop : Ends r op P)
    (hok : ∀ b r', P (.ok b) r' → Ends r' (f b) Q)
    (herror : ∀ cause r', P (.error cause) r' → Q (.error cause) r') :
    Ends r (op >>= f) Q := by
  intro e he
  have hend := hop e he
  rcases hres : op e with ⟨result, e'⟩
  rw [hres] at hend
  cases result with
  | ok b =>
    rw [bind_ok hres]
    exact hok b _ hend e' rfl
  | error cause =>
    rw [bind_error hres]
    exact herror cause _ hend

lemma Ends.get {f : Engine → Operation α} (h : ∀ e, Ends r (f e) Q) :
    Ends r (MonadState.get >>= f : Operation α) Q :=
  fun e he => h e e he

lemma Ends.ite {p : Prop} [Decidable p] {op op' : Operation α} (h : Ends r op Q)
    (h' : Ends r op' Q) : Ends r (if p then op else op') Q := by
  split
  · exact h
  · exact h'

lemma Ends.store {call : Repository → Except EngineError (α × Repository)}
    (hok : ∀ a r', call r = .ok (a, r') → Q (.ok a) r')
    (herror : ∀ cause, call r = .error cause → Q (.error cause) r) :
    Ends r (Engine.store call) Q := by
  rintro e rfl
  rcases hres : call e.repository with cause | ⟨a, r'⟩
  · rw [store_error hres]
    exact herror cause hres
  · rw [store_ok hres]
    exact hok a r' hres

lemma Ends.workflow {kind : Kind} {Q : Except EngineError Workflow.Spec → Repository → Prop}
    (h : ∀ w, Q (.ok w) r) : Ends r (liftM (Engine.workflow kind)) Q := by
  rintro e rfl
  exact h _

lemma acquire_eq (e : Engine) (entity : Ident) : ∃ locks,
    e.acquire entity =
      (!e.locks.isLocked entity, e.tickets, { e with locks, tickets := e.tickets + 1 }) := by
  refine ⟨(e.locks.acquire entity e.tickets).2, ?_⟩
  have hgranted : (e.locks.acquire entity e.tickets).1 = !e.locks.isLocked entity := by
    unfold Lock.Table.acquire Lock.Table.isLocked
    rcases e.locks.slot? entity with _ | s
    · rfl
    · by_cases hfree : s.hold = .free
      · simp [hfree]
      · simp [hfree]
  rw [← hgranted]
  rfl

lemma withLock_free {e : Engine} {entity : Ident} (hfree : e.locks.isLocked entity = false)
    (op : Operation α) : ∃ locks tickets,
      (withLock entity op e).1 = (op { e with locks, tickets }).1 ∧
      (withLock entity op e).2.repository = (op { e with locks, tickets }).2.repository := by
  obtain ⟨locks, hacquire⟩ := e.acquire_eq entity
  rw [hfree] at hacquire
  refine ⟨locks, e.tickets + 1, ?_⟩
  unfold withLock
  rw [hacquire]
  exact ⟨rfl, rfl⟩

lemma withLock_held {e : Engine} {entity : Ident} (hheld : e.locks.isLocked entity = true)
    (op : Operation α) :
    (withLock entity op e).1 =
        .error (.lockTimeout entity (.ofMillis e.settings.locking.timeoutMillis)) ∧
      (withLock entity op e).2.repository = e.repository := by
  obtain ⟨locks, hacquire⟩ := e.acquire_eq entity
  rw [hheld] at hacquire
  unfold withLock
  rw [hacquire]
  exact ⟨rfl, rfl⟩

lemma Ends.withLock {op : Operation α} {entity : Ident} (h : Ends r op Q)
    (htimeout : ∀ x waited, Q (.error (.lockTimeout x waited)) r) :
    Ends r (Engine.withLock entity op) Q := by
  rintro e rfl
  rcases hlocked : e.locks.isLocked entity with _ | _
  · obtain ⟨locks, tickets, hanswer, hstored⟩ := withLock_free hlocked op
    rw [hanswer, hstored]
    exact h _ rfl
  · obtain ⟨hanswer, hstored⟩ := withLock_held hlocked op
    rw [hanswer, hstored]
    exact htimeout _ _

lemma Ends.withLocks {op : Operation α} {a b : Ident} (h : Ends r op Q)
    (htimeout : ∀ x waited, Q (.error (.lockTimeout x waited)) r) :
    Ends r (Engine.withLocks a b op) Q := by
  unfold Engine.withLocks
  exact .ite ((h.withLock htimeout).withLock htimeout) ((h.withLock htimeout).withLock htimeout)

end Ends

end TaskFlow.Engine

import TaskFlow.Proofs.StatusHistory
import Mathlib.Data.Set.Insert

/-!
# Operations under locks

An operation that changes something takes the locks that it needs in ascending order and lets go of
them, whatever comes of it. The table of locks is afterwards what it was. Locks that somebody else
holds matter only where they are needed, and then the smallest of them is waited for in vain.
-/

namespace TaskFlow

namespace Lock.Table

variable {t : Table} {x y : Ident} {ticket issued : Nat}

/-- All locks that are kept are somebody's, and no ticket from `issued` on waits for one. -/
structure Sound (t : Table) (issued : Nat) : Prop where
  busy : ∀ s ∈ t.slots, s.hold ≠ .free
  drawn : ∀ s ∈ t.slots, ∀ ticket ∈ s.waiting, ticket < issued

/-- The table in which a lock that nobody had is taken. -/
def taken (t : Table) (entity : Ident) (ticket : Ticket) : Table :=
  ⟨t.slots ++ [{ entity, hold := .guarded ticket }]⟩

lemma sound_empty (issued : Nat) : Sound {} issued :=
  ⟨fun _ hs => absurd hs List.not_mem_nil, fun _ hs => absurd hs List.not_mem_nil⟩

lemma Sound.mono (h : t.Sound issued) (hle : issued ≤ ticket) : t.Sound ticket :=
  ⟨h.busy, fun s hs other hother => (h.drawn s hs other hother).trans_le hle⟩

lemma Sound.slot?_eq_none (h : t.Sound issued) (hfree : t.isLocked x = false) :
    t.slot? x = none := by
  rcases hslot : t.slot? x with _ | s
  · rfl
  · have hbusy := h.busy s (List.mem_of_find?_eq_some hslot)
    rw [isLocked, hslot] at hfree
    exact absurd hfree (by simp [hbusy])

lemma Sound.taken (h : t.Sound issued) (x : Ident) (ticket : Ticket) :
    (t.taken x ticket).Sound issued := by
  constructor
  · intro s hs
    rcases List.mem_append.1 hs with hs | hs
    · exact h.busy s hs
    · rw [List.mem_singleton.1 hs]
      exact Hold.noConfusion
  · intro s hs
    rcases List.mem_append.1 hs with hs | hs
    · exact h.drawn s hs
    · rw [List.mem_singleton.1 hs]
      exact fun _ hnone => absurd hnone List.not_mem_nil

lemma acquire_free (hnone : t.slot? x = none) :
    t.acquire x ticket = (true, t.taken x ticket) := by
  unfold acquire
  rw [hnone]
  rfl

lemma isLocked_taken_self (hnone : t.slot? x = none) : (t.taken x ticket).isLocked x = true := by
  unfold slot? at hnone
  simp [isLocked, slot?, taken, List.find?_append, hnone]

lemma isLocked_taken_of_ne (hne : y ≠ x) : (t.taken x ticket).isLocked y = t.isLocked y := by
  simp [isLocked, slot?, taken, List.find?_append, hne.symm]

lemma entity_ne_of_slot?_eq_none (hnone : t.slot? x = none) {s : Slot} (hs : s ∈ t.slots) :
    s.entity ≠ x := by
  have hother := List.find?_eq_none.1 hnone s hs
  simpa using hother

lemma release_taken (hnone : t.slot? x = none) : (t.taken x ticket).release x ticket = t := by
  have hold : t.slots.map (fun s => if s.entity = x then
      if s.hold = .guarded ticket then s.passOn else s else s) = t.slots := by
    refine (List.map_congr_left fun s hs => ?_).trans (List.map_id' _)
    rw [if_neg (entity_ne_of_slot?_eq_none hnone hs)]
  have hkept : t.slots.filter (fun s => !(s.entity == x && s.isIdle)) = t.slots := by
    refine List.filter_eq_self.2 fun s hs => ?_
    simp [entity_ne_of_slot?_eq_none hnone hs]
  unfold release modify sweep taken
  rw [List.map_append, hold, List.filter_append, hkept]
  simp [Slot.passOn, Slot.isIdle]

lemma Sound.expire_acquire (h : t.Sound issued) (hheld : t.isLocked x = true)
    (hticket : issued ≤ ticket) :
    (t.acquire x ticket).1 = false ∧ (t.acquire x ticket).2.expire x ticket = t := by
  rcases hslot : t.slot? x with _ | s
  · rw [isLocked, hslot] at hheld
    cases hheld
  have hbusy := h.busy s (List.mem_of_find?_eq_some hslot)
  unfold acquire
  rw [hslot]
  dsimp only
  rw [if_neg hbusy]
  refine ⟨rfl, ?_⟩
  have hback : (t.slots.map fun s => if s.entity = x then
      { s with waiting := s.waiting ++ [ticket] } else s).map (fun s => if s.entity = x then
      { s with waiting := s.waiting.erase ticket } else s) = t.slots := by
    rw [List.map_map]
    refine (List.map_congr_left fun s hs => ?_).trans (List.map_id' _)
    have hnew : ticket ∉ s.waiting := fun hmem =>
      Nat.lt_irrefl _ ((h.drawn s hs ticket hmem).trans_le hticket)
    by_cases hentity : s.entity = x
    · simp only [Function.comp_apply, if_pos hentity, List.erase_append_right _ hnew]
      simp
    · simp [hentity]
  unfold expire modify sweep
  rw [hback]
  have hkept : t.slots.filter (fun s => !(s.entity == x && s.isIdle)) = t.slots := by
    refine List.filter_eq_self.2 fun s hs => ?_
    simp [Slot.isIdle, h.busy s hs]
  rw [hkept]

end Lock.Table

namespace Engine

variable {α β : Type} {e e' : Engine} {x a b : Ident} {op : Operation α}

lemma withLock_taken (h : e.locks.Sound e.tickets) (hfree : e.locks.isLocked x = false)
    (op : Operation α) :
    let e₁ := { e with locks := e.locks.taken x e.tickets, tickets := e.tickets + 1 }
    withLock x op e =
      ((op e₁).1, { (op e₁).2 with locks := (op e₁).2.locks.release x e.tickets }) := by
  have hacquire : e.locks.acquire x e.tickets = (true, e.locks.taken x e.tickets) :=
    Lock.Table.acquire_free (h.slot?_eq_none hfree)
  unfold withLock Engine.acquire
  rw [hacquire]
  rfl

lemma withLock_refused (h : e.locks.Sound e.tickets) (hheld : e.locks.isLocked x = true)
    (op : Operation α) :
    withLock x op e =
      (.error (.lockTimeout x (.ofMillis e.settings.locking.timeoutMillis)),
        { e with tickets := e.tickets + 1 }) := by
  obtain ⟨hrefused, hback⟩ := h.expire_acquire hheld le_rfl
  unfold withLock Engine.acquire
  dsimp only
  rw [hrefused]
  simp only [Bool.false_eq_true, if_false]
  rw [hback]

/-- One engine under either of two tables of locks, with the tickets below `issued` drawn. -/
structure Under (locks locks' : Lock.Table) (issued : Nat) (e e' : Engine) : Prop where
  left : e.locks = locks
  right : e' = { e with locks := locks' }
  drawn : issued ≤ e.tickets

/-- What an operation does, and what it answers, has nothing to do with the locks, and it leaves
them alone. -/
def Lockless (op : StateM Engine α) : Prop :=
  ∀ locks locks' issued, Respects (Under locks locks' issued) op

/-- The operation takes the locks of these entities, and no others. -/
structure Guarded (needs : Set Ident) (op : Operation α) : Prop where
  /-- Other locks do not matter, and the table of locks is left as it was. -/
  agree : ∀ locks locks' : Lock.Table, ∀ issued, locks.Sound issued → locks'.Sound issued →
    (∀ x ∈ needs, locks.isLocked x = locks'.isLocked x) →
      Respects (Under locks locks' issued) op
  /-- A lock that somebody else has is waited for in vain. -/
  refused : ∀ e : Engine, e.locks.Sound e.tickets → (∃ x ∈ needs, e.locks.isLocked x = true) →
    ∃ x ∈ needs, e.locks.isLocked x = true ∧ (∀ y ∈ needs, e.locks.isLocked y = true → x ≤ y) ∧
      ∃ tickets, op e =
        (.error (.lockTimeout x (.ofMillis e.settings.locking.timeoutMillis)),
          { e with tickets })

section Under

variable {locks locks' : Lock.Table} {issued : Nat}

lemma congruence_under : Congruence Eq (Under locks locks' issued) where
  repository := by
    rintro e _ ⟨-, rfl, -⟩
    rfl
  prerequisites := by
    rintro e _ ⟨-, rfl, -⟩
    rfl
  alike := by
    rintro w _ rfl
    exact .refl w
  workflow := by
    rintro kind e _ ⟨rfl, rfl, hdrawn⟩
    exact ⟨rfl, rfl, rfl, hdrawn⟩

lemma carries_under (call : Repository → Except EngineError (α × Repository)) :
    Carries (Under locks locks' issued) call := by
  rintro e _ ⟨rfl, rfl, hdrawn⟩ a r -
  exact ⟨rfl, rfl, hdrawn⟩

lemma lockless_store (call : Repository → Except EngineError (α × Repository)) :
    Lockless (store call) :=
  fun _ _ _ => congruence_under.store (carries_under call)

/-- An operation under one lock cannot tell tables apart that agree on whether it is held, if the
operation cannot that runs under it once it is taken in both. -/
lemma Respects.withLock_under (hsound : locks.Sound issued) (hsound' : locks'.Sound issued)
    (hsame : locks.isLocked x = locks'.isLocked x)
    (hop : ∀ ticket, issued ≤ ticket → locks.isLocked x = false →
      Respects (Under (locks.taken x ticket) (locks'.taken x ticket) issued) op) :
    Respects (Under locks locks' issued) (withLock x op) := by
  rintro e _ ⟨rfl, rfl, hdrawn⟩
  have hleft : e.locks.Sound e.tickets := hsound.mono hdrawn
  have hright : ({ e with locks := locks' } : Engine).locks.Sound e.tickets := hsound'.mono hdrawn
  rcases hlocked : e.locks.isLocked x with _ | _
  · have hlocked' := hsame.symm.trans hlocked
    rw [withLock_taken hleft hlocked, withLock_taken hright hlocked']
    dsimp only
    have hunder : Under (e.locks.taken x e.tickets) (locks'.taken x e.tickets) issued
        { e with locks := e.locks.taken x e.tickets, tickets := e.tickets + 1 }
        { e with locks := locks'.taken x e.tickets, tickets := e.tickets + 1 } :=
      ⟨rfl, rfl, hdrawn.trans (Nat.le_succ _)⟩
    obtain ⟨hanswer, hleft₁, hright₁, hdrawn₁⟩ := hop e.tickets hdrawn hlocked _ _ hunder
    refine ⟨hanswer, ?_, ?_, hdrawn₁⟩
    · dsimp only
      rw [hleft₁]
      exact Lock.Table.release_taken (hsound.slot?_eq_none hlocked)
    · rw [hright₁]
      dsimp only
      rw [Lock.Table.release_taken (hsound'.slot?_eq_none hlocked')]
  · have hlocked' := hsame.symm.trans hlocked
    rw [withLock_refused hleft hlocked, withLock_refused hright hlocked']
    exact ⟨rfl, rfl, rfl, hdrawn.trans (Nat.le_succ _)⟩

lemma guarded_withLock_withLock (hle : a ≤ b) (hop : Lockless op) :
    Guarded {a, b} (withLock a (withLock b op)) := by
  constructor
  · intro locks locks' issued hsound hsound' hsame
    refine .withLock_under hsound hsound' (hsame a (.inl rfl)) fun ticket _ hfree => ?_
    have hfree' := (hsame a (.inl rfl)).symm.trans hfree
    refine .withLock_under (hsound.taken a ticket) (hsound'.taken a ticket) ?_
      fun ticket' _ _ => hop _ _ issued
    by_cases hne : b = a
    · subst hne
      rw [Lock.Table.isLocked_taken_self (hsound.slot?_eq_none hfree),
        Lock.Table.isLocked_taken_self (hsound'.slot?_eq_none hfree')]
    · rw [Lock.Table.isLocked_taken_of_ne hne, Lock.Table.isLocked_taken_of_ne hne]
      exact hsame b (.inr rfl)
  · rintro e hsound ⟨x, hx, hheld⟩
    rcases hfree : e.locks.isLocked a with _ | _
    · have hxb : x = b := by
        rcases hx with rfl | rfl
        · rw [hfree] at hheld
          cases hheld
        · rfl
      subst hxb
      have hne : x ≠ a := by
        rintro rfl
        rw [hfree] at hheld
        cases hheld
      refine ⟨x, .inr rfl, hheld, ?_, e.tickets + 2, ?_⟩
      · rintro y (rfl | rfl) hy
        · rw [hfree] at hy
          cases hy
        · exact Nat.le_refl _
      · have hinner : ({ e with
            locks := e.locks.taken a e.tickets
            tickets := e.tickets + 1 } : Engine).locks.isLocked x = true :=
          (Lock.Table.isLocked_taken_of_ne hne).trans hheld
        have hstill := (hsound.mono (Nat.le_succ _)).taken a e.tickets
        rw [withLock_taken hsound hfree, withLock_refused hstill hinner]
        dsimp only
        rw [Lock.Table.release_taken (hsound.slot?_eq_none hfree)]
    · refine ⟨a, .inl rfl, hfree, ?_, e.tickets + 1, withLock_refused hsound hfree _⟩
      rintro y (rfl | rfl) -
      · exact Nat.le_refl _
      · exact hle

lemma guarded_withLock (hop : Lockless op) : Guarded {a} (withLock a op) := by
  constructor
  · intro locks locks' issued hsound hsound' hsame
    exact .withLock_under hsound hsound' (hsame a rfl) fun _ _ _ => hop _ _ issued
  · rintro e hsound ⟨x, rfl, hheld⟩
    refine ⟨x, rfl, hheld, ?_, e.tickets + 1, withLock_refused hsound hheld _⟩
    rintro y rfl -
    exact Nat.le_refl _

lemma guarded_withLocks (hop : Lockless op) : Guarded {a, b} (withLocks a b op) := by
  unfold withLocks
  split
  · rename_i hle
    exact guarded_withLock_withLock hle hop
  · rename_i hle
    rw [Set.pair_comm]
    exact guarded_withLock_withLock ((Ident.le_total a b).resolve_left hle) hop

end Under

/-- The operations that change something, by the type of the answer. -/
inductive Mutation : Type → Type
  | addDependency (o : Order) : Mutation Dependency
  | createDependency (o : Order) (unblockAt : Option String) : Mutation Dependency
  | deleteDependency (edge : Ident) : Mutation Unit
  | deleteDependencies (source : Ident) (target : Option Ident) (relation : Option Relation) :
      Mutation DeletionReport
  | deleteTaskDependencies (task : Ident) : Mutation Nat
  | changeStatus (entity : Ident) (kind : Kind) (raw : String) : Mutation StatusChange

namespace Mutation

def perform {α : Type} : Mutation α → Operation α
  | addDependency o => Engine.addDependency o
  | createDependency o unblockAt => Engine.createDependency o unblockAt
  | deleteDependency edge => Engine.deleteDependency edge
  | deleteDependencies source target relation => Engine.deleteDependencies source target relation
  | deleteTaskDependencies task => Engine.deleteTaskDependencies task
  | changeStatus entity kind raw => Engine.changeStatus entity kind raw

/-- Why a change fails before it asks for a lock, if it does: a text cannot be read, a request is
not of good shape, or an edge is not found. -/
def objection? {α : Type} : Mutation α → Repository → Option EngineError
  | addDependency o, _ => failureOf o.request.check
  | createDependency o unblockAt, _ =>
    match parseUnblockRole unblockAt o.request.relation with
    | .error cause => some cause
    | .ok role => failureOf { o.request with unblockAt := role }.check
  | deleteDependency edge, r =>
    match r.findById edge with
    | .error cause => some cause
    | .ok none => some (.missing .dependency edge)
    | .ok (some _) => none
  | deleteDependencies .., _ | deleteTaskDependencies _, _ => none
  | changeStatus _ _ raw, _ =>
    match Status.parse raw with
    | .error cause => some (.invalid (.unreadable cause))
    | .ok _ => none

/-- The entities whose locks a change needs. -/
def needs {α : Type} : Mutation α → Repository → Set Ident
  | addDependency o, _ | createDependency o _, _ => {o.request.source, o.request.target}
  | deleteDependency edge, r =>
    {x | ∃ d, r.findById edge = .ok (some d) ∧ (x = d.source ∨ x = d.target)}
  | deleteDependencies source target _, _ => {x | x = source ∨ target = some x}
  | deleteTaskDependencies task, _ => {task}
  | changeStatus entity _ _, _ => {entity}

lemma addDependency_objection {o : Order} {cause : EngineError}
    (h : failureOf o.request.check = some cause) :
    Engine.addDependency o e = (.error cause, e) := by
  unfold Engine.addDependency
  rcases hcheck : o.request.check with cause' | _
  · rw [hcheck] at h
    cases h
    exact bind_error rfl
  · rw [hcheck] at h
    cases h

lemma addDependency_eq_withLocks {o : Order} (h : failureOf o.request.check = none) :
    Engine.addDependency o e =
      withLocks o.request.source o.request.target (store (·.addEdge o)) e := by
  unfold Engine.addDependency
  rcases hcheck : o.request.check with cause | _
  · rw [hcheck] at h
    cases h
  · exact bind_ok rfl

lemma createDependency_readable {o : Order} {unblockAt : Option String} {role : Option Role}
    (h : parseUnblockRole unblockAt o.request.relation = .ok role) :
    Engine.createDependency o unblockAt e =
      Engine.addDependency { o with request := { o.request with unblockAt := role } } e := by
  unfold Engine.createDependency
  rw [h]
  exact bind_ok rfl

lemma createDependency_unreadable {o : Order} {unblockAt : Option String} {cause : EngineError}
    (h : parseUnblockRole unblockAt o.request.relation = .error cause) :
    Engine.createDependency o unblockAt e = (.error cause, e) := by
  unfold Engine.createDependency
  rw [h]
  exact bind_error rfl

lemma guarded_deleteDependencies (source : Ident) (target : Option Ident)
    (relation : Option Relation) :
    Guarded {x | x = source ∨ target = some x}
      (Engine.deleteDependencies source target relation) := by
  have hdelete := lockless_store (·.removeWhere source target relation)
  cases target with
  | none =>
    have hneeds : {x | x = source ∨ none = some x} = ({source} : Set Ident) := by
      ext x
      simp
    rw [hneeds]
    exact guarded_withLock hdelete
  | some task =>
    unfold Engine.deleteDependencies
    dsimp only
    by_cases htask : task = source
    · rw [if_pos htask]
      have hneeds : {x | x = source ∨ some task = some x} = ({source} : Set Ident) := by
        ext x
        simp [htask, eq_comm]
      rw [hneeds]
      exact guarded_withLock hdelete
    · rw [if_neg htask]
      have hneeds : {x | x = source ∨ some task = some x} = ({source, task} : Set Ident) := by
        ext x
        simp [eq_comm]
      rw [hneeds]
      exact guarded_withLocks hdelete

lemma lockless_deleteById (edge : Ident) : Lockless (do
    if !(← store (·.deleteById edge)) then throw (.missing .dependency edge) :
      Operation Unit) :=
  fun locks locks' issued =>
    (lockless_store _ locks locks' issued).bind fun _ => .ite (.throw _) (.pure _)

lemma lockless_applyStatus (entity : Ident) (kind : Kind) (target : Status) :
    Lockless (applyStatus entity kind target) :=
  fun _ _ _ => (congruence_under.applyStatus (carries_under _)).mono Resembles.eq

lemma ask_findById_ok {edge : Ident} {found : Option Dependency}
    (h : e.repository.findById edge = .ok found) : ask (·.findById edge) e = (.ok found, e) :=
  ask_ok h

lemma ask_findById_error {edge : Ident} {cause : EngineError}
    (h : e.repository.findById edge = .error cause) :
    ask (·.findById edge) e = (.error cause, e) :=
  ask_error h

/-- A change against which nothing is said beforehand runs under the locks that it needs. -/
lemma guarded (m : Mutation α) {r : Repository} (h : m.objection? r = none) :
    ∃ op, Guarded (m.needs r) op ∧ ∀ e : Engine, e.repository = r → m.perform e = op e := by
  cases m with
  | addDependency o =>
    exact ⟨_, guarded_withLocks (lockless_store _), fun e _ => addDependency_eq_withLocks h⟩
  | createDependency o unblockAt =>
    dsimp only [objection?] at h
    rcases hrole : parseUnblockRole unblockAt o.request.relation with cause | role
    · rw [hrole] at h
      cases h
    rw [hrole] at h
    refine ⟨_, guarded_withLocks (lockless_store
      (·.addEdge { o with request := { o.request with unblockAt := role } })), fun e _ => ?_⟩
    exact (createDependency_readable hrole).trans (addDependency_eq_withLocks h)
  | deleteDependency edge =>
    dsimp only [objection?] at h
    rcases hfind : r.findById edge with cause | _ | d
    · rw [hfind] at h
      cases h
    · rw [hfind] at h
      cases h
    have hneeds : (deleteDependency edge).needs r = {d.source, d.target} := by
      ext x
      simp [needs, hfind]
    refine ⟨_, hneeds ▸ guarded_withLocks (lockless_deleteById edge), ?_⟩
    rintro e rfl
    exact bind_ok (ask_findById_ok hfind)
  | deleteDependencies source target relation =>
    exact ⟨_, guarded_deleteDependencies source target relation, fun e _ => rfl⟩
  | deleteTaskDependencies task =>
    exact ⟨_, guarded_withLock (lockless_store (·.deleteByTask task)), fun e _ => rfl⟩
  | changeStatus entity kind raw =>
    dsimp only [objection?] at h
    rcases hparse : Status.parse raw with cause | target
    · rw [hparse] at h
      cases h
    exact ⟨_, guarded_withLock (lockless_applyStatus entity kind target),
      fun e _ => changeStatus_readable hparse⟩

lemma perform_objection (m : Mutation α) {cause : EngineError}
    (h : m.objection? e.repository = some cause) : m.perform e = (.error cause, e) := by
  cases m with
  | addDependency o => exact addDependency_objection h
  | createDependency o unblockAt =>
    dsimp only [objection?] at h
    rcases hrole : parseUnblockRole unblockAt o.request.relation with cause' | role
    · rw [hrole] at h
      cases h
      exact createDependency_unreadable hrole
    · rw [hrole] at h
      exact (createDependency_readable hrole).trans (addDependency_objection h)
  | deleteDependency edge =>
    dsimp only [objection?] at h
    rcases hfind : e.repository.findById edge with cause' | _ | d
    · rw [hfind] at h
      cases h
      exact bind_error (ask_findById_error hfind)
    · rw [hfind] at h
      cases h
      exact bind_ok (ask_findById_ok hfind)
    · rw [hfind] at h
      cases h
  | deleteDependencies source target relation => cases h
  | deleteTaskDependencies task => cases h
  | changeStatus entity kind raw =>
    dsimp only [objection?] at h
    rcases hparse : Status.parse raw with cause' | target
    · rw [hparse] at h
      cases h
      exact changeStatus_unreadable hparse
    · rw [hparse] at h
      cases h

/-- A change fails for what its first checks say, and does nothing. Otherwise it does what it does
when no lock is held, unless somebody else has a lock that it needs: then it waits in vain for the
smallest of these and changes nothing. In every case the table of locks is left as it was. -/
theorem perform_amid_locks (m : Mutation α) (e : Engine) (h : e.locks.Sound e.tickets) :
    let alone := m.perform { e with locks := {} }
    (∀ cause, m.objection? e.repository = some cause → m.perform e = (.error cause, e)) ∧
    (m.objection? e.repository = none →
      ((∀ x ∈ m.needs e.repository, e.locks.isLocked x = false) →
        m.perform e = (alone.1, { alone.2 with locks := e.locks })) ∧
      ((∃ x ∈ m.needs e.repository, e.locks.isLocked x = true) →
        ∃ x ∈ m.needs e.repository, e.locks.isLocked x = true ∧
          (∀ y ∈ m.needs e.repository, e.locks.isLocked y = true → x ≤ y) ∧
          (m.perform e).1 =
            .error (.lockTimeout x (.ofMillis e.settings.locking.timeoutMillis)) ∧
          (m.perform e).2.repository = e.repository)) ∧
    (m.perform e).2.locks = e.locks := by
  intro alone
  rcases hobjection : m.objection? e.repository with _ | cause
  · obtain ⟨op, hguarded, hperform⟩ := m.guarded hobjection
    refine ⟨?_, fun _ => ⟨fun hfree => ?_, fun hheld => ?_⟩, ?_⟩
    · rintro cause ⟨⟩
    · have hsame : ∀ x ∈ m.needs e.repository,
          e.locks.isLocked x = (({} : Lock.Table).isLocked x) := hfree
      obtain ⟨hanswer, hlocks, hend, -⟩ := hguarded.agree e.locks {} e.tickets h
        (Lock.Table.sound_empty _) hsame e { e with locks := {} } ⟨rfl, rfl, le_rfl⟩
      rw [hperform e rfl]
      change op e = ((m.perform { e with locks := {} }).1,
        { (m.perform { e with locks := {} }).2 with locks := e.locks })
      rw [hperform { e with locks := {} } rfl, hanswer, hend, ← hlocks]
      rfl
    · obtain ⟨x, hx, hlocked, hleast, tickets, hrefused⟩ := hguarded.refused e h hheld
      rw [hperform e rfl, hrefused]
      exact ⟨x, hx, hlocked, hleast, rfl, rfl⟩
    · rw [hperform e rfl]
      exact (hguarded.agree e.locks e.locks e.tickets h h (fun _ _ => rfl) e e
        ⟨rfl, rfl, le_rfl⟩).2.left
  · have hfails := m.perform_objection hobjection
    refine ⟨?_, ?_, ?_⟩
    · rintro _ ⟨⟩
      exact hfails
    · rintro ⟨⟩
    · rw [hfails]

end Mutation

/-- Two tasks, of which the first blocks the second, while somebody else has the lock of the
second. -/
def contested : Engine :=
  { joined with locks := ({} : Lock.Table).taken (.ofNat 2) 0, tickets := 1 }

lemma sound_contested : contested.locks.Sound contested.tickets :=
  (Lock.Table.sound_empty _).taken _ _

theorem Mutation.perform_amid_locks_contested : contested.locks.Sound contested.tickets ∧
    contested.locks.isLocked (.ofNat 1) = false ∧ contested.locks.isLocked (.ofNat 2) = true ∧
    ((addDependency echo).perform contested).1 =
      .error (.lockTimeout (.ofNat 2) (.ofMillis 30000)) ∧
    ((addDependency echo).perform contested).2.locks = contested.locks ∧
    ((deleteTaskDependencies (.ofNat 1)).perform contested).1 = .ok 1 := by
  obtain ⟨-, hadd, hlocks⟩ := (addDependency echo).perform_amid_locks contested sound_contested
  obtain ⟨-, hdelete, -⟩ :=
    (deleteTaskDependencies (.ofNat 1)).perform_amid_locks contested sound_contested
  obtain ⟨x, hx, hheld, -, hrefused, -⟩ := (hadd rfl).2 ⟨.ofNat 2, .inl rfl, rfl⟩
  have hx : x = .ofNat 2 := by
    rcases hx with rfl | rfl
    · rfl
    · cases hheld
  subst hx
  have hfree : ∀ x ∈ (deleteTaskDependencies (.ofNat 1)).needs contested.repository,
      contested.locks.isLocked x = false := by
    rintro x rfl
    rfl
  refine ⟨sound_contested, rfl, rfl, hrefused, hlocks, ?_⟩
  rw [(hdelete rfl).1 hfree]
  rfl

end Engine

end TaskFlow

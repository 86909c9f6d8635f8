import TaskFlow.Proofs.Reached
import Mathlib.Data.List.Nodup
import Mathlib.Data.List.Perm.Basic

/-!
# Batches of requests

The requests of a batch are carried out one after the other, each against what those before it
left. Still, whether all of them are accepted is one question about the batch and the stored edges
together, in which their order plays no part.
-/

open Relation (ReflTransGen TransGen)

namespace TaskFlow

/-- What an edge says, apart from its stamp. -/
def Dependency.request (d : Dependency) : Request :=
  ⟨d.source, d.target, d.relation, d.unblockAt⟩

namespace Request

/-- What no two edges have in common. -/
def key (q : Request) : Ident × Ident × Relation :=
  (q.source, q.target, q.relation)

/-- The order for an edge under a stamp from the supply. -/
def order (q : Request) : Order :=
  { request := q }

/-- The request joins two different stored tasks, and names only a role that unblocks. -/
structure Proper (r : Repository) (q : Request) : Prop where
  ends : q.source ≠ q.target
  source : r.Stores q.source
  target : r.Stores q.target
  informational : q.relation = .relatesTo → q.unblockAt = none
  unblocking : ∀ role, q.unblockAt = some role →
    role = .work ∨ role = .review ∨ role = .terminal

lemma Proper.check {r : Repository} {q : Request} (h : q.Proper r) : q.check = .ok () := by
  unfold Request.check
  rw [if_neg h.ends]
  rcases hrole : q.unblockAt with _ | role
  · rfl
  have hblocking : q.relation.isBlocking = true := by
    cases hrelation : q.relation with
    | blocks => rfl
    | isBlockedBy => rfl
    | relatesTo =>
      rw [h.informational hrelation] at hrole
      cases hrole
  rcases h.unblocking role hrole with rfl | rfl | rfl <;> simp [hblocking, Role.isUnblocking]

end Request

/-- No two of the requests are for the same edge, and those that block form no cycle. -/
structure Consistent (requests : List Request) : Prop where
  unique : (requests.map Request.key).Nodup
  acyclic : ∀ task, ¬ TransGen (fun a b => ∃ q ∈ requests, q.pair = some (a, b)) task task

variable {q : Request} {rest l l' : List Request}

lemma Consistent.perm (h : Consistent l) (hperm : l.Perm l') : Consistent l' where
  unique := (hperm.map Request.key).nodup_iff.1 h.unique
  acyclic := by
    have hsame : (fun a b => ∃ q ∈ l', q.pair = some (a, b)) =
        fun a b => ∃ q ∈ l, q.pair = some (a, b) := by
      funext a b
      simp only [hperm.mem_iff]
    rw [hsame]
    exact h.acyclic

lemma consistent_perm (hperm : l.Perm l') : Consistent l ↔ Consistent l' :=
  ⟨fun h => h.perm hperm, fun h => h.perm hperm.symm⟩

namespace Repository

variable {r : Repository}

/-- What the stored edges say, oldest first. -/
def said (r : Repository) : List Request :=
  r.edges.toList.map Dependency.request

/-- The stored edges and the next `count` stamps of the supply have all different identifiers. -/
def Fresh (r : Repository) (count : Nat) : Prop :=
  (r.edges.toList.map Dependency.id ++
    (List.range' (r.issued + 1) count).map fun n => (r.supply n).id).Nodup

/-- The edge that a request becomes next. -/
def nextEdge (r : Repository) (q : Request) : Dependency :=
  .ofRequest q (r.supply (r.issued + 1))

/-- The repository in which a request has become an edge. -/
def plus (r : Repository) (q : Request) : Repository :=
  { r with edges := r.edges.put (r.nextEdge q), issued := r.issued + 1 }

instance (r : Repository) (count : Nat) : Decidable (r.Fresh count) :=
  inferInstanceAs (Decidable (List.Nodup _))

lemma blocks_iff_said {a b : Ident} : r.Blocks a b ↔ ∃ q ∈ r.said, q.pair = some (a, b) := by
  simp only [said, List.mem_map, exists_exists_and_eq_and]
  rfl

lemma has_iff_said : r.Has q.source q.target q.relation ↔ q.key ∈ r.said.map Request.key := by
  unfold said Has
  rw [List.map_map, List.mem_map]
  simp [Request.key, Dependency.request]

lemma WellFormed.consistent (h : r.WellFormed) : Consistent r.said where
  unique := by
    have hdistinct : r.edges.toList.Nodup := by
      refine r.edges.distinct.imp ?_
      rintro d x hid rfl
      exact hid rfl
    unfold said
    rw [List.map_map]
    refine hdistinct.map_on fun d hd x hx hkey => ?_
    simp only [Function.comp_apply, Request.key, Dependency.request, Prod.mk.injEq] at hkey
    exact h.unique d hd x hx hkey.1 hkey.2.1 hkey.2.2
  acyclic := by
    have hsame : (fun a b => ∃ q ∈ r.said, q.pair = some (a, b)) = r.Blocks := by
      funext a b
      exact propext blocks_iff_said.symm
    rw [hsame]
    exact h.acyclic

lemma admits_of_consistent (h : Consistent (r.said ++ q :: rest)) :
    ¬ r.Has q.source q.target q.relation ∧ ¬ r.Closes q := by
  constructor
  · rw [has_iff_said]
    intro hmem
    have hunique := h.unique
    rw [List.map_append, List.map_cons] at hunique
    exact List.disjoint_of_nodup_append hunique hmem List.mem_cons_self
  · rintro ⟨blocker, blocked, hpair, hback⟩
    have hle : r.Blocks ≤ fun a b => ∃ p ∈ r.said ++ q :: rest, p.pair = some (a, b) := by
      intro a b hab
      obtain ⟨p, hp, hstep⟩ := blocks_iff_said.1 hab
      exact ⟨p, List.mem_append_left _ hp, hstep⟩
    exact h.acyclic blocker (.head' ⟨q, by simp, hpair⟩ (ReflTransGen.mono hle _ _ hback))

lemma addEdge_admitted (horder : r.InOrder) (hq : q.Proper r)
    (hadmits : ¬ r.Has q.source q.target q.relation ∧ ¬ r.Closes q) :
    r.addEdge q.order = .ok (r.nextEdge q, r.plus q) := by
  have hnone : firstCause (r.objections q.order.request) = none :=
    (firstCause_objections hq.check hq.source hq.target hadmits.1).trans (if_neg hadmits.2)
  rw [addEdge_ok horder hnone]
  exact answer_eq horder ..

section Fresh

variable {count : Nat}

lemma Fresh.ids_ne (h : r.Fresh (count + 1)) :
    ∀ d ∈ r.edges.toList, d.id ≠ (r.nextEdge q).id := by
  intro d hd hid
  refine List.disjoint_of_nodup_append h (List.mem_map_of_mem hd) ?_
  rw [hid, List.range'_succ]
  exact List.mem_cons_self

lemma Fresh.put_perm (h : r.Fresh (count + 1)) (q : Request) :
    (r.plus q).edges.toList.Perm (r.nextEdge q :: r.edges.toList) :=
  Roster.put_perm h.ids_ne

lemma Fresh.said_plus (h : r.Fresh (count + 1)) (q : Request) :
    (r.plus q).said.Perm (q :: r.said) :=
  (h.put_perm q).map Dependency.request

lemma Fresh.plus (h : r.Fresh (count + 1)) (q : Request) : (r.plus q).Fresh count := by
  have hids := (h.put_perm q).map Dependency.id
  unfold Fresh at h ⊢
  rw [List.range'_succ] at h
  refine ((hids.append_right _).trans ?_).nodup_iff.2 h
  exact List.perm_middle.symm

end Fresh

lemma proper_plus (hq : q.Proper r) (p : Request) : q.Proper (r.plus p) :=
  { hq with }

end Repository

namespace Lock.Table

lemma Sound.eq_empty {t : Table} {issued : Nat} (h : t.Sound issued)
    (hfree : ∀ x, t.isLocked x = false) : t = {} := by
  obtain ⟨slots⟩ := t
  cases slots with
  | nil => rfl
  | cons s rest =>
    have hnone := h.slot?_eq_none (hfree s.entity)
    simp [slot?] at hnone

end Lock.Table

namespace Engine

variable {α : Type} {e : Engine} {o : Order}

lemma store_apart (call : Repository → Except EngineError (α × Repository)) (e : Engine)
    (locks : Lock.Table) (tickets : Nat) : store call { e with locks, tickets } =
      ((store call e).1, { (store call e).2 with locks, tickets }) := by
  rcases hcall : call e.repository with cause | ⟨a, r⟩
  · have hcall' : call ({ e with locks, tickets } : Engine).repository = .error cause := hcall
    rw [store_error hcall, store_error hcall']
  · have hcall' : call ({ e with locks, tickets } : Engine).repository = .ok (a, r) := hcall
    rw [store_ok hcall, store_ok hcall']

lemma withLock_withLock_unlocked {a b : Ident} (hlocks : e.locks = {}) (hne : b ≠ a)
    (call : Repository → Except EngineError (α × Repository)) :
    withLock a (withLock b (store call)) e =
      ((store call e).1, { (store call e).2 with locks := {}, tickets := e.tickets + 2 }) := by
  have hsound : e.locks.Sound e.tickets := hlocks ▸ Lock.Table.sound_empty _
  have hfree (x : Ident) : e.locks.isLocked x = false := by rw [hlocks]; rfl
  have htaken := (hsound.mono (Nat.le_succ _)).taken a e.tickets
  have hsecond : (e.locks.taken a e.tickets).isLocked b = false :=
    (Lock.Table.isLocked_taken_of_ne hne).trans (hfree b)
  rw [withLock_taken hsound (hfree a), withLock_taken htaken hsecond,
    store_apart call e]
  dsimp only
  rw [Lock.Table.release_taken (htaken.slot?_eq_none hsecond),
    Lock.Table.release_taken (hsound.slot?_eq_none (hfree a)), hlocks]

lemma locks_store (call : Repository → Except EngineError (α × Repository)) (e : Engine) :
    (store call e).2.locks = e.locks :=
  congrArg (fun s => s.2.locks) (store_apart call e e.locks e.tickets)

lemma withLocks_unlocked {a b : Ident} (hlocks : e.locks = {}) (hne : a ≠ b)
    (call : Repository → Except EngineError (α × Repository)) :
    withLocks a b (store call) e =
      ((store call e).1, { (store call e).2 with tickets := e.tickets + 2 }) := by
  have hboth : (store call e).2.locks = {} := (locks_store call e).trans hlocks
  unfold withLocks
  split
  · rw [withLock_withLock_unlocked hlocks hne.symm, ← hboth]
  · rw [withLock_withLock_unlocked hlocks hne, ← hboth]

lemma addDependency_unlocked (hlocks : e.locks = {}) (hcheck : failureOf o.request.check = none) :
    addDependency o e = ((store (·.addEdge o) e).1,
      { (store (·.addEdge o) e).2 with tickets := e.tickets + 2 }) := by
  have hne : o.request.source ≠ o.request.target := by
    intro hself
    unfold Request.check at hcheck
    rw [if_pos hself] at hcheck
    cases hcheck
  rw [Mutation.addDependency_eq_withLocks hcheck, withLocks_unlocked hlocks hne]

lemma Reached.addDependency_refused (h : Reached e) {cause : EngineError}
    (hfails : (addDependency o e).1 = .error cause) :
    ∃ tickets, (addDependency o e).2 = { e with tickets } := by
  rcases hcheck : failureOf o.request.check with _ | objection
  · have hguarded : Guarded _ (withLocks o.request.source o.request.target _) :=
      guarded_withLocks (lockless_store (·.addEdge o))
    by_cases hheld : ∃ x ∈ ({o.request.source, o.request.target} : Set Ident),
        e.locks.isLocked x = true
    · obtain ⟨x, -, -, -, tickets, hrefused⟩ := hguarded.refused e h.sound hheld
      rw [Mutation.addDependency_eq_withLocks hcheck, hrefused]
      exact ⟨tickets, rfl⟩
    · have hsame : ∀ x ∈ ({o.request.source, o.request.target} : Set Ident),
          e.locks.isLocked x = ({} : Lock.Table).isLocked x :=
        fun x hx => Bool.eq_false_iff.2 fun hlocked => hheld ⟨x, hx, hlocked⟩
      obtain ⟨hanswer, hlocks, hend, -⟩ := hguarded.agree e.locks {} e.tickets h.sound
        (Lock.Table.sound_empty _) hsame e { e with locks := {} } ⟨rfl, rfl, le_rfl⟩
      simp only [← Mutation.addDependency_eq_withLocks hcheck] at hanswer hlocks hend
      have halone := addDependency_unlocked (e := { e with locks := {} }) rfl hcheck
      rcases hstore : e.repository.addEdge o with cause' | ⟨d, r⟩
      · rw [store_error hstore] at halone
        have hback : (addDependency o e).2 =
            { ({ (addDependency o e).2 with locks := {} } : Engine) with
              locks := (addDependency o e).2.locks } := rfl
        rw [hback, ← hend, halone, hlocks]
        exact ⟨e.tickets + 2, rfl⟩
      · rw [store_ok hstore] at halone
        rw [hfails, halone] at hanswer
        cases hanswer
  · rw [Mutation.addDependency_objection hcheck]
    exact ⟨e.tickets, rfl⟩

def batch (requests : List Request) : StateM Engine (List (Except EngineError Dependency)) :=
  each addDependency (requests.map Request.order)

/-- All requests of the batch are accepted. -/
def Accepts (e : Engine) (requests : List Request) : Prop :=
  ∀ answer ∈ (batch requests e).1, ∃ d, answer = .ok d

variable {q : Request} {rest requests requests' : List Request}

lemma batch_cons (q : Request) (rest : List Request) (e : Engine) :
    batch (q :: rest) e =
      ((addDependency q.order e).1 :: (batch rest (addDependency q.order e).2).1,
        (batch rest (addDependency q.order e).2).2) :=
  rfl

lemma accepts_cons : Accepts e (q :: rest) ↔
    (∃ d, (addDependency q.order e).1 = .ok d) ∧ Accepts (addDependency q.order e).2 rest := by
  unfold Accepts
  rw [batch_cons, List.forall_mem_cons]

lemma addDependency_admitted (hlocks : e.locks = {}) (horder : e.repository.InOrder)
    (hq : q.Proper e.repository)
    (hadmits : ¬ e.repository.Has q.source q.target q.relation ∧ ¬ e.repository.Closes q) :
    addDependency q.order e = (.ok (e.repository.nextEdge q),
      { e with repository := e.repository.plus q, tickets := e.tickets + 2 }) := by
  have hcheck : failureOf q.order.request.check = none := congrArg failureOf hq.check
  rw [addDependency_unlocked hlocks hcheck,
    store_ok (Repository.addEdge_admitted horder hq hadmits)]

lemma admits_of_accepted (hlocks : e.locks = {}) (horder : e.repository.InOrder)
    (hq : q.Proper e.repository) {d : Dependency} (hok : (addDependency q.order e).1 = .ok d) :
    ¬ e.repository.Has q.source q.target q.relation ∧ ¬ e.repository.Closes q := by
  have hcheck : failureOf q.order.request.check = none := congrArg failureOf hq.check
  rw [addDependency_unlocked hlocks hcheck] at hok
  rcases hcause : firstCause (e.repository.objections q.order.request) with _ | cause
  · have hsilent := firstCause_eq_none hcause
    simp only [Repository.objections, Request.objections, List.cons_append, List.nil_append,
      List.forall_mem_cons] at hsilent
    obtain ⟨-, -, -, -, -, -, hnew, hopen, -⟩ := hsilent
    exact ⟨hnew, hopen⟩
  · rw [store_error (Repository.addEdge_error horder hcause)] at hok
    cases hok

/-- A batch is accepted just if it is consistent with what is stored, and then adds what it says. -/
lemma accepts_iff (hlocks : e.locks = {}) (htidy : Tidy e.repository)
    (hfresh : e.repository.Fresh requests.length)
    (hproper : ∀ q ∈ requests, q.Proper e.repository) :
    (Accepts e requests ↔ Consistent (e.repository.said ++ requests)) ∧
      (Accepts e requests → (batch requests e).2.repository.said.Perm
        (e.repository.said ++ requests)) := by
  induction requests generalizing e with
  | nil =>
    have hconsistent : Consistent (e.repository.said ++ []) := by
      rw [List.append_nil]
      exact htidy.2.consistent
    refine ⟨iff_of_true (fun _ hmem => absurd hmem List.not_mem_nil) hconsistent, fun _ => ?_⟩
    rw [List.append_nil]
    exact .refl _
  | cons q rest ih =>
    obtain ⟨hq, hrest⟩ := List.forall_mem_cons.1 hproper
    by_cases hadmits :
        ¬ e.repository.Has q.source q.target q.relation ∧ ¬ e.repository.Closes q
    · have hadded := addDependency_admitted hlocks htidy.1 hq hadmits
      have hsaid := hfresh.said_plus q
      have hmoved : ((e.repository.plus q).said ++ rest).Perm
          (e.repository.said ++ q :: rest) :=
        (hsaid.append_right rest).trans List.perm_middle.symm
      have htidy' : Tidy (e.repository.plus q) :=
        addEdge_keeps q.order _ htidy _ _ (Repository.addEdge_admitted htidy.1 hq hadmits)
      obtain ⟨hiff, hperm⟩ := ih
        (e := { e with repository := e.repository.plus q, tickets := e.tickets + 2 }) hlocks htidy'
        (hfresh.plus q) fun p hp => Repository.proper_plus (hrest p hp) q
      have haccepts : Accepts e (q :: rest) ↔ _ := accepts_cons
      rw [hadded, and_iff_right ⟨_, rfl⟩] at haccepts
      rw [batch_cons, hadded]
      exact ⟨haccepts.trans (hiff.trans (consistent_perm hmoved)),
        fun h => (hperm (haccepts.1 h)).trans hmoved⟩
    · have hrefused : ¬ Accepts e (q :: rest) := by
        rw [accepts_cons]
        rintro ⟨⟨d, hok⟩, -⟩
        exact hadmits (admits_of_accepted hlocks htidy.1 hq hok)
      have hinconsistent : ¬ Consistent (e.repository.said ++ q :: rest) :=
        fun h => hadmits (Repository.admits_of_consistent h)
      exact ⟨iff_of_false hrefused hinconsistent, fun haccepts => absurd haccepts hrefused⟩

lemma batch_append (before after : List Request) (e : Engine) :
    batch (before ++ after) e =
      ((batch before e).1 ++ (batch after (batch before e).2).1,
        (batch after (batch before e).2).2) := by
  induction before generalizing e with
  | nil => rfl
  | cons q rest ih => rw [List.cons_append, batch_cons, batch_cons, ih, List.cons_append]

lemma length_batch (requests : List Request) (e : Engine) :
    (batch requests e).1.length = requests.length := by
  induction requests generalizing e with
  | nil => rfl
  | cons q rest ih => rw [batch_cons, List.length_cons, List.length_cons, ih]

/-- Where no lock is held and new edges get new identifiers, a batch of proper requests is accepted
as a whole just if it is consistent with what is stored. So if it is, it is in every order, and what
is stored afterwards is what was stored and what was asked for. Each request of any batch is
answered as it would be by itself after those before it, and one that is refused changes nothing. -/
theorem Reached.batch_accepted_iff (h : Reached e) (hfree : ∀ x, e.locks.isLocked x = false) :
    (∀ requests, e.repository.Fresh requests.length →
      (∀ q ∈ requests, q.Proper e.repository) →
        (Accepts e requests ↔ Consistent (e.repository.said ++ requests)) ∧
        ∀ requests', requests.Perm requests' →
          (Accepts e requests ↔ Accepts e requests') ∧
          (Accepts e requests →
            (batch requests e).2.repository.said.Perm (e.repository.said ++ requests) ∧
            (batch requests' e).2.repository.said.Perm (batch requests e).2.repository.said)) ∧
    ∀ before q after,
      let left := (batch before e).2
      let alone := addDependency q.order left
      (batch (before ++ q :: after) e).1[before.length]? = some alone.1 ∧
      (∀ cause, alone.1 = .error cause → ∃ tickets, alone.2 = { left with tickets }) := by
  have hlocks : e.locks = {} := h.sound.eq_empty hfree
  constructor
  · intro requests hfresh hproper
    obtain ⟨hiff, hadds⟩ := accepts_iff hlocks h.tidy hfresh hproper
    refine ⟨hiff, fun requests' hperm => ?_⟩
    obtain ⟨hiff', hadds'⟩ := accepts_iff hlocks h.tidy (hperm.length_eq ▸ hfresh)
      fun q hq => hproper q (hperm.mem_iff.2 hq)
    have hsame : Accepts e requests ↔ Accepts e requests' := by
      rw [hiff, hiff', consistent_perm (hperm.append_left _)]
    refine ⟨hsame, fun haccepts => ⟨hadds haccepts, ?_⟩⟩
    exact (hadds' (hsame.1 haccepts)).trans
      ((hperm.symm.append_left _).trans (hadds haccepts).symm)
  · intro before q after left alone
    have hleft : Reached left := h.act (.addDependencies (before.map Request.order))
    refine ⟨?_, fun cause hfails => hleft.addDependency_refused hfails⟩
    rw [batch_append, batch_cons]
    refine (List.getElem?_append_right (length_batch before e).le).trans ?_
    rw [length_batch, Nat.sub_self]
    rfl

lemma consistent_joining_echo :
    Consistent (pair.repository.said ++ [joining.request, echo.request]) where
  unique := by decide
  acyclic := by
    have hstep : ∀ a b, (∃ q ∈ pair.repository.said ++ [joining.request, echo.request],
        q.pair = some (a, b)) → a = .ofNat 1 ∧ b = .ofNat 2 := by
      rintro a b ⟨q, hq, hpair⟩
      have hboth : q ∈ [joining.request, echo.request] := hq
      rcases List.mem_pair.1 hboth with rfl | rfl
      · cases hpair
        exact ⟨rfl, rfl⟩
      · cases hpair
        exact ⟨rfl, rfl⟩
    intro task hcycle
    obtain ⟨_, hfirst, -⟩ := TransGen.head'_iff.1 hcycle
    obtain ⟨_, -, hlast⟩ := TransGen.tail'_iff.1 hcycle
    have hends := (hstep _ _ hfirst).1.symm.trans (hstep _ _ hlast).2
    exact absurd hends (by decide)

theorem Reached.batch_accepted_iff_pair : Reached pair ∧
    (∀ x, pair.locks.isLocked x = false) ∧ pair.repository.Fresh 2 ∧
    (∀ q ∈ [joining.request, echo.request], q.Proper pair.repository) ∧
    Accepts pair [echo.request, joining.request] ∧
    (batch [echo.request, joining.request] pair).2.repository.said.Perm
      (batch [joining.request, echo.request] pair).2.repository.said ∧
    ∃ d, (batch [joining.request, echo.request] pair).1[1]? = some (.ok d) := by
  have hfree : ∀ x, pair.locks.isLocked x = false := fun _ => rfl
  have hfresh : pair.repository.Fresh 2 := by decide
  have hproper : ∀ q ∈ [joining.request, echo.request], q.Proper pair.repository := by
    intro q hq
    rcases List.mem_pair.1 hq with rfl | rfl
    · exact ⟨by decide, by decide, by decide, nofun, by rintro role ⟨⟩; exact .inl rfl⟩
    · exact ⟨by decide, by decide, by decide, nofun, nofun⟩
  obtain ⟨hwhole, heach⟩ := reached_pair.batch_accepted_iff hfree
  obtain ⟨hiff, hpermuted⟩ := hwhole [joining.request, echo.request] hfresh hproper
  have haccepts := hiff.2 consistent_joining_echo
  obtain ⟨hsame, hstored⟩ := hpermuted [echo.request, joining.request] (.swap _ _ _)
  obtain ⟨hanswer, -⟩ := heach [joining.request] echo.request []
  obtain ⟨d, hd⟩ := haccepts _ (List.mem_of_getElem? hanswer)
  refine ⟨reached_pair, hfree, hfresh, hproper, hsame.1 haccepts, (hstored haccepts).2, d, ?_⟩
  rw [← hd]
  exact hanswer

end Engine

end TaskFlow

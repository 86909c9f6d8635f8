import TaskFlow.Proofs.Caching
import TaskFlow.Proofs.Locking

/-!
# What can be reached

An engine begins with a store without edges, with nothing in its cache and with no lock taken. From
then on everybody acts on it, and the owner of the store adds records and rewrites them. Whatever
was done, the stored edges are well-formed, the cache holds what the documents say, and locks are
kept only where they are somebody's.
-/

namespace TaskFlow

namespace Lock.Table

variable {t : Table} {x : Ident} {ticket issued : Nat}

lemma Sound.release (h : t.Sound issued) (x : Ident) (ticket : Ticket) :
    (t.release x ticket).Sound issued := by
  have hslot : ∀ s ∈ (t.release x ticket).slots, ∃ s₀ ∈ t.slots,
      s = s₀ ∨ (s₀.entity = x ∧ s = s₀.passOn) := by
    intro s hs
    obtain ⟨s₀, hs₀, rfl⟩ := List.mem_map.1 (List.mem_filter.1 hs).1
    refine ⟨s₀, hs₀, ?_⟩
    by_cases hentity : s₀.entity = x
    · rw [if_pos hentity]
      dsimp only
      split
      · exact .inr ⟨hentity, rfl⟩
      · exact .inl rfl
    · exact .inl (if_neg hentity)
  constructor
  · intro s hs
    obtain ⟨s₀, hs₀, rfl | ⟨hentity, rfl⟩⟩ := hslot s hs
    · exact h.busy s hs₀
    · have hkept := (List.mem_filter.1 hs).2
      unfold Slot.passOn at hkept ⊢
      split at hkept
      · simp [Slot.isIdle, *] at hkept
      · simp
  · intro s hs
    obtain ⟨s₀, hs₀, rfl | ⟨-, rfl⟩⟩ := hslot s hs
    · exact h.drawn s hs₀
    · intro other hother
      refine h.drawn s₀ hs₀ other ?_
      unfold Slot.passOn at hother
      split at hother
      · exact hother
      · rename_i hwaiting
        rw [hwaiting]
        exact List.mem_cons_of_mem _ hother

end Lock.Table

/-- The records of a store were added to or rewritten, and nothing else. -/
structure Repository.Rewrites (r r' : Repository) : Prop where
  edges : r'.edges = r.edges
  supply : r'.supply = r.supply
  issued : r'.issued = r.issued
  outages : r'.outages = r.outages
  tasks : ∀ task, r.Stores task → r'.Stores task

lemma Repository.Rewrites.shrinks {r r' : Repository} (h : r.Rewrites r') : r.Shrinks r' where
  outages := h.outages
  edges := by
    intro d hd
    rwa [h.edges] at hd
  tasks := h.tasks

namespace Engine

variable {α β : Type} {e e' : Engine}

/-- The locks are left as they were found, whatever tickets are drawn. -/
def Balanced (op : StateM Engine α) : Prop :=
  ∀ e : Engine, e.locks.Sound e.tickets →
    (op e).2.locks = e.locks ∧ e.tickets ≤ (op e).2.tickets

lemma Lockless.balanced {op : StateM Engine α} (h : Lockless op) : Balanced op := by
  intro e _
  have hunder := (h e.locks e.locks e.tickets e e ⟨rfl, rfl, le_rfl⟩).2
  exact ⟨hunder.left, hunder.drawn⟩

lemma Guarded.balanced {needs : Set Ident} {op : Operation α} (h : Guarded needs op) :
    Balanced op := by
  intro e hsound
  have hunder := (h.agree e.locks e.locks e.tickets hsound hsound (fun _ _ => rfl) e e
    ⟨rfl, rfl, le_rfl⟩).2
  exact ⟨hunder.left, hunder.drawn⟩

lemma Mutation.balanced (m : Mutation α) : Balanced m.perform := by
  intro e hsound
  rcases hobjection : m.objection? e.repository with _ | cause
  · obtain ⟨op, hguarded, hperform⟩ := m.guarded hobjection
    rw [hperform e rfl]
    exact hguarded.balanced e hsound
  · rw [m.perform_objection hobjection]
    exact ⟨rfl, le_rfl⟩

lemma Balanced.each {f : α → Operation β} (h : ∀ a, Balanced (f a)) (l : List α) :
    Balanced (Engine.each f l) := by
  induction l with
  | nil => exact fun e _ => ⟨rfl, le_rfl⟩
  | cons a rest ih =>
    intro e hsound
    obtain ⟨hlocks, hdrawn⟩ := h a e hsound
    have hstill : (f a e).2.locks.Sound (f a e).2.tickets := by
      rw [hlocks]
      exact hsound.mono hdrawn
    obtain ⟨hlocks', hdrawn'⟩ := ih (f a e).2 hstill
    exact ⟨hlocks'.trans hlocks, hdrawn.trans hdrawn'⟩

lemma Balanced.readName {result : Except ReadError α} {f : α → Operation β}
    (hf : ∀ a, Balanced (f a)) : Balanced (Engine.readName result >>= f : Operation β) := by
  cases result with
  | error cause => exact fun e _ => ⟨rfl, le_rfl⟩
  | ok a => exact hf a

lemma balanced_createFromText (source target : Ident) (relation : String)
    (unblockAt : Option String) (edge : Option Ident) (time : Option Instant) :
    Balanced (createFromText source target relation unblockAt edge time) := by
  have hcreate (o : Order) : Balanced (createDependency o unblockAt) :=
    (Mutation.createDependency o unblockAt).balanced
  exact .readName fun _ => hcreate _

lemma hold_sound (h : e.locks.Sound e.tickets) (x : Ident) :
    (hold x e).2.locks.Sound (hold x e).2.tickets := by
  unfold hold Engine.acquire
  rcases hlocked : e.locks.isLocked x with _ | _
  · rw [Lock.Table.acquire_free (h.slot?_eq_none hlocked)]
    exact (h.mono (Nat.le_succ _)).taken x e.tickets
  · obtain ⟨hrefused, hback⟩ := h.expire_acquire hlocked le_rfl
    dsimp only
    rw [hrefused]
    simp only [Bool.false_eq_true, if_false]
    rw [hback]
    exact h.mono (Nat.le_succ _)

lemma unhold_sound (h : e.locks.Sound e.tickets) (x : Ident) :
    (e.unhold x).2.locks.Sound (e.unhold x).2.tickets := by
  unfold unhold
  split
  · exact h.release x _
  · exact h

/-- What the owner of a lock does apart, every action leaves the locks as it found them. -/
lemma Action.perform_sound (h : e.locks.Sound e.tickets) (action : Action α) :
    (action.perform e).2.locks.Sound (action.perform e).2.tickets := by
  have hreads {locks locks' : Lock.Table} {issued : Nat} :
      Congruence Eq (Under locks locks' issued) := congruence_under
  have hbalanced (op : StateM Engine α) (hop : Balanced op) :
      (op e).2.locks.Sound (op e).2.tickets := by
    obtain ⟨hlocks, hdrawn⟩ := hop e h
    rw [hlocks]
    exact h.mono hdrawn
  cases action with
  | hold entity => exact hold_sound h entity
  | unhold entity => exact unhold_sound h entity
  | withRoot root => exact h
  | invalidate kind => exact h
  | ask call => exact hbalanced _ (Lockless.balanced fun _ _ _ => hreads.ask call)
  | storeEdge o => exact hbalanced _ (lockless_store (·.addEdge o)).balanced
  | storeEdges orders =>
    exact hbalanced _ (Lockless.balanced fun locks locks' issued =>
      .each (fun o => lockless_store (·.addEdge o) locks locks' issued) orders)
  | removeEdge edge => exact hbalanced _ (lockless_store (·.deleteById edge)).balanced
  | removeEdges source target relation =>
    exact hbalanced _ (lockless_store (·.removeWhere source target relation)).balanced
  | removeEdgesAt task => exact hbalanced _ (lockless_store (·.deleteByTask task)).balanced
  | addDependency o => exact hbalanced _ (Mutation.addDependency o).balanced
  | addDependencies orders =>
    exact hbalanced _ (.each (fun o => (Mutation.addDependency o).balanced) orders)
  | createDependency o unblockAt =>
    exact hbalanced _ (Mutation.createDependency o unblockAt).balanced
  | createFromText source target relation unblockAt edge time =>
    exact hbalanced _ (balanced_createFromText source target relation unblockAt edge time)
  | deleteDependency edge => exact hbalanced _ (Mutation.deleteDependency edge).balanced
  | deleteDependencies source target relation =>
    exact hbalanced _ (Mutation.deleteDependencies source target relation).balanced
  | deleteTaskDependencies task =>
    exact hbalanced _ (Mutation.deleteTaskDependencies task).balanced
  | queryNeighbors task q =>
    exact hbalanced _ (Lockless.balanced fun _ _ _ => hreads.queryNeighbors task q)
  | queryGraph task d withTitles =>
    exact hbalanced _ (Lockless.balanced fun _ _ _ => hreads.queryGraph task d withTitles)
  | blockedBy task => exact hbalanced _ (Lockless.balanced fun _ _ _ => hreads.blockedBy task)
  | workflow kind => exact hbalanced _ (Lockless.balanced fun _ _ _ => hreads.workflow kind)
  | validateStatus kind raw =>
    exact hbalanced _ (Lockless.balanced fun _ _ _ =>
      (hreads.validateStatus kind raw).mono Echoes.eq)
  | validateTransition kind source target =>
    exact hbalanced _ (Lockless.balanced fun _ _ _ =>
      (hreads.validateTransition kind source target).mono Echoes.eq)
  | validatePrerequisites entity kind raw =>
    exact hbalanced _ (Lockless.balanced fun _ _ _ =>
      hreads.validatePrerequisites entity kind raw)
  | changeStatus entity kind raw =>
    exact hbalanced _ (Mutation.changeStatus entity kind raw).balanced

/-- An engine that callers and the owner of its store can bring about. -/
inductive Reached : Engine → Prop
  | start {e : Engine} (inOrder : e.repository.InOrder) (edges : e.repository.edges = .empty)
      (cache : ∀ kind, e.cache.entries kind = none) (locks : e.locks = {}) : Reached e
  | act {e : Engine} {α : Type} (before : Reached e) (action : Action α) :
      Reached (action.perform e).2
  | record {e : Engine} (before : Reached e) {r : Repository} (rewrites : e.repository.Rewrites r) :
      Reached { e with repository := r }

namespace Reached

lemma run (h : Reached e) (run : Run e e') : Reached e' := by
  induction run with
  | start => exact h
  | act before action ih => exact ih.act action

/-- The calls are in order and the stored edges well-formed. -/
theorem tidy (h : Reached e) : Tidy e.repository := by
  induction h with
  | start inOrder edges cache locks =>
    exact ⟨inOrder, Repository.wellFormed_of_edges_eq_empty edges⟩
  | act before action ih => exact action.perform_keeps _ ih
  | record before rewrites ih => exact ih.shrink rewrites.shrinks

/-- All that the cache holds is what a load would give. -/
theorem draws (h : Reached e) : e.Draws e.source := by
  induction h with
  | start inOrder edges cache locks =>
    exact ⟨rfl, Workflow.Cache.faithful_of_entries_eq_none cache⟩
  | @act e α before action ih =>
    obtain ⟨hsource, hfaithful⟩ := ih.perform action
    exact ⟨rfl, hsource ▸ hfaithful⟩
  | record before rewrites ih => exact ⟨rfl, ih.faithful⟩

/-- All locks that are kept are somebody's. -/
theorem sound (h : Reached e) : e.locks.Sound e.tickets := by
  induction h with
  | start inOrder edges cache locks =>
    rw [locks]
    exact Lock.Table.sound_empty _
  | act before action ih => exact action.perform_sound ih
  | record before rewrites ih => exact ih

end Reached

lemma reached_pair : Reached pair :=
  .start rfl rfl (fun _ => rfl) rfl

end Engine

end TaskFlow

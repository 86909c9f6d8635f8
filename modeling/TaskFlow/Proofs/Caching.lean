import TaskFlow.Proofs.Runs

/-!
# What the cache serves

While the documents stay as they are, every entry of the cache is what a load for its kind under
its root gives. A look-up serves an entry only under its own root, so it gives what a load might
give. Two loads of one document may go through its keys in different orders, and no more than that
can be told from the answers of operations with and without a cache.
-/

namespace TaskFlow

namespace Workflow

/-- The workflow of a kind under a root is that of the document served there, its keys gone through
in some order, or the built-in one where there is no document or none that can be used. -/
inductive Source.Gives (source : Source) (kind : Kind) (root : String) : Spec → Prop
  | document {d : Document} {order : KeyOrder} {w : Spec} (served : source root = .ok (some d))
      (usable : d.spec kind order = .ok w) : Gives source kind root w
  | builtIn (unusable : ∀ d order w, source root = .ok (some d) → d.spec kind order ≠ .ok w) :
      Gives source kind root (.builtIn kind)

/-- No workflow from the source leaves an order open. -/
def Source.Settled (source : Source) : Prop :=
  ∀ kind root w, source.Gives kind root w → w.Settled

/-- Workflows of one kind under one root are so related, and differ in the order of the allowed
statuses at most. -/
structure Source.Relates (source : Source) (S : Spec → Spec → Prop) : Prop where
  gives : ∀ {kind : Kind} {root : String} {w w' : Spec},
    source.Gives kind root w → source.Gives kind root w' → S w w'
  alike : ∀ {w w' : Spec}, S w w' → w.Alike w'

/-- All that the cache holds was loaded from the source as it is. -/
def Cache.Faithful (c : Cache) (source : Source) : Prop :=
  ∀ kind entry, c.entries kind = some entry → source.Gives kind entry.root entry.spec

variable {source : Source} {d : Document} {kind : Kind} {root : String} {order order' : KeyOrder}
  {w w' : Spec} {c : Cache}

namespace Document

lemma spec_cases (d : Document) (kind : Kind) :
    (∃ p, ∀ order, d.spec kind order = Spec.ofProgression kind p d.rules.resolve order) ∨
      ∀ order, d.spec kind order = .ok (.builtIn kind d.rules.resolve) := by
  unfold spec
  rcases d.progression kind with _ | p
  · exact .inr fun _ => rfl
  · exact .inl ⟨p, fun _ => rfl⟩

lemma exists_spec (h : d.spec kind order = .ok w) (other : KeyOrder) :
    ∃ w', d.spec kind other = .ok w' := by
  rcases d.spec_cases kind with ⟨p, hspec⟩ | hspec
  · rw [hspec] at h ⊢
    exact Spec.exists_ofProgression h other
  · exact ⟨_, hspec other⟩

lemma alike_of_spec (h : d.spec kind order = .ok w) (h' : d.spec kind order' = .ok w') :
    w.Alike w' := by
  rcases d.spec_cases kind with ⟨p, hspec⟩ | hspec
  · rw [hspec] at h h'
    exact Spec.alike_of_ofProgression h h'
  · rw [hspec] at h h'
    cases h
    cases h'
    exact .refl _

lemma exists_ne_of_not_settled (h : d.spec kind order = .ok w) (hnot : ¬ w.Settled) :
    ∃ order₁ order₂ w₁ w₂, d.spec kind order₁ = .ok w₁ ∧ d.spec kind order₂ = .ok w₂ ∧
      w₁ ≠ w₂ := by
  rcases d.spec_cases kind with ⟨p, hspec⟩ | hspec
  · simp only [hspec] at h ⊢
    exact Spec.exists_ne_of_not_settled h hnot
  · rw [hspec] at h
    cases h
    exact absurd (Spec.settled_builtIn kind _) hnot

end Document

namespace Source

lemma resolve_of_spec (hserved : source root = .ok (some d)) (h : d.spec kind order = .ok w) :
    source.resolve kind root order = (w, false) := by
  unfold resolve
  rw [hserved]
  dsimp only
  rw [h]

lemma gives_resolve : source.Gives kind root (source.resolve kind root order).1 := by
  unfold resolve
  split
  · rename_i d hserved
    split
    · rename_i w husable
      exact .document hserved husable
    · rename_i cause hspec
      refine .builtIn fun d' other w hserved' hw => ?_
      rw [hserved] at hserved'
      cases hserved'
      obtain ⟨w', hw'⟩ := Document.exists_spec hw order
      rw [hspec] at hw'
      cases hw'
  · rename_i hnone
    refine .builtIn fun d other w hserved => ?_
    rw [hnone] at hserved
    cases hserved
  · rename_i cause hfails
    refine .builtIn fun d other w hserved => ?_
    rw [hfails] at hserved
    cases hserved

lemma Gives.alike (h : source.Gives kind root w) (h' : source.Gives kind root w') :
    w.Alike w' := by
  cases h with
  | document served usable =>
    cases h' with
    | document served' usable' =>
      rw [served] at served'
      cases served'
      exact Document.alike_of_spec usable usable'
    | builtIn unusable => exact absurd usable (unusable _ _ _ served)
  | builtIn unusable =>
    cases h' with
    | document served usable => exact absurd usable (unusable _ _ _ served)
    | builtIn => exact .refl _

lemma relates_alike : source.Relates Spec.Alike :=
  ⟨Gives.alike, id⟩

lemma Settled.relates (h : source.Settled) : source.Relates Eq where
  gives := fun hw hw' => (hw.alike hw').eq_of_settled (h _ _ _ hw)
  alike := by
    rintro w _ rfl
    exact .refl w

end Source

namespace Cache

lemma faithful_of_entries_eq_none (h : ∀ kind, c.entries kind = none) : c.Faithful source := by
  intro kind entry hentry
  rw [h] at hentry
  cases hentry

lemma Faithful.setEntry (h : c.Faithful source) {entry : Option CacheEntry}
    (hentry : ∀ e, entry = some e → source.Gives kind e.root e.spec) :
    (c.setEntry kind entry).Faithful source := by
  intro k e hheld
  change (if k = kind then entry else c.entries k) = some e at hheld
  split at hheld
  · rename_i heq
    rw [heq]
    exact hentry e hheld
  · exact h k e hheld

lemma Faithful.load (h : c.Faithful source) (kind : Kind) (root : String) :
    source.Gives kind root (c.load source kind root).1 ∧
      (c.load source kind root).2.Faithful source := by
  have hgives : source.Gives kind root (source.resolve kind root (c.orders c.tally.loads)).1 :=
    Source.gives_resolve
  refine ⟨hgives, ?_⟩
  unfold Cache.load
  dsimp only [now]
  split
  · refine Faithful.setEntry h ?_
    rintro e ⟨rfl⟩
    exact hgives
  · exact h

lemma held_eq_some {entry : CacheEntry} (h : c.held kind = some entry) :
    c.entries kind = some entry := by
  unfold held at h
  split at h
  · exact h
  · cases h

/-- A look-up gives what a load might give. -/
theorem Faithful.get (h : c.Faithful source) (kind : Kind) (root : String) :
    source.Gives kind root (c.get source kind root).1 ∧
      (c.get source kind root).2.Faithful source := by
  unfold Cache.get
  split
  · refine Faithful.load ?_ kind root
    exact h
  · rename_i entry hheld
    dsimp only [now]
    split
    · rename_i hserves
      have hroot : entry.root = root := by
        simp only [serves, Bool.and_eq_true, beq_iff_eq] at hserves
        exact hserves.2
      have hgives := h kind entry (held_eq_some hheld)
      rw [hroot] at hgives
      exact ⟨hgives, h⟩
    · refine Faithful.load ?_ kind root
      exact h

end Cache

end Workflow

namespace Engine

/-- Workflows come from this source, those that the cache holds included. -/
structure Draws (source : Workflow.Source) (e : Engine) : Prop where
  source_eq : e.source = source
  faithful : e.cache.Faithful source

/-- The engines draw on the same documents, store the same, check prerequisites by the same
settings and work under the same root. Their caches and their locks may differ. -/
structure Alike (source : Workflow.Source) (e e' : Engine) : Prop where
  left : e.Draws source
  right : e'.Draws source
  repository : e'.repository = e.repository
  prerequisites : e'.settings.prerequisites = e.settings.prerequisites
  root : e'.root = e.root

/-- Alike engines with the same locks, which they wait for equally long. -/
structure Twins (source : Workflow.Source) (e e' : Engine) : Prop extends Alike source e e' where
  locks : e'.locks = e.locks
  tickets : e'.tickets = e.tickets
  locking : e'.settings.locking = e.settings.locking

variable {source : Workflow.Source} {S : Workflow.Spec → Workflow.Spec → Prop} {e e' : Engine}

lemma Draws.workflow (h : e.Draws source) (kind : Kind) :
    source.Gives kind e.root (workflow kind e).1 ∧ (workflow kind e).2.Draws source := by
  obtain ⟨rfl, hfaithful⟩ := h
  obtain ⟨hgives, hafter⟩ := hfaithful.get kind e.root
  exact ⟨hgives, rfl, hafter⟩

lemma Draws.invalidate (h : e.Draws source) (kind : Option Kind) :
    (e.invalidate kind).Draws source := by
  refine ⟨h.source_eq, ?_⟩
  cases kind with
  | none => exact Workflow.Cache.faithful_of_entries_eq_none fun _ => rfl
  | some kind => exact h.faithful.setEntry fun _ hnone => by cases hnone

lemma congruence_alike (hS : source.Relates S) : Congruence S (Alike source) where
  repository := Alike.repository
  prerequisites := Alike.prerequisites
  alike := hS.alike
  workflow := by
    intro kind e e' h
    obtain ⟨hgives, hleft⟩ := h.left.workflow kind
    obtain ⟨hgives', hright⟩ := h.right.workflow kind
    rw [h.root] at hgives'
    exact ⟨hS.gives hgives' hgives, hleft, hright, h.repository, h.prerequisites, h.root⟩

lemma Twins.carries {α : Type} (call : Repository → Except EngineError (α × Repository)) :
    Carries (Twins source) call := by
  intro e e' h a r _
  exact { h with left := ⟨h.left.1, h.left.2⟩, right := ⟨h.right.1, h.right.2⟩, repository := rfl }

lemma actionCongruence_twins (hS : source.Relates S) : ActionCongruence S (Twins source) where
  repository := fun h => h.repository
  prerequisites := fun h => h.prerequisites
  alike := hS.alike
  workflow := by
    intro kind e e' h
    obtain ⟨hspec, halike⟩ := (congruence_alike hS).workflow kind e e' h.toAlike
    exact ⟨hspec, halike, h.locks, h.tickets, h.locking⟩
  locks := fun h => ⟨h.locks, h.tickets⟩
  locking := fun h => h.locking
  setLocks := fun h _ => ⟨⟨⟨h.left.1, h.left.2⟩, ⟨h.right.1, h.right.2⟩, h.repository,
    h.prerequisites, h.root⟩, rfl, h.tickets, h.locking⟩
  setTickets := fun h _ => ⟨⟨⟨h.left.1, h.left.2⟩, ⟨h.right.1, h.right.2⟩, h.repository,
    h.prerequisites, h.root⟩, h.locks, rfl, h.locking⟩
  addEdge := fun _ => Twins.carries _
  deleteById := fun _ => Twins.carries _
  deleteByTask := fun _ => Twins.carries _
  removeWhere := fun _ _ _ => Twins.carries _
  withRoot := fun h _ => ⟨⟨⟨h.left.1, h.left.2⟩, ⟨h.right.1, h.right.2⟩, h.repository,
    h.prerequisites, rfl⟩, h.locks, h.tickets, h.locking⟩
  invalidate := fun h kind => ⟨⟨h.left.invalidate kind, h.right.invalidate kind, h.repository,
    h.prerequisites, h.root⟩, h.locks, h.tickets, h.locking⟩

/-- On twins an action gives the same answer, up to what it says of workflows, and they stay
twins. -/
theorem Twins.perform {α : Type} (hS : source.Relates S) (action : Action α) :
    RespectsUpTo (action.Agrees S) (Twins source) action.perform :=
  (actionCongruence_twins hS).perform action fun _ _ _ _ => Twins.carries _

lemma Draws.twins (h : e.Draws source) : Twins source e e :=
  ⟨⟨h, h, rfl, rfl, rfl⟩, rfl, rfl, rfl⟩

lemma Draws.perform {α : Type} (h : e.Draws source) (action : Action α) :
    (action.perform e).2.Draws source :=
  (Twins.perform Workflow.Source.relates_alike action e e h.twins).2.left

lemma Run.draws (run : Run e e') (h : e.Draws source) : e'.Draws source := by
  induction run with
  | start => exact h
  | act before action ih => exact ih.perform action

def performAll (e : Engine) (actions : List (Σ α : Type, Action α)) : Engine :=
  actions.foldl (fun e action => (action.2.perform e).2) e

/-- The answers of actions, each with what is stored after it. -/
def transcript (e : Engine) : List (Σ α : Type, Action α) → List ((Σ α : Type, α) × Repository)
  | [] => []
  | ⟨α, action⟩ :: actions =>
    (⟨α, (action.perform e).1⟩, (action.perform e).2.repository) ::
      transcript (action.perform e).2 actions

lemma Twins.performAll (h : Twins source e e') (actions : List (Σ α : Type, Action α)) :
    Twins source (e.performAll actions) (e'.performAll actions) := by
  induction actions generalizing e e' with
  | nil => exact h
  | cons action actions ih =>
    exact ih (Twins.perform Workflow.Source.relates_alike action.2 e e' h).2

lemma Action.Agrees.eq {α : Type} {action : Action α} {answer answer' : α}
    (h : action.Agrees Eq answer answer') : answer = answer' := by
  cases action with
  | validateStatus kind raw => exact Echoes.eq h
  | validateTransition kind source target => exact Echoes.eq h
  | changeStatus entity kind raw => exact Resembles.eq h
  | _ => exact h

lemma Twins.transcript_eq (h : Twins source e e') (hsettled : source.Settled)
    (actions : List (Σ α : Type, Action α)) : e'.transcript actions = e.transcript actions := by
  induction actions generalizing e e' with
  | nil => rfl
  | cons first actions ih =>
    obtain ⟨α, action⟩ := first
    obtain ⟨hanswer, hafter⟩ := Twins.perform hsettled.relates action e e' h
    rw [transcript, transcript, hanswer.eq, hafter.repository, ih hafter]

/-- The engine with a new cache of the given settings, and with the given clock and orders. -/
def caching (e : Engine) (enabled : Bool) (ttl : Nat) (clock : Nat → Nat)
    (orders : Nat → Workflow.KeyOrder) : Engine :=
  { e with
    settings := { e.settings with cache := { enabled, ttlSeconds := ttl } }
    cache := { enabled, ttl, clock, orders } }

lemma draws_caching (e : Engine) (enabled : Bool) (ttl : Nat) (clock : Nat → Nat)
    (orders : Nat → Workflow.KeyOrder) : (e.caching enabled ttl clock orders).Draws e.source :=
  ⟨rfl, Workflow.Cache.faithful_of_entries_eq_none fun _ => rfl⟩

lemma twins_caching (e : Engine) (enabled enabled' : Bool) (ttl ttl' : Nat)
    (clock clock' : Nat → Nat) (orders orders' : Nat → Workflow.KeyOrder) :
    Twins e.source (e.caching enabled ttl clock orders) (e.caching enabled' ttl' clock' orders') :=
  ⟨⟨e.draws_caching enabled ttl clock orders, e.draws_caching enabled' ttl' clock' orders', rfl,
    rfl, rfl⟩, rfl, rfl, rfl⟩

/-- Two loads show each order that a document leaves open. -/
lemma settled_of_transcript_eq (h : ∀ orders orders' actions,
      (e.caching false 0 (fun _ => 0) orders).transcript actions =
        (e.caching false 0 (fun _ => 0) orders').transcript actions) : e.source.Settled := by
  rintro kind root w (⟨hserved, hspec⟩ | _)
  · by_contra hnot
    obtain ⟨order₁, order₂, w₁, w₂, h₁, h₂, hne⟩ :=
      Workflow.Document.exists_ne_of_not_settled hspec hnot
    have hsame := h (fun _ => order₁) (fun _ => order₂)
      [⟨_, .withRoot root⟩, ⟨_, .workflow kind⟩]
    simp only [transcript, List.cons.injEq, Prod.mk.injEq, Sigma.mk.injEq, heq_eq_eq,
      true_and, and_true] at hsame
    have hspecs : (e.source.resolve kind root order₁).1 = (e.source.resolve kind root order₂).1 :=
      hsame.2.1
    rw [Workflow.Source.resolve_of_spec hserved h₁,
      Workflow.Source.resolve_of_spec hserved h₂] at hspecs
    exact hne hspecs
  · exact Workflow.Spec.settled_builtIn kind _

/-- Whatever the settings of the cache are, whatever the clock shows and in whatever orders keys are
gone through, actions give the answers and leave the store that they do without a cache, but for
the order in which the answers list the allowed statuses that only have a role. The answers are the
same for all orders just if no document leaves one open. A look-up gives the workflow of the
document that is served, or else the built-in one. -/
theorem transcript_caching (e : Engine) :
    (∀ enabled ttl clock orders orders' before {α : Type} (action : Action α),
      let cached := (e.caching enabled ttl clock orders).performAll before
      let bare := (e.caching false ttl clock orders').performAll before
      action.Agrees Workflow.Spec.Alike (action.perform cached).1 (action.perform bare).1 ∧
        (action.perform cached).2.repository = (action.perform bare).2.repository) ∧
    ((∀ enabled ttl clock orders orders' actions,
      (e.caching enabled ttl clock orders).transcript actions =
        (e.caching false ttl clock orders').transcript actions) ↔ e.source.Settled) ∧
    ∀ enabled ttl clock orders e', Run (e.caching enabled ttl clock orders) e' → ∀ kind root,
      e.source.Gives kind root (e'.cache.get e.source kind root).1 ∧
        ∀ w, e.source.Gives kind root w → (e'.cache.get e.source kind root).1.Alike w := by
  refine ⟨fun enabled ttl clock orders orders' before α action => ?_,
    ⟨fun h => ?_, fun hsettled enabled ttl clock orders orders' actions => ?_⟩,
    fun enabled ttl clock orders e' run kind root => ?_⟩
  · have htwins := e.twins_caching false enabled ttl ttl clock clock orders' orders
    obtain ⟨hanswer, hafter⟩ :=
      Twins.perform Workflow.Source.relates_alike action _ _ (htwins.performAll before)
    exact ⟨hanswer, hafter.repository⟩
  · exact settled_of_transcript_eq (h false 0 fun _ => 0)
  · have htwins := e.twins_caching false enabled ttl ttl clock clock orders' orders
    exact htwins.transcript_eq hsettled actions
  · have hdraws := run.draws (e.draws_caching enabled ttl clock orders)
    have hgives := (hdraws.faithful.get kind root).1
    exact ⟨hgives, fun w hw => hgives.alike hw⟩

/-- An engine under a root where a document is served; under other roots the service fails. -/
def rooted : Engine :=
  let flow : Workflow.Progression := { flow := ["pending", "completed"], terminal := ["completed"] }
  { ofRepository { supply := fun n => ⟨.ofNat n, .epoch⟩ } with
    source := fun root =>
      if root = "a" then .ok (some { tasks := some flow }) else .error (.invalid "no such root")
    root := "a" }

theorem transcript_caching_rooted :
    ∃ e', Run (rooted.caching true 60 (fun _ => 0) fun _ => .given) e' ∧
      (∃ entry, e'.cache.entries .task = some entry ∧ entry.root = "a" ∧ entry.fallback = false) ∧
      (e'.cache.get rooted.source .task "b").1 = .builtIn .task := by
  have run : Run (rooted.caching true 60 (fun _ => 0) fun _ => .given)
      (workflow .task (rooted.caching true 60 (fun _ => 0) fun _ => .given)).2 :=
    .act .start (.workflow .task)
  refine ⟨_, run, ⟨_, rfl, rfl, rfl⟩, ?_⟩
  obtain ⟨hgives, -⟩ := (rooted.transcript_caching).2.2 _ _ _ _ _ run .task "b"
  generalize (Workflow.Cache.get _ rooted.source .task "b").1 = w at hgives
  cases hgives with
  | document served usable => cases served
  | builtIn unusable => rfl

/-- A document with two statuses that only have a role. -/
def twoRoles : Workflow.Document where
  tasks := some {
    flow := ["pending", "completed"]
    roles := .ofList [("alpha", "work"), ("beta", "review")] }

/-- The keys are gone through in the order given at the first load and backwards from then on. -/
def turning (load : Nat) : Workflow.KeyOrder :=
  if load = 0 then .given else ⟨List.reverse, List.reverse_perm⟩

/-- Two tasks under such a document, without a cache. -/
def unordered : Engine :=
  { pair with
    source := fun _ => .ok (some twoRoles)
    cache := { enabled := false, ttl := 60, orders := turning } }

/-- Asked twice whether a task can take on a status that is not known, an engine with a cache says
the same again, and one without lists the allowed statuses in another order. -/
theorem transcript_caching_unordered :
    let asked : (α : Type) × Action α := ⟨_, .validateTransition .task "PENDING" "zzz"⟩
    (unordered.caching true 60 (fun _ => 0) turning).transcript [asked, asked] ≠
      (unordered.caching false 60 (fun _ => 0) turning).transcript [asked, asked] := by
  intro asked hsame
  simp only [asked, transcript, List.cons.injEq, Prod.mk.injEq, Sigma.mk.injEq, heq_eq_eq,
    true_and, and_true] at hsame
  exact absurd hsame.2.1 (by decide +kernel)

end Engine

end TaskFlow

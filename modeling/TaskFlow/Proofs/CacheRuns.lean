import TaskFlow.Proofs.Caching
import Mathlib

/-!
# Runs of the cache

A cache is asked again and again, while the documents may be others at each time. As long as what it
holds is not too old, a look-up is served without a load just if the last thing that had to do with
its kind was a look-up under the same root, and it answers what that one answered. The tally tells
how many look-ups there were and how they ended.
-/

namespace TaskFlow.Workflow

/-- No document that can be used for the kind is served under the root. -/
def Source.Fails (source : Source) (kind : Kind) (root : String) : Prop :=
  ∀ d order w, source root = .ok (some d) → d.spec kind order ≠ .ok w

lemma Source.fails_iff {source : Source} {kind : Kind} {root : String} (order : KeyOrder) :
    source.Fails kind root ↔ (source.resolve kind root order).2 = true := by
  unfold resolve Fails
  split
  · rename_i d hserved
    split
    · rename_i w husable
      refine iff_of_false (fun h => h d order w hserved husable) Bool.false_ne_true
    · rename_i cause hspec
      refine iff_of_true (fun d' other w hserved' husable => ?_) rfl
      rw [hserved] at hserved'
      cases hserved'
      obtain ⟨w', hw'⟩ := Document.exists_spec husable order
      rw [hspec] at hw'
      cases hw'
  · rename_i hnone
    simp [hnone]
  · rename_i cause hfails
    simp [hfails]

instance (source : Source) (kind : Kind) (root : String) : Decidable (source.Fails kind root) :=
  decidable_of_iff _ (Source.fails_iff .given).symm

namespace Cache

/-- What is asked of a cache. A look-up comes with the documents as they are at its time. -/
inductive Use
  | get (kind : Kind) (root : String) (source : Source)
  | invalidate (kind : Kind)
  | clear

/-- The use has to do with what is held for a kind. -/
def Use.Concerns (kind : Kind) : Use → Prop
  | .get k _ _ | .invalidate k => k = kind
  | .clear => True

def Use.isGet : Use → Bool
  | .get _ _ _ => true
  | .invalidate _ | .clear => false

def next (c : Cache) : Use → Cache
  | .get kind root source => (c.get source kind root).2
  | .invalidate kind => c.invalidate kind
  | .clear => c.clear

def after (c : Cache) (uses : List Use) : Cache :=
  uses.foldl next c

/-- The last use that has to do with the kind is a look-up under the root, `before` which the cache
had these uses. -/
def Recent (uses : List Use) (kind : Kind) (before : List Use) (root : String) (source : Source) :
    Prop :=
  ∃ later, uses = before ++ .get kind root source :: later ∧ ∀ u ∈ later, ¬ u.Concerns kind

/-- A look-up, and the cache that was asked. -/
structure Look where
  cache : Cache
  kind : Kind
  root : String
  source : Source

namespace Look

def result (l : Look) : Spec × Cache :=
  l.cache.get l.source l.kind l.root

/-- The look-up counts as a hit. -/
def Hit (l : Look) : Prop :=
  l.result.2.tally.hits = l.cache.tally.hits + 1

/-- How often the source is asked for documents. -/
def loads (l : Look) : Nat :=
  l.result.2.tally.loads - l.cache.tally.loads

/-- Whether a load replaces an entry. -/
def replaces (l : Look) : Bool :=
  l.loads == 1 && (l.cache.entries l.kind).isSome

/-- Whether a load ends in the built-in workflow because there is no document to use. -/
def fallsBack (l : Look) : Bool :=
  l.loads == 1 && decide (l.source.Fails l.kind l.root)

end Look

def looks (c : Cache) : List Use → List Look
  | [] => []
  | .get kind root source :: uses =>
    ⟨c, kind, root, source⟩ :: looks (c.next (.get kind root source)) uses
  | .invalidate kind :: uses => looks (c.next (.invalidate kind)) uses
  | .clear :: uses => looks (c.next .clear) uses

/-- What is held for the kind is not too old when the clock is read next. -/
def Lasts (c : Cache) (kind : Kind) : Prop :=
  ∀ e, c.entries kind = some e → c.clock c.readings - e.loadedAt < c.ttl

variable {c : Cache} {kind k : Kind} {root : String} {source : Source} {e : CacheEntry}

/-! ### One look-up -/

lemma load_tally : (c.load source kind root).2.tally =
    { c.tally with
      loads := c.tally.loads + 1
      fallbacks := c.tally.fallbacks + if source.Fails kind root then 1 else 0 } := by
  unfold load
  simp only [Source.fails_iff (c.orders c.tally.loads)]
  by_cases h : c.enabled = true
  · exact congrArg tally (if_pos h)
  · exact congrArg tally (if_neg h)

lemma load_settings (c : Cache) (source : Source) (kind : Kind) (root : String) :
    (c.load source kind root).2.enabled = c.enabled ∧
      (c.load source kind root).2.ttl = c.ttl ∧ (c.load source kind root).2.clock = c.clock ∧
      (c.load source kind root).2.readings = c.readings + 1 := by
  unfold load
  dsimp only [now]
  split <;> exact ⟨rfl, rfl, rfl, rfl⟩

lemma load_entries (k : Kind) : (c.load source kind root).2.entries k =
    if c.enabled = true ∧ k = kind then some {
      spec := (source.resolve kind root (c.orders c.tally.loads)).1, root
      fallback := (source.resolve kind root (c.orders c.tally.loads)).2
      loadedAt := c.clock c.readings } else c.entries k := by
  unfold load
  by_cases h : c.enabled = true
  · simp only [h, true_and]
    exact congrFun (congrArg entries (if_pos h)) k
  · rw [if_neg fun hboth => h hboth.1]
    exact congrFun (congrArg entries (if_neg h)) k

/-- The other cache holds the same. Its clock may have been read and something may have been
tallied. -/
structure Alike (c c' : Cache) : Prop where
  enabled : c'.enabled = c.enabled
  ttl : c'.ttl = c.ttl
  clock : c'.clock = c.clock
  entries : c'.entries = c.entries
  readings : c.readings ≤ c'.readings

/-- What a look-up comes to: it is served from what is held, or it loads, because nothing is held or
because what is held does not serve any longer. -/
inductive Ends (c : Cache) (source : Source) (kind : Kind) (root : String) : Spec × Cache → Prop
  | hit (e : CacheEntry) (held : c.held kind = some e)
      (serves : c.serves root (c.clock c.readings) e = true) :
      Ends c source kind root (e.spec, { c with
        readings := c.readings + 1, tally := { c.tally with hits := c.tally.hits + 1 } })
  | load (c' : Cache) (alike : c.Alike c')
      (unserved : ∀ e, c.held kind = some e → c.serves root (c.clock c.readings) e = false)
      (tally : c'.tally =
        if (c.held kind).isSome then { c.tally with reloads := c.tally.reloads + 1 }
        else { c.tally with misses := c.tally.misses + 1 }) :
      Ends c source kind root (c'.load source kind root)

lemma ends_get (c : Cache) (source : Source) (kind : Kind) (root : String) :
    c.Ends source kind root (c.get source kind root) := by
  unfold get
  split
  · rename_i hheld
    refine .load _ ⟨rfl, rfl, rfl, rfl, Nat.le_refl _⟩ (fun e he => ?_) ?_
    · rw [hheld] at he
      cases he
    · rw [hheld]
      rfl
  · rename_i e hheld
    dsimp only [now]
    split
    · rename_i hserves
      exact .hit e hheld hserves
    · rename_i hserves
      refine .load _ ⟨rfl, rfl, rfl, rfl, Nat.le_succ _⟩ (fun e' he' => ?_) ?_
      · rw [hheld] at he'
        cases he'
        exact Bool.eq_false_iff.2 hserves
      · rw [hheld]
        rfl

lemma held_of_enabled (h : c.enabled = true) : c.held kind = c.entries kind :=
  if_pos h

lemma held_of_disabled (h : c.enabled = false) : c.held kind = none :=
  if_neg (by simp [h])

lemma Look.hit_iff {l : Look} : l.Hit ↔
    ∃ e, l.cache.held l.kind = some e ∧
      l.cache.serves l.root (l.cache.clock l.cache.readings) e = true := by
  have hends := ends_get l.cache l.source l.kind l.root
  unfold Hit result
  generalize l.cache.get l.source l.kind l.root = result at hends ⊢
  cases hends with
  | hit e hheld hserves => exact iff_of_true rfl ⟨e, hheld, hserves⟩
  | load c' halike hunserved htally =>
    have hhits : c'.tally.hits = l.cache.tally.hits := by
      rw [htally]
      split <;> rfl
    refine iff_of_false ?_ ?_
    · rw [load_tally]
      dsimp only
      omega
    · rintro ⟨e, hheld, hserves⟩
      rw [hunserved e hheld] at hserves
      cases hserves

lemma get_of_serves (hheld : c.held kind = some e)
    (hserves : c.serves root (c.clock c.readings) e = true) :
    c.get source kind root = (e.spec, { c with
      readings := c.readings + 1, tally := { c.tally with hits := c.tally.hits + 1 } }) := by
  unfold get
  rw [hheld]
  exact if_pos hserves

lemma Look.loads_of_hit {l : Look} (h : l.Hit) :
    l.loads = 0 ∧ ∀ other, l.cache.get other l.kind l.root = l.result := by
  obtain ⟨e, hheld, hserves⟩ := hit_iff.1 h
  unfold loads result
  rw [get_of_serves hheld hserves]
  exact ⟨Nat.sub_self _, fun other => get_of_serves hheld hserves⟩

lemma Look.loads_of_not_hit {l : Look} (h : ¬ l.Hit) :
    l.loads = 1 ∧ l.source.Gives l.kind l.root l.result.1 := by
  have hends := ends_get l.cache l.source l.kind l.root
  unfold loads result
  unfold Hit result at h
  generalize l.cache.get l.source l.kind l.root = result at hends h ⊢
  cases hends with
  | hit e hheld hserves => exact absurd rfl h
  | load c' halike hunserved htally =>
    have hloads : c'.tally.loads = l.cache.tally.loads := by
      rw [htally]
      split <;> rfl
    refine ⟨?_, Source.gives_resolve⟩
    rw [load_tally, hloads]
    exact Nat.add_sub_cancel_left _ 1

lemma entries_get_self (h : c.enabled = true) :
    ∃ e, (c.get source kind root).2.entries kind = some e ∧ e.root = root ∧
      e.spec = (c.get source kind root).1 := by
  have hends := c.ends_get source kind root
  generalize c.get source kind root = result at hends ⊢
  cases hends with
  | hit e hheld hserves =>
    rw [held_of_enabled h] at hheld
    simp only [serves, Bool.and_eq_true, beq_iff_eq] at hserves
    exact ⟨e, hheld, hserves.2, rfl⟩
  | load c' halike hunserved htally =>
    exact ⟨_, (load_entries kind).trans (if_pos ⟨halike.enabled.trans h, rfl⟩), rfl, rfl⟩

lemma entries_get_of_ne (h : k ≠ kind) :
    (c.get source kind root).2.entries k = c.entries k := by
  have hends := c.ends_get source kind root
  generalize c.get source kind root = result at hends ⊢
  cases hends with
  | hit e hheld hserves => rfl
  | load c' halike hunserved htally =>
    rw [load_entries, if_neg fun hboth => h hboth.2, halike.entries]

/-! ### Runs -/

lemma next_settings (c : Cache) (u : Use) :
    (c.next u).enabled = c.enabled ∧ (c.next u).ttl = c.ttl ∧ (c.next u).clock = c.clock ∧
      c.readings ≤ (c.next u).readings := by
  cases u with
  | get kind root source =>
    have hends := c.ends_get source kind root
    unfold next
    dsimp only
    generalize c.get source kind root = result at hends ⊢
    cases hends with
    | hit e hheld hserves => exact ⟨rfl, rfl, rfl, Nat.le_succ _⟩
    | load c' halike hunserved htally =>
      obtain ⟨henabled, httl, hclock, hreadings⟩ := c'.load_settings source kind root
      rw [henabled, httl, hclock, hreadings]
      exact ⟨halike.enabled, halike.ttl, halike.clock, Nat.le_succ_of_le halike.readings⟩
  | invalidate kind => exact ⟨rfl, rfl, rfl, Nat.le_refl _⟩
  | clear => exact ⟨rfl, rfl, rfl, Nat.le_refl _⟩

lemma entries_next {u : Use} (h : (c.next u).entries k = some e) : c.entries k = some e ∨
    c.enabled = true ∧ (∃ root source, u = .get k root source ∧ source.Gives k root e.spec) ∧
      ∃ i < (c.next u).readings, e.loadedAt = c.clock i := by
  cases u with
  | get kind root source =>
    have hends := c.ends_get source kind root
    unfold next at h ⊢
    dsimp only at h ⊢
    generalize c.get source kind root = result at hends h ⊢
    cases hends with
    | hit e' hheld hserves => exact .inl h
    | load c' halike hunserved htally =>
      rw [load_entries] at h
      split at h
      · rename_i hloaded
        obtain ⟨henabled, rfl⟩ := hloaded
        cases h
        refine .inr ⟨halike.enabled ▸ henabled, ⟨root, source, rfl, Source.gives_resolve⟩,
          c'.readings, ?_, by rw [halike.clock]⟩
        rw [(c'.load_settings source k root).2.2.2]
        exact Nat.lt_succ_self _
      · rw [halike.entries] at h
        exact .inl h
  | invalidate kind =>
    change (if k = kind then none else c.entries k) = some e at h
    split at h
    · cases h
    · exact .inl h
  | clear => cases h

lemma after_append (c : Cache) (uses : List Use) (u : Use) :
    c.after (uses ++ [u]) = (c.after uses).next u := by
  simp [after]

lemma after_settings (c : Cache) (uses : List Use) : (c.after uses).enabled = c.enabled ∧
    (c.after uses).ttl = c.ttl ∧ (c.after uses).clock = c.clock := by
  induction uses using List.reverseRecOn with
  | nil => exact ⟨rfl, rfl, rfl⟩
  | append_singleton uses u ih =>
    obtain ⟨henabled, httl, hclock, -⟩ := next_settings (c.after uses) u
    rw [after_append, henabled, httl, hclock]
    exact ih

/-- Every entry was stamped by a reading of the clock that is past. -/
def Stamped (c : Cache) : Prop :=
  ∀ kind e, c.entries kind = some e → ∃ i < c.readings, e.loadedAt = c.clock i

lemma Stamped.next (h : c.Stamped) (u : Use) : (c.next u).Stamped := by
  obtain ⟨-, -, hclock, hreadings⟩ := c.next_settings u
  intro k e hentry
  rw [hclock]
  rcases entries_next hentry with hold | ⟨-, -, hnew⟩
  · obtain ⟨i, hi, hstamp⟩ := h k e hold
    exact ⟨i, Nat.lt_of_lt_of_le hi hreadings, hstamp⟩
  · exact hnew

lemma Stamped.after (h : c.Stamped) (uses : List Use) : (c.after uses).Stamped :=
  List.foldlRecOn uses Cache.next h fun _ hbefore u _ => hbefore.next u

lemma Stamped.lasts (h : c.Stamped)
    (hclock : ∀ i < c.readings, c.clock c.readings - c.clock i < c.ttl) (kind : Kind) :
    c.Lasts kind := by
  intro e hentry
  obtain ⟨i, hi, hstamp⟩ := h kind e hentry
  rw [hstamp]
  exact hclock i hi

lemma recent_append {uses before : List Use} {u : Use} :
    Recent (uses ++ [u]) kind before root source ↔
      (u = .get kind root source ∧ before = uses) ∨
        (¬ u.Concerns kind ∧ Recent uses kind before root source) := by
  constructor
  · rintro ⟨later, huses, hlater⟩
    rcases List.eq_nil_or_concat later with rfl | ⟨later, last, rfl⟩
    · obtain ⟨hbefore, hu⟩ := List.append_inj' huses rfl
      exact .inl ⟨List.singleton_inj.1 hu, hbefore.symm⟩
    · rw [List.concat_eq_append] at huses hlater
      rw [← List.cons_append, ← List.append_assoc] at huses
      obtain ⟨hrest, hu⟩ := List.append_inj' huses rfl
      rw [List.singleton_inj.1 hu]
      exact .inr ⟨hlater last (by simp), later, hrest, fun x hx => hlater x (by simp [hx])⟩
  · rintro (⟨rfl, rfl⟩ | ⟨hu, later, rfl, hlater⟩)
    · exact ⟨[], rfl, by simp⟩
    · refine ⟨later ++ [u], by simp, fun x hx => ?_⟩
      rcases List.mem_append.1 hx with hx | hx
      · exact hlater x hx
      · rwa [List.mem_singleton.1 hx]

/-- What a cache in use holds for a kind is the answer to the last look-up for it, and it holds
nothing once that was forgotten. -/
lemma entries_after (henabled : c.enabled = true) (hempty : ∀ kind, c.entries kind = none)
    (uses : List Use) (kind : Kind) :
    (∀ before root source, Recent uses kind before root source →
      ∃ e, (c.after uses).entries kind = some e ∧ e.root = root ∧
        e.spec = ((c.after before).get source kind root).1) ∧
    ((∀ before root source, ¬ Recent uses kind before root source) →
      (c.after uses).entries kind = none) := by
  -- A later use undoes what an earlier one has left, so the last use is taken off.
  induction uses using List.reverseRecOn with
  | nil =>
    refine ⟨?_, fun _ => hempty kind⟩
    rintro before root source ⟨later, huses, -⟩
    simp at huses
  | append_singleton uses u ih =>
    have hnow := (c.after_settings uses).1.trans henabled
    rw [after_append]
    by_cases hu : u.Concerns kind
    · cases u with
      | get k r s =>
        cases hu
        constructor
        · intro before root source hrecent
          rcases recent_append.1 hrecent with ⟨hget, rfl⟩ | ⟨hnot, -⟩
          · cases hget
            exact entries_get_self hnow
          · exact absurd rfl hnot
        · intro hnone
          exact absurd (recent_append.2 (.inl ⟨rfl, rfl⟩)) (hnone uses r s)
      | invalidate k =>
        cases hu
        refine ⟨fun before root source hrecent => ?_, fun _ => if_pos rfl⟩
        rcases recent_append.1 hrecent with ⟨hget, -⟩ | ⟨hnot, -⟩
        · cases hget
        · exact absurd rfl hnot
      | clear =>
        refine ⟨fun before root source hrecent => ?_, fun _ => rfl⟩
        rcases recent_append.1 hrecent with ⟨hget, -⟩ | ⟨hnot, -⟩
        · cases hget
        · exact absurd trivial hnot
    · have hsame : ((c.after uses).next u).entries kind = (c.after uses).entries kind := by
        cases u with
        | get k r s => exact entries_get_of_ne (Ne.symm hu)
        | invalidate k => exact if_neg (Ne.symm hu)
        | clear => exact absurd trivial hu
      rw [hsame]
      constructor
      · intro before root source hrecent
        rcases recent_append.1 hrecent with ⟨rfl, -⟩ | ⟨-, hrecent⟩
        · exact absurd rfl hu
        · exact ih.1 before root source hrecent
      · intro hnone
        apply ih.2
        intro before root source hrecent
        exact hnone before root source (recent_append.2 (.inr ⟨hu, hrecent⟩))

/-- A cache that is not in use holds nothing. -/
def Proper (c : Cache) : Prop :=
  c.enabled = false → ∀ kind, c.entries kind = none

lemma held_eq_entries (h : c.Proper) : c.held kind = c.entries kind := by
  rcases henabled : c.enabled with _ | _
  · rw [held_of_disabled henabled, h henabled kind]
  · exact held_of_enabled henabled

lemma Proper.next (h : c.Proper) (u : Use) : (c.next u).Proper := by
  intro hoff k
  rw [(next_settings c u).1] at hoff
  rw [Option.eq_none_iff_forall_ne_some]
  intro e hentry
  rcases entries_next hentry with hold | ⟨hon, -⟩
  · rw [h hoff k] at hold
    cases hold
  · rw [hoff] at hon
    cases hon

lemma Proper.after (h : c.Proper) (uses : List Use) : (c.after uses).Proper :=
  List.foldlRecOn uses Cache.next h fun _ hbefore u _ => hbefore.next u

/-- The tally of a cache counts the look-ups by how they ended. -/
structure Counts (t : CacheTally) (gets : Nat) (looks : List Look) : Prop where
  gets : t.hits + t.misses + t.reloads = gets
  loads : t.misses + t.reloads = (looks.map Look.loads).sum
  asked : t.loads = (looks.map Look.loads).sum
  reloads : t.reloads = looks.countP Look.replaces
  fallbacks : t.fallbacks = looks.countP Look.fallsBack

lemma looks_append (c : Cache) (uses : List Use) (u : Use) :
    c.looks (uses ++ [u]) = c.looks uses ++ (c.after uses).looks [u] := by
  induction uses generalizing c with
  | nil => rfl
  | cons first uses ih =>
    cases first with
    | get kind root source => exact congrArg (List.cons _) (ih _)
    | invalidate kind => exact ih _
    | clear => exact ih _

lemma Counts.look {gets : Nat} {looks : List Look} {l : Look}
    (h : Counts l.cache.tally gets looks) (hproper : l.cache.Proper) :
    Counts l.result.2.tally (gets + 1) (looks ++ [l]) := by
  obtain ⟨hgets, hloads, hasked, hreloads, hfallbacks⟩ := h
  have hends := ends_get l.cache l.source l.kind l.root
  have hreplaces : l.replaces = (l.loads == 1 && (l.cache.entries l.kind).isSome) := rfl
  have hfalls : l.fallsBack = (l.loads == 1 && decide (l.source.Fails l.kind l.root)) := rfl
  have hnew : l.loads = l.result.2.tally.loads - l.cache.tally.loads := rfl
  rw [show l.cache.get l.source l.kind l.root = l.result from rfl] at hends
  generalize l.result = result at hends hnew ⊢
  cases hends with
  | hit e hheld hserves =>
    have hzero : l.loads = 0 := by simp [hnew]
    constructor
    · dsimp only
      omega
    · simp [hzero, hloads]
    · simp [hzero, hasked]
    · simp [hreplaces, hzero, hreloads]
    · simp [hfalls, hzero, hfallbacks]
  | load c' halike hunserved htally =>
    have hone : l.loads = 1 := by
      rw [hnew, load_tally, htally]
      split <;> exact Nat.add_sub_cancel_left _ 1
    have hsum : ((looks ++ [l]).map Look.loads).sum = (looks.map Look.loads).sum + 1 := by
      simp [hone]
    rw [held_eq_entries hproper] at htally
    rw [load_tally]
    rcases hheld : (l.cache.entries l.kind).isSome with _ | _
    · rw [hheld, if_neg Bool.false_ne_true] at htally
      rw [htally]
      constructor
      · dsimp only
        omega
      · rw [hsum, ← hloads]
        dsimp only
        omega
      · rw [hsum, ← hasked]
      · simp [hreplaces, hheld, hreloads]
      · simp [hfalls, hone, hfallbacks, List.countP_cons]
    · rw [hheld, if_pos rfl] at htally
      rw [htally]
      constructor
      · dsimp only
        omega
      · rw [hsum, ← hloads]
        dsimp only
        omega
      · rw [hsum, ← hasked]
      · simp [hreplaces, hone, hheld, hreloads]
      · simp [hfalls, hone, hfallbacks, List.countP_cons]

lemma counts_after (hproper : c.Proper) (hnew : c.tally = {}) (uses : List Use) :
    Counts (c.after uses).tally (uses.countP Use.isGet) (c.looks uses) := by
  induction uses using List.reverseRecOn with
  | nil =>
    rw [show c.after [] = c from rfl, hnew]
    exact ⟨rfl, rfl, rfl, rfl, rfl⟩
  | append_singleton uses u ih =>
    rw [after_append, looks_append, List.countP_append]
    cases u with
    | get kind root source =>
      exact Counts.look (l := ⟨c.after uses, kind, root, source⟩) ih (hproper.after uses)
    | invalidate kind =>
      rw [looks, looks, List.append_nil]
      exact ih
    | clear =>
      rw [looks, looks, List.append_nil]
      exact ih

/-- While what is held for its kind lasts, a look-up is served if that has its root. -/
lemma hit_iff_root (henabled : c.enabled = true) (hlasts : c.Lasts kind) :
    Look.Hit ⟨c, kind, root, source⟩ ↔ ∃ e, c.entries kind = some e ∧ e.root = root := by
  rw [Look.hit_iff]
  dsimp only
  rw [held_of_enabled henabled]
  refine exists_congr fun e => and_congr_right fun hentry => ?_
  rw [serves, decide_eq_true (hlasts e hentry), Bool.true_and, beq_iff_eq]

lemma spec_of_hit (h : Look.Hit ⟨c, kind, root, source⟩) (hentry : c.entries kind = some e) :
    (c.get source kind root).1 = e.spec := by
  obtain ⟨e', hheld, hserves⟩ := Look.hit_iff.1 h
  have hsame := (held_eq_some hheld).symm.trans hentry
  rw [get_of_serves hheld hserves]
  exact congrArg CacheEntry.spec (Option.some.inj hsame)

lemma not_hit_of_idle (h : c.ttl = 0 ∨ c.enabled = false) :
    ¬ Look.Hit ⟨c, kind, root, source⟩ := by
  intro hhit
  obtain ⟨e, hheld, hserves⟩ := Look.hit_iff.1 hhit
  dsimp only at hheld hserves
  rcases h with httl | hoff
  · simp [serves, httl] at hserves
  · rw [held_of_disabled hoff] at hheld
    cases hheld

/-- A new cache is used any number of times, each time with other documents, whatever orders their
keys are gone through in. While it is in use and what it holds for a kind lasts, a look-up is a hit
just if the last use that had to do with the kind was a look-up under its root, and then it answers
what that one answered. Everything lasts while the clock moves on by less than the limit. A hit asks
for no document; any other look-up asks once, and answers with the workflow that it is given. Where
nothing is kept for any time there is no hit, and a cache out of use holds nothing. -/
theorem looks_accounted (enabled : Bool) (ttl : Nat) (clock : Nat → Nat)
    (orders : Nat → KeyOrder) :
    let c : Cache := { enabled, ttl, clock, orders }
    (enabled = true → ∀ uses kind root source, (c.after uses).Lasts kind →
      (Look.Hit ⟨c.after uses, kind, root, source⟩ ↔
        ∃ before earlier, Recent uses kind before root earlier) ∧
      ∀ before earlier, Recent uses kind before root earlier →
        (Look.result ⟨c.after uses, kind, root, source⟩).1 =
          (Look.result ⟨c.after before, kind, root, earlier⟩).1) ∧
    (∀ uses, (∀ i < (c.after uses).readings, clock (c.after uses).readings - clock i < ttl) →
      ∀ kind, (c.after uses).Lasts kind) ∧
    (∀ l : Look,
      (l.Hit → l.loads = 0 ∧ ∀ other, l.cache.get other l.kind l.root = l.result) ∧
      (¬ l.Hit → l.loads = 1 ∧ l.source.Gives l.kind l.root l.result.1)) ∧
    (ttl = 0 ∨ enabled = false → ∀ uses kind root source,
      ¬ Look.Hit ⟨c.after uses, kind, root, source⟩) ∧
    (enabled = false → ∀ uses kind, (c.after uses).entries kind = none) ∧
    ∀ uses, Counts (c.after uses).tally (uses.countP Use.isGet) (c.looks uses) := by
  intro c
  have hempty : ∀ kind, c.entries kind = none := fun _ => rfl
  have hstamped : c.Stamped := by
    intro kind e hentry
    cases hentry
  have hproper : c.Proper := fun _ => hempty
  refine ⟨fun henabled uses kind root source hlasts => ?_, fun uses hclock => ?_,
    fun l => ⟨Look.loads_of_hit, Look.loads_of_not_hit⟩, fun hidle uses kind root source => ?_,
    fun hoff uses => hproper.after uses ((c.after_settings uses).1.trans hoff),
    fun uses => counts_after hproper rfl uses⟩
  · have hnow := (c.after_settings uses).1.trans henabled
    obtain ⟨hheld, hforgotten⟩ := entries_after henabled hempty uses kind
    have hhit : Look.Hit ⟨c.after uses, kind, root, source⟩ ↔
        ∃ e, (c.after uses).entries kind = some e ∧ e.root = root := hit_iff_root hnow hlasts
    refine ⟨⟨fun h => ?_, ?_⟩, ?_⟩
    · obtain ⟨e, hentry, rfl⟩ := hhit.1 h
      by_contra hnone
      have hgone : (c.after uses).entries kind = none := by
        apply hforgotten
        intro before root source hrecent
        obtain ⟨e', hentry', rfl, -⟩ := hheld before root source hrecent
        rw [hentry] at hentry'
        cases hentry'
        exact hnone ⟨before, source, hrecent⟩
      rw [hentry] at hgone
      cases hgone
    · rintro ⟨before, earlier, hrecent⟩
      obtain ⟨e, hentry, hroot, -⟩ := hheld before root earlier hrecent
      exact hhit.2 ⟨e, hentry, hroot⟩
    · intro before earlier hrecent
      obtain ⟨e, hentry, hroot, hspec⟩ := hheld before root earlier hrecent
      exact (spec_of_hit (hhit.2 ⟨e, hentry, hroot⟩) hentry).trans hspec
  · obtain ⟨-, httl, hsame⟩ := c.after_settings uses
    apply (hstamped.after uses).lasts
    rw [httl, hsame]
    exact hclock
  · obtain ⟨henabled, httl, -⟩ := c.after_settings uses
    apply not_hit_of_idle
    rw [henabled, httl]
    exact hidle

/-- A document with a workflow of its own for tasks. -/
def pinned : Document :=
  { tasks := some { flow := ["pending", "completed"], terminal := ["completed"] } }

/-- Two kinds are looked up while the document is there. -/
def briefly : List Use :=
  [.get .task "a" fun _ => .ok (some pinned), .get .feature "a" fun _ => .ok (some pinned),
    .invalidate .feature]

/-- Once the document is gone, the workflow of tasks is still known, and that of features is not. -/
theorem looks_accounted_briefly :
    let c : Cache := { enabled := true, ttl := 60 }
    (∀ kind, (c.after briefly).Lasts kind) ∧
      Look.Hit ⟨c.after briefly, .task, "a", fun _ => .ok none⟩ ∧
      ((c.after briefly).get (fun _ => .ok none) .task "a").1.flow = [.pending, .completed] ∧
      ¬ Look.Hit ⟨c.after briefly, .feature, "a", fun _ => .ok none⟩ ∧
      Counts (c.after briefly).tally 2 (c.looks briefly) := by
  intro c
  obtain ⟨hserved, hclock, -, -, -, hcounts⟩ :=
    looks_accounted true 60 (fun _ => 0) fun _ => .given
  have hlasts : ∀ kind, (c.after briefly).Lasts kind := by
    apply hclock briefly
    exact fun _ _ => show 0 - 0 < 60 by decide
  obtain ⟨hhit, hspec⟩ := hserved rfl briefly .task "a" (fun _ => .ok none) (hlasts .task)
  have hrecent : Recent briefly .task [] "a" fun _ => .ok (some pinned) :=
    ⟨_, rfl, by simp [Use.Concerns]⟩
  refine ⟨hlasts, hhit.2 ⟨_, _, hrecent⟩, ?_, ?_, hcounts briefly⟩
  · have hsame := hspec _ _ hrecent
    unfold Look.result at hsame
    rw [hsame]
    decide
  · rw [(hserved rfl briefly .feature "a" (fun _ => .ok none) (hlasts .feature)).1]
    rintro ⟨before, earlier, hrecent⟩
    change Recent ([_, _] ++ [.invalidate .feature]) .feature before "a" earlier at hrecent
    rcases recent_append.1 hrecent with ⟨hget, -⟩ | ⟨hnot, -⟩
    · cases hget
    · exact absurd rfl hnot

end Cache

end TaskFlow.Workflow

import TaskFlow.Proofs.CacheRuns
import TaskFlow.Proofs.Lists
import TaskFlow.Proofs.Workflows

/-!
# Workflows that documents give

A document is refused for a kind just if a name in its entry cannot be read or the flow is empty.
What it gives otherwise follows the entry name by name, and it allows the built-in statuses first,
then the new ones of the three lists in the order in which they come up, then those that only have
a role. The cache answers with nothing but such workflows, whatever documents it meets.
-/

namespace TaskFlow

section Checks

variable {α β ε : Type} {x : Except ε α}

lemma mapError_eq_ok_iff {ε' : Type} {f : ε → ε'} {a : α} : x.mapError f = .ok a ↔ x = .ok a := by
  cases x <;> simp [Except.mapError]

lemma bind_eq_ok_iff {f : α → Except ε β} {b : β} :
    x >>= f = .ok b ↔ ∃ a, x = .ok a ∧ f a = .ok b := by
  cases x <;> simp [bind, Except.bind]

end Checks

namespace Workflow

/-- The flow is empty, or the name of a status or of a role cannot be read. -/
inductive Progression.Faulty (p : Progression) : Prop
  | empty (h : p.flow = [])
  | status (raw : String)
      (named : raw ∈ p.flow ++ p.emergency ++ p.terminal ++ p.roles.entries.map Prod.fst)
      (unreadable : ∀ s, Status.parse raw ≠ .ok s)
  | role (raw : String) (named : raw ∈ p.roles.entries.map Prod.snd)
      (unreadable : ∀ role, Role.parse raw ≠ .ok role)

namespace Spec

/-- The workflow has the statuses and roles of an entry, name by name. Where several spellings of a
status are given roles, its role is one of those. -/
structure Renders (w : Spec) (p : Progression) : Prop where
  flow : List.Forall₂ (fun raw s => Status.parse raw = .ok s) p.flow w.flow
  emergency : List.Forall₂ (fun raw s => Status.parse raw = .ok s) p.emergency w.emergency
  terminal : List.Forall₂ (fun raw s => Status.parse raw = .ok s) p.terminal w.terminal
  roles : List.Forall₂ (fun e r => Status.parse e.1 = .ok r.1 ∧ Role.parse e.2 = .ok r.2)
    p.roles.entries w.roles
  roleOf : ∀ s role, (s, role) ∈ w.roles → ∃ e ∈ p.roles.entries,
    Status.parse e.1 = .ok s ∧ Role.parse e.2 = .ok (w.roleOf s)

/-- The workflow allows all that it names, each status once: the built-in ones of the kind, then the
others of the lists in the order of their first places, then those that only have a role. -/
structure Orderly (kind : Kind) (w : Spec) : Prop extends Closed w where
  kind_eq : w.kind = kind
  nodup : w.allowed.Nodup
  order : ∃ fresh mentioned, w.allowed = kind.vocabulary ++ fresh ++ mentioned ∧
    (∀ s, s ∈ fresh ↔ s ∈ w.listed ∧ s ∉ kind.vocabulary) ∧
    fresh.Pairwise (fun s t => w.listed.idxOf s < w.listed.idxOf t) ∧
    ∀ s, s ∈ mentioned ↔ (∃ role, (s, role) ∈ w.roles) ∧ s ∉ kind.vocabulary ++ w.listed

variable {w : Spec} {kind : Kind} {part : String} {p : Progression} {rules : Rules}
  {order : KeyOrder}

lemma readStatuses_eq_ok_iff {names : List String} {l : List Status} :
    readStatuses kind part names = .ok l ↔
      List.Forall₂ (fun raw s => Status.parse raw = .ok s) names l := by
  unfold readStatuses
  rw [mapM_eq_ok_iff]
  simp only [mapError_eq_ok_iff]

lemma readRoles_eq_ok_iff {entries : List (String × String)} {l : List (Status × Role)} :
    readRoles kind entries = .ok l ↔
      List.Forall₂ (fun e r => Status.parse e.1 = .ok r.1 ∧ Role.parse e.2 = .ok r.2)
        entries l := by
  unfold readRoles
  rw [mapM_eq_ok_iff]
  simp only [bind_eq_ok_iff, mapError_eq_ok_iff, pure, Except.pure, Except.ok.injEq, Prod.ext_iff]
  have hread : ∀ (e : String × String) (r : Status × Role),
      (∃ s, Status.parse e.1 = .ok s ∧ ∃ role, Role.parse e.2 = .ok role ∧ s = r.1 ∧ role = r.2) ↔
        Status.parse e.1 = .ok r.1 ∧ Role.parse e.2 = .ok r.2 := by
    intro e r
    constructor
    · rintro ⟨s, hs, role, hrole, rfl, rfl⟩
      exact ⟨hs, hrole⟩
    · rintro ⟨hs, hrole⟩
      exact ⟨r.1, hs, r.2, hrole, rfl, rfl⟩
  simp only [hread]

lemma exists_ofProgression_iff (kind : Kind) (p : Progression) (rules : Rules) (order : KeyOrder) :
    (∃ w, ofProgression kind p rules order = .ok w) ↔ ¬ p.Faulty := by
  simp only [ofProgression_eq_ok_iff, readStatuses_eq_ok_iff, readRoles_eq_ok_iff]
  constructor
  · rintro ⟨w, flow, emergency, terminal, roles, hflow, hne, hemergency, hterminal, hroles, -⟩
      (hempty | ⟨raw, hnamed, hraw⟩ | ⟨raw, hnamed, hraw⟩)
    · rw [hempty] at hflow
      exact hne (List.forall₂_nil_left_iff.1 hflow)
    · simp only [List.mem_append, List.mem_map, or_assoc] at hnamed
      rcases hnamed with h | h | h | ⟨e, he, rfl⟩
      · obtain ⟨s, -, hs⟩ := exists_mem_of_forall₂ hflow raw h
        exact hraw s hs
      · obtain ⟨s, -, hs⟩ := exists_mem_of_forall₂ hemergency raw h
        exact hraw s hs
      · obtain ⟨s, -, hs⟩ := exists_mem_of_forall₂ hterminal raw h
        exact hraw s hs
      · obtain ⟨r, -, hs, -⟩ := exists_mem_of_forall₂ hroles e he
        exact hraw r.1 hs
    · obtain ⟨e, he, rfl⟩ := List.mem_map.1 hnamed
      obtain ⟨r, -, -, hrole⟩ := exists_mem_of_forall₂ hroles e he
      exact hraw r.2 hrole
  · intro hsound
    have hstatus : ∀ raw ∈ p.flow ++ p.emergency ++ p.terminal ++ p.roles.entries.map Prod.fst,
        ∃ s, Status.parse raw = .ok s := by
      intro raw hnamed
      by_contra hraw
      exact hsound (.status raw hnamed fun s hs => hraw ⟨s, hs⟩)
    have hrole : ∀ raw ∈ p.roles.entries.map Prod.snd, ∃ role, Role.parse raw = .ok role := by
      intro raw hnamed
      by_contra hraw
      exact hsound (.role raw hnamed fun role hrole => hraw ⟨role, hrole⟩)
    have hread : ∀ names, names ⊆ p.flow ++ p.emergency ++ p.terminal →
        ∃ l, List.Forall₂ (fun raw s => Status.parse raw = .ok s) names l := by
      intro names hsub
      exact exists_forall₂_iff.2 fun raw hraw => hstatus raw (List.mem_append_left _ (hsub hraw))
    obtain ⟨flow, hflow⟩ := hread p.flow (by simp)
    obtain ⟨emergency, hemergency⟩ := hread p.emergency (by simp)
    obtain ⟨terminal, hterminal⟩ := hread p.terminal (by simp)
    obtain ⟨roles, hroles⟩ : ∃ l, List.Forall₂ (fun (e : String × String) (r : Status × Role) =>
        Status.parse e.1 = .ok r.1 ∧ Role.parse e.2 = .ok r.2) p.roles.entries l := by
      refine exists_forall₂_iff.2 fun e he => ?_
      obtain ⟨s, hs⟩ := hstatus e.1 (List.mem_append_right _ (List.mem_map_of_mem he))
      obtain ⟨role, hr⟩ := hrole e.2 (List.mem_map_of_mem he)
      exact ⟨(s, role), hs, hr⟩
    refine ⟨_, flow, emergency, terminal, roles, hflow, ?_, hemergency, hterminal, hroles, rfl⟩
    rintro rfl
    exact hsound (.empty (List.forall₂_nil_right_iff.1 hflow))

lemma roleOf_mem {s : Status} {role : Role} (h : (s, role) ∈ w.roles) :
    (s, w.roleOf s) ∈ w.roles := by
  unfold roleOf givenRole
  rcases hlookup : w.roles.reverse.lookup s with _ | given
  · have hnot := List.lookup_eq_none_iff.1 hlookup (s, role) (List.mem_reverse.2 h)
    simp at hnot
  · obtain ⟨before, later, hsplit, -⟩ := List.lookup_eq_some_iff.1 hlookup
    have hmem : (s, given) ∈ w.roles.reverse := by
      rw [hsplit]
      exact List.mem_append_right _ List.mem_cons_self
    exact List.mem_reverse.1 hmem

lemma renders_ofProgression (h : ofProgression kind p rules order = .ok w) : w.Renders p := by
  obtain ⟨flow, emergency, terminal, roles, hflow, -, hemergency, hterminal, hroles, hw⟩ :=
    ofProgression_eq_ok_iff.1 h
  rw [readStatuses_eq_ok_iff] at hflow hemergency hterminal
  rw [readRoles_eq_ok_iff] at hroles
  have hgiven : w.roles = roles := congrArg Spec.roles hw
  refine ⟨?_, ?_, ?_, ?_, fun s role hrole => ?_⟩
  · rwa [hw]
  · rwa [hw]
  · rwa [hw]
  · rwa [hw]
  · have hmem := roleOf_mem hrole
    rw [hgiven] at hmem
    exact exists_mem_of_forall₂ hroles.flip (s, w.roleOf s) hmem

/-- The built-in statuses come first, and what else is named follows in two groups. -/
lemma eraseDups_vocabulary (kind : Kind) (l rest : List Status) :
    (kind.vocabulary ++ l ++ rest).eraseDups = kind.vocabulary ++
      (l.removeAll kind.vocabulary).eraseDups ++
        (rest.removeAll (kind.vocabulary ++ l)).eraseDups := by
  have hvocabulary : kind.vocabulary.eraseDups = kind.vocabulary := by cases kind <;> decide
  rw [List.eraseDups_append, List.eraseDups_append, hvocabulary]

lemma orderly_builtIn (kind : Kind) (rules : Rules) : (builtIn kind rules).Orderly kind where
  toClosed := closed_builtIn kind rules
  kind_eq := rfl
  nodup := by
    change kind.vocabulary.Nodup
    cases kind <;> decide
  order := by
    have hclosed := closed_builtIn kind rules
    have hlisted : ∀ s ∈ (builtIn kind rules).listed, s ∈ kind.vocabulary := by
      intro s hs
      rcases List.mem_append.1 hs with hs | hs
      · exact (List.mem_append.1 hs).elim (hclosed.flow s) (hclosed.emergency s)
      · exact hclosed.terminal s hs
    refine ⟨[], [], by simp [builtIn], fun s => ?_, .nil, fun s => ?_⟩
    · simpa using hlisted s
    · simp [builtIn]

lemma orderly_ofProgression (h : ofProgression kind p rules order = .ok w) : w.Orderly kind where
  toClosed := closed_of_ofProgression h
  kind_eq := by
    obtain ⟨flow, emergency, terminal, roles, -, -, -, -, -, rfl⟩ := ofProgression_eq_ok_iff.1 h
    rfl
  nodup := by
    obtain ⟨flow, emergency, terminal, roles, -, -, -, -, -, rfl⟩ := ofProgression_eq_ok_iff.1 h
    exact nodup_eraseDups _
  order := by
    obtain ⟨flow, emergency, terminal, roles, -, -, -, -, -, rfl⟩ := ofProgression_eq_ok_iff.1 h
    refine ⟨((flow ++ emergency ++ terminal).removeAll kind.vocabulary).eraseDups,
      ((order.arrange (roles.map Prod.fst)).removeAll (kind.vocabulary ++ (flow ++ emergency ++
        terminal))).eraseDups, ?_, fun s => ?_, ?_, fun s => ?_⟩
    · simpa only [List.append_assoc] using eraseDups_vocabulary kind
        (flow ++ emergency ++ terminal) (order.arrange (roles.map Prod.fst))
    · rw [List.mem_eraseDups, mem_removeAll]
      rfl
    · refine (pairwise_eraseDups _).imp_of_mem fun ha hb hlt => ?_
      have hnew : ∀ s ∈ ((flow ++ emergency ++ terminal).removeAll kind.vocabulary).eraseDups,
          (!kind.vocabulary.elem s) = true := fun s hs =>
        (List.mem_filter.1 (List.mem_eraseDups.1 hs)).2
      exact idxOf_lt_of_filter (p := fun s => !kind.vocabulary.elem s) (hnew _ ha) (hnew _ hb) hlt
    · rw [List.mem_eraseDups, mem_removeAll, (order.perm _).mem_iff]
      simp [listed]

end Spec

namespace Document

variable {d : Document} {kind : Kind} {order : KeyOrder} {w : Spec}

lemma spec_error_iff : (∃ cause, d.spec kind order = .error cause) ↔
    ∃ p, d.progression kind = some p ∧ p.Faulty := by
  unfold spec
  rcases d.progression kind with _ | p
  · simp
  · have hsound := Spec.exists_ofProgression_iff kind p d.rules.resolve order
    rcases hread : Spec.ofProgression kind p d.rules.resolve order with cause | w
    · simpa [hread] using hsound
    · simpa [hread] using hsound

lemma orderly_spec (h : d.spec kind order = .ok w) : w.Orderly kind := by
  unfold spec at h
  split at h
  · exact Spec.orderly_ofProgression h
  · rw [← Except.ok.inj h]
    exact Spec.orderly_builtIn kind _

lemma renders_spec (h : d.spec kind order = .ok w) {p : Progression}
    (hp : d.progression kind = some p) : w.Renders p := by
  rw [spec, hp] at h
  exact Spec.renders_ofProgression h

end Document

lemma Source.Gives.orderly {source : Source} {kind : Kind} {root : String} {w : Spec}
    (h : source.Gives kind root w) : w.Orderly kind := by
  cases h with
  | document served usable => exact Document.orderly_spec usable
  | builtIn unusable => exact Spec.orderly_builtIn kind {}

namespace Cache

variable {c : Cache} {uses : List Use} {kind : Kind} {root : String} {source : Source}

/-- What the cache holds for a kind was given to a look-up for it. -/
def Sourced (c : Cache) (uses : List Use) : Prop :=
  ∀ kind e, c.entries kind = some e →
    ∃ root source, .get kind root source ∈ uses ∧ source.Gives kind root e.spec

lemma Sourced.mono (h : c.Sourced uses) (u : Use) : c.Sourced (uses ++ [u]) := by
  intro kind e hentry
  obtain ⟨root, source, hmem, hgives⟩ := h kind e hentry
  exact ⟨root, source, List.mem_append_left _ hmem, hgives⟩

lemma Sourced.result (h : c.Sourced uses) (kind : Kind) (root : String) (source : Source) :
    ∃ r s, .get kind r s ∈ uses ++ [.get kind root source] ∧
      s.Gives kind r (c.get source kind root).1 := by
  by_cases hhit : Look.Hit ⟨c, kind, root, source⟩
  · obtain ⟨e, hheld, hserves⟩ := Look.hit_iff.1 hhit
    rw [get_of_serves hheld hserves]
    exact h.mono _ kind e (held_eq_some hheld)
  · exact ⟨root, source, by simp, (Look.loads_of_not_hit hhit).2⟩

lemma Sourced.next (h : c.Sourced uses) (u : Use) : (c.next u).Sourced (uses ++ [u]) := by
  intro kind e hentry
  rcases entries_next hentry with hold | ⟨-, ⟨root, source, rfl, hgives⟩, -⟩
  · exact h.mono u kind e hold
  · exact ⟨root, source, by simp, hgives⟩

lemma sourced_after (hempty : ∀ kind, c.entries kind = none) (uses : List Use) :
    (c.after uses).Sourced uses := by
  induction uses using List.reverseRecOn with
  | nil =>
    intro kind e hentry
    rw [show c.after [] = c from rfl, hempty] at hentry
    cases hentry
  | append_singleton uses u ih =>
    rw [after_append]
    exact ih.next u

end Cache

/-- A document is refused for a kind just if there is something wrong with its entry for it. A
workflow that it gives is orderly and follows the entry, in whatever order the keys are gone
through. So is every workflow that a cache answers with, however it was used before: a document gave
it to some look-up, or it is built in. -/
theorem workflows_orderly :
    (∀ (d : Document) (kind : Kind) (order : KeyOrder),
      (∃ cause, d.spec kind order = .error cause) ↔
        ∃ p, d.progression kind = some p ∧ p.Faulty) ∧
    (∀ (d : Document) (kind : Kind) (order : KeyOrder) (w : Spec), d.spec kind order = .ok w →
      w.Orderly kind ∧ ∀ p, d.progression kind = some p → w.Renders p) ∧
    ∀ (enabled : Bool) (ttl : Nat) (clock : Nat → Nat) (orders : Nat → KeyOrder)
      (uses : List Cache.Use) (kind : Kind) (root : String) (source : Source),
      let w := ((Cache.after { enabled, ttl, clock, orders } uses).get source kind root).1
      w.Orderly kind ∧
        ∃ r s, .get kind r s ∈ uses ++ [.get kind root source] ∧ s.Gives kind r w := by
  refine ⟨fun d kind order => Document.spec_error_iff, fun d kind order w h => ?_,
    fun enabled ttl clock orders uses kind root source => ?_⟩
  · exact ⟨Document.orderly_spec h, fun p hp => Document.renders_spec h hp⟩
  · have hsourced := Cache.sourced_after (c := { enabled, ttl, clock, orders }) (fun _ => rfl) uses
    obtain ⟨r, s, hmem, hgives⟩ := hsourced.result kind root source
    exact ⟨hgives.orderly, r, s, hmem, hgives⟩

/-- A document that spells one status in several ways and names three that are not built in. -/
def overlapping : Document where
  tasks := some {
    flow := ["pending", "Code Review", "completed"]
    emergency := ["code_review", "on-hold"]
    terminal := ["Rolled Back", "completed"]
    roles := .ofList [("code-review", "review"), ("frozen", "blocked"), ("pending", "queue")] }

/-- The new statuses stand behind the built-in ones, the one that only has a role at the end. -/
theorem workflows_orderly_overlapping : ∃ w, overlapping.spec .task .given = .ok w ∧
    w.allowed.map Status.name = Kind.task.vocabulary.map Status.name ++
      ["CODE_REVIEW", "ROLLED_BACK", "FROZEN"] ∧ w.Orderly .task := by
  have hread : (overlapping.spec .task .given).toOption.map (fun w => w.allowed.map Status.name) =
      some (Kind.task.vocabulary.map Status.name ++ ["CODE_REVIEW", "ROLLED_BACK", "FROZEN"]) := by
    decide +kernel
  rcases hw : overlapping.spec .task .given with cause | w
  · rw [hw] at hread
    cases hread
  · rw [hw] at hread
    exact ⟨w, rfl, Option.some.inj hread, (workflows_orderly.2.1 overlapping .task .given w hw).1⟩

end Workflow

end TaskFlow

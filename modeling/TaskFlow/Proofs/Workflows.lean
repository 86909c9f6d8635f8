import TaskFlow.Proofs.Lists
import TaskFlow.Proofs.StatusNames
import TaskFlow.Workflow.Transition

/-!
# Workflows that come into force

A workflow is built in, or it was read from a document. Either way it allows all the statuses that
it names and has a flow to follow. In which order the keys of the document were gone through shows
only where the allowed statuses are listed, and there only among those that just have a role.
-/

namespace TaskFlow.Workflow

/-- The order that begins with one of the keys. -/
def KeyOrder.leading (s : Status) : KeyOrder where
  arrange keys := if s ∈ keys then s :: keys.erase s else keys
  perm keys := by
    split
    · rename_i hs
      exact (List.perm_cons_erase hs).symm
    · exact .refl _

namespace Spec

/-- The workflow is built in, under some rules, or a document gives it. -/
inductive Admitted : Spec → Prop
  | builtIn (kind : Kind) (rules : Rules) : Admitted (.builtIn kind rules)
  | read {kind : Kind} {p : Progression} {rules : Rules} {order : KeyOrder} {w : Spec}
      (h : ofProgression kind p rules order = .ok w) : Admitted w

/-- Every status that the workflow names is allowed, and the flow is not empty. -/
structure Closed (w : Spec) : Prop where
  flow : ∀ s ∈ w.flow, s ∈ w.allowed
  emergency : ∀ s ∈ w.emergency, s ∈ w.allowed
  terminal : ∀ s ∈ w.terminal, s ∈ w.allowed
  roles : ∀ s role, (s, role) ∈ w.roles → s ∈ w.allowed
  nonempty : w.flow ≠ []

variable {w w' : Spec} {kind : Kind} {p : Progression} {rules : Rules} {order order' : KeyOrder}

lemma ofProgression_eq_ok_iff : ofProgression kind p rules order = .ok w ↔
    ∃ flow emergency terminal roles, readStatuses kind "default_flow" p.flow = .ok flow ∧
      flow ≠ [] ∧ readStatuses kind "emergency_transitions" p.emergency = .ok emergency ∧
      readStatuses kind "terminal_statuses" p.terminal = .ok terminal ∧
      readRoles kind p.roles.entries = .ok roles ∧
      w = {
        kind
        allowed := (kind.vocabulary ++ flow ++ emergency ++ terminal ++
          order.arrange (roles.map Prod.fst)).eraseDups
        flow, emergency, terminal, roles, rules } := by
  unfold ofProgression
  rcases readStatuses kind "default_flow" p.flow with cause | flow
  · simp [bind, Except.bind]
  rcases flow with _ | ⟨first, rest⟩
  · simp [bind, Except.bind, throw, throwThe, MonadExceptOf.throw]
  rcases readStatuses kind "emergency_transitions" p.emergency with cause | emergency
  · simp [bind, Except.bind]
  rcases readStatuses kind "terminal_statuses" p.terminal with cause | terminal
  · simp [bind, Except.bind]
  rcases readRoles kind p.roles.entries with cause | roles
  · simp [bind, Except.bind]
  simp [bind, Except.bind, pure, Except.pure, eq_comm]

lemma ofProgression_with_rules (h : ofProgression kind p rules order = .ok w) (other : Rules) :
    ofProgression kind p other order = .ok { w with rules := other } := by
  obtain ⟨flow, emergency, terminal, roles, hflow, hne, hemergency, hterminal, hroles, rfl⟩ :=
    ofProgression_eq_ok_iff.1 h
  exact ofProgression_eq_ok_iff.2
    ⟨flow, emergency, terminal, roles, hflow, hne, hemergency, hterminal, hroles, rfl⟩

lemma closed_builtIn (kind : Kind) (rules : Rules) : (builtIn kind rules).Closed where
  flow := by
    change ∀ s ∈ builtInFlow kind, s ∈ kind.vocabulary
    cases kind <;> decide
  emergency := by
    change ∀ s ∈ builtInEmergency kind, s ∈ kind.vocabulary
    cases kind <;> decide
  terminal := by
    change ∀ s ∈ builtInTerminal kind, s ∈ kind.vocabulary
    cases kind <;> decide
  roles := by
    intro s role hrole
    cases hrole
  nonempty := by cases kind <;> exact List.cons_ne_nil _ _

lemma closed_of_ofProgression (h : ofProgression kind p rules order = .ok w) : w.Closed := by
  obtain ⟨flow, emergency, terminal, roles, -, hne, -, -, -, rfl⟩ := ofProgression_eq_ok_iff.1 h
  constructor
  · intro s hs
    simp [hs]
  · intro s hs
    simp [hs]
  · intro s hs
    simp [hs]
  · intro s role hrole
    have hnamed : s ∈ roles.map Prod.fst := List.mem_map.2 ⟨_, hrole, rfl⟩
    rw [List.mem_eraseDups]
    exact List.mem_append_right _ ((order.perm _).mem_iff.2 hnamed)
  · exact hne

/-- What a workflow names it allows, wherever it comes from. -/
theorem Admitted.closed (h : w.Admitted) : w.Closed := by
  cases h with
  | builtIn kind rules => exact closed_builtIn kind rules
  | read hread => exact closed_of_ofProgression hread

/-- The statuses that the three lists of the workflow name. -/
def listed (w : Spec) : List Status :=
  w.flow ++ w.emergency ++ w.terminal

/-- The status is neither built in nor listed, and only has a role. -/
def Mentions (w : Spec) (s : Status) : Prop :=
  (∃ role, (s, role) ∈ w.roles) ∧ s ∉ w.kind.vocabulary ++ w.listed

/-- The workflows are the same, but for the order in which they list the allowed statuses that only
have a role. -/
structure Alike (w w' : Spec) : Prop where
  fields : w' = { w with allowed := w'.allowed }
  order : ∃ front rest rest', w.allowed = front ++ rest ∧ w'.allowed = front ++ rest' ∧
    rest.Perm rest' ∧ ∀ s ∈ rest, w.Mentions s

/-- At most one status only has a role, so that there is nothing to put in order. -/
def Settled (w : Spec) : Prop :=
  ∀ s t, w.Mentions s → w.Mentions t → s = t

lemma Alike.refl (w : Spec) : w.Alike w :=
  ⟨rfl, w.allowed, [], [], by simp, by simp, .nil, by simp⟩

lemma settled_builtIn (kind : Kind) (rules : Rules) : (builtIn kind rules).Settled := by
  rintro s t ⟨⟨role, hrole⟩, -⟩
  cases hrole

lemma Alike.mem_allowed (h : w.Alike w') {s : Status} : s ∈ w'.allowed ↔ s ∈ w.allowed := by
  obtain ⟨front, rest, rest', hw, hw', hperm, -⟩ := h.order
  rw [hw, hw', List.mem_append, List.mem_append, hperm.mem_iff]

lemma Alike.eq_of_settled (h : w.Alike w') (hsettled : w.Settled) : w = w' := by
  obtain ⟨front, rest, rest', hw, hw', hperm, hmentions⟩ := h.order
  have hsame : rest = rest' := by
    rcases rest with _ | ⟨s, rest⟩
    · exact hperm.nil_eq
    · have hall : ∀ t ∈ s :: rest, t = s := fun t ht =>
        hsettled t s (hmentions t ht) (hmentions s List.mem_cons_self)
      have hrepeats := List.eq_replicate_of_mem hall
      rw [hrepeats] at hperm ⊢
      exact (List.perm_replicate.1 hperm.symm).symm
  rw [h.fields, hw', ← hsame, ← hw]

lemma mem_removeAll {l m : List Status} {s : Status} : s ∈ l.removeAll m ↔ s ∈ l ∧ s ∉ m := by
  simp [List.removeAll]

lemma Alike.mentions_iff (h : w.Alike w') {s : Status} : w'.Mentions s ↔ w.Mentions s := by
  rw [h.fields]
  rfl

lemma Alike.isAllowed (h : w.Alike w') (s : Status) : w'.isAllowed s = w.isAllowed s := by
  unfold Spec.isAllowed
  rw [Bool.eq_iff_iff, List.contains_iff_mem, List.contains_iff_mem, h.mem_allowed]

lemma Alike.checkStatus (h : w.Alike w') (s : Status) :
    w.checkStatus s = .ok () ∧ w'.checkStatus s = .ok () ∨
      w.checkStatus s = .error (w.unknown s) ∧ w'.checkStatus s = .error (w'.unknown s) := by
  unfold Spec.checkStatus
  rw [h.isAllowed]
  split
  · exact .inl ⟨rfl, rfl⟩
  · exact .inr ⟨rfl, rfl⟩

lemma Alike.checkTransition (h : w.Alike w') (s t : Status) :
    (w.isAllowed s = true ∧ w.isAllowed t = true →
      w'.checkTransition s t = w.checkTransition s t) ∧
    (¬ (w.isAllowed s = true ∧ w.isAllowed t = true) → ∃ u,
      w.checkTransition s t = .error (w.unknown u) ∧
        w'.checkTransition s t = .error (w'.unknown u)) := by
  unfold Spec.checkTransition
  rw [h.isAllowed, h.isAllowed]
  constructor
  · rintro ⟨hs, ht⟩
    rw [hs, ht, h.fields]
    rfl
  · intro hunknown
    rcases hs : w.isAllowed s with _ | _
    · exact ⟨s, rfl, rfl⟩
    · rcases ht : w.isAllowed t with _ | _
      · exact ⟨t, rfl, rfl⟩
      · exact absurd ⟨hs, ht⟩ hunknown

lemma Alike.allowedNames_eq_iff (h : w.Alike w') :
    w.allowedNames = w'.allowedNames ↔ w = w' := by
  refine ⟨fun hnames => ?_, fun hsame => hsame ▸ rfl⟩
  have hplain (l : List Status) : ∀ a ∈ l.map (·.name.toList), ',' ∉ a := by
    intro a ha hcomma
    obtain ⟨s, -, rfl⟩ := List.mem_map.1 ha
    exact absurd (s.name_chars ',' hcomma) (by decide)
  have hchars (l : List Status) : (String.intercalate ", " (l.map Status.name)).toList =
      [',', ' '].intercalate (l.map (·.name.toList)) := by
    rw [String.toList_intercalate, List.map_map]
    rfl
  have hnil : w.allowed.map (·.name.toList) = [] ↔ w'.allowed.map (·.name.toList) = [] := by
    rw [List.map_eq_nil_iff, List.map_eq_nil_iff, List.eq_nil_iff_forall_not_mem,
      List.eq_nil_iff_forall_not_mem]
    simp only [h.mem_allowed]
  have hlists : w.allowed.map (·.name.toList) = w'.allowed.map (·.name.toList) := by
    apply intercalate_inj (hplain _) (hplain _) hnil
    rw [← hchars, ← hchars]
    exact congrArg String.toList hnames
  have hinj : Function.Injective fun s : Status => s.name.toList :=
    fun _ _ => Status.eq_iff_toList.2
  rw [h.fields, ← hinj.list_map hlists]

lemma Alike.message_unknown_inj (h : w.Alike w') {s : Status} :
    (w'.unknown s).message = (w.unknown s).message ↔ w = w' := by
  have hkind : w'.kind = w.kind := by rw [h.fields]
  rw [unknown, unknown, hkind, ← h.allowedNames_eq_iff, eq_comm]
  unfold Rejection.message
  dsimp only
  rw [String.append_right_inj]
  rfl

lemma exists_ofProgression (h : ofProgression kind p rules order = .ok w) (other : KeyOrder) :
    ∃ w', ofProgression kind p rules other = .ok w' := by
  obtain ⟨flow, emergency, terminal, roles, hflow, hne, hemergency, hterminal, hroles, -⟩ :=
    ofProgression_eq_ok_iff.1 h
  exact ⟨_, ofProgression_eq_ok_iff.2
    ⟨flow, emergency, terminal, roles, hflow, hne, hemergency, hterminal, hroles, rfl⟩⟩

lemma alike_of_ofProgression (h : ofProgression kind p rules order = .ok w)
    (h' : ofProgression kind p rules order' = .ok w') : w.Alike w' := by
  obtain ⟨flow, emergency, terminal, roles, hflow, -, hemergency, hterminal, hroles, rfl⟩ :=
    ofProgression_eq_ok_iff.1 h
  obtain ⟨_, _, _, _, hflow', -, hemergency', hterminal', hroles', rfl⟩ :=
    ofProgression_eq_ok_iff.1 h'
  cases hflow.symm.trans hflow'
  cases hemergency.symm.trans hemergency'
  cases hterminal.symm.trans hterminal'
  cases hroles.symm.trans hroles'
  refine ⟨rfl, _, _, _, List.eraseDups_append, List.eraseDups_append, ?_, fun s hs => ?_⟩
  · refine (List.perm_ext_iff_of_nodup (nodup_eraseDups _) (nodup_eraseDups _)).2 fun s => ?_
    rw [List.mem_eraseDups, List.mem_eraseDups, mem_removeAll, mem_removeAll,
      (order.perm _).mem_iff, (order'.perm _).mem_iff]
  · rw [List.mem_eraseDups, mem_removeAll, (order.perm _).mem_iff] at hs
    obtain ⟨hrole, hnew⟩ := hs
    obtain ⟨⟨_, role⟩, hmem, rfl⟩ := List.mem_map.1 hrole
    exact ⟨⟨role, hmem⟩, by simpa [listed] using hnew⟩

lemma allowed_leading {s : Status} (h : ofProgression kind p rules (.leading s) = .ok w)
    (hs : w.Mentions s) :
    ∃ rest, w.allowed = (w.kind.vocabulary ++ w.listed).eraseDups ++ s :: rest := by
  obtain ⟨flow, emergency, terminal, roles, -, -, -, -, -, rfl⟩ := ofProgression_eq_ok_iff.1 h
  obtain ⟨⟨role, hrole⟩, hnew⟩ := hs
  have hkey : s ∈ roles.map Prod.fst := List.mem_map.2 ⟨_, hrole, rfl⟩
  have harrange : (KeyOrder.leading s).arrange (roles.map Prod.fst) =
      s :: (roles.map Prod.fst).erase s := if_pos hkey
  dsimp only [listed] at hnew ⊢
  rw [harrange, List.eraseDups_append, List.cons_removeAll]
  simp only [List.append_assoc] at hnew ⊢
  rw [if_pos (by simpa using hnew), List.eraseDups_cons]
  exact ⟨_, rfl⟩

/-- Where several statuses only have a role, the order of the keys does show. -/
lemma exists_ne_of_not_settled (h : ofProgression kind p rules order = .ok w)
    (hnot : ¬ w.Settled) : ∃ order₁ order₂ w₁ w₂, ofProgression kind p rules order₁ = .ok w₁ ∧
      ofProgression kind p rules order₂ = .ok w₂ ∧ w₁ ≠ w₂ := by
  obtain ⟨s, t, hs, ht, hne⟩ : ∃ s t, w.Mentions s ∧ w.Mentions t ∧ s ≠ t := by
    simpa [Settled] using hnot
  obtain ⟨w₁, h₁⟩ := exists_ofProgression h (.leading s)
  obtain ⟨w₂, h₂⟩ := exists_ofProgression h (.leading t)
  refine ⟨_, _, w₁, w₂, h₁, h₂, ?_⟩
  rintro rfl
  obtain ⟨rest, hrest⟩ := allowed_leading h₁ ((alike_of_ofProgression h h₁).mentions_iff.2 hs)
  obtain ⟨rest', hrest'⟩ := allowed_leading h₂ ((alike_of_ofProgression h h₂).mentions_iff.2 ht)
  rw [hrest] at hrest'
  exact hne (List.cons.inj (List.append_cancel_left hrest')).1

end Spec

end TaskFlow.Workflow

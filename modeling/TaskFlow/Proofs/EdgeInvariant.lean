import TaskFlow.Proofs.Admission

/-!
# What holds of all stored edges

Each new edge is checked only against the edges that are stored when it comes. That is enough:
if the stored edges are well-formed they stay so with an edge that passed the checks, and edges
that are taken away or tasks that change do no harm.
-/

open Relation (ReflTransGen TransGen)

namespace TaskFlow

lemma firstCause_eq_none {objections : List (Prop × EngineError)}
    (h : firstCause objections = none) : ∀ objection ∈ objections, ¬ objection.1 := by
  induction objections with
  | nil => simp
  | cons objection rest ih =>
    obtain ⟨applies, cause⟩ := objection
    by_cases happlies : applies
    · rw [firstCause, if_pos happlies] at h
      cases h
    · rw [firstCause, if_neg happlies] at h
      intro other hother
      rcases List.mem_cons.1 hother with rfl | hother
      · exact happlies
      · exact ih h other hother

section Arcs

variable {R S : Ident → Ident → Prop} {x y : Ident}

/-- With one more arc, a walk goes as before or reaches the start of the new arc. -/
lemma transGen_or_of_new_arc (hnew : ∀ a b, S a b → R a b ∨ (a = x ∧ b = y)) {a b : Ident}
    (h : TransGen S a b) : TransGen R a b ∨ (ReflTransGen R a x ∧ ReflTransGen R y b) := by
  induction h with
  | single hab =>
    rcases hnew _ _ hab with hR | ⟨rfl, rfl⟩
    · exact .inl (.single hR)
    · exact .inr ⟨.refl, .refl⟩
  | tail _ hbc ih =>
    rcases hnew _ _ hbc with hR | ⟨rfl, rfl⟩
    · exact ih.imp (.tail · hR) fun hvia => ⟨hvia.1, hvia.2.tail hR⟩
    · refine .inr ⟨?_, .refl⟩
      rcases ih with hold | hvia
      · exact hold.to_reflTransGen
      · exact hvia.1

lemma not_transGen_of_new_arc (hnew : ∀ a b, S a b → R a b ∨ (a = x ∧ b = y))
    (hback : ¬ ReflTransGen R y x) (hacyclic : ∀ a, ¬ TransGen R a a) (a : Ident) :
    ¬ TransGen S a a := by
  intro hcycle
  rcases transGen_or_of_new_arc hnew hcycle with hold | ⟨hto, hfrom⟩
  · exact hacyclic a hold
  · exact hback (hfrom.trans hto)

end Arcs

namespace Repository

/-- What holds of the stored edges: the blocking ones form no cycle, no edge is a loop, no two
edges say the same, both tasks of an edge are stored, and only a blocking edge names a role that
unblocks it, which is work, review or terminal. -/
structure WellFormed (r : Repository) : Prop where
  acyclic : ∀ task, ¬ TransGen r.Blocks task task
  proper : ∀ d ∈ r.edges.toList, d.source ≠ d.target
  unique : ∀ d ∈ r.edges.toList, ∀ x ∈ r.edges.toList, d.source = x.source → d.target = x.target →
    d.relation = x.relation → d = x
  stored : ∀ d ∈ r.edges.toList, r.Stores d.source ∧ r.Stores d.target
  informational : ∀ d ∈ r.edges.toList, d.relation = .relatesTo → d.unblockAt = none
  unblocking : ∀ d ∈ r.edges.toList, ∀ role, d.unblockAt = some role →
    role = .work ∨ role = .review ∨ role = .terminal

/-- The repository `r'` has no edge that `r` does not have and all tasks of `r`. -/
structure Shrinks (r r' : Repository) : Prop where
  outages : r'.outages = r.outages
  edges : ∀ d ∈ r'.edges.toList, d ∈ r.edges.toList
  tasks : ∀ task, r.Stores task → r'.Stores task

variable {r r' r'' : Repository}

lemma wellFormed_of_edges_eq_empty (h : r.edges = .empty) : r.WellFormed := by
  have hnone : ∀ d, d ∉ r.edges.toList := by
    intro d
    rw [h]
    exact List.not_mem_nil
  constructor
  · intro task hcycle
    obtain ⟨_, -, d, hd, -⟩ := TransGen.tail'_iff.1 hcycle
    exact hnone d hd
  all_goals
    intro d hd
    exact absurd hd (hnone d)

lemma Shrinks.refl : r.Shrinks r :=
  ⟨rfl, fun _ => id, fun _ => id⟩

lemma WellFormed.shrink (h : r.WellFormed) (hshrinks : r.Shrinks r') : r'.WellFormed := by
  have hle : r'.Blocks ≤ r.Blocks := by
    rintro a b ⟨d, hd, hpair⟩
    exact ⟨d, hshrinks.edges d hd, hpair⟩
  constructor
  · intro task hcycle
    exact h.acyclic task (TransGen.mono hle task task hcycle)
  · intro d hd
    exact h.proper d (hshrinks.edges d hd)
  · intro d hd x hx
    exact h.unique d (hshrinks.edges d hd) x (hshrinks.edges x hx)
  · intro d hd
    obtain ⟨hsource, htarget⟩ := h.stored d (hshrinks.edges d hd)
    exact ⟨hshrinks.tasks _ hsource, hshrinks.tasks _ htarget⟩
  · intro d hd
    exact h.informational d (hshrinks.edges d hd)
  · intro d hd
    exact h.unblocking d (hshrinks.edges d hd)

lemma stores_put {t : Task} {task : Ident} (h : r.Stores task) :
    ({ r with tasks := r.tasks.put t } : Repository).Stores task :=
  Roster.isSome_get?_iff.1 (Roster.isSome_get?_put_of_isSome (Roster.isSome_get?_iff.2 h))

lemma shrinks_setStatus {kind : Kind} {entity : Ident} {status : Status}
    (h : r.setStatus kind entity status = some r') : r.Shrinks r' := by
  unfold setStatus at h
  cases kind with
  | task =>
    obtain ⟨t, -, rfl⟩ := Option.map_eq_some_iff.1 h
    exact ⟨rfl, fun _ => id, fun _ => stores_put⟩
  | feature =>
    obtain ⟨f, -, rfl⟩ := Option.map_eq_some_iff.1 h
    exact ⟨rfl, fun _ => id, fun _ => id⟩
  | project =>
    obtain ⟨p, -, rfl⟩ := Option.map_eq_some_iff.1 h
    exact ⟨rfl, fun _ => id, fun _ => id⟩

section Calls

variable (h : r.InOrder)

include h

lemma shrinks_updateStatus {kind : Kind} {entity : Ident} {status : Status} {found : Bool}
    (hcall : r.updateStatus kind entity status = .ok (found, r')) : r.Shrinks r' := by
  unfold updateStatus at hcall
  rw [answer_eq h] at hcall
  split at hcall
  · rename_i hset
    cases hcall
    exact shrinks_setStatus hset
  · cases hcall
    exact .refl

lemma shrinks_deleteById {edge : Ident} {found : Bool}
    (hcall : r.deleteById edge = .ok (found, r')) : r.Shrinks r' := by
  rw [deleteById_eq h] at hcall
  cases hcall
  exact ⟨rfl, fun d hd => (Roster.mem_erase.1 hd).1, fun _ => id⟩

lemma shrinks_deleteByTask {task : Ident} {count : Nat}
    (hcall : r.deleteByTask task = .ok (count, r')) : r.Shrinks r' := by
  rw [deleteByTask_eq h] at hcall
  cases hcall
  exact ⟨rfl, fun d hd => (Roster.mem_remove.1 hd).1, fun _ => id⟩

end Calls

section Gain

variable {q : Request} {d : Dependency} (hgains : r.Gains d r') (hrealizes : d.Realizes q)

include hgains

lemma forall_mem_of_gains {P : Dependency → Prop} (hd : P d) (hold : ∀ x ∈ r.edges.toList, P x) :
    ∀ x ∈ r'.edges.toList, P x := by
  intro x hx
  rcases (hgains.mem_edges x).1 hx with rfl | ⟨hx, -⟩
  · exact hd
  · exact hold x hx

lemma stores_of_gains {task : Ident} (htask : r.Stores task) : r'.Stores task := by
  unfold Stores
  rw [hgains.tasks]
  exact htask

include hrealizes

lemma blocks_of_gains {a b : Ident} (h : r'.Blocks a b) : r.Blocks a b ∨ q.pair = some (a, b) := by
  obtain ⟨x, hx, hab⟩ := h
  rcases (hgains.mem_edges x).1 hx with rfl | ⟨hx, -⟩
  · rw [← hrealizes.pair_eq]
    exact .inr hab
  · exact .inl ⟨x, hx, hab⟩

lemma acyclic_of_gains (hacyclic : ∀ task, ¬ TransGen r.Blocks task task) (hopen : ¬ r.Closes q)
    (task : Ident) : ¬ TransGen r'.Blocks task task := by
  rcases hpair : q.pair with _ | ⟨blocker, blocked⟩
  · have hle : r'.Blocks ≤ r.Blocks := by
      intro a b hab
      refine (blocks_of_gains hgains hrealizes hab).resolve_right fun hnew => ?_
      rw [hpair] at hnew
      cases hnew
    intro hcycle
    exact hacyclic task (TransGen.mono hle task task hcycle)
  · have hnew : ∀ a b, r'.Blocks a b → r.Blocks a b ∨ (a = blocker ∧ b = blocked) := by
      intro a b hab
      refine (blocks_of_gains hgains hrealizes hab).imp_right fun hab => ?_
      rw [hpair] at hab
      cases hab
      exact ⟨rfl, rfl⟩
    refine not_transGen_of_new_arc hnew (fun hback => ?_) hacyclic task
    exact hopen ⟨blocker, blocked, hpair, hback⟩

lemma unique_of_gains (hnew : ¬ r.Has q.source q.target q.relation)
    (hunique : ∀ x ∈ r.edges.toList, ∀ z ∈ r.edges.toList, x.source = z.source →
      x.target = z.target → x.relation = z.relation → x = z) :
    ∀ x ∈ r'.edges.toList, ∀ z ∈ r'.edges.toList, x.source = z.source → x.target = z.target →
      x.relation = z.relation → x = z := by
  have hother : ∀ x ∈ r.edges.toList, x.source = d.source → x.target = d.target →
      x.relation ≠ d.relation := by
    intro x hx hsource htarget hrelation
    exact hnew ⟨x, hx, hsource.trans hrealizes.source, htarget.trans hrealizes.target,
      hrelation.trans hrealizes.relation⟩
  intro x hx z hz hsource htarget hrelation
  rcases (hgains.mem_edges x).1 hx with rfl | ⟨hx, -⟩
  · rcases (hgains.mem_edges z).1 hz with rfl | ⟨hz, -⟩
    · rfl
    · exact absurd hrelation.symm (hother z hz hsource.symm htarget.symm)
  · rcases (hgains.mem_edges z).1 hz with rfl | ⟨hz, -⟩
    · exact absurd hrelation (hother x hx hsource htarget)
    · exact hunique x hx z hz hsource htarget hrelation

end Gain

/-- The edges stay well-formed when a request against which nothing can be said becomes one of
them. -/
theorem WellFormed.gain {q : Request} {d : Dependency} (h : r.WellFormed)
    (hnone : firstCause (r.objections q) = none) (hgains : r.Gains d r')
    (hrealizes : d.Realizes q) : r'.WellFormed := by
  have hsilent := firstCause_eq_none hnone
  simp only [objections, Request.objections, List.cons_append, List.nil_append,
    List.forall_mem_cons, not_not] at hsilent
  obtain ⟨hself, hrelates, hqueue, hblocked, hsource, htarget, hnew, hopen, -⟩ := hsilent
  constructor
  · exact acyclic_of_gains hgains hrealizes h.acyclic hopen
  · apply forall_mem_of_gains hgains _ h.proper
    rw [hrealizes.source, hrealizes.target]
    exact hself
  · exact unique_of_gains hgains hrealizes hnew h.unique
  · have hold : ∀ x ∈ r.edges.toList, r'.Stores x.source ∧ r'.Stores x.target := by
      intro x hx
      exact (h.stored x hx).imp (stores_of_gains hgains) (stores_of_gains hgains)
    apply forall_mem_of_gains hgains _ hold
    rw [hrealizes.source, hrealizes.target]
    exact ⟨stores_of_gains hgains hsource, stores_of_gains hgains htarget⟩
  · apply forall_mem_of_gains hgains _ h.informational
    intro hrelation
    rw [hrealizes.unblockAt]
    by_contra hrole
    exact hrelates ⟨hrealizes.relation ▸ hrelation, hrole⟩
  · apply forall_mem_of_gains hgains _ h.unblocking
    intro role hrole
    rw [hrealizes.unblockAt] at hrole
    cases role with
    | queue => exact absurd hrole hqueue
    | blocked => exact absurd hrole hblocked
    | work => exact .inl rfl
    | review => exact .inr (.inl rfl)
    | terminal => exact .inr (.inr rfl)

end Repository

end TaskFlow

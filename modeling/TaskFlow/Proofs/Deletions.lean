import TaskFlow.Proofs.Lists
import TaskFlow.Proofs.Locking

/-!
# Deletions

The repository may fail to delete some edges. A bulk deletion goes on past them and tells of each
edge that it was meant to delete how it fared; what it deletes is gone, and nothing else is. A
single deletion fails as the repository does.
-/

namespace TaskFlow

namespace Repository

/-- All calls are in order, save that an edge for which `F` has a detail is not deleted: the call
for it fails with that detail. -/
structure Refuses (r : Repository) (F : Ident → Option String) : Prop where
  others : ∀ call id, call ≠ .deleteById → r.outage call id = none
  deletion : ∀ d ∈ r.edges.toList,
    (r.outage .deleteById (some d.id)).map Outage.error = (F d.id).map some

/-- The second repository is the first without the edges of which `p` is true. -/
structure Drops (r : Repository) (p : Dependency → Prop) (r' : Repository) : Prop where
  mem_iff : ∀ d, d ∈ r'.edges.toList ↔ d ∈ r.edges.toList ∧ ¬ p d
  rest : r' = { r with edges := r'.edges }

/-- What is reported of an edge that cannot be deleted: the text of the repository's error. -/
def failure? (F : Ident → Option String) (id : Ident) : Option DeletionFailure :=
  (F id).map fun detail => ⟨id, (EngineError.storage detail).message⟩

/-- The report says of each edge that a bulk deletion was meant to delete how it fared: those of `F`
failed, the others are deleted, both oldest first. The edges reported as deleted are gone, and
nothing else is changed. -/
structure Removes (r : Repository) (F : Ident → Option String) (meant : Dependency → Prop)
    (report : DeletionReport) (r' : Repository) : Prop where
  deleted : ∃ gone, Recorded.Lists gone
      (fun d => (d ∈ r.edges.toList ∧ meant d) ∧ F d.id = none) ∧
    report.deleted = gone.map Dependency.id
  failed : ∃ kept, Recorded.Lists kept
      (fun d => (d ∈ r.edges.toList ∧ meant d) ∧ F d.id ≠ none) ∧
    List.Forall₂ (fun d f => failure? F d.id = some f) kept report.failed
  drops : r.Drops (·.id ∈ report.deleted) r'

variable {r r' : Repository} {F : Ident → Option String} {d : Dependency} {detail : String}

/-- The repository with the deletion of each edge out of order for which `F` has a detail. -/
def refusing (r : Repository) (F : Ident → Option String) : Repository :=
  { r with outages := r.edges.toList.filterMap fun d =>
      (F d.id).map fun detail => ⟨.deleteById, some d.id, some detail⟩ }

lemma mem_outages_refusing {o : Outage} : o ∈ (r.refusing F).outages ↔
    ∃ d ∈ r.edges.toList, ∃ detail, F d.id = some detail ∧
      o = ⟨.deleteById, some d.id, some detail⟩ := by
  simp [refusing, eq_comm]

lemma refuses_refusing (r : Repository) (F : Ident → Option String) :
    (r.refusing F).Refuses F := by
  have hforall : ∀ call, (r.refusing F).outages.find?
      (fun o => o.call == call && o.id.isNone) = none := by
    intro call
    refine List.find?_eq_none.2 fun o ho => ?_
    obtain ⟨d, -, detail, -, rfl⟩ := mem_outages_refusing.1 ho
    simp
  constructor
  · intro call id hcall
    have hnone : ∀ i, (r.refusing F).outages.find?
        (fun o => o.call == call && o.id == some i) = none := by
      intro i
      refine List.find?_eq_none.2 fun o ho => ?_
      obtain ⟨d, -, detail, -, rfl⟩ := mem_outages_refusing.1 ho
      simp [hcall.symm]
    rcases id with _ | i <;> simp [outage, hforall, hnone]
  · intro d hd
    have hown : (r.refusing F).outage .deleteById (some d.id) = (r.refusing F).outages.find?
        (fun o => o.call == .deleteById && o.id == some d.id) := by
      simp [outage, hforall]
    rw [hown]
    rcases hfind : (r.refusing F).outages.find? _ with _ | o
    · rcases hF : F d.id with _ | detail
      · rfl
      · have hmiss := List.find?_eq_none.1 hfind _
          (mem_outages_refusing.2 ⟨d, hd, detail, hF, rfl⟩)
        simp at hmiss
    · obtain ⟨x, -, detail, hF, rfl⟩ := mem_outages_refusing.1 (List.mem_of_find?_eq_some hfind)
      have hsame : x.id = d.id := by simpa using List.find?_some hfind
      rw [← hsame, hF]
      rfl

lemma drops_erase (id : Ident) :
    r.Drops (·.id = id) { r with edges := r.edges.erase id } :=
  ⟨fun _ => Roster.mem_erase, rfl⟩

lemma drops_remove {p : Dependency → Prop} {test : Dependency → Bool}
    (htest : ∀ d ∈ r.edges.toList, test d = true ↔ p d) :
    r.Drops p { r with edges := r.edges.remove test } := by
  refine ⟨fun d => Roster.mem_remove.trans (and_congr_right fun hd => ?_), rfl⟩
  rw [← htest d hd, Bool.not_eq_true]

section Refuses

variable (h : r.Refuses F)

include h

lemma Refuses.answer_eq {α : Type} {call : Call} (hcall : call ≠ .deleteById) (id : Option Ident)
    (absent result : α) : r.answer call id absent result = .ok result := by
  rw [answer, h.others call id hcall]

lemma Refuses.deleteById_free (hd : d ∈ r.edges.toList) (hfree : F d.id = none) :
    r.deleteById d.id = .ok (true, { r with edges := r.edges.erase d.id }) := by
  have hmeets := h.deletion d hd
  rw [hfree, Option.map_none, Option.map_eq_none_iff] at hmeets
  have hfound : (r.edges.get? d.id).isSome = true := Roster.isSome_get?_iff.2 ⟨d, hd, rfl⟩
  rw [deleteById, answer, hmeets, hfound]

lemma Refuses.deleteById_refused (hd : d ∈ r.edges.toList) (hrefused : F d.id = some detail) :
    r.deleteById d.id = .error (.storage detail) := by
  have hmeets := h.deletion d hd
  rw [hrefused, Option.map_some] at hmeets
  obtain ⟨o, ho, herror⟩ := Option.map_eq_some_iff.1 hmeets
  obtain ⟨call, id, error⟩ := o
  cases herror
  rw [deleteById, answer, ho]

lemma Refuses.drop {p : Dependency → Prop} (hdrops : r.Drops p r') : r'.Refuses F := by
  refine ⟨fun call id hcall => ?_, fun d hd => ?_⟩
  · rw [hdrops.rest]
    exact h.others call id hcall
  · rw [hdrops.rest]
    exact h.deletion d ((hdrops.mem_iff d).1 hd).1

end Refuses

/-- A loop over distinct stored edges deletes those that can be deleted, and reports the others. -/
lemma Refuses.deleteEach_eq (ids : List Ident) : ∀ {r : Repository}, r.Refuses F →
    (∀ id ∈ ids, ∃ d ∈ r.edges.toList, d.id = id) → ids.Nodup →
      r.deleteEach ids =
        ({ deleted := ids.filter fun id => (F id).isNone, failed := ids.filterMap (failure? F) },
          { r with edges := r.edges.remove fun d => ids.contains d.id && (F d.id).isNone }) := by
  induction ids with
  | nil =>
    intro r h _ _
    have hsame : r.edges.remove (fun d => [].contains d.id && (F d.id).isNone) = r.edges :=
      Roster.ext_mem fun x => by simp
    rw [deleteEach, hsame]
    rfl
  | cons id ids ih =>
    intro r h hstored hdistinct
    obtain ⟨d, hd, rfl⟩ := hstored id List.mem_cons_self
    obtain ⟨hother, hrest⟩ := List.nodup_cons.1 hdistinct
    rcases hF : F d.id with _ | detail
    · have hlater : ∀ id ∈ ids, ∃ x ∈ (r.edges.erase d.id).toList, x.id = id := by
        intro id hid
        obtain ⟨x, hx, rfl⟩ := hstored id (List.mem_cons_of_mem _ hid)
        exact ⟨x, Roster.mem_erase.2 ⟨hx, fun heq => hother (heq ▸ hid)⟩, rfl⟩
      have hedges : (r.edges.erase d.id).remove
            (fun x => ids.contains x.id && (F x.id).isNone) =
          r.edges.remove fun x => (d.id :: ids).contains x.id && (F x.id).isNone := by
        refine Roster.ext_mem fun x => ?_
        by_cases hx : x.id = d.id
        · simp [hx, hF, Recorded.id]
        · simp [hx, Recorded.id]
      rw [deleteEach, h.deleteById_free hd hF]
      dsimp only
      rw [ih (h.drop (drops_erase d.id)) hlater hrest, hedges]
      simp [failure?, hF]
    · have hedges : r.edges.remove (fun x => ids.contains x.id && (F x.id).isNone) =
          r.edges.remove fun x => (d.id :: ids).contains x.id && (F x.id).isNone := by
        refine Roster.ext_mem fun x => ?_
        by_cases hx : x.id = d.id
        · simp [hx, hF]
        · simp [hx]
      rw [deleteEach, h.deleteById_refused hd hF]
      dsimp only
      rw [ih h (fun id hid => hstored id (List.mem_cons_of_mem _ hid)) hrest, hedges]
      simp [failure?, hF]

section Select

variable (h : r.Refuses F) (test : Dependency → Bool)

include h

lemma Refuses.deleteEach_select : r.deleteEach ((r.edges.select test).map Dependency.id) =
    ({ deleted := ((r.edges.select test).filter fun d => (F d.id).isNone).map Dependency.id
       failed := (r.edges.select test).filterMap fun d => failure? F d.id },
      { r with edges := r.edges.remove fun d => test d && (F d.id).isNone }) := by
  have hstored : ∀ id ∈ (r.edges.select test).map Dependency.id,
      ∃ d ∈ r.edges.toList, d.id = id := by
    intro id hid
    obtain ⟨d, hd, rfl⟩ := List.mem_map.1 hid
    exact ⟨d, (Roster.mem_select.1 hd).1, rfl⟩
  have hdistinct : ((r.edges.select test).map Dependency.id).Nodup :=
    List.pairwise_map.2 (r.edges.distinct.filter test)
  have hpicked : ∀ d ∈ r.edges.toList,
      ((r.edges.select test).map Dependency.id).contains d.id = test d := by
    intro d hd
    rw [Bool.eq_iff_iff, List.contains_iff_mem]
    refine (Roster.id_mem_map_iff (fun x hx => (Roster.mem_select.1 hx).1) hd).trans ?_
    rw [Roster.mem_select, and_iff_right hd]
  have hedges : r.edges.remove (fun d =>
        ((r.edges.select test).map Dependency.id).contains d.id && (F d.id).isNone) =
      r.edges.remove fun d => test d && (F d.id).isNone := by
    refine Roster.ext_mem fun d => ?_
    rw [Roster.mem_remove, Roster.mem_remove]
    refine and_congr_right fun hd => ?_
    rw [hpicked d hd]
  rw [h.deleteEach_eq _ hstored hdistinct, hedges, List.filter_map, List.filterMap_map]
  rfl

lemma Refuses.deleteEach_select_again {r' : Repository}
    (hr' : r' = { r with edges := r.edges.remove fun d => test d && (F d.id).isNone }) :
    r'.deleteEach ((r'.edges.select test).map Dependency.id) =
      ({ deleted := []
         failed := (r.edges.select test).filterMap fun d => failure? F d.id }, r') := by
  have hselect : (r.edges.remove fun d => test d && (F d.id).isNone).select test =
      (r.edges.select test).filter fun d => (failure? F d.id).isSome := by
    refine (Roster.lists_select test).unique
      (((r.edges.lists_select test).filter _).congr fun d => ?_)
    rw [Roster.mem_remove, failure?, Option.isSome_map]
    rcases test d with _ | _ <;> rcases F d.id with _ | detail <;> simp
  have hedges : (r.edges.remove fun d => test d && (F d.id).isNone).remove
        (fun d => test d && (F d.id).isNone) =
      r.edges.remove fun d => test d && (F d.id).isNone :=
    Roster.ext_mem fun d => by simp
  have hdeleted : ((r.edges.select test).filter fun d => (failure? F d.id).isSome).filter
      (fun d => (F d.id).isNone) = [] := by
    rw [List.filter_filter, List.filter_eq_nil_iff]
    intro d _
    rcases hF : F d.id with _ | detail <;> simp [failure?, hF]
  have hfailed : ((r.edges.select test).filter fun d => (failure? F d.id).isSome).filterMap
        (fun d => failure? F d.id) =
      (r.edges.select test).filterMap fun d => failure? F d.id := by
    rw [List.filterMap_filter]
    refine List.filterMap_congr fun d _ => ?_
    rcases failure? F d.id with _ | f <;> simp
  subst hr'
  rw [(h.drop (drops_remove fun _ _ => .rfl)).deleteEach_select test]
  dsimp only
  rw [hselect, hedges, hdeleted, hfailed]
  rfl

lemma Refuses.removes_select {meant : Dependency → Prop} (hmeant : ∀ d, test d = true ↔ meant d) :
    ∃ report r', r.deleteEach ((r.edges.select test).map Dependency.id) = (report, r') ∧
      r.Removes F meant report r' ∧
      r'.deleteEach ((r'.edges.select test).map Dependency.id) =
        ({ deleted := [], failed := report.failed }, r') := by
  have hlisted : Recorded.Lists (r.edges.select test) fun d => d ∈ r.edges.toList ∧ meant d :=
    (r.edges.lists_select test).congr fun d => and_congr_right fun _ => hmeant d
  refine ⟨_, _, h.deleteEach_select test, ?_, h.deleteEach_select_again test rfl⟩
  constructor
  · refine ⟨_, (hlisted.filter _).congr fun d => ?_, rfl⟩
    rw [Option.isNone_iff_eq_none]
  · refine ⟨_, (hlisted.filter fun d => (failure? F d.id).isSome).congr fun d => ?_,
      forall₂_filterMap _ _⟩
    rw [failure?, Option.isSome_map, Option.isSome_iff_ne_none]
  · refine drops_remove fun d hd => ?_
    have hgone := Roster.id_mem_map_iff (r := r.edges)
      (l := (r.edges.select test).filter fun d => (F d.id).isNone)
      (fun x hx => (Roster.mem_select.1 (List.mem_filter.1 hx).1).1) hd
    refine Iff.trans ?_ hgone.symm
    rw [List.mem_filter, Roster.mem_select, and_iff_right hd, Bool.and_eq_true]

end Select

/-- A deletion from `source`, to `target` and of `relation` where these are given, is meant for the
edge. -/
def Meant (source : Ident) (target : Option Ident) (relation : Option Relation)
    (d : Dependency) : Prop :=
  d.source = source ∧ (∀ x, target = some x → d.target = x) ∧
    ∀ k, relation = some k → d.relation = k

lemma isMeant_iff {source : Ident} {target : Option Ident} {relation : Option Relation} :
    isMeant source target relation d = true ↔ Meant source target relation d := by
  cases target <;> cases relation <;> simp [isMeant, Meant, and_assoc]

lemma Refuses.removeWhere_eq (h : r.Refuses F) (source : Ident) (target : Option Ident)
    (relation : Option Relation) : r.removeWhere source target relation =
      .ok (r.deleteEach
        ((r.edges.select (isMeant source target relation)).map Dependency.id)) := by
  have hfound : r.findByTask source = .ok (r.edges.select (·.touches source)) :=
    h.answer_eq Call.noConfusion ..
  have hmeant : (r.edges.select (·.touches source)).filter (isMeant source target relation) =
      r.edges.select (isMeant source target relation) := by
    refine filter_select_touches fun d hd => ?_
    simp [Dependency.touches, (isMeant_iff.1 hd).1]
  unfold removeWhere
  rw [hfound, ← hmeant]
  rfl

end Repository

namespace Engine

variable {α : Type} {e : Engine} {F : Ident → Option String} {a b edge task : Ident}
  {d : Dependency} {op : Operation α}

section Locks

variable (hsound : e.locks.Sound e.tickets)

include hsound

lemma withLock_withLock_free {Q : Except EngineError α → Repository → Prop}
    (hop : Ends e.repository op Q) (hne : a ≠ b) (ha : e.locks.isLocked a = false)
    (hb : e.locks.isLocked b = false) :
    Q (withLock a (withLock b op) e).1 (withLock a (withLock b op) e).2.repository := by
  have hinner : (e.locks.taken a e.tickets).isLocked b = false :=
    (Lock.Table.isLocked_taken_of_ne hne.symm).trans hb
  rw [withLock_taken hsound ha]
  dsimp only
  rw [withLock_taken ((hsound.mono (Nat.le_succ _)).taken a e.tickets) hinner]
  exact hop _ rfl

lemma withLocks_free {Q : Except EngineError α → Repository → Prop}
    (hop : Ends e.repository op Q) (hne : a ≠ b) (ha : e.locks.isLocked a = false)
    (hb : e.locks.isLocked b = false) :
    Q (withLocks a b op e).1 (withLocks a b op e).2.repository := by
  unfold withLocks
  split
  · exact withLock_withLock_free hsound hop hne ha hb
  · exact withLock_withLock_free hsound hop hne.symm hb ha

lemma withLock_withLock_refused (op : Operation α)
    (h : a = b ∨ e.locks.isLocked a = true ∨ e.locks.isLocked b = true) :
    ∃ x, (x = a ∨ x = b) ∧ (withLock a (withLock b op) e).1 =
        .error (.lockTimeout x (.ofMillis e.settings.locking.timeoutMillis)) ∧
      (withLock a (withLock b op) e).2.repository = e.repository := by
  rcases ha : e.locks.isLocked a with _ | _
  · have hnone := hsound.slot?_eq_none ha
    have hinner : (e.locks.taken a e.tickets).isLocked b = true := by
      by_cases hne : b = a
      · rw [hne]
        exact Lock.Table.isLocked_taken_self hnone
      · rw [Lock.Table.isLocked_taken_of_ne hne]
        rcases h with rfl | hheld | hheld
        · exact absurd rfl hne
        · rw [ha] at hheld
          cases hheld
        · exact hheld
    rw [withLock_taken hsound ha]
    dsimp only
    rw [withLock_refused ((hsound.mono (Nat.le_succ _)).taken a e.tickets) hinner]
    exact ⟨b, .inr rfl, rfl, rfl⟩
  · rw [withLock_refused hsound ha]
    exact ⟨a, .inl rfl, rfl, rfl⟩

lemma withLocks_refused
    (h : a = b ∨ e.locks.isLocked a = true ∨ e.locks.isLocked b = true) :
    ∃ x, (x = a ∨ x = b) ∧ (withLocks a b op e).1 =
        .error (.lockTimeout x (.ofMillis e.settings.locking.timeoutMillis)) ∧
      (withLocks a b op e).2.repository = e.repository := by
  unfold withLocks
  split
  · exact withLock_withLock_refused hsound op h
  · obtain ⟨x, hx, hrefused⟩ := withLock_withLock_refused hsound op (h.imp Eq.symm Or.symm)
    exact ⟨x, hx.symm, hrefused⟩

end Locks

lemma deleteDependency_missing (h : e.repository.Refuses F)
    (hnone : ∀ d ∈ e.repository.edges.toList, d.id ≠ edge) :
    deleteDependency edge e = (.error (.missing .dependency edge), e) := by
  have hget : e.repository.edges.get? edge = none :=
    List.find?_eq_none.2 fun d hd => by simpa [Recorded.id] using hnone d hd
  have hfind : e.repository.findById edge = .ok none :=
    hget ▸ h.answer_eq Call.noConfusion ..
  exact bind_ok (Mutation.ask_findById_ok hfind)

lemma deleteDependency_found (h : e.repository.Refuses F)
    (hd : d ∈ e.repository.edges.toList) :
    deleteDependency d.id e = withLocks d.source d.target (do
      if !(← store (·.deleteById d.id)) then throw (.missing .dependency d.id)) e := by
  have hget : e.repository.edges.get? d.id = some d := Roster.get?_eq_some_iff.2 ⟨hd, rfl⟩
  have hfind : e.repository.findById d.id = .ok (some d) :=
    hget ▸ h.answer_eq Call.noConfusion ..
  exact bind_ok (Mutation.ask_findById_ok hfind)

lemma ends_deleteById {r : Repository} (h : r.Refuses F) (hd : d ∈ r.edges.toList) :
    Ends r (do if !(← store (·.deleteById d.id)) then throw (.missing .dependency d.id))
      fun answer r' =>
        (F d.id = none → answer = .ok () ∧ r.Drops (·.id = d.id) r') ∧
        ∀ detail, F d.id = some detail → answer = .error (.storage detail) ∧ r' = r := by
  rintro e rfl
  rcases hF : F d.id with _ | detail
  · rw [bind_ok (store_ok (h.deleteById_free hd hF))]
    refine ⟨fun _ => ⟨rfl, Repository.drops_erase d.id⟩, ?_⟩
    rintro detail ⟨⟩
  · rw [bind_error (store_error (h.deleteById_refused hd hF))]
    refine ⟨?_, ?_⟩
    · rintro ⟨⟩
    · rintro _ ⟨⟩
      exact ⟨rfl, rfl⟩

lemma ends_deleteByTask {r : Repository} (h : r.Refuses F) (task : Ident) :
    Ends r (store (·.deleteByTask task)) fun answer r' =>
      ∃ gone, Recorded.Lists gone (fun d => d ∈ r.edges.toList ∧ d.touches task = true) ∧
        answer = .ok gone.length ∧ r.Drops (·.touches task = true) r' := by
  rintro e rfl
  have hcall : e.repository.deleteByTask task = _ := h.answer_eq Call.noConfusion ..
  rw [store_ok hcall]
  exact ⟨_, e.repository.edges.lists_select _, rfl, Repository.drops_remove fun _ _ => .rfl⟩

/-- A bulk deletion reports how each edge fared that it was meant to delete, and deletes those that
can be deleted and no others; repeated, it finds the same failures. The deletion of one edge ends in
that, in the failure of the repository, or as missing; it has to wait in vain if the locks of its
two ends cannot be had, and always if these are one. The deletion of all edges at a task counts
them. -/
theorem deletions_exact (e : Engine) (F : Ident → Option String) (h : e.repository.Refuses F)
    (hsound : e.locks.Sound e.tickets) :
    let waited : Duration := .ofMillis e.settings.locking.timeoutMillis
    (∀ source target relation, ∃ report r',
      e.repository.removeWhere source target relation = .ok (report, r') ∧
      e.repository.Removes F (Repository.Meant source target relation) report r' ∧
      r'.removeWhere source target relation =
        .ok ({ deleted := [], failed := report.failed }, r')) ∧
    (∀ edge, (∀ d ∈ e.repository.edges.toList, d.id ≠ edge) →
      deleteDependency edge e = (.error (.missing .dependency edge), e)) ∧
    (∀ d ∈ e.repository.edges.toList,
      let after := deleteDependency d.id e
      (d.source ≠ d.target → e.locks.isLocked d.source = false →
          e.locks.isLocked d.target = false →
        (F d.id = none → after.1 = .ok () ∧
          e.repository.Drops (·.id = d.id) after.2.repository) ∧
        ∀ detail, F d.id = some detail → after.1 = .error (.storage detail) ∧
          after.2.repository = e.repository) ∧
      (d.source = d.target ∨ e.locks.isLocked d.source = true ∨
          e.locks.isLocked d.target = true →
        ∃ x, (x = d.source ∨ x = d.target) ∧ after.1 = .error (.lockTimeout x waited) ∧
          after.2.repository = e.repository)) ∧
    ∀ task,
      let after := deleteTaskDependencies task e
      (e.locks.isLocked task = false →
        ∃ gone, Recorded.Lists gone
            (fun d => d ∈ e.repository.edges.toList ∧ d.touches task = true) ∧
          after.1 = .ok gone.length ∧
          e.repository.Drops (·.touches task = true) after.2.repository) ∧
      (e.locks.isLocked task = true → after.1 = .error (.lockTimeout task waited) ∧
        after.2.repository = e.repository) := by
  intro waited
  refine ⟨fun source target relation => ?_, fun edge hnone => deleteDependency_missing h hnone,
    fun d hd => ?_, fun task => ⟨fun hfree => ?_, fun hheld => withLock_held hheld _⟩⟩
  · obtain ⟨report, r', hreport, hremoves, hagain⟩ :=
      h.removes_select (Repository.isMeant source target relation) fun d => Repository.isMeant_iff
    have hafter : r'.Refuses F := h.drop hremoves.drops
    refine ⟨report, r', ?_, hremoves, ?_⟩
    · rw [h.removeWhere_eq, hreport]
    · rw [hafter.removeWhere_eq, hagain]
  · intro after
    have hfound : after = _ := deleteDependency_found h hd
    rw [hfound]
    exact ⟨withLocks_free hsound (ends_deleteById h hd), withLocks_refused hsound⟩
  · obtain ⟨locks, tickets, hanswer, hstored⟩ :=
      withLock_free hfree (store (·.deleteByTask task))
    have hends := ends_deleteByTask h task { e with locks, tickets } rfl
    rw [← hanswer, ← hstored] at hends
    exact hends

def full (edge : Ident) : Option String :=
  if edge = .ofNat 3 then some "disk full" else none

/-- A task that is related to itself and to another, and blocks this by an edge that cannot be
deleted. -/
def knotted : Engine :=
  let task (n : Nat) : Task :=
    { id := .ofNat n, title := "", status := .pending, summary := none, feature := none,
      createdAt := .epoch }
  let edge (n target : Nat) (relation : Relation) : Dependency :=
    ⟨.ofNat n, .ofNat 1, .ofNat target, relation, none, .epoch⟩
  let repository : Repository := {
    tasks := .ofList [task 1, task 2]
    edges := .ofList [edge 3 2 .blocks, edge 4 1 .relatesTo, edge 5 2 .relatesTo]
    supply := fun n => ⟨.ofNat (6 + n), .epoch⟩ }
  .ofRepository (repository.refusing full)

theorem deletions_knotted : knotted.repository.Refuses full ∧
    knotted.locks.Sound knotted.tickets ∧
    (∃ r', knotted.repository.removeWhere (.ofNat 1) none none = .ok ({
        deleted := [.ofNat 4, .ofNat 5]
        failed := [⟨.ofNat 3, "Repository error: disk full"⟩] }, r') ∧
      r'.removeWhere (.ofNat 1) none none = .ok ({
        deleted := []
        failed := [⟨.ofNat 3, "Repository error: disk full"⟩] }, r')) ∧
    (deleteDependency (.ofNat 3) knotted).1 = .error (.storage "disk full") ∧
    (deleteDependency (.ofNat 5) knotted).1 = .ok () ∧
    (deleteTaskDependencies (.ofNat 2) knotted).1 = .ok 2 := by
  have hrefuses : knotted.repository.Refuses full := Repository.refuses_refusing _ _
  have hsound : knotted.locks.Sound knotted.tickets := Lock.Table.sound_empty _
  obtain ⟨hbulk, -, hone, hall⟩ := deletions_exact knotted full hrefuses hsound
  refine ⟨hrefuses, hsound, ?_, ?_, ?_, ?_⟩
  · obtain ⟨report, r', hreport, -, hagain⟩ := hbulk (.ofNat 1) none none
    have hcomputed : (knotted.repository.removeWhere (.ofNat 1) none none).map Prod.fst = .ok {
        deleted := [.ofNat 4, .ofNat 5]
        failed := [⟨.ofNat 3, "Repository error: disk full"⟩] } := rfl
    rw [hreport] at hcomputed
    cases hcomputed
    exact ⟨r', hreport, hagain⟩
  · obtain ⟨d, hd, hid, hne⟩ : ∃ d ∈ knotted.repository.edges.toList,
        d.id = .ofNat 3 ∧ d.source ≠ d.target := by decide
    rw [← hid]
    exact (((hone d hd).1 hne rfl rfl).2 "disk full" (by rw [hid]; rfl)).1
  · obtain ⟨d, hd, hid, hne⟩ : ∃ d ∈ knotted.repository.edges.toList,
        d.id = .ofNat 5 ∧ d.source ≠ d.target := by decide
    rw [← hid]
    exact (((hone d hd).1 hne rfl rfl).1 (by rw [hid]; rfl)).1
  · obtain ⟨gone, hgone, hcount, -⟩ := (hall (.ofNat 2)).1 rfl
    rw [hcount, hgone.unique (knotted.repository.edges.lists_select _)]
    rfl

/-- The edge from a task to itself is neither deleted nor missing. -/
theorem deleteDependency_knotted : knotted.locks.tracked = 0 ∧
    (∃ d ∈ knotted.repository.edges.toList, d.id = .ofNat 4 ∧ d.source = d.target) ∧
    (deleteDependency (.ofNat 4) knotted).1 =
      .error (.lockTimeout (.ofNat 1) (.ofMillis 30000)) ∧
    (deleteDependency (.ofNat 4) knotted).2.repository.edges = knotted.repository.edges :=
  ⟨rfl, by decide, rfl, rfl⟩

end Engine

end TaskFlow

import TaskFlow.Roster
import Mathlib.Data.List.Pairwise
import Mathlib.Data.List.Sort
import Mathlib.Tactic.ByContra
import Mathlib.Tactic.Lemma

/-!
# What rosters hold

A roster holds what was put into it last under each identifier; erasing and removing take records
away and leave the others as they are.
-/

namespace TaskFlow

lemma Recorded.Precedes.asymm {α : Type} [Recorded α] {a b : α} (h : Recorded.Precedes a b) :
    ¬ Recorded.Precedes b a := by
  rintro (k | ⟨k, k'⟩) <;> rcases h with h | ⟨h, h'⟩
  · exact Int.lt_asymm h k
  · exact Int.lt_irrefl _ (h ▸ k)
  · exact Int.lt_irrefl _ (k ▸ h)
  · exact Nat.lt_asymm h' k'

lemma exists_first_of_pairwise {α : Type} {R : α → α → Prop} {P : α → Prop}
    {l : List α} (hsorted : l.Pairwise R) (h : ∃ a ∈ l, P a) :
    ∃ a, a ∈ l ∧ P a ∧ ∀ b ∈ l, P b → b = a ∨ R a b := by
  induction l with
  | nil => simp at h
  | cons c rest ih =>
    by_cases hc : P c
    · refine ⟨c, List.mem_cons_self, hc, fun b hb _ => ?_⟩
      exact (List.mem_cons.1 hb).imp_right (List.rel_of_pairwise_cons hsorted)
    · have hrest : ∃ a ∈ rest, P a := by simpa [hc] using h
      obtain ⟨a, ha, hPa, hfirst⟩ := ih hsorted.of_cons hrest
      refine ⟨a, List.mem_cons_of_mem _ ha, hPa, fun b hb hPb => hfirst b ?_ hPb⟩
      exact (List.mem_cons.1 hb).resolve_left fun heq => hc (heq ▸ hPb)

/-- The list holds the records of which `p` is true, each once and oldest first. -/
structure Recorded.Lists {α : Type} [Recorded α] (l : List α) (p : α → Prop) : Prop where
  mem_iff : ∀ a, a ∈ l ↔ p a
  ordered : l.Pairwise Recorded.Precedes

namespace Recorded.Lists

variable {α : Type} [Recorded α] {l l' : List α} {p q : α → Prop}

lemma unique (h : Lists l p) (h' : Lists l' p) : l = l' := by
  have hasymm : Std.Asymm (Recorded.Precedes (α := α)) := ⟨fun _ _ h => h.asymm⟩
  exact h.ordered.eq_of_mem_iff h'.ordered fun a => (h.mem_iff a).trans (h'.mem_iff a).symm

lemma congr (h : Lists l p) (hpq : ∀ a, p a ↔ q a) : Lists l q :=
  ⟨fun a => (h.mem_iff a).trans (hpq a), h.ordered⟩

lemma filter (h : Lists l p) (test : α → Bool) :
    Lists (l.filter test) fun a => p a ∧ test a = true :=
  ⟨fun a => by rw [List.mem_filter, h.mem_iff], h.ordered.filter test⟩

end Recorded.Lists

namespace Roster

variable {α : Type} [Recorded α] {r : Roster α} {a b : α}

/-- Rosters that hold the same records are the same, since the order is settled. -/
lemma ext_mem {s : Roster α} (h : ∀ a, a ∈ r.toList ↔ a ∈ s.toList) : r = s := by
  have hsame : r.toList = s.toList :=
    Recorded.Lists.unique ⟨h, r.ordered⟩ ⟨fun _ => .rfl, s.ordered⟩
  cases r
  cases s
  cases hsame
  rfl

lemma lists_select (test : α → Bool) :
    Recorded.Lists (r.select test) fun a => a ∈ r.toList ∧ test a = true :=
  Recorded.Lists.filter ⟨fun _ => .rfl, r.ordered⟩ test

@[simp] lemma mem_select {test : α → Bool} : b ∈ r.select test ↔ b ∈ r.toList ∧ test b = true := by
  simp [select]

@[simp] lemma mem_erase {i : Ident} :
    b ∈ (r.erase i).toList ↔ b ∈ r.toList ∧ Recorded.id b ≠ i := by
  simp [erase]

@[simp] lemma mem_remove {test : α → Bool} :
    b ∈ (r.remove test).toList ↔ b ∈ r.toList ∧ test b = false := by
  simp [remove]

@[simp] lemma mem_put : b ∈ (r.put a).toList ↔
    b = a ∨ (b ∈ r.toList ∧ Recorded.id b ≠ Recorded.id a) := by
  simp [put, mem_place]

lemma place_perm (l : List α) : (place a l).Perm (a :: l) := by
  induction l with
  | nil => exact .refl _
  | cons c rest ih =>
    simp only [place]
    split
    · exact .refl _
    · exact (ih.cons c).trans (.swap a c rest)

lemma put_perm (h : ∀ b ∈ r.toList, Recorded.id b ≠ Recorded.id a) :
    (r.put a).toList.Perm (a :: r.toList) := by
  have herase : (r.erase (Recorded.id a)).toList = r.toList :=
    List.filter_eq_self.2 fun b hb => by simpa using h b hb
  have hput : (r.put a).toList = place a (r.erase (Recorded.id a)).toList := rfl
  rw [hput, herase]
  exact place_perm r.toList

lemma eq_of_id_eq (ha : a ∈ r.toList) (hb : b ∈ r.toList)
    (h : Recorded.id a = Recorded.id b) : a = b := by
  have hsymm : Std.Symm fun a b : α => Recorded.id a ≠ Recorded.id b := ⟨fun _ _ => Ne.symm⟩
  by_contra hne
  exact r.distinct.forall ha hb hne h

lemma id_mem_map_iff {l : List α} (hl : ∀ b ∈ l, b ∈ r.toList) (ha : a ∈ r.toList) :
    Recorded.id a ∈ l.map Recorded.id ↔ a ∈ l := by
  constructor
  · intro hid
    obtain ⟨b, hb, heq⟩ := List.mem_map.1 hid
    rwa [eq_of_id_eq ha (hl b hb) heq.symm]
  · exact List.mem_map_of_mem

lemma find?_id_eq_some {l : List α} {i : Ident}
    (h : l.find? (fun a => Recorded.id a == i) = some a) : a ∈ l ∧ Recorded.id a = i := by
  refine ⟨List.mem_of_find?_eq_some h, ?_⟩
  rw [List.find?_eq_some_iff_append] at h
  exact eq_of_beq h.1

lemma find?_id_ne_none {l : List α} (ha : a ∈ l) :
    l.find? (fun b => Recorded.id b == Recorded.id a) ≠ none := by
  intro hnone
  have hid := List.find?_eq_none.1 hnone a ha
  simp at hid

lemma get?_eq_some_iff {i : Ident} :
    r.get? i = some a ↔ a ∈ r.toList ∧ Recorded.id a = i := by
  constructor
  · exact find?_id_eq_some
  · rintro ⟨ha, rfl⟩
    rcases hget : r.get? (Recorded.id a) with _ | b
    · exact absurd hget (find?_id_ne_none ha)
    · obtain ⟨hb, hid⟩ := find?_id_eq_some hget
      rw [eq_of_id_eq ha hb hid.symm]

lemma find?_filterMap_get? {i : Ident} {ids : List Ident} (h : i ∈ ids) :
    (ids.filterMap r.get?).find? (fun a => Recorded.id a == i) = r.get? i := by
  rcases hfind : (ids.filterMap r.get?).find? (fun a => Recorded.id a == i) with _ | a
  · rcases hget : r.get? i with _ | a
    · rfl
    · obtain ⟨-, rfl⟩ := get?_eq_some_iff.1 hget
      exact absurd hfind (find?_id_ne_none (List.mem_filterMap.2 ⟨_, h, hget⟩))
  · obtain ⟨ha, rfl⟩ := find?_id_eq_some hfind
    obtain ⟨j, -, hget⟩ := List.mem_filterMap.1 ha
    rw [(get?_eq_some_iff.1 hget).2, hget]

lemma isSome_get?_iff {i : Ident} :
    (r.get? i).isSome = true ↔ ∃ b ∈ r.toList, Recorded.id b = i := by
  simp [get?]

lemma isSome_get?_put_of_isSome {i : Ident} (h : (r.get? i).isSome = true) :
    ((r.put a).get? i).isSome = true := by
  obtain ⟨b, hb, hid⟩ := isSome_get?_iff.1 h
  refine isSome_get?_iff.2 ?_
  by_cases hsame : Recorded.id a = i
  · exact ⟨a, mem_put.2 (.inl rfl), hsame⟩
  · exact ⟨b, mem_put.2 (.inr ⟨hb, fun e => hsame (e ▸ hid)⟩), hid⟩

section Amend

variable {f : α → α} (hid : ∀ c, Recorded.id (f c) = Recorded.id c)
  (hage : ∀ c, Recorded.createdAt (f c) = Recorded.createdAt c)

include hid

lemma get?_of_toList_eq_map {s : Roster α} (h : s.toList = r.toList.map f) (i : Ident) :
    s.get? i = (r.get? i).map f := by
  unfold get?
  rw [h, List.find?_map]
  congr 2
  funext c
  exact congrArg (· == i) (hid c)

include hage

lemma toList_put_amended (ha : a ∈ r.toList)
    (hother : ∀ c ∈ r.toList, Recorded.id c ≠ Recorded.id a → f c = c) :
    (r.put (f a)).toList = r.toList.map f := by
  have hsorted : (r.toList.map f).Pairwise Recorded.Precedes := by
    refine List.pairwise_map.2 (r.ordered.imp fun {c d} hcd => ?_)
    unfold Recorded.Precedes at hcd ⊢
    rwa [hid, hid, hage, hage]
  refine Recorded.Lists.unique ⟨fun c => ?_, (r.put (f a)).ordered⟩ ⟨fun _ => .rfl, hsorted⟩
  rw [mem_put, List.mem_map, hid]
  constructor
  · rintro (rfl | ⟨hc, hne⟩)
    · exact ⟨a, ha, rfl⟩
    · exact ⟨c, hc, hother c hc hne⟩
  · rintro ⟨d, hd, rfl⟩
    by_cases hsame : Recorded.id d = Recorded.id a
    · exact .inl (by rw [eq_of_id_eq hd ha hsame])
    · rw [hother d hd hsame]
      exact .inr ⟨hd, hsame⟩

end Amend

end Roster

end TaskFlow

import TaskFlow.Ident
import Mathlib.Data.List.Forall2
import Mathlib.Tactic.Lemma

/-!
# Lists

Lists that are read item by item, lists without their repetitions, lists in order, and lists that
are joined by a separator.
-/

namespace TaskFlow

section Reading

variable {α β ε : Type}

lemma mapM_eq_ok_iff {f : α → Except ε β} {l : List α} {r : List β} :
    l.mapM f = .ok r ↔ List.Forall₂ (fun a b => f a = .ok b) l r := by
  induction l generalizing r with
  | nil => cases r <;> simp [pure, Except.pure]
  | cons a l ih =>
    rw [List.mapM_cons]
    rcases ha : f a with cause | b
    · cases r <;> simp [bind, Except.bind, ha]
    · rcases hl : l.mapM f with cause | rest
      · cases r <;> simp [bind, Except.bind, ha, ← ih, hl]
      · cases r <;> simp [bind, Except.bind, pure, Except.pure, ha, ← ih, hl]

lemma mapM_eq_some_iff {f : α → Option β} {l : List α} {r : List β} :
    l.mapM f = some r ↔ List.Forall₂ (fun a b => f a = some b) l r := by
  induction l generalizing r with
  | nil => cases r <;> simp
  | cons a l ih =>
    rw [List.mapM_cons]
    rcases ha : f a with _ | b
    · cases r <;> simp [ha]
    · rcases hl : l.mapM f with _ | rest
      · cases r <;> simp [ha, ← ih, hl]
      · cases r <;> simp [ha, ← ih, hl]

lemma exists_forall₂_iff {R : α → β → Prop} {l : List α} :
    (∃ r, List.Forall₂ R l r) ↔ ∀ a ∈ l, ∃ b, R a b := by
  induction l with
  | nil => simp
  | cons a l ih =>
    rw [List.forall_mem_cons, ← ih]
    constructor
    · rintro ⟨r, h⟩
      cases h with
      | cons hfirst hrest => exact ⟨⟨_, hfirst⟩, _, hrest⟩
    · rintro ⟨⟨b, hfirst⟩, rest, hrest⟩
      exact ⟨b :: rest, .cons hfirst hrest⟩

lemma exists_mem_of_forall₂ {R : α → β → Prop} {l : List α} {r : List β}
    (h : List.Forall₂ R l r) : ∀ a ∈ l, ∃ b ∈ r, R a b := by
  induction h with
  | nil => simp
  | cons hfirst hrest ih =>
    rintro a (_ | ⟨_, ha⟩)
    · exact ⟨_, List.mem_cons_self, hfirst⟩
    · obtain ⟨b, hb, hab⟩ := ih a ha
      exact ⟨b, List.mem_cons_of_mem _ hb, hab⟩

lemma forall₂_filterMap (f : α → Option β) (l : List α) :
    List.Forall₂ (fun a b => f a = some b) (l.filter fun a => (f a).isSome) (l.filterMap f) := by
  induction l with
  | nil => exact .nil
  | cons a l ih =>
    rcases ha : f a with _ | b
    · simpa [ha] using ih
    · simpa [ha] using ih

end Reading

section Repetitions

variable {α : Type} [BEq α] [LawfulBEq α]

lemma idxOf_lt_of_filter {p : α → Bool} {l : List α} {a b : α} (ha : p a = true) (hb : p b = true)
    (h : (l.filter p).idxOf a < (l.filter p).idxOf b) : l.idxOf a < l.idxOf b := by
  induction l with
  | nil => exact h
  | cons x l ih =>
    by_cases hx : p x = true
    · rw [List.filter_cons_of_pos hx] at h
      simp only [List.idxOf_cons] at h ⊢
      rcases hxb : x == b with _ | _
      · rcases hxa : x == a with _ | _
        · simp only [hxa, hxb, cond_false] at h ⊢
          have hrest := ih (by omega)
          omega
        · simp
      · simp [hxb] at h
    · rw [List.filter_cons_of_neg hx] at h
      have hxa : (x == a) = false := beq_false_of_ne fun heq => hx (heq ▸ ha)
      have hxb : (x == b) = false := beq_false_of_ne fun heq => hx (heq ▸ hb)
      simp only [List.idxOf_cons, hxa, hxb, cond_false]
      have hrest := ih h
      omega

lemma pairwise_eraseDups : ∀ l : List α, l.eraseDups.Pairwise fun a b => l.idxOf a < l.idxOf b
  | [] => .nil
  | x :: l => by
    have hother : ∀ a ∈ (l.filter fun a => !a == x).eraseDups, (!a == x) = true := by
      intro a ha
      exact (List.mem_filter.1 (List.mem_eraseDups.1 ha)).2
    have hlater : ∀ a, (!a == x) = true → (x :: l).idxOf a = l.idxOf a + 1 := by
      intro a ha
      rw [List.idxOf_cons_ne]
      rintro rfl
      simp at ha
    rw [List.eraseDups_cons, List.pairwise_cons]
    constructor
    · intro a ha
      rw [List.idxOf_cons_self, hlater a (hother a ha)]
      exact Nat.succ_pos _
    · refine (pairwise_eraseDups _).imp_of_mem fun ha hb hab => ?_
      have hfirst := idxOf_lt_of_filter (p := fun a => !a == x) (hother _ ha) (hother _ hb) hab
      rw [hlater _ (hother _ ha), hlater _ (hother _ hb)]
      omega
  termination_by l => l.length
  decreasing_by exact Nat.lt_succ_of_le (List.length_filter_le _ _)

lemma nodup_eraseDups (l : List α) : l.eraseDups.Nodup := by
  refine (pairwise_eraseDups l).imp ?_
  rintro a b hlt rfl
  exact Nat.lt_irrefl _ hlt

@[elab_as_elim]
lemma erase_induction {motive : List α → Prop}
    (step : ∀ l, (∀ a ∈ l, motive (l.erase a)) → motive l) (l : List α) : motive l := by
  induction hlen : l.length using Nat.strongRecOn generalizing l with
  | _ n ih =>
    refine step l fun a ha => ih _ ?_ (l.erase a) rfl
    have hlt := List.length_erase_of_mem ha
    have hpos := List.length_pos_of_mem ha
    omega

end Repetitions

section Order

lemma rel_of_idxOf_lt {α : Type} [BEq α] [LawfulBEq α] {R : α → α → Prop} {l : List α} {a b : α}
    (hsorted : l.Pairwise R) (hb : b ∈ l) (h : l.idxOf a < l.idxOf b) : R a b := by
  have hlt := List.idxOf_lt_length_of_mem hb
  have hrel := List.pairwise_iff_getElem.1 hsorted _ _ (Nat.lt_trans h hlt) hlt h
  rwa [List.getElem_idxOf, List.getElem_idxOf] at hrel

lemma pairwise_mergeSort_of_rank {α : Type} {first : α → α → Bool} {rank : α → Int}
    {name : α → Ident} (h : ∀ a b, first a b = true ↔
      rank a < rank b ∨ rank a = rank b ∧ name a ≤ name b) (l : List α) :
    (l.mergeSort first).Pairwise fun a b => first a b = true := by
  have htrans : ∀ a b d, first a b = true → first b d = true → first a d = true := by
    intro a b d hab hbd
    rw [h] at *
    rcases hab with hab | ⟨hab, hab'⟩ <;> rcases hbd with hbd | ⟨hbd, hbd'⟩
    · exact .inl (Int.lt_trans hab hbd)
    · exact .inl (hbd ▸ hab)
    · exact .inl (hab ▸ hbd)
    · exact .inr ⟨hab.trans hbd, Ident.le_trans hab' hbd'⟩
  have htotal : ∀ a b, (first a b || first b a) = true := by
    intro a b
    rw [Bool.or_eq_true, h, h]
    rcases Int.lt_trichotomy (rank a) (rank b) with hlt | heq | hlt
    · exact .inl (.inl hlt)
    · exact (Ident.le_total (name a) (name b)).imp (.inr ⟨heq, ·⟩) (.inr ⟨heq.symm, ·⟩)
    · exact .inr (.inl hlt)
  exact List.pairwise_mergeSort htrans htotal l

end Order

section Joining

lemma intercalate_append {α : Type} (sep a : List α) (l : List (List α)) :
    sep.intercalate (a :: l) ++ sep = (a :: l).flatMap (· ++ sep) := by
  induction l generalizing a with
  | nil => simp
  | cons b l ih =>
    rw [List.intercalate_cons_cons, List.append_assoc, ih]
    rfl

lemma append_cons_inj {α : Type} {x : α} {a b s t : List α} (ha : x ∉ a) (hb : x ∉ b)
    (h : a ++ x :: s = b ++ x :: t) : a = b ∧ s = t := by
  induction a generalizing b with
  | nil =>
    cases b with
    | nil => exact ⟨rfl, (List.cons.inj h).2⟩
    | cons y b => exact absurd ((List.cons.inj h).1 ▸ List.mem_cons_self) hb
  | cons z a ih =>
    cases b with
    | nil => exact absurd ((List.cons.inj h).1 ▸ List.mem_cons_self) ha
    | cons y b =>
      obtain ⟨rfl, hrest⟩ := List.cons.inj h
      obtain ⟨rfl, rfl⟩ := ih (List.not_mem_of_not_mem_cons ha) (List.not_mem_of_not_mem_cons hb)
        hrest
      exact ⟨rfl, rfl⟩

/-- Items that are ended by a character which they do not contain can be told apart. -/
lemma flatMap_append_inj {α : Type} {x : α} {rest : List α} {l l' : List (List α)}
    (hl : ∀ a ∈ l, x ∉ a) (hl' : ∀ a ∈ l', x ∉ a)
    (h : l.flatMap (· ++ x :: rest) = l'.flatMap (· ++ x :: rest)) : l = l' := by
  induction l generalizing l' with
  | nil =>
    cases l' with
    | nil => rfl
    | cons b l' => simp at h
  | cons a l ih =>
    cases l' with
    | nil => simp at h
    | cons b l' =>
      simp only [List.flatMap_cons, List.append_assoc, List.cons_append] at h
      obtain ⟨ha, hrest⟩ := List.forall_mem_cons.1 hl
      obtain ⟨hb, hrest'⟩ := List.forall_mem_cons.1 hl'
      obtain ⟨rfl, hsame⟩ := append_cons_inj ha hb h
      rw [ih hrest hrest' (List.append_cancel_left hsame)]

lemma intercalate_inj {α : Type} {x : α} {rest : List α} {l l' : List (List α)}
    (hl : ∀ a ∈ l, x ∉ a) (hl' : ∀ a ∈ l', x ∉ a) (hnil : l = [] ↔ l' = [])
    (h : (x :: rest).intercalate l = (x :: rest).intercalate l') : l = l' := by
  rcases l with _ | ⟨a, l⟩
  · exact (hnil.1 rfl).symm
  rcases l' with _ | ⟨b, l'⟩
  · exact hnil.2 rfl
  apply flatMap_append_inj hl hl'
  rw [← intercalate_append, ← intercalate_append, h]

end Joining

end TaskFlow

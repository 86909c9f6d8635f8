import TaskFlow.Proofs.Queues

/-!
# Waits in vain

A wait that ends without the lock leaves no trace with the others: they go on as they would without
it.
-/

namespace TaskFlow.Lock.Contest

variable {κ : Type} {c : Contest κ} {a : Acquisition κ} {t u : Ticket} {lock : κ} {stage : Stage}

/-- The contest as it would be without an acquisition. -/
def without (c : Contest κ) (t : Ticket) : Contest κ :=
  c.filter (·.ticket != t)

/-- The acquisition does not own its lock. -/
def Bereft (c : Contest κ) (t : Ticket) : Prop :=
  ∀ a ∈ c, a.ticket = t → a.stage.owns = false

lemma of?_without (hne : u ≠ t) : (c.without t).of? u = c.of? u := by
  unfold without of?
  rw [List.find?_filter]
  congr 1
  funext a
  by_cases hsame : a.ticket = u
  · simp [hsame, hne]
  · simp [hsame]

lemma without_setStage : (c.setStage u stage).without t = (c.without t).setStage u stage := by
  unfold without setStage
  rw [List.filter_map]
  congr 1
  refine List.filter_congr fun a _ => ?_
  simp only [Function.comp_apply]
  split <;> rfl

lemma without_setStage_self : (c.setStage t stage).without t = c.without t :=
  without_setStage.trans (setStage_of_forall_ne fun _ ha => bne_iff_ne.1 (List.mem_filter.1 ha).2)

lemma without_toBack_self : (c.toBack { a with stage }).without a.ticket = c.without a.ticket := by
  unfold without toBack
  simp [List.filter_append, List.filter_filter]

lemma without_toBack (hne : a.ticket ≠ t) : (c.toBack a).without t = (c.without t).toBack a := by
  unfold without toBack
  rw [List.filter_append, List.filter_filter, List.filter_filter]
  simp [hne, Bool.and_comm]

lemma without_enter (hne : u ≠ t) :
    (c.enter lock u).without t = (c.without t).enter lock u := by
  unfold enter
  rw [of?_without hne]
  split
  · rfl
  · unfold without
    rw [List.filter_append, List.filter_cons_of_pos (by simpa using hne), List.filter_nil]

lemma without_enter_self : (c.enter lock t).without t = c.without t := by
  unfold enter
  split
  · rfl
  · unfold without
    rw [List.filter_append, List.filter_cons_of_neg (by simp), List.filter_nil, List.append_nil]

variable [DecidableEq κ]

lemma isTaken_without (h : c.Bereft t) : (c.without t).isTaken lock = c.isTaken lock := by
  unfold isTaken without
  rw [Bool.eq_iff_iff, List.any_eq_true, List.any_eq_true]
  constructor
  · rintro ⟨a, ha, hown⟩
    exact ⟨a, (List.mem_filter.1 ha).1, hown⟩
  · rintro ⟨a, ha, hown⟩
    refine ⟨a, List.mem_filter.2 ⟨ha, bne_iff_ne.2 fun hsame => ?_⟩, hown⟩
    rw [h a ha hsame, Bool.and_false] at hown
    cases hown

lemma without_passOn (h : (c.passOn lock).Bereft t) :
    (c.passOn lock).without t = (c.without t).passOn lock := by
  unfold passOn at h ⊢
  rcases hfound : c.find? fun a => a.lock = lock && a.stage == .waiting with _ | b
  · have hnone : ((c.without t).find? fun a => a.lock = lock && a.stage == .waiting) = none :=
      List.find?_eq_none.2 fun a ha =>
        List.find?_eq_none.1 hfound a (List.mem_filter.1 ha).1
    rw [hnone, hfound]
  · rw [hfound] at h
    -- Otherwise the acquisition that is left out would own the lock now.
    have hne : b.ticket ≠ t := by
      rintro rfl
      have howns := h _ (mem_setStage_self (List.mem_of_find?_eq_some hfound)) rfl
      cases howns
    have hsame : ((c.without t).find? fun a => a.lock = lock && a.stage == .waiting) = some b := by
      obtain ⟨hb, before, after, hsplit, hbefore⟩ := List.find?_eq_some_iff_append.1 hfound
      refine List.find?_eq_some_iff_append.2
        ⟨hb, without before t, without after t, ?_, fun a ha => ?_⟩
      · unfold without
        rw [hsplit, List.filter_append, List.filter_cons_of_pos (by simpa using hne)]
      · exact hbefore a (List.mem_filter.1 ha).1
    rw [hsame, hfound]
    exact without_setStage

lemma without_move (hne : u ≠ t) {m : Move} (hbefore : c.Bereft t)
    (hafter : (c.move u m).Bereft t) : (c.move u m).without t = (c.without t).move u m := by
  unfold move at hafter ⊢
  rw [of?_without hne]
  rcases hfound : c.of? u with _ | a
  · rfl
  obtain ⟨-, rfl⟩ := mem_of_of?_eq_some hfound
  rw [hfound] at hafter
  dsimp only at hafter ⊢
  rw [isTaken_without hbefore]
  rcases hstage : a.stage.after (c.isTaken a.lock) m with _ | stage
  · rfl
  rw [hstage] at hafter
  dsimp only at hafter ⊢
  split
  · exact without_toBack hne
  · rename_i hlooking
    rw [if_neg hlooking] at hafter
    split
    · rename_i hleft
      rw [if_pos hleft] at hafter
      rw [without_passOn hafter, without_setStage]
    · exact without_setStage

lemma without_move_self {m : Move} (h : c.Bereft t) : (c.move t m).without t = c.without t := by
  unfold move
  rcases hfound : c.of? t with _ | a
  · rfl
  obtain ⟨ha, rfl⟩ := mem_of_of?_eq_some hfound
  dsimp only
  rcases a.stage.after (c.isTaken a.lock) m with _ | stage
  · rfl
  dsimp only
  split
  · exact without_toBack_self
  · rw [h a ha rfl, Bool.false_and, if_neg Bool.false_ne_true]
    exact without_setStage_self

lemma without_next (event : Event κ) (hbefore : c.Bereft t) (hafter : (c.next event).Bereft t) :
    (c.next event).without t =
      if event.ticket = t then c.without t else (c.without t).next event := by
  split
  · rename_i hsame
    subst hsame
    cases event with
    | enter lock u => exact without_enter_self
    | move u m => exact without_move_self hbefore
  · rename_i hne
    cases event with
    | enter lock u => exact without_enter hne
    | move u m => exact without_move hne hbefore hafter

/-- If an acquisition never owned its lock, all others have gone as they would have without it. -/
theorem without_after (events : List (Event κ))
    (hnever : ∀ before, before <+: events → (c.after before).Bereft t) :
    (c.after events).without t = (c.without t).after (events.filter (·.ticket != t)) := by
  induction events generalizing c with
  | nil => rfl
  | cons event events ih =>
    have hbefore : c.Bereft t := hnever [] List.nil_prefix
    have hafter : (c.next event).Bereft t := hnever [event] (by simp)
    have hlater : ∀ before, before <+: events → ((c.next event).after before).Bereft t :=
      fun before hprefix => hnever (event :: before) (by simpa using hprefix)
    have hstep := without_next event hbefore hafter
    have hrest := ih hlater
    change ((c.next event).after events).without t = _
    rw [hrest, hstep, List.filter_cons]
    by_cases hsame : event.ticket = t
    · rw [if_pos hsame, if_neg (by simp [hsame])]
    · rw [if_neg hsame, if_pos (by simpa using hsame)]
      rfl

lemma line_without : (c.without t).line lock = (c.line lock).filter (·.ticket != t) := by
  unfold without line
  rw [List.filter_filter, List.filter_filter]
  simp [Bool.and_comm]

/-- What the others see where an acquisition that does not own its lock is left out. -/
lemma guards_without (h : c.Distinct) (hbereft : c.Bereft t) (lock : κ) :
    (c.without t).guards lock = c.guards lock ∧
      (c.without t).waiters lock = (c.waiters lock).erase t := by
  have hdistinct : (c.line lock).Distinct := h.line
  have hstays : t ∉ c.guards lock := by
    intro hmem
    obtain ⟨a, ha, hticket, -, hstage⟩ := mem_guards.1 hmem
    have hown := hbereft a ha hticket
    rw [hstage] at hown
    cases hown
  unfold guards at hstays ⊢
  unfold waiters
  rw [line_without, hdistinct.map_filter_erase, hdistinct.map_filter_erase,
    List.erase_of_not_mem hstays]
  exact ⟨rfl, rfl⟩

end TaskFlow.Lock.Contest

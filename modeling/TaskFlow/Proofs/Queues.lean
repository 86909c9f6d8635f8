import TaskFlow.Proofs.Contests

/-!
# Who gets a lock

A line grows at its end, and whoever leaves it does not come back, so nobody gets a lock before
those who stood in front.
-/

namespace TaskFlow.Lock.Contest

variable {κ : Type} {c : Contest κ} {a b : Acquisition κ} {t u : Ticket} {lock l : κ}
  {stage : Stage}

/-- An acquisition later on. Once it has tried its lock it does not look for it again. -/
structure Later (a b : Acquisition κ) : Prop where
  ticket : b.ticket = a.ticket
  lock : b.lock = a.lock
  tried : a.stage ≠ .looking → b.stage ≠ .looking

lemma Later.refl (a : Acquisition κ) : Later a a :=
  ⟨rfl, rfl, id⟩

lemma Later.trans {d : Acquisition κ} (h : Later a b) (h' : Later b d) : Later a d :=
  ⟨h'.ticket.trans h.ticket, h'.lock.trans h.lock, fun htried => h'.tried (h.tried htried)⟩

lemma exists_later_setStage (ha : a ∈ c) (hstage : stage ≠ .looking) :
    ∃ b ∈ c.setStage t stage, Later a b := by
  by_cases hsame : a.ticket = t
  · exact ⟨_, List.mem_map.2 ⟨a, ha, if_pos hsame⟩, rfl, rfl, fun _ => hstage⟩
  · exact ⟨a, List.mem_map.2 ⟨a, ha, if_neg hsame⟩, .refl a⟩

variable [DecidableEq κ]

lemma exists_later_passOn (ha : a ∈ c) (lock : κ) : ∃ b ∈ c.passOn lock, Later a b := by
  unfold passOn
  split
  · exact exists_later_setStage ha nofun
  · exact ⟨a, ha, .refl a⟩

lemma Distinct.exists_later_move (hd : c.Distinct) (ha : a ∈ c) (m : Move) :
    ∃ b ∈ c.move t m, Later a b := by
  rcases hd.move_cases t m with hmove | ⟨d, hd', stage, rfl, hafter, hmove⟩
  · rw [hmove]
    exact ⟨a, ha, .refl a⟩
  have hstage : stage ≠ .looking := by
    rintro rfl
    rcases Stage.after_cases hafter with ⟨-, hs⟩ | ⟨-, hs⟩ | ⟨-, hs⟩ | ⟨-, hs⟩
    · split at hs <;> cases hs
    · cases hs
    · cases hs
    · cases hs
  rw [hmove]
  split
  · by_cases hsame : a.ticket = d.ticket
    · obtain rfl := hd.eq_of_ticket_eq ha hd' hsame
      exact ⟨_, List.mem_append_right _ (List.mem_singleton_self _), rfl, rfl, fun _ => hstage⟩
    · exact ⟨a, List.mem_append_left _ (List.mem_filter.2 ⟨ha, by simpa using hsame⟩), .refl a⟩
  · obtain ⟨b, hb, hlater⟩ := exists_later_setStage (t := d.ticket) ha hstage
    split
    · obtain ⟨b', hb', hlater'⟩ := exists_later_passOn hb d.lock
      exact ⟨b', hb', hlater.trans hlater'⟩
    · exact ⟨b, hb, hlater⟩

/-- The acquisition has let go of its lock, or of its place in the line. -/
def Past (c : Contest κ) (t : Ticket) : Prop :=
  ∃ a ∈ c, a.ticket = t ∧ a.stage.isPast = true

def queue (c : Contest κ) (lock : κ) : List Ticket :=
  (c.line lock).map Acquisition.ticket

lemma Distinct.mem_move_of_ne (h : c.Distinct) (ha : a ∈ c) (hne : a.ticket ≠ t)
    (hstage : a.stage ≠ .waiting) (m : Move) : a ∈ c.move t m := by
  rcases h.move_cases t m with hmove | ⟨b, -, stage, rfl, -, hmove⟩
  · rwa [hmove]
  have hset : a ∈ c.setStage b.ticket stage := List.mem_map.2 ⟨a, ha, if_neg hne⟩
  rw [hmove]
  split
  · exact List.mem_append_left _ (List.mem_filter.2 ⟨ha, by simpa using hne⟩)
  · split
    · exact mem_passOn_of_ne_waiting h.setStage hset hstage
    · exact hset

lemma Fair.past_next (h : c.Fair) (hpast : c.Past t) (event : Event κ) :
    (c.next event).Past t := by
  obtain ⟨a, ha, rfl, hstage⟩ := hpast
  have hwaits : a.stage ≠ .waiting := by
    intro hwaiting
    rw [hwaiting] at hstage
    cases hstage
  cases event with
  | enter lock ticket =>
    refine ⟨a, ?_, rfl, hstage⟩
    change a ∈ c.enter lock ticket
    unfold enter
    split
    · exact ha
    · exact List.mem_append_left _ ha
  | move ticket m =>
    by_cases hne : a.ticket = ticket
    · subst hne
      rcases hafter : a.stage.after (c.isTaken a.lock) m with _ | stage
      · refine ⟨a, ?_, rfl, hstage⟩
        change a ∈ c.move a.ticket m
        rwa [h.distinct.move_eq_self ha hafter]
      · have hlater : stage.isPast = true := by
          rcases Stage.after_cases hafter with ⟨hs, -⟩ | ⟨hs, -⟩ | ⟨-, hs⟩ | ⟨-, hs⟩
          · rw [hs] at hstage
            cases hstage
          · rw [hs] at hstage
            cases hstage
          · exact hs
          · exact hs
        exact ⟨_, h.distinct.mem_move ha hafter (by rintro rfl; cases hlater), rfl, hlater⟩
    · exact ⟨a, h.distinct.mem_move_of_ne ha hne hwaits m, rfl, hstage⟩

lemma Fair.ahead_next (h : c.Fair) (hahead : [u, t].Sublist (c.queue lock)) (event : Event κ) :
    [u, t].Sublist ((c.next event).queue lock) ∨ (c.next event).Past u ∨ (c.next event).Past t := by
  unfold queue at hahead ⊢
  cases h.effect event with
  | idle lines =>
    rw [lines]
    exact .inl hahead
  | joins mem ticket looking lines =>
    rw [lines]
    split
    · rw [List.map_append]
      exact .inl (hahead.trans (List.sublist_append_left _ _))
    · exact .inl hahead
  | resumes mem ticket handed lines =>
    rw [lines, map_ticket_setStage]
    exact .inl hahead
  | leaves mem ticket inLine past lines =>
    by_cases hu : event.ticket = u
    · exact .inr (.inl (hu ▸ past))
    by_cases ht : event.ticket = t
    · exact .inr (.inr (ht ▸ past))
    left
    have hkept : [u, t].filter (· != event.ticket) = [u, t] :=
      List.filter_eq_self.2 (by simp [Ne.symm hu, Ne.symm ht])
    have hfiltered := hahead.filter (· != event.ticket)
    rw [hkept] at hfiltered
    rw [lines, map_ticket_promote]
    rwa [List.filter_map] at hfiltered

def after (c : Contest κ) (events : List (Event κ)) : Contest κ :=
  events.foldl Contest.next c

lemma Fair.after (h : c.Fair) (events : List (Event κ)) : (c.after events).Fair := by
  induction events generalizing c with
  | nil => exact h
  | cons event events ih => exact ih (h.next event)

lemma Fair.exists_later (h : c.Fair) (ha : a ∈ c) (events : List (Event κ)) :
    ∃ b ∈ c.after events, Later a b := by
  induction events generalizing c a with
  | nil => exact ⟨a, ha, .refl a⟩
  | cons event events ih =>
    have hnext : ∃ b ∈ c.next event, Later a b := by
      cases event with
      | enter lock t =>
        refine ⟨a, ?_, .refl a⟩
        change a ∈ c.enter lock t
        unfold enter
        split
        · exact ha
        · exact List.mem_append_left _ ha
      | move t m => exact h.distinct.exists_later_move ha m
    obtain ⟨b, hb, hlater⟩ := hnext
    obtain ⟨b', hb', hlater'⟩ := ih (h.next event) hb
    exact ⟨b', hb', hlater.trans hlater'⟩

lemma Fair.past_after (h : c.Fair) (hpast : c.Past t) (events : List (Event κ)) :
    (c.after events).Past t := by
  induction events generalizing c with
  | nil => exact hpast
  | cons event events ih => exact ih (h.next event) (h.past_next hpast event)

lemma Fair.ahead_after (h : c.Fair) (hahead : [u, t].Sublist (c.queue lock))
    (events : List (Event κ)) : [u, t].Sublist ((c.after events).queue lock) ∨
      (c.after events).Past u ∨ (c.after events).Past t := by
  induction events generalizing c with
  | nil => exact .inl hahead
  | cons event events ih =>
    rcases h.ahead_next hahead event with hstill | hu | ht
    · exact ih (h.next event) hstill
    · exact .inr (.inl ((h.next event).past_after hu events))
    · exact .inr (.inr ((h.next event).past_after ht events))

lemma Fair.not_ahead_of_owner (h : c.Fair) (ha : a ∈ c) (hown : a.stage.owns = true) :
    ¬ [u, a.ticket].Sublist (c.queue a.lock) := by
  obtain ⟨rest, hline, hnew, -⟩ := h.line_eq_cons ha hown
  unfold queue
  rw [hline, List.map_cons]
  intro hahead
  cases hahead with
  | cons _ hrest => exact hnew (hrest.subset (by simp))
  | cons_cons _ hrest => exact hnew (hrest.subset (by simp))

/-- Whoever gets a lock gets it after all that stood before it have let go. -/
theorem Fair.past_of_ahead (h : c.Fair) (hahead : [u, t].Sublist (c.queue lock))
    (events : List (Event κ)) (ha : a ∈ c.after events) (hticket : a.ticket = t)
    (hown : a.stage.owns = true) : (c.after events).Past u := by
  have hfair := h.after events
  rcases h.ahead_after hahead events with hstill | hu | ⟨b, hb, hsame, hpast⟩
  · have ht : t ∈ (c.after events).queue lock := hstill.subset (by simp)
    obtain ⟨b, hb, hsame⟩ := List.mem_map.1 ht
    obtain ⟨hb, hlock, -⟩ := mem_line.1 hb
    rw [hfair.distinct.eq_of_ticket_eq hb ha (hsame.trans hticket.symm)] at hlock
    rw [← hticket, ← hlock] at hstill
    exact absurd hstill (hfair.not_ahead_of_owner ha hown)
  · exact hu
  · rw [hfair.distinct.eq_of_ticket_eq hb ha (hsame.trans hticket.symm)] at hpast
    rw [Stage.not_owns_of_isPast hpast] at hown
    cases hown

def guards (c : Contest κ) (lock : κ) : List Ticket :=
  ((c.line lock).filter (·.stage == .guarding)).map Acquisition.ticket

/-- Those who wait for a lock, in their order. The first of them may have been handed it. -/
def waiters (c : Contest κ) (lock : κ) : List Ticket :=
  ((c.line lock).filter (·.stage != .guarding)).map Acquisition.ticket

lemma mem_guards : t ∈ c.guards lock ↔
    ∃ a ∈ c, a.ticket = t ∧ a.lock = lock ∧ a.stage = .guarding := by
  unfold guards
  simp only [List.mem_map, List.mem_filter, mem_line, beq_iff_eq]
  constructor
  · rintro ⟨a, ⟨⟨ha, hlock, -⟩, hstage⟩, hticket⟩
    exact ⟨a, ha, hticket, hlock, hstage⟩
  · rintro ⟨a, ha, hticket, hlock, hstage⟩
    exact ⟨a, ⟨⟨ha, hlock, by rw [hstage]; rfl⟩, hstage⟩, hticket⟩

lemma mem_waiters : t ∈ c.waiters lock ↔
    ∃ a ∈ c, a.ticket = t ∧ a.lock = lock ∧ (a.stage = .waiting ∨ a.stage = .handed) := by
  unfold waiters
  simp only [List.mem_map, List.mem_filter, mem_line, bne_iff_ne]
  constructor
  · rintro ⟨a, ⟨⟨ha, hlock, hin⟩, hstage⟩, hticket⟩
    refine ⟨a, ha, hticket, hlock, ?_⟩
    cases hs : a.stage <;> simp [hs, Stage.inLine] at hin hstage ⊢
  · rintro ⟨a, ha, hticket, hlock, hstage⟩
    refine ⟨a, ⟨⟨ha, hlock, ?_⟩, ?_⟩, hticket⟩
    · rcases hstage with hs | hs <;> rw [hs] <;> rfl
    · rcases hstage with hs | hs <;> rw [hs] <;> exact Stage.noConfusion

/-- A lock has one guard at most. -/
theorem Fair.guards_length_le (h : c.Fair) (lock : κ) : (c.guards lock).length ≤ 1 := by
  have hserved := h.served lock
  unfold guards
  rcases hline : c.line lock with _ | ⟨first, rest⟩
  · exact Nat.zero_le 1
  · rw [hline] at hserved
    have hnone : rest.filter (·.stage == .guarding) = [] := by
      refine List.filter_eq_nil_iff.2 fun a ha => ?_
      rw [(served_cons.1 hserved).2 a ha]
      decide
    rw [List.filter_cons, hnone]
    split <;> simp

lemma isTaken_iff_guards : c.isTaken lock = true ↔
    c.guards lock ≠ [] ∨ ∃ a ∈ c, a.lock = lock ∧ a.stage = .handed := by
  unfold isTaken
  simp only [List.any_eq_true, Bool.and_eq_true, decide_eq_true_eq]
  constructor
  · rintro ⟨a, ha, hlock, hown⟩
    cases hstage : a.stage with
    | guarding => exact .inl (List.ne_nil_of_mem (mem_guards.2 ⟨a, ha, rfl, hlock, hstage⟩))
    | handed => exact .inr ⟨a, ha, hlock, hstage⟩
    | _ =>
      rw [hstage] at hown
      cases hown
  · rintro (hsome | ⟨a, ha, hlock, hstage⟩)
    · obtain ⟨t, ht⟩ := List.exists_mem_of_ne_nil _ hsome
      obtain ⟨a, ha, -, hlock, hstage⟩ := mem_guards.1 ht
      exact ⟨a, ha, hlock, by rw [hstage]; rfl⟩
    · exact ⟨a, ha, hlock, by rw [hstage]; rfl⟩

lemma line_eq_nil (hguards : c.guards lock = []) (hwaiters : c.waiters lock = []) :
    c.line lock = [] := by
  refine List.eq_nil_iff_forall_not_mem.2 fun a ha => ?_
  by_cases hstage : a.stage = .guarding
  · have hmem : a.ticket ∈ c.guards lock :=
      List.mem_map_of_mem (List.mem_filter.2 ⟨ha, by simp [hstage]⟩)
    rw [hguards] at hmem
    cases hmem
  · have hmem : a.ticket ∈ c.waiters lock :=
      List.mem_map_of_mem (List.mem_filter.2 ⟨ha, by simp [hstage]⟩)
    rw [hwaiters] at hmem
    cases hmem

lemma Fair.line_move_withdraw (h : c.Fair) (ha : a ∈ c) {how : Parting}
    (hafter : a.stage.after (c.isTaken a.lock) (.withdraw how) = some (.parting how)) (lock : κ) :
    (c.move a.ticket (.withdraw how)).line lock =
      promote ((c.line lock).filter (·.ticket != a.ticket)) := by
  rw [h.distinct.move_eq ha hafter, if_neg]
  · exact h.line_withdraw ha rfl
  · intro hlooking
    rw [hlooking] at hafter
    cases how <;> cases hafter

/-- Whoever lets go of a lock or gives up its wait leaves all other guards and waiters as they
are. -/
lemma Fair.guards_withdraw (h : c.Fair) (ha : a ∈ c) {how : Parting}
    (hafter : a.stage.after (c.isTaken a.lock) (.withdraw how) = some (.parting how)) (lock : κ) :
    (c.move a.ticket (.withdraw how)).guards lock = (c.guards lock).erase a.ticket ∧
      (c.move a.ticket (.withdraw how)).waiters lock = (c.waiters lock).erase a.ticket := by
  have hdistinct : (c.line lock).Distinct := h.distinct.line
  unfold guards waiters
  rw [h.line_move_withdraw ha hafter, filter_guarding_promote, map_ticket_filter_promote]
  exact ⟨hdistinct.map_filter_erase _, hdistinct.map_filter_erase _⟩

lemma Fair.line_move_of_isPast (h : c.Fair) (ha : a ∈ c) (hpast : a.stage.isPast = true)
    (m : Move) (lock : κ) : (c.move a.ticket m).line lock = c.line lock := by
  cases h.effect_move a.ticket m with
  | idle lines => exact lines lock
  | joins mem hticket looking lines =>
    rw [h.distinct.eq_of_ticket_eq mem ha hticket] at looking
    rw [looking] at hpast
    cases hpast
  | resumes mem hticket handed lines =>
    rw [h.distinct.eq_of_ticket_eq mem ha hticket] at handed
    rw [handed] at hpast
    cases hpast
  | leaves mem hticket inLine past lines =>
    rw [h.distinct.eq_of_ticket_eq mem ha hticket, Stage.not_inLine_of_isPast hpast] at inLine
    cases inLine

lemma Fair.guards_eq_singleton (h : c.Fair) (ht : t ∈ c.guards lock) : c.guards lock = [t] := by
  have hone := h.guards_length_le lock
  rcases hguards : c.guards lock with _ | ⟨u, rest⟩
  · rw [hguards] at ht
    cases ht
  · rw [hguards] at ht hone
    have hrest : rest = [] := List.eq_nil_of_length_eq_zero (by simpa using hone)
    rw [hrest, List.mem_singleton] at ht
    rw [hrest, ht]

lemma Fair.queue_eq (h : c.Fair) (lock : κ) : c.queue lock = c.guards lock ++ c.waiters lock := by
  have hserved := h.served lock
  unfold queue guards waiters
  rcases hline : c.line lock with _ | ⟨first, rest⟩
  · rfl
  · rw [hline] at hserved
    obtain ⟨-, hothers⟩ := served_cons.1 hserved
    have hguards : rest.filter (·.stage == .guarding) = [] :=
      List.filter_eq_nil_iff.2 fun a ha => by simp [hothers a ha]
    have hwaiters : rest.filter (·.stage != .guarding) = rest :=
      List.filter_eq_self.2 fun a ha => by simp [hothers a ha]
    rw [List.filter_cons, List.filter_cons, hguards, hwaiters]
    by_cases hstage : first.stage = .guarding <;> simp [hstage]

lemma Fair.guards_move (h : c.Fair) (ha : a ∈ c) {m : Move}
    (hafter : a.stage.after (c.isTaken a.lock) m = some .guarding) :
    (c.move a.ticket m).guards a.lock = [a.ticket] := by
  refine Fair.guards_eq_singleton (h.next (.move a.ticket m)) ?_
  exact mem_guards.2 ⟨_, h.distinct.mem_move ha hafter nofun, rfl, rfl, rfl⟩

lemma Fair.not_mem_of_ahead (h : c.Fair) (hahead : [u, t].Sublist (c.guards lock ++ c.waiters lock))
    (events : List (Event κ)) (ha : a ∈ c.after events) (hticket : a.ticket = t)
    (hown : a.stage.owns = true) :
    u ∉ (c.after events).guards lock ∧ u ∉ (c.after events).waiters lock := by
  rw [← h.queue_eq] at hahead
  obtain ⟨b, hb, rfl, hpast⟩ := h.past_of_ahead hahead events ha hticket hown
  have hout : b.ticket ∉ (c.after events).queue lock := by
    intro hmem
    obtain ⟨b', hb', hsame⟩ := List.mem_map.1 hmem
    obtain ⟨hb', -, hin⟩ := mem_line.1 hb'
    rw [(h.after events).distinct.eq_of_ticket_eq hb' hb hsame,
      Stage.not_inLine_of_isPast hpast] at hin
    cases hin
  rw [(h.after events).queue_eq, List.mem_append, not_or] at hout
  exact hout

lemma not_mem_of_isPast (h : c.Distinct) (ha : a ∈ c) (hpast : a.stage.isPast = true) :
    a.ticket ∉ c.guards lock ∧ a.ticket ∉ c.waiters lock := by
  constructor
  · intro hmem
    obtain ⟨b, hb, hsame, -, hstage⟩ := mem_guards.1 hmem
    rw [← h.eq_of_ticket_eq hb ha hsame, hstage] at hpast
    cases hpast
  · intro hmem
    obtain ⟨b, hb, hsame, -, hstage⟩ := mem_waiters.1 hmem
    rw [← h.eq_of_ticket_eq hb ha hsame] at hpast
    rcases hstage with hs | hs <;> rw [hs] at hpast <;> cases hpast

end TaskFlow.Lock.Contest

import TaskFlow.Proofs.Registries

/-!
# Locks between the steps of acquisitions

When no acquisition is between two of its steps, the table of locks says all about a registry. An
acquisition that goes its way without a break does to the registry what it does to the table.
-/

namespace TaskFlow.Lock

namespace Contest

variable {κ : Type} {c : Contest κ} {a b : Acquisition κ} {t : Ticket} {lock l : κ}
  {how : Parting}

lemma mem_enter (hnew : c.of? t = none) : ⟨t, lock, .looking⟩ ∈ c.enter lock t := by
  unfold enter
  rw [hnew]
  exact List.mem_append_right _ (List.mem_singleton_self _)

variable [DecidableEq κ]

lemma Fair.isTaken_enter (h : c.Fair) : (c.enter l t).isTaken lock = c.isTaken lock := by
  have hentered : (c.enter l t).Fair := h.next (.enter l t)
  rw [Bool.eq_iff_iff, hentered.isTaken_iff, h.isTaken_iff, line_enter]

lemma Fair.line_attempt (h : c.Fair) (hnew : c.of? t = none) (lock l : κ) :
    ((c.enter lock t).move t .attempt).line l =
      if lock = l then
        c.line l ++ [⟨t, lock, if c.isTaken lock then .waiting else .guarding⟩]
      else c.line l := by
  have hentered : (c.enter lock t).Fair := h.next (.enter lock t)
  have hmem : ⟨t, lock, .looking⟩ ∈ c.enter lock t := mem_enter hnew
  have hmove := hentered.distinct.move_eq (m := .attempt) hmem rfl
  rw [if_pos rfl, h.isTaken_enter] at hmove
  have hin : (if c.isTaken lock then Stage.waiting else .guarding).inLine = true := by
    split <;> rfl
  have hline : (c.enter lock t).line l = c.line l := line_enter
  rw [hmove, ← hline]
  apply line_toBack (a := ⟨t, lock, .looking⟩) hin
  intro b hb hsame
  rw [hentered.distinct.eq_of_ticket_eq hb hmem hsame]
  rfl

lemma mem_passOn_cases (hb : b ∈ c.passOn lock) :
    ∃ a ∈ c, a.ticket = b.ticket ∧ (b = a ∨ b.stage = .handed) := by
  unfold passOn at hb
  split at hb
  · rcases mem_setStage hb with ⟨a, ha, -, rfl⟩ | hb
    · exact ⟨a, ha, rfl, .inr rfl⟩
    · exact ⟨b, hb, rfl, .inl rfl⟩
  · exact ⟨b, hb, rfl, .inl rfl⟩

lemma Distinct.mem_move_cases (hd : c.Distinct) {m : Move} (hb : b ∈ c.move t m)
    (hne : b.ticket ≠ t) : b ∈ c ∨ b.stage = .handed := by
  rcases hd.move_cases t m with hmove | ⟨a, -, stage, rfl, -, hmove⟩
  · rw [hmove] at hb
    exact .inl hb
  have hset {b : Acquisition κ} (hb : b ∈ c.setStage a.ticket stage) (hne : b.ticket ≠ a.ticket) :
      b ∈ c := by
    rcases mem_setStage hb with ⟨b', -, hsame, rfl⟩ | hb
    · exact absurd hsame hne
    · exact hb
  rw [hmove] at hb
  split at hb
  · rcases List.mem_append.1 hb with hb | hb
    · exact .inl (List.mem_filter.1 hb).1
    · rw [List.mem_singleton.1 hb] at hne
      exact absurd rfl hne
  · split at hb
    · obtain ⟨b', hb', hticket, rfl | hhanded⟩ := mem_passOn_cases hb
      · exact .inl (hset hb' hne)
      · exact .inr hhanded
    · exact .inl (hset hb hne)

lemma Fair.still_attempt (h : c.Fair) (hnew : c.of? t = none)
    (hstill : ∀ a ∈ c, a.stage.inLine = true ∨ a.stage = .gone) (lock : κ)
    (hb : b ∈ (c.enter lock t).move t .attempt) : b.stage.inLine = true ∨ b.stage = .gone := by
  have hfair : ((c.enter lock t).move t .attempt).Fair :=
    (h.next (.enter lock t)).next (.move t .attempt)
  have hline := (h.line_attempt hnew lock lock).trans (if_pos rfl)
  have hlast : ⟨t, lock, if c.isTaken lock then .waiting else .guarding⟩ ∈
      ((c.enter lock t).move t .attempt).line lock := by
    rw [hline]
    exact List.mem_append_right _ (List.mem_singleton_self _)
  obtain ⟨hmem, -, hin⟩ := mem_line.1 hlast
  by_cases hsame : b.ticket = t
  · left
    rwa [hfair.distinct.eq_of_ticket_eq hb hmem hsame]
  · rcases (h.next (.enter lock t)).distinct.mem_move_cases hb hsame with hb | hhanded
    · change b ∈ c.enter lock t at hb
      unfold enter at hb
      rw [hnew] at hb
      rcases List.mem_append.1 hb with hb | hb
      · exact hstill b hb
      · rw [List.mem_singleton.1 hb] at hsame
        exact absurd rfl hsame
    · rw [hhanded]
      exact .inl rfl

lemma Fair.finish (h : c.Fair) (ha : a ∈ c)
    (hafter : a.stage.after (c.isTaken a.lock) (.withdraw how) = some (.parting how))
    (hhow : how ≠ .abandoned) :
    let c' := (c.move a.ticket (.withdraw how)).move a.ticket .drop
    { a with stage := .leaving how } ∈ c' ∧ { a with stage := .gone } ∈ c'.move a.ticket .sweep ∧
      ∀ l, (c'.move a.ticket .sweep).line l =
        promote ((c.line l).filter (·.ticket != a.ticket)) := by
  have hparted : (c.move a.ticket (.withdraw how)).Fair := h.next (.move _ _)
  have hleft : ((c.move a.ticket (.withdraw how)).move a.ticket .drop).Fair :=
    hparted.next (.move _ _)
  have hparting : { a with stage := .parting how } ∈ c.move a.ticket (.withdraw how) :=
    h.distinct.mem_move ha hafter Stage.noConfusion
  have hleaving : { a with stage := .leaving how } ∈
      (c.move a.ticket (.withdraw how)).move a.ticket .drop := by
    apply hparted.distinct.mem_move hparting _ Stage.noConfusion
    cases how with
    | abandoned => exact absurd rfl hhow
    | _ => rfl
  refine ⟨hleaving, hleft.distinct.mem_move hleaving rfl Stage.noConfusion, fun l => ?_⟩
  rw [hleft.line_move_of_isPast hleaving rfl, hparted.line_move_of_isPast hparting rfl,
    h.line_move_withdraw ha hafter]

end Contest

namespace Registry

variable {r r' : Registry} {lock : LockId} {x : Ident} {t : Ticket} {a : Acquisition LockId}
  {rest : Contest LockId} {how : Parting}

lemma slot_eq_of_nil (h : r.contest.line lock = []) :
    r.slot lock = { entity := lock.entity, hold := .free } := by
  unfold slot
  rw [h]

lemma slot_eq_of_cons (h : r.contest.line lock = a :: rest) : r.slot lock =
    { entity := lock.entity
      hold := if a.stage = .guarding then .guarded a.ticket else .handed a.ticket
      waiting := rest.map Acquisition.ticket } := by
  unfold slot
  rw [h]

lemma slot_congr (h : r'.contest.line lock = r.contest.line lock) : r'.slot lock = r.slot lock := by
  unfold slot
  rw [h]

@[simp]
lemma entity_slot : (r.slot lock).entity = lock.entity := by
  unfold slot
  split <;> rfl

lemma hold_slot_iff : (r.slot lock).hold = .free ↔ r.contest.line lock = [] := by
  rcases hline : r.contest.line lock with _ | ⟨a, rest⟩
  · rw [slot_eq_of_nil hline]
    simp
  · rw [slot_eq_of_cons hline]
    by_cases hstage : a.stage = .guarding <;> simp [hstage]

lemma isIdle_slot : (r.slot lock).isIdle = true ↔ r.contest.line lock = [] := by
  unfold Slot.isIdle
  rw [Bool.and_eq_true, beq_iff_eq, hold_slot_iff]
  refine and_iff_left_of_imp fun hline => ?_
  rw [slot_eq_of_nil hline]
  rfl

lemma slot?_table (x : Ident) : r.table.slot? x = (r.entry? x).map r.slot := by
  unfold Table.slot? table entry?
  rw [List.find?_map]
  congr 2
  funext l
  simp

/-- No acquisition is between two of its steps. -/
structure Quiet (r : Registry) : Prop where
  sound : r.Sound
  fair : r.contest.Fair
  still : ∀ a ∈ r.contest, a.stage.inLine = true ∨ a.stage = .gone

lemma quiet_empty (timeout : Nat) : Quiet { timeoutMillis := timeout } :=
  ⟨sound_empty timeout, Contest.fair_nil, nofun⟩

lemma Quiet.handles_eq_zero_iff (h : r.Quiet) :
    r.contest.handles lock = 0 ↔ r.contest.line lock = [] := by
  unfold Contest.handles Contest.line
  rw [List.countP_eq_zero, List.filter_eq_nil_iff]
  refine forall₂_congr fun a ha => ?_
  rcases h.still a ha with hin | hgone
  · have hhandle : a.stage.hasHandle = true := by
      cases hs : a.stage <;> rw [hs] at hin <;> first | rfl | cases hin
    rw [hin, hhandle]
  · rw [hgone]
    rfl

lemma Quiet.isLocked_table (h : r.Quiet) (x : Ident) : r.table.isLocked x = r.isLocked x := by
  unfold Table.isLocked Registry.isLocked
  rw [slot?_table]
  cases r.entry? x with
  | none => rfl
  | some lock =>
    rw [Option.map_some, Option.any_some, Option.any_some, Bool.eq_iff_iff, bne_iff_ne,
      h.fair.isTaken_iff]
    exact not_congr hold_slot_iff

lemma tracked_table (r : Registry) : r.table.tracked = r.tracked :=
  List.length_map _

lemma Sound.modify_table (h : r.Sound) (hlock : lock ∈ r.entries) {f : Slot → Slot}
    (hslot : r'.slot lock = f (r.slot lock))
    (hothers : ∀ l, lock ≠ l → r'.contest.line l = r.contest.line l) :
    r.table.modify lock.entity f = ⟨r.entries.map r'.slot⟩ := by
  unfold Table.modify table
  rw [List.map_map]
  congr 1
  refine List.map_congr_left fun l hl => ?_
  rw [Function.comp_apply, entity_slot]
  split
  · rename_i hsame
    rw [List.inj_on_of_nodup_map h.single hl hlock hsame, hslot]
  · rename_i hne
    refine (slot_congr (hothers l ?_)).symm
    rintro rfl
    exact hne rfl

lemma Sound.line_eq_nil (h : r.Sound) (hlock : lock ∉ r.entries) : r.contest.line lock = [] := by
  refine List.eq_nil_iff_forall_not_mem.2 fun a ha => hlock ?_
  obtain ⟨ha, hsame, hin⟩ := Contest.mem_line.1 ha
  exact h.kept lock ⟨a, ha, hsame, Stage.hasHandle_of_inLine hin⟩

lemma isSome_reply?_attempt (hfair : r.contest.Fair) (hnew : r.contest.of? t = none)
    (hentered : r'.contest = r.contest.enter lock t) :
    (r'.reply? t .attempt).isSome = !r.contest.isTaken lock := by
  have hmem : ⟨t, lock, .looking⟩ ∈ r.contest.enter lock t := Contest.mem_enter hnew
  have hdistinct : (r.contest.enter lock t).Distinct := hfair.distinct.enter
  have hfound : (r.contest.enter lock t).of? t = some ⟨t, lock, .looking⟩ :=
    hdistinct.of?_eq_some hmem
  unfold reply?
  rw [hentered, hfound, Option.bind_some]
  dsimp only
  rw [hfair.isTaken_enter]
  cases r.contest.isTaken lock <;> rfl

lemma acquire_kept (hfair : r.contest.Fair) (hnew : r.contest.of? t = none)
    (hentry : r.entry? x = some lock) : r.acquire x t =
      (!r.contest.isTaken lock,
        { r with contest := (r.contest.enter lock t).move t .attempt }) := by
  have hentered : r.enter x t = { r with contest := r.contest.enter lock t } := by
    unfold enter
    rw [hnew, hentry]
    rfl
  unfold acquire
  rw [hentered]
  exact Prod.ext (isSome_reply?_attempt hfair hnew rfl) rfl

lemma acquire_made (hfair : r.contest.Fair) (hnew : r.contest.of? t = none)
    (hentry : r.entry? x = none) : r.acquire x t =
      (!r.contest.isTaken ⟨x, r.made⟩,
        { r with
          entries := r.entries ++ [⟨x, r.made⟩]
          made := r.made + 1
          contest := (r.contest.enter ⟨x, r.made⟩ t).move t .attempt }) := by
  have hentered : r.enter x t =
      { r with
        entries := r.entries ++ [⟨x, r.made⟩]
        made := r.made + 1
        contest := r.contest.enter ⟨x, r.made⟩ t } := by
    unfold enter
    rw [hnew, hentry]
    rfl
  unfold acquire
  rw [hentered]
  exact Prod.ext (isSome_reply?_attempt hfair hnew rfl) rfl

/-- Whoever asks for a lock without a break gets it, or waits for it, as the table says. -/
theorem Quiet.table_acquire (h : r.Quiet) (hnew : r.contest.of? t = none) (x : Ident) :
    r.table.acquire x t = ((r.acquire x t).1, (r.acquire x t).2.table) := by
  rcases hentry : r.entry? x with _ | lock
  · have hnot : (⟨x, r.made⟩ : LockId) ∉ r.entries := by
      intro hmem
      have hne := List.find?_eq_none.1 hentry _ hmem
      simp at hne
    have hnil := h.sound.line_eq_nil hnot
    have hfree : r.contest.isTaken ⟨x, r.made⟩ = false := h.fair.isTaken_eq_false hnil
    have hline := h.fair.line_attempt hnew ⟨x, r.made⟩
    rw [acquire_made h.fair hnew hentry]
    rw [hfree] at hline ⊢
    unfold Table.acquire
    rw [slot?_table, hentry]
    refine Prod.ext rfl (congrArg Table.mk ?_)
    rw [List.map_append, List.map_singleton]
    congr 1
    · refine List.map_congr_left fun l hl => (slot_congr ?_).symm
      refine (hline l).trans (if_neg ?_)
      rintro rfl
      exact hnot hl
    · rw [slot_eq_of_cons ((hline _).trans (by rw [if_pos rfl, hnil]; rfl))]
      rfl
  · obtain ⟨hmem, rfl⟩ := mem_of_entry?_eq_some hentry
    have hline := h.fair.line_attempt hnew lock
    have hothers (l : LockId) (hne : lock ≠ l) := (hline l).trans (if_neg hne)
    have hself := (hline lock).trans (if_pos rfl)
    rw [acquire_kept h.fair hnew hentry]
    unfold Table.acquire
    rw [slot?_table, hentry]
    dsimp only [Option.map_some]
    by_cases hfree : r.contest.line lock = []
    · have htaken : r.contest.isTaken lock = false := h.fair.isTaken_eq_false hfree
      rw [if_pos (hold_slot_iff.2 hfree), htaken]
      rw [hfree, htaken] at hself
      refine Prod.ext rfl (h.sound.modify_table hmem ?_ hothers)
      rw [slot_eq_of_cons hself, slot_eq_of_nil hfree]
      rfl
    · have htaken : r.contest.isTaken lock = true := h.fair.isTaken_iff.2 hfree
      rw [if_neg (mt hold_slot_iff.1 hfree), htaken]
      rw [htaken] at hself
      refine Prod.ext rfl (h.sound.modify_table hmem ?_ hothers)
      obtain ⟨first, rest, hcons⟩ := List.exists_cons_of_ne_nil hfree
      rw [hcons, List.cons_append] at hself
      rw [slot_eq_of_cons hself, slot_eq_of_cons hcons]
      simp

lemma Quiet.acquire (h : r.Quiet) (hnew : r.contest.of? t = none) (x : Ident) :
    (r.acquire x t).2.Quiet := by
  have hentered : (r.enter x t).Sound := h.sound.enter
  have hsound : ((r.enter x t).move t .attempt).Sound := hentered.move
  have hcontest : ∃ lock,
      (r.acquire x t).2.contest = (r.contest.enter lock t).move t .attempt := by
    rcases hentry : r.entry? x with _ | lock
    · rw [acquire_made h.fair hnew hentry]
      exact ⟨_, rfl⟩
    · rw [acquire_kept h.fair hnew hentry]
      exact ⟨lock, rfl⟩
  obtain ⟨lock, hcontest⟩ := hcontest
  refine ⟨hsound, ?_, ?_⟩
  · rw [hcontest]
    exact (h.fair.next (.enter lock t)).next (.move t .attempt)
  · intro b hb
    rw [hcontest] at hb
    exact h.fair.still_attempt hnew h.still lock hb

lemma finish_eq (h : r.contest.Fair) (ha : a ∈ r.contest)
    (hafter : a.stage.after (r.contest.isTaken a.lock) (.withdraw how) = some (.parting how))
    (hhow : how ≠ .abandoned) :
    r.finish a.ticket how = dropIdle
      { r with
        contest := ((r.contest.move a.ticket (.withdraw how)).move a.ticket .drop).move
          a.ticket .sweep } a.lock.entity := by
  obtain ⟨hleaving, -, -⟩ := h.finish ha hafter hhow
  have hleft : ((r.contest.move a.ticket (.withdraw how)).move a.ticket .drop).Fair :=
    (h.next (.move _ _)).next (.move _ _)
  have hfound := hleft.distinct.of?_eq_some hleaving
  let left : Registry :=
    { r with contest := (r.contest.move a.ticket (.withdraw how)).move a.ticket .drop }
  have hswept : left.swept? a.ticket .sweep = some a.lock := by
    unfold swept?
    exact congrArg (Option.bind · _) hfound
  change left.move a.ticket .sweep = _
  unfold Registry.move
  rw [hswept]

lemma line_finish (h : r.contest.Fair) (ha : a ∈ r.contest)
    (hafter : a.stage.after (r.contest.isTaken a.lock) (.withdraw how) = some (.parting how))
    (hhow : how ≠ .abandoned) (l : LockId) : (r.finish a.ticket how).contest.line l =
      Contest.promote ((r.contest.line l).filter (·.ticket != a.ticket)) := by
  obtain ⟨-, -, hlines⟩ := h.finish ha hafter hhow
  rw [finish_eq h ha hafter hhow]
  exact hlines l

lemma Quiet.finish (h : r.Quiet) (ha : a ∈ r.contest)
    (hafter : a.stage.after (r.contest.isTaken a.lock) (.withdraw how) = some (.parting how))
    (hhow : how ≠ .abandoned) : (r.finish a.ticket how).Quiet := by
  obtain ⟨-, hgone, -⟩ := h.fair.finish ha hafter hhow
  have hsound : (r.finish a.ticket how).Sound := h.sound.move.move.move
  have hparted : (r.contest.move a.ticket (.withdraw how)).Fair := h.fair.next (.move _ _)
  have hleft : ((r.contest.move a.ticket (.withdraw how)).move a.ticket .drop).Fair :=
    hparted.next (.move _ _)
  have hfair : (((r.contest.move a.ticket (.withdraw how)).move a.ticket .drop).move
    a.ticket .sweep).Fair := hleft.next (.move _ _)
  rw [finish_eq h.fair ha hafter hhow] at hsound ⊢
  refine ⟨hsound, hfair, fun b hb => ?_⟩
  change b ∈ Contest.move _ _ _ at hb
  by_cases hsame : b.ticket = a.ticket
  · rw [hfair.distinct.eq_of_ticket_eq hb hgone hsame]
    exact .inr rfl
  have hhanded : b.stage = .handed → b.stage.inLine = true ∨ b.stage = .gone := by
    intro hstage
    rw [hstage]
    exact .inl rfl
  rcases hleft.distinct.mem_move_cases hb hsame with hb | hb
  · rcases hparted.distinct.mem_move_cases hb hsame with hb | hb
    · rcases h.fair.distinct.mem_move_cases hb hsame with hb | hb
      · exact h.still b hb
      · exact hhanded hb
    · exact hhanded hb
  · exact hhanded hb

lemma Quiet.table_finish (h : r.Quiet) (ha : a ∈ r.contest)
    (hafter : a.stage.after (r.contest.isTaken a.lock) (.withdraw how) = some (.parting how))
    (hhow : how ≠ .abandoned) {f : Slot → Slot}
    (hslot : (r.finish a.ticket how).slot a.lock = f (r.slot a.lock))
    (hin : a.stage.inLine = true) :
    (r.table.modify a.lock.entity f).sweep a.lock.entity = (r.finish a.ticket how).table := by
  have hquiet := h.finish ha hafter hhow
  have hmem : a.lock ∈ r.entries := h.sound.kept _ ⟨a, ha, rfl, Stage.hasHandle_of_inLine hin⟩
  have hothers : ∀ l, a.lock ≠ l →
      (r.finish a.ticket how).contest.line l = r.contest.line l := by
    intro l hne
    rw [line_finish h.fair ha hafter hhow, Contest.filter_line_of_ne h.fair.distinct ha hne,
      (h.fair.served l).promote_eq]
  rw [h.sound.modify_table hmem hslot hothers]
  unfold Table.sweep table
  rw [List.filter_map]
  have hentries : (r.finish a.ticket how).entries = r.entries.filter fun l =>
      !(l.entity == a.lock.entity && (r.finish a.ticket how).contest.handles l == 0) := by
    rw [finish_eq h.fair ha hafter hhow]
    rfl
  rw [hentries]
  congr 2
  refine List.filter_congr fun l _ => ?_
  have hidle : ((r.finish a.ticket how).slot l).isIdle =
      ((r.finish a.ticket how).contest.handles l == 0) := by
    rw [Bool.eq_iff_iff, isIdle_slot, beq_iff_eq, hquiet.handles_eq_zero_iff]
  rw [Function.comp_apply, entity_slot, hidle]

/-- A guard that is dropped without a break lets go of its lock as the table says. -/
theorem Quiet.table_release (h : r.Quiet) (hguards : ⟨t, lock, .guarding⟩ ∈ r.contest) :
    r.table.release lock.entity t = (r.finish t .dropped).table := by
  obtain ⟨rest, hline, hnew, hothers⟩ := h.fair.line_eq_cons hguards rfl
  have hafter : Stage.guarding.after (r.contest.isTaken lock) (.withdraw .dropped) =
      some (.parting .dropped) := rfl
  have hpassed := line_finish h.fair hguards hafter nofun lock
  dsimp only at hline hpassed
  rw [hline, List.filter_cons_of_neg (by simp), Contest.filter_of_not_mem hnew] at hpassed
  unfold Table.release
  refine h.table_finish hguards hafter nofun ?_ rfl
  rw [slot_eq_of_cons hline]
  dsimp only
  rw [if_pos rfl, if_pos rfl]
  cases rest with
  | nil => exact slot_eq_of_nil hpassed
  | cons first rest =>
    rw [Contest.promote, if_pos (hothers first List.mem_cons_self)] at hpassed
    exact slot_eq_of_cons hpassed

/-- A wait that ends in vain without a break leaves the queue as the table says. -/
theorem Quiet.table_expire (h : r.Quiet) (hwaits : ⟨t, lock, .waiting⟩ ∈ r.contest) :
    r.table.expire lock.entity t = (r.finish t .expired).table := by
  have hin : ⟨t, lock, .waiting⟩ ∈ r.contest.line lock := Contest.mem_line.2 ⟨hwaits, rfl, rfl⟩
  have hserved := h.fair.served lock
  have hdistinct : (r.contest.line lock).Distinct := h.fair.distinct.line
  obtain ⟨first, rest, hline⟩ := List.exists_cons_of_ne_nil (List.ne_nil_of_mem hin)
  rw [hline] at hserved hdistinct
  obtain ⟨hown, -⟩ := Contest.served_cons.1 hserved
  have hfirst : first.ticket ≠ t := by
    intro hsame
    have hmem : first ∈ r.contest := (Contest.mem_line.1 (hline ▸ List.mem_cons_self)).1
    rw [h.fair.distinct.eq_of_ticket_eq hmem hwaits hsame] at hown
    cases hown
  have hafter : Stage.waiting.after (r.contest.isTaken lock) (.withdraw .expired) =
      some (.parting .expired) := rfl
  have hleft := line_finish h.fair hwaits hafter nofun lock
  dsimp only at hleft
  have hstill : Contest.Served (first :: rest.filter (·.ticket != t)) :=
    Contest.served_cons.2 ⟨hown, fun b hb => hserved.others b (List.mem_filter.1 hb).1⟩
  rw [hline, List.filter_cons_of_pos (by simpa using hfirst), hstill.promote_eq] at hleft
  unfold Table.expire
  refine h.table_finish hwaits hafter nofun ?_ rfl
  have hnodup : (rest.map Acquisition.ticket).Nodup := (List.nodup_cons.1 hdistinct).2
  rw [slot_eq_of_cons hleft, slot_eq_of_cons hline, hnodup.erase_eq_filter, List.filter_map]
  rfl

/-- A registry and a table that have come the same way, without a break in any operation. -/
inductive Abreast : Registry → Table → Prop
  | start (timeout : Nat) : Abreast { timeoutMillis := timeout } {}
  | acquire {r : Registry} {table : Table} {t : Ticket} (before : Abreast r table)
      (new : r.contest.of? t = none) (x : Ident) :
      Abreast (r.acquire x t).2 (table.acquire x t).2
  | release {r : Registry} {table : Table} {lock : LockId} {t : Ticket} (before : Abreast r table)
      (guards : ⟨t, lock, .guarding⟩ ∈ r.contest) :
      Abreast (r.finish t .dropped) (table.release lock.entity t)
  | expire {r : Registry} {table : Table} {lock : LockId} {t : Ticket} (before : Abreast r table)
      (waits : ⟨t, lock, .waiting⟩ ∈ r.contest) :
      Abreast (r.finish t .expired) (table.expire lock.entity t)

/-- As long as no operation has a break, the table is all that one needs to know. -/
theorem Abreast.quiet {table : Table} (h : Abreast r table) : r.Quiet ∧ r.table = table := by
  induction h with
  | start timeout => exact ⟨quiet_empty timeout, rfl⟩
  | acquire before new x ih =>
    obtain ⟨hquiet, rfl⟩ := ih
    refine ⟨hquiet.acquire new x, ?_⟩
    rw [hquiet.table_acquire new x]
  | release before guards ih =>
    obtain ⟨hquiet, rfl⟩ := ih
    exact ⟨hquiet.finish guards rfl nofun, (hquiet.table_release guards).symm⟩
  | expire before waits ih =>
    obtain ⟨hquiet, rfl⟩ := ih
    exact ⟨hquiet.finish waits rfl nofun, (hquiet.table_expire waits).symm⟩

/-- The table and the registry agree on which locks are somebody's, and on the number of locks. -/
theorem Abreast.isLocked_eq {table : Table} (h : Abreast r table) :
    (∀ x, table.isLocked x = r.isLocked x) ∧ table.tracked = r.tracked := by
  obtain ⟨hquiet, rfl⟩ := h.quiet
  exact ⟨hquiet.isLocked_table, tracked_table r⟩

end Registry

end TaskFlow.Lock

import TaskFlow.Lock.Registry
import TaskFlow.Proofs.Queues
import Mathlib.Data.List.Find

/-!
# One lock for each entity

The lock of an entity is dropped when it is idle and made again when it is asked for, so in the
course of time there are many locks for one entity. But only the one that is kept has handles on it.
So the acquisitions compete for the entities themselves, as if each had one lock for good.
-/

namespace TaskFlow.Lock

/-- The acquisition in which the lock goes by another name. -/
def Acquisition.relabel {κ μ : Type} (f : κ → μ) (a : Acquisition κ) : Acquisition μ :=
  { ticket := a.ticket, lock := f a.lock, stage := a.stage }

namespace Contest

variable {κ μ : Type} {f : κ → μ} {c : Contest κ} {a : Acquisition κ} {t : Ticket} {lock : κ}
  {stage : Stage}

lemma mem_setStage {b : Acquisition κ} (h : b ∈ c.setStage t stage) :
    (∃ a ∈ c, a.ticket = t ∧ b = { a with stage }) ∨ b ∈ c := by
  obtain ⟨a, ha, rfl⟩ := List.mem_map.1 h
  by_cases hsame : a.ticket = t
  · rw [if_pos hsame]
    exact .inl ⟨a, ha, hsame, rfl⟩
  · rw [if_neg hsame]
    exact .inr ha

/-- The contest in which the locks go by other names. -/
def relabel (f : κ → μ) (c : Contest κ) : Contest μ :=
  c.map (·.relabel f)

lemma mem_relabel {b : Acquisition μ} :
    b ∈ c.relabel f ↔ ∃ a ∈ c, a.ticket = b.ticket ∧ f a.lock = b.lock ∧ a.stage = b.stage := by
  unfold relabel
  rw [List.mem_map]
  constructor
  · rintro ⟨a, ha, rfl⟩
    exact ⟨a, ha, rfl, rfl, rfl⟩
  · rintro ⟨a, ha, hticket, hlock, hstage⟩
    exact ⟨a, ha, by cases b; simp_all [Acquisition.relabel]⟩

lemma of?_relabel : (c.relabel f).of? t = (c.of? t).map (·.relabel f) :=
  List.find?_map

lemma setStage_relabel : (c.relabel f).setStage t stage = (c.setStage t stage).relabel f := by
  unfold relabel setStage
  rw [List.map_map, List.map_map]
  refine List.map_congr_left fun a _ => ?_
  by_cases hsame : a.ticket = t
  · simp [hsame, Acquisition.relabel]
  · simp [hsame, Acquisition.relabel]

lemma toBack_relabel :
    (c.relabel f).toBack { a.relabel f with stage } = (c.toBack { a with stage }).relabel f := by
  unfold relabel toBack
  rw [List.filter_map, List.map_append]
  rfl

lemma enter_relabel : (c.relabel f).enter (f lock) t = (c.enter lock t).relabel f := by
  unfold enter
  rw [of?_relabel, Option.isSome_map]
  split
  · rfl
  · unfold relabel
    rw [List.map_append]
    rfl

/-- Different locks on which there are handles have different names. -/
def Named (f : κ → μ) (c : Contest κ) : Prop :=
  ∀ a ∈ c, ∀ b ∈ c, a.stage.hasHandle = true → b.stage.hasHandle = true →
    f a.lock = f b.lock → a.lock = b.lock

/-- Somebody has a handle on the lock. -/
def Held (c : Contest κ) (lock : κ) : Prop :=
  ∃ a ∈ c, a.lock = lock ∧ a.stage.hasHandle = true

lemma Distinct.held_of_setStage (hd : c.Distinct) (ha : a ∈ c)
    (hstage : stage.hasHandle = true → a.stage.hasHandle = true)
    (h : (c.setStage a.ticket stage).Held lock) : c.Held lock := by
  obtain ⟨b, hb, hlock, hhandle⟩ := h
  rcases mem_setStage hb with ⟨b', hb', hsame, rfl⟩ | hb
  · rw [hd.eq_of_ticket_eq hb' ha hsame] at hlock
    exact ⟨a, ha, hlock, hstage hhandle⟩
  · exact ⟨b, hb, hlock, hhandle⟩

variable [DecidableEq κ] [DecidableEq μ]

lemma isTaken_relabel (h : Named f c) (ha : a ∈ c) (hhandle : a.stage.hasHandle = true) :
    (c.relabel f).isTaken (f a.lock) = c.isTaken a.lock := by
  unfold isTaken relabel
  rw [List.any_map, Bool.eq_iff_iff, List.any_eq_true, List.any_eq_true]
  refine exists_congr fun b => and_congr_right fun hb => ?_
  simp only [Function.comp_apply, Acquisition.relabel, Bool.and_eq_true, decide_eq_true_eq]
  refine and_congr_left fun hown => ⟨fun hname => ?_, fun hsame => by rw [hsame]⟩
  exact h b hb a ha (Stage.hasHandle_of_owns hown) hhandle hname

lemma passOn_relabel (h : ∀ b ∈ c, b.stage = .waiting → f b.lock = f lock → b.lock = lock) :
    (c.relabel f).passOn (f lock) = (c.passOn lock).relabel f := by
  have hfirst : ((c.relabel f).find? fun b => b.lock = f lock && b.stage == .waiting) =
      (c.find? fun b => b.lock = lock && b.stage == .waiting).map (·.relabel f) := by
    unfold relabel
    rw [List.find?_map]
    congr 1
    refine List.find?_congr fun b hb => ?_
    rw [Bool.eq_iff_iff]
    simp only [Function.comp_apply, Acquisition.relabel, Bool.and_eq_true, decide_eq_true_eq,
      beq_iff_eq]
    exact and_congr_left fun hwaits => ⟨h b hb hwaits, fun hsame => by rw [hsame]⟩
  unfold passOn
  rw [hfirst]
  cases c.find? fun b => b.lock = lock && b.stage == .waiting with
  | none => rfl
  | some b => exact setStage_relabel

lemma move_relabel (h : Named f c) (m : Move) :
    (c.relabel f).move t m = (c.move t m).relabel f := by
  unfold move
  rw [of?_relabel]
  rcases hfound : c.of? t with _ | a
  · rfl
  obtain ⟨ha, rfl⟩ := mem_of_of?_eq_some hfound
  rw [Option.map_some]
  dsimp only [Acquisition.relabel]
  have hafter : a.stage.after ((c.relabel f).isTaken (f a.lock)) m =
      a.stage.after (c.isTaken a.lock) m := by
    by_cases hlooking : a.stage = .looking
    · rw [isTaken_relabel h ha (by rw [hlooking]; rfl)]
    · exact Stage.after_eq_after hlooking _ _ m
  rw [hafter]
  rcases hstage : a.stage.after (c.isTaken a.lock) m with _ | stage
  · rfl
  dsimp only
  split
  · exact toBack_relabel
  rw [setStage_relabel]
  split
  · rename_i hlooking hleft
    obtain ⟨hown, -⟩ := Bool.and_eq_true_iff.1 hleft
    -- Whoever waits has a handle, and so had the owner: their locks have different names.
    refine passOn_relabel fun b hb hwaits hname => ?_
    rcases mem_setStage hb with ⟨b', -, -, rfl⟩ | hb
    · rcases Stage.after_cases hstage with ⟨hs, -⟩ | ⟨-, hs⟩ | ⟨-, hs⟩ | ⟨-, hs⟩
      · exact absurd hs hlooking
      · rw [hs] at hwaits
        cases hwaits
      · rw [show stage = .waiting from hwaits] at hs
        cases hs
      · rw [show stage = .waiting from hwaits] at hs
        cases hs
    · exact h b hb a ha (by rw [hwaits]; rfl) (Stage.hasHandle_of_owns hown) hname
  · rfl

lemma held_iff : c.Held lock ↔ c.handles lock ≠ 0 := by
  unfold handles Held
  rw [← Nat.pos_iff_ne_zero, List.countP_pos_iff]
  simp

lemma Distinct.held_of_passOn {l : κ} (hd : c.Distinct) (h : (c.passOn l).Held lock) :
    c.Held lock := by
  unfold Contest.passOn at h
  split at h
  · rename_i b hfound
    have hfirst := List.find?_some hfound
    have hwaits : b.stage = .waiting := eq_of_beq (Bool.and_eq_true_iff.1 hfirst).2
    refine hd.held_of_setStage (List.mem_of_find?_eq_some hfound) (fun _ => ?_) h
    rw [hwaits]
    rfl
  · exact h

lemma Distinct.held_of_move (hd : c.Distinct) {m : Move} (h : (c.move t m).Held lock) :
    c.Held lock := by
  rcases hd.move_cases t m with hmove | ⟨a, ha, stage, rfl, hafter, hmove⟩
  · rwa [hmove] at h
  have hhandle := Stage.hasHandle_of_after hafter
  rw [hmove] at h
  split at h
  · obtain ⟨b, hb, hlock, hb'⟩ := h
    rcases List.mem_append.1 hb with hb | hb
    · exact ⟨b, (List.mem_filter.1 hb).1, hlock, hb'⟩
    · rw [List.mem_singleton.1 hb] at hlock hb'
      exact ⟨a, ha, hlock, hhandle hb'⟩
  · split at h
    · exact hd.held_of_setStage ha hhandle (hd.setStage.held_of_passOn h)
    · exact hd.held_of_setStage ha hhandle h

end Contest

namespace Registry

variable {r : Registry} {lock : LockId} {x y : Ident} {t : Ticket}

/-- One lock at most is kept for each entity, and every lock on which there are handles is kept. -/
structure Sound (r : Registry) : Prop where
  distinct : r.contest.Distinct
  kept : ∀ lock, r.contest.Held lock → lock ∈ r.entries
  single : (r.entries.map LockId.entity).Nodup

lemma sound_empty (timeout : Nat) : Sound { timeoutMillis := timeout } := by
  refine ⟨.nil, ?_, .nil⟩
  rintro lock ⟨a, ha, -⟩
  cases ha

lemma mem_of_entry?_eq_some (h : r.entry? x = some lock) :
    lock ∈ r.entries ∧ lock.entity = x := by
  have hfound := List.find?_some h
  exact ⟨List.mem_of_find?_eq_some h, eq_of_beq hfound⟩

lemma Sound.entry?_eq_some (h : r.Sound) (hlock : lock ∈ r.entries) :
    r.entry? lock.entity = some lock := by
  rcases hfound : r.entry? lock.entity with _ | other
  · simpa using List.find?_eq_none.1 hfound lock hlock
  · obtain ⟨hother, hsame⟩ := mem_of_entry?_eq_some hfound
    rw [List.inj_on_of_nodup_map h.single hother hlock hsame]

lemma Sound.named (h : r.Sound) : r.contest.Named LockId.entity :=
  fun _ ha _ hb ha' hb' =>
    List.inj_on_of_nodup_map h.single (h.kept _ ⟨_, ha, rfl, ha'⟩) (h.kept _ ⟨_, hb, rfl, hb'⟩)

lemma held_of_enter {c : Contest LockId} {l : LockId} (h : (c.enter l t).Held lock) :
    c.Held lock ∨ lock = l := by
  unfold Contest.enter at h
  split at h
  · exact .inl h
  · obtain ⟨a, ha, hlock, hhandle⟩ := h
    rcases List.mem_append.1 ha with ha | ha
    · exact .inl ⟨a, ha, hlock, hhandle⟩
    · rw [List.mem_singleton.1 ha] at hlock
      exact .inr hlock.symm

lemma Sound.enter (h : r.Sound) : (r.enter x t).Sound := by
  unfold Registry.enter
  split
  · exact h
  split
  · rename_i lock hentry
    refine ⟨h.distinct.enter, fun l hl => ?_, h.single⟩
    rcases held_of_enter hl with hl | rfl
    · exact h.kept l hl
    · exact (mem_of_entry?_eq_some hentry).1
  · rename_i hnone
    refine ⟨h.distinct.enter, fun l hl => ?_, ?_⟩
    · rcases held_of_enter hl with hl | rfl
      · exact List.mem_append_left _ (h.kept l hl)
      · exact List.mem_append_right _ (List.mem_singleton_self _)
    · dsimp only
      rw [List.map_append, List.map_singleton]
      refine List.nodup_append.2 ⟨h.single, List.nodup_singleton _, ?_⟩
      rintro _ hother _ hself rfl
      obtain ⟨other, hmem, hsame⟩ := List.mem_map.1 hother
      have hne := List.find?_eq_none.1 hnone other hmem
      rw [hsame, List.mem_singleton.1 hself] at hne
      simp at hne

lemma Sound.dropIdle (h : r.Sound) : (r.dropIdle x).Sound := by
  refine ⟨h.distinct, fun l hl => List.mem_filter.2 ⟨h.kept l hl, ?_⟩, ?_⟩
  · have hhandles : r.contest.handles l ≠ 0 := Contest.held_iff.1 hl
    simp [hhandles]
  · exact h.single.sublist (List.filter_sublist.map _)

lemma contest_move (r : Registry) (t : Ticket) (m : Move) :
    (r.move t m).contest = r.contest.move t m := by
  unfold Registry.move
  dsimp only
  split <;> rfl

lemma Sound.move (h : r.Sound) {m : Move} : (r.move t m).Sound := by
  have hmoved : Sound { r with contest := r.contest.move t m } :=
    ⟨h.distinct.move, fun l hl => h.kept l (h.distinct.held_of_move hl), h.single⟩
  unfold Registry.move
  dsimp only
  split
  · exact hmoved.dropIdle
  · exact hmoved

/-- At any time the lock that is kept for an entity is the only one of its locks that is in use. -/
theorem Sound.next (h : r.Sound) (event : Event Ident) : (r.next event).Sound := by
  cases event with
  | enter x t => exact h.enter
  | move t m => exact h.move

lemma Sound.after (h : r.Sound) (events : List (Event Ident)) : (r.after events).Sound := by
  induction events generalizing r with
  | nil => exact h
  | cons event events ih => exact ih (h.next event)

def acquisitions (r : Registry) : Contest Ident :=
  r.contest.relabel LockId.entity

lemma acquisitions_enter : (r.enter x t).acquisitions = r.acquisitions.enter x t := by
  unfold Registry.enter
  split
  · rename_i hused
    unfold acquisitions Contest.enter
    rw [Contest.of?_relabel, Option.isSome_map, if_pos hused]
  · split
    · rename_i lock hentry
      obtain ⟨-, rfl⟩ := mem_of_entry?_eq_some hentry
      exact Contest.enter_relabel.symm
    · exact Contest.enter_relabel.symm

/-- The acquisitions go on as if each entity had one lock for good. -/
lemma Sound.acquisitions_next (h : r.Sound) (event : Event Ident) :
    (r.next event).acquisitions = r.acquisitions.next event := by
  cases event with
  | enter x t => exact acquisitions_enter
  | move t m =>
    unfold acquisitions
    change Contest.relabel _ (r.move t m).contest = _
    rw [contest_move]
    exact (Contest.move_relabel h.named m).symm

theorem Sound.acquisitions_after (h : r.Sound) (events : List (Event Ident)) :
    (r.after events).acquisitions = r.acquisitions.after events := by
  induction events generalizing r with
  | nil => rfl
  | cons event events ih =>
    have hrest := ih (h.next event)
    rw [h.acquisitions_next] at hrest
    exact hrest

lemma Sound.isLocked_eq (h : r.Sound) (x : Ident) : r.isLocked x = r.acquisitions.isTaken x := by
  unfold isLocked Contest.isTaken acquisitions
  rw [Bool.eq_iff_iff, Option.any_eq_true, List.any_eq_true]
  simp only [List.any_eq_true, Bool.and_eq_true, decide_eq_true_eq]
  constructor
  · rintro ⟨lock, hentry, a, ha, rfl, hown⟩
    exact ⟨a.relabel _, List.mem_map_of_mem ha, (mem_of_entry?_eq_some hentry).2, hown⟩
  · rintro ⟨b, hb, rfl, hown⟩
    obtain ⟨a, ha, rfl⟩ := List.mem_map.1 hb
    exact ⟨a.lock, h.entry?_eq_some (h.kept _ ⟨a, ha, rfl, Stage.hasHandle_of_owns hown⟩), a, ha,
      rfl, hown⟩

end Registry

end TaskFlow.Lock

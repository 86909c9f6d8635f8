import TaskFlow.Proofs.LockTables
import TaskFlow.Proofs.MutualExclusion
import Mathlib.Data.Set.Card

/-!
# Which locks are kept

Whoever is done with a lock looks whether somebody else has a handle on it, and drops it from the
registry if not. A wait that is given up by its caller ends without that look. So a lock can be kept
that nobody uses, and it stays until its entity is asked for again.
-/

namespace TaskFlow.Lock

lemma Stage.ne_gone_of_after {taken : Bool} {m : Move} {s s' : Stage}
    (h : s.after taken m = some s') : s ≠ .gone := by
  rintro rfl
  cases m with
  | withdraw how => cases how <;> cases h
  | _ => cases h

lemma Stage.after_eq_gone {taken : Bool} {m : Move} {s : Stage}
    (h : s.after taken m = some .gone) :
    (m = .drop ∧ s = .parting .abandoned) ∨ (m = .sweep ∧ ∃ how, s = .leaving how) := by
  unfold after at h
  split at h <;> simp at h ⊢
  split at h <;> cases h

namespace Contest

variable {κ : Type} {c : Contest κ} {a : Acquisition κ} {t : Ticket} {lock l : κ} {stage : Stage}
  {m : Move}

/-- Some acquisition of the lock is not over. -/
def Attended (c : Contest κ) (lock : κ) : Prop :=
  ∃ a ∈ c, a.lock = lock ∧ a.stage ≠ .gone

/-- Some acquisition of the lock other than the one with the ticket is not over. -/
def AttendedBeside (c : Contest κ) (t : Ticket) (lock : κ) : Prop :=
  ∃ a ∈ c, a.ticket ≠ t ∧ a.lock = lock ∧ a.stage ≠ .gone

lemma Distinct.attended_iff (hd : c.Distinct) (ha : a ∈ c) : c.Attended lock ↔
    (a.lock = lock ∧ a.stage ≠ .gone) ∨ c.AttendedBeside a.ticket lock := by
  constructor
  · rintro ⟨b, hb, hlock, hstage⟩
    by_cases hsame : b.ticket = a.ticket
    · rw [hd.eq_of_ticket_eq hb ha hsame] at hlock hstage
      exact .inl ⟨hlock, hstage⟩
    · exact .inr ⟨b, hb, hsame, hlock, hstage⟩
  · rintro (⟨hlock, hstage⟩ | ⟨b, hb, -, hlock, hstage⟩)
    · exact ⟨a, ha, hlock, hstage⟩
    · exact ⟨b, hb, hlock, hstage⟩

lemma attendedBeside_setStage :
    (c.setStage t stage).AttendedBeside t lock ↔ c.AttendedBeside t lock := by
  constructor
  · rintro ⟨b, hb, hne, hlock, hstage⟩
    rcases mem_setStage hb with ⟨a, -, hsame, rfl⟩ | hb
    · exact absurd hsame hne
    · exact ⟨b, hb, hne, hlock, hstage⟩
  · rintro ⟨b, hb, hne, hlock, hstage⟩
    exact ⟨b, List.mem_map.2 ⟨b, hb, if_neg hne⟩, hne, hlock, hstage⟩

lemma attendedBeside_toBack :
    (c.toBack a).AttendedBeside a.ticket lock ↔ c.AttendedBeside a.ticket lock := by
  constructor
  · rintro ⟨b, hb, hne, hlock, hstage⟩
    rcases List.mem_append.1 hb with hb | hb
    · exact ⟨b, (List.mem_filter.1 hb).1, hne, hlock, hstage⟩
    · rw [List.mem_singleton.1 hb] at hne
      exact absurd rfl hne
  · rintro ⟨b, hb, hne, hlock, hstage⟩
    refine ⟨b, List.mem_append_left _ (List.mem_filter.2 ⟨hb, ?_⟩), hne, hlock, hstage⟩
    simpa using hne

variable [DecidableEq κ]

lemma Distinct.attended_passOn (hd : c.Distinct) :
    (c.passOn l).Attended lock ↔ c.Attended lock := by
  unfold Contest.passOn
  split
  · rename_i a hfound
    have ha := List.mem_of_find?_eq_some hfound
    have hwaits := List.find?_some hfound
    have hopen : a.stage ≠ .gone := by
      rw [eq_of_beq (Bool.and_eq_true_iff.1 hwaits).2]
      exact Stage.noConfusion
    rw [hd.setStage.attended_iff (mem_setStage_self ha), hd.attended_iff ha]
    exact or_congr (and_congr_right fun _ => iff_of_true Stage.noConfusion hopen)
      attendedBeside_setStage
  · exact Iff.rfl

lemma Distinct.attended_move_iff (hd : c.Distinct) (ha : a ∈ c)
    (hafter : a.stage.after (c.isTaken a.lock) m = some stage) :
    (c.move a.ticket m).Attended lock ↔
      (a.lock = lock ∧ stage ≠ .gone) ∨ c.AttendedBeside a.ticket lock := by
  have hset : (c.setStage a.ticket stage).Attended lock ↔
      (a.lock = lock ∧ stage ≠ .gone) ∨ c.AttendedBeside a.ticket lock := by
    rw [hd.setStage.attended_iff (mem_setStage_self ha)]
    exact or_congr_right attendedBeside_setStage
  rw [hd.move_eq ha hafter]
  split
  · have hmem : { a with stage } ∈ c.toBack { a with stage } :=
      List.mem_append_right _ (List.mem_singleton_self _)
    rw [hd.toBack.attended_iff hmem]
    exact or_congr_right attendedBeside_toBack
  · split
    · rw [hd.setStage.attended_passOn, hset]
    · exact hset

end Contest

namespace Registry

variable {r : Registry} {x y : Ident} {t : Ticket} {m : Move} {lock : LockId} {stage : Stage}
  {a : Acquisition Ident}

/-- No acquisition is between two of its steps: each guards its lock, waits for it or is over. -/
def AtRest (r : Registry) : Prop :=
  ∀ a ∈ r.acquisitions, a.stage.inLine = true ∨ a.stage = .gone

/-- A lock is kept for the entity. -/
def Keeps (r : Registry) (x : Ident) : Prop :=
  x ∈ r.entries.map LockId.entity

def inUse (r : Registry) : Set Ident :=
  {x | r.guards x ≠ [] ∨ r.waiters x ≠ []}

/-- The entities whose lock is kept although all its acquisitions are over. -/
def leftovers (r : Registry) : Set Ident :=
  {x | r.Keeps x ∧ ¬ r.acquisitions.Attended x}

/-- The event ends a wait for the entity that its caller gave up, and all other acquisitions of the
entity are over. -/
def Strands (r : Registry) (x : Ident) : Event Ident → Prop
  | .move t .drop => ⟨t, x, .parting .abandoned⟩ ∈ r.acquisitions ∧
      ¬ r.acquisitions.AttendedBeside t x
  | _ => False

/-- The event begins an acquisition of the entity. -/
def Begins (r : Registry) (x : Ident) : Event Ident → Prop
  | .enter y t => y = x ∧ ∀ a ∈ r.acquisitions, a.ticket ≠ t
  | .move _ _ => False

lemma keeps_iff : r.Keeps x ↔ ∃ lock ∈ r.entries, lock.entity = x :=
  List.mem_map

lemma Sound.keeps (h : r.Sound) (ha : a ∈ r.acquisitions)
    (hhandle : a.stage.hasHandle = true) : r.Keeps a.lock := by
  obtain ⟨b, hb, -, hlock, hstage⟩ := Contest.mem_relabel.1 ha
  rw [← hlock]
  exact List.mem_map_of_mem (h.kept _ ⟨b, hb, rfl, hstage ▸ hhandle⟩)

lemma of?_isSome_iff : (r.contest.of? t).isSome = true ↔ ∃ a ∈ r.acquisitions, a.ticket = t := by
  unfold Contest.of? acquisitions Contest.relabel
  simp [List.find?_isSome, Acquisition.relabel]

lemma keeps_enter (hnew : ∀ a ∈ r.acquisitions, a.ticket ≠ t) :
    (r.enter y t).Keeps x ↔ r.Keeps x ∨ y = x := by
  unfold enter
  rw [if_neg (of?_isSome_iff.not.2 (by simpa using hnew))]
  split
  · rename_i lock hentry
    obtain ⟨hlock, rfl⟩ := mem_of_entry?_eq_some hentry
    refine ⟨.inl, ?_⟩
    rintro (hkeeps | rfl)
    · exact hkeeps
    · exact List.mem_map_of_mem hlock
  · simp [Keeps, eq_comm]

lemma attended_enter (hnew : ∀ a ∈ r.acquisitions, a.ticket ≠ t) :
    (r.enter y t).acquisitions.Attended x ↔ r.acquisitions.Attended x ∨ y = x := by
  have hnone : r.acquisitions.of? t = none :=
    List.find?_eq_none.2 fun a ha => by simpa using hnew a ha
  rw [acquisitions_enter]
  unfold Contest.enter Contest.Attended
  rw [hnone]
  simp [or_and_right, exists_or]

lemma keeps_of_keeps_move (h : (r.move t m).Keeps x) : r.Keeps x := by
  unfold Registry.move at h
  dsimp only at h
  split at h
  · obtain ⟨lock, hlock, rfl⟩ := keeps_iff.1 h
    exact List.mem_map_of_mem (List.mem_filter.1 hlock).1
  · exact h

lemma Sound.acquisitions_move (h : r.Sound) (t : Ticket) (m : Move) :
    (r.move t m).acquisitions = r.acquisitions.move t m :=
  h.acquisitions_next (.move t m)

lemma mem_acquisitions_iff : ⟨t, x, stage⟩ ∈ r.acquisitions ↔
    ∃ lock, lock.entity = x ∧ ⟨t, lock, stage⟩ ∈ r.contest := by
  constructor
  · intro ha
    obtain ⟨⟨t', lock, stage'⟩, hmem, hticket, hentity, hstage⟩ := Contest.mem_relabel.1 ha
    dsimp only at hticket hentity hstage
    exact ⟨lock, hentity, hticket ▸ hstage ▸ hmem⟩
  · rintro ⟨lock, rfl, hmem⟩
    exact List.mem_map_of_mem hmem

lemma Sound.swept?_eq_some_iff (h : r.Sound) : r.swept? t m = some lock ↔
    m = .sweep ∧ ∃ how, ⟨t, lock, .leaving how⟩ ∈ r.contest := by
  constructor
  · intro hswept
    unfold swept? at hswept
    split at hswept
    · obtain ⟨a, hfound, hstage⟩ := Option.bind_eq_some_iff.1 hswept
      obtain ⟨ha, rfl⟩ := Contest.mem_of_of?_eq_some hfound
      split at hstage
      · rename_i how hleaving
        cases hstage
        exact ⟨rfl, how, hleaving ▸ ha⟩
      · cases hstage
    · cases hswept
  · rintro ⟨rfl, how, ha⟩
    unfold swept?
    rw [h.distinct.of?_eq_some ha]
    rfl

lemma Sound.keeps_move (h : r.Sound) (hkeeps : r.Keeps x)
    (hstays : ∀ how, ⟨t, x, .leaving how⟩ ∈ r.acquisitions → m ≠ .sweep) :
    (r.move t m).Keeps x := by
  unfold Registry.move
  dsimp only
  split
  · rename_i swept hswept
    obtain ⟨hsweep, how, ha⟩ := h.swept?_eq_some_iff.1 hswept
    have hother : swept.entity ≠ x := by
      rintro rfl
      exact hstays how (List.mem_map_of_mem ha) hsweep
    obtain ⟨lock, hlock, rfl⟩ := keeps_iff.1 hkeeps
    exact List.mem_map_of_mem (List.mem_filter.2 ⟨hlock, by simp [hother.symm]⟩)
  · exact hkeeps

lemma Sound.attended_of_sweep (h : r.Sound) {how : Parting}
    (hleaves : ⟨t, x, .leaving how⟩ ∈ r.acquisitions) (hkeeps : (r.move t .sweep).Keeps x) :
    (r.move t .sweep).acquisitions.Attended x := by
  obtain ⟨swept, rfl, ha⟩ := mem_acquisitions_iff.1 hleaves
  have hswept : r.swept? t .sweep = some swept := h.swept?_eq_some_iff.2 ⟨rfl, how, ha⟩
  obtain ⟨lock, hlock, hentity⟩ := keeps_iff.1 hkeeps
  unfold Registry.move at hlock ⊢
  rw [hswept] at hlock ⊢
  obtain ⟨-, hbusy⟩ := List.mem_filter.1 hlock
  obtain ⟨a, ha', rfl, hhandle⟩ := Contest.held_iff.2 (by simpa [hentity] using hbusy)
  refine ⟨a.relabel _, List.mem_map_of_mem ha', hentity, fun hgone => ?_⟩
  rw [show a.stage = .gone from hgone] at hhandle
  cases hhandle

lemma Orderly.mem_leftovers_of_closed (h : r.Orderly)
    (hclosed : ∀ a ∈ r.acquisitions, a.ticket = t →
      a.stage.after (r.acquisitions.isTaken a.lock) m = none) :
    ¬ r.Strands x (.move t m) ∧ (x ∈ (r.move t m).leftovers ↔ x ∈ r.leftovers) := by
  have hsame : (r.move t m).acquisitions = r.acquisitions := by
    rw [h.sound.acquisitions_move]
    refine (h.fair.distinct.move_cases t m).resolve_right ?_
    rintro ⟨a, ha, stage, rfl, hafter, -⟩
    rw [hclosed a ha rfl] at hafter
    cases hafter
  constructor
  · cases m with
    | drop => exact fun hstrands => nomatch hclosed _ hstrands.1 rfl
    | _ => exact id
  · have hkeeps : (r.move t m).Keeps x ↔ r.Keeps x := by
      refine ⟨keeps_of_keeps_move, fun hx => h.sound.keeps_move hx fun how hmem => ?_⟩
      rintro rfl
      cases hclosed _ hmem rfl
    rw [leftovers, leftovers, Set.mem_ofPred_eq, Set.mem_ofPred_eq, hkeeps, hsame]

lemma Orderly.mem_leftovers_of_ne (h : r.Orderly) (ha : a ∈ r.acquisitions)
    (hafter : a.stage.after (r.acquisitions.isTaken a.lock) m = some stage) (hne : a.lock ≠ x) :
    ¬ r.Strands x (.move a.ticket m) ∧
      (x ∈ (r.move a.ticket m).leftovers ↔ x ∈ r.leftovers) := by
  have hd := h.fair.distinct
  have hother {stage : Stage} : ⟨a.ticket, x, stage⟩ ∉ r.acquisitions := fun hmem =>
    hne (congrArg Acquisition.lock (hd.eq_of_ticket_eq ha hmem rfl))
  constructor
  · cases m with
    | drop => exact fun hstrands => hother hstrands.1
    | _ => exact id
  · have hkeeps : (r.move a.ticket m).Keeps x ↔ r.Keeps x :=
      ⟨keeps_of_keeps_move, fun hx => h.sound.keeps_move hx fun how hmem => absurd hmem hother⟩
    have hattended : (r.move a.ticket m).acquisitions.Attended x ↔ r.acquisitions.Attended x := by
      rw [h.sound.acquisitions_move, hd.attended_move_iff ha hafter, hd.attended_iff ha]
      simp [hne]
    rw [leftovers, leftovers, Set.mem_ofPred_eq, Set.mem_ofPred_eq, hkeeps, hattended]

/-- An acquisition that goes on leaves a lock of its own entity behind just if it was given up and
nobody else is left. -/
lemma Orderly.mem_leftovers_self (h : r.Orderly) (ha : a ∈ r.acquisitions)
    (hafter : a.stage.after (r.acquisitions.isTaken a.lock) m = some stage) :
    a.lock ∉ r.leftovers ∧
      (a.lock ∈ (r.move a.ticket m).leftovers ↔ r.Strands a.lock (.move a.ticket m)) := by
  have hd := h.fair.distinct
  have hattended : (r.move a.ticket m).acquisitions.Attended a.lock ↔
      stage ≠ .gone ∨ r.acquisitions.AttendedBeside a.ticket a.lock := by
    rw [h.sound.acquisitions_move, hd.attended_move_iff ha hafter, and_iff_right rfl]
  refine ⟨fun hleft => hleft.2 ⟨a, ha, rfl, Stage.ne_gone_of_after hafter⟩, ?_⟩
  constructor
  · rintro ⟨hkeeps, hnone⟩
    rw [hattended, not_or, not_not] at hnone
    obtain ⟨rfl, halone⟩ := hnone
    rcases Stage.after_eq_gone hafter with ⟨rfl, hstage⟩ | ⟨rfl, how, hstage⟩
    · exact ⟨hstage ▸ ha, halone⟩
    · have hleaves : ⟨a.ticket, a.lock, .leaving how⟩ ∈ r.acquisitions := hstage ▸ ha
      exact ((hattended.1 (h.sound.attended_of_sweep hleaves hkeeps)).elim (absurd rfl) halone).elim
  · cases m with
    | drop =>
      rintro ⟨hmem, halone⟩
      have hstage : a.stage = .parting .abandoned :=
        congrArg Acquisition.stage (hd.eq_of_ticket_eq ha hmem rfl)
      rw [hstage] at hafter
      cases hafter
      have hkept : r.Keeps a.lock := h.sound.keeps ha (by rw [hstage]; rfl)
      exact ⟨h.sound.keeps_move hkept fun _ _ => nofun, mt hattended.1 (by simp [halone])⟩
    | _ => exact False.elim

lemma Orderly.mem_leftovers_move_iff (h : r.Orderly) (t : Ticket) (m : Move) (x : Ident) :
    x ∈ (r.move t m).leftovers ↔ r.Strands x (.move t m) ∨ x ∈ r.leftovers := by
  by_cases hopen : ∃ a ∈ r.acquisitions, ∃ stage, a.ticket = t ∧
      a.stage.after (r.acquisitions.isTaken a.lock) m = some stage
  · obtain ⟨a, ha, stage, rfl, hafter⟩ := hopen
    by_cases hlock : a.lock = x
    · subst hlock
      obtain ⟨hused, hiff⟩ := h.mem_leftovers_self ha hafter
      rw [hiff, or_iff_left hused]
    · obtain ⟨hfree, hiff⟩ := h.mem_leftovers_of_ne ha hafter hlock
      rw [hiff, or_iff_right hfree]
  · have hclosed : ∀ a ∈ r.acquisitions, a.ticket = t →
        a.stage.after (r.acquisitions.isTaken a.lock) m = none := fun a ha hticket =>
      Option.eq_none_iff_forall_ne_some.2 fun stage hafter =>
        hopen ⟨a, ha, stage, hticket, hafter⟩
    obtain ⟨hfree, hiff⟩ := h.mem_leftovers_of_closed hclosed
    rw [hiff, or_iff_right hfree]

/-- A lock is left over by a wait that was given up, when nobody else is left to look at it, and
until it is asked for again. -/
theorem Orderly.mem_leftovers_next_iff (h : r.Orderly) (event : Event Ident) (x : Ident) :
    x ∈ (r.next event).leftovers ↔
      r.Strands x event ∨ (x ∈ r.leftovers ∧ ¬ r.Begins x event) := by
  cases event with
  | enter y t =>
    by_cases hnew : ∀ a ∈ r.acquisitions, a.ticket ≠ t
    · have hbegins : r.Begins x (.enter y t) ↔ y = x := and_iff_left hnew
      change (r.enter y t).Keeps x ∧ ¬ (r.enter y t).acquisitions.Attended x ↔
        False ∨ (x ∈ r.leftovers ∧ _)
      rw [keeps_enter hnew, attended_enter hnew, hbegins, leftovers, Set.mem_ofPred_eq]
      tauto
    · have hsame : r.next (.enter y t) = r := by
        refine if_pos (of?_isSome_iff.2 ?_)
        simpa using hnew
      have hbegins : ¬ r.Begins x (.enter y t) := fun h => hnew h.2
      rw [hsame]
      exact ⟨fun hx => .inr ⟨hx, hbegins⟩, fun hx => (hx.resolve_left id).1⟩
  | move t m => exact (h.mem_leftovers_move_iff t m x).trans (by simp [Begins])

lemma mem_inUse_iff : x ∈ r.inUse ↔ ∃ a ∈ r.acquisitions, a.lock = x ∧ a.stage.inLine = true := by
  have hqueue : r.guards x = [] ∧ r.waiters x = [] ↔ r.acquisitions.line x = [] := by
    refine ⟨fun hnone => Contest.line_eq_nil hnone.1 hnone.2, fun hline => ?_⟩
    unfold guards waiters Contest.guards Contest.waiters
    rw [hline]
    exact ⟨rfl, rfl⟩
  rw [inUse, Set.mem_ofPred_eq, ← not_and_or, hqueue, List.eq_nil_iff_forall_not_mem, not_forall]
  simp only [not_not, Contest.mem_line]

lemma inUse_eq_empty (h : ∀ a ∈ r.acquisitions, a.stage.inLine = false) : r.inUse = ∅ := by
  refine Set.eq_empty_of_forall_notMem fun x hx => ?_
  obtain ⟨a, ha, -, hin⟩ := mem_inUse_iff.1 hx
  rw [h a ha] at hin
  cases hin

lemma AtRest.mem_inUse_iff (hrest : r.AtRest) : x ∈ r.inUse ↔ r.acquisitions.Attended x := by
  rw [Registry.mem_inUse_iff]
  refine exists_congr fun a => and_congr_right fun ha => and_congr_right fun _ => ?_
  constructor
  · intro hin hgone
    rw [hgone] at hin
    cases hin
  · exact (hrest a ha).resolve_right

lemma Sound.tracked_eq_ncard (h : r.Sound) : r.tracked = {x | r.Keeps x}.ncard := by
  have hset : {x | r.Keeps x} = (r.entries.map LockId.entity).toFinset := by
    ext x
    simp [Keeps]
  rw [hset, Set.ncard_coe_finset, List.toFinset_card_of_nodup h.single, List.length_map]
  rfl

lemma finite_keeps (r : Registry) : {x | r.Keeps x}.Finite :=
  List.finite_toSet _

/-- At rest, whatever is kept is in use or left over. -/
theorem Sound.tracked_eq (h : r.Sound) (hrest : r.AtRest) :
    r.tracked = r.inUse.ncard + r.leftovers.ncard := by
  have hkept : r.inUse ⊆ {x | r.Keeps x} := by
    intro x hx
    obtain ⟨a, ha, rfl, hin⟩ := mem_inUse_iff.1 hx
    exact h.keeps ha (Stage.hasHandle_of_inLine hin)
  have hleft : r.leftovers = {x | r.Keeps x} \ r.inUse := by
    ext x
    exact and_congr_right fun _ => not_congr hrest.mem_inUse_iff.symm
  rw [h.tracked_eq_ncard, hleft, add_comm,
    Set.ncard_sdiff_add_ncard_of_subset hkept r.finite_keeps]

lemma Sound.tracked_eq_iff (h : r.Sound) (hrest : r.AtRest) :
    r.tracked = r.inUse.ncard ↔ r.leftovers = ∅ := by
  have hfinite : r.leftovers.Finite := r.finite_keeps.subset fun _ hx => hx.1
  rw [h.tracked_eq hrest, Nat.add_eq_left, Set.ncard_eq_zero hfinite]

lemma Orderly.not_strands_of_waiting (h : r.Orderly) (ht : ⟨t, x, .waiting⟩ ∈ r.acquisitions) :
    ¬ (r.next (.move t (.withdraw .abandoned))).Strands x (.move t .drop) := by
  have hline : ⟨t, x, .waiting⟩ ∈ r.acquisitions.line x := Contest.mem_line.2 ⟨ht, rfl, rfl⟩
  have htaken := h.fair.isTaken_iff.2 (List.ne_nil_of_mem hline)
  unfold Contest.isTaken at htaken
  obtain ⟨a, ha, howner⟩ := List.any_eq_true.1 htaken
  rw [Bool.and_eq_true, decide_eq_true_eq] at howner
  obtain ⟨rfl, hown⟩ := howner
  have hstage : a.stage ≠ .waiting := by
    intro hwaits
    rw [hwaits] at hown
    cases hown
  have hopen : a.stage ≠ .gone := by
    intro hgone
    rw [hgone] at hown
    cases hown
  have hne : a.ticket ≠ t := by
    intro hsame
    exact hstage (congrArg Acquisition.stage (h.fair.distinct.eq_of_ticket_eq ha ht hsame))
  rintro ⟨-, halone⟩
  refine halone ⟨a, ?_, hne, rfl, hopen⟩
  rw [h.sound.acquisitions_next]
  exact h.fair.distinct.mem_move_of_ne ha hne hstage _

/-- No event of the run ends a wait that was given up when nobody else is left. -/
def StrandsNothing (r : Registry) (events : List (Event Ident)) : Prop :=
  ∀ before event, before ++ [event] <+: events → ∀ x, ¬ (r.after before).Strands x event

lemma Orderly.leftovers_after (h : r.Orderly) (hnone : r.leftovers = ∅)
    {events : List (Event Ident)} (hstrands : r.StrandsNothing events) :
    (r.after events).leftovers = ∅ := by
  induction events generalizing r with
  | nil => exact hnone
  | cons event events ih =>
    apply ih (h.next event)
    · refine Set.eq_empty_of_forall_notMem fun x hx => ?_
      rcases (h.mem_leftovers_next_iff event x).1 hx with hx | ⟨hx, -⟩
      · exact hstrands [] event ⟨events, rfl⟩ x hx
      · rw [hnone] at hx
        exact hx
    · intro before later hprefix
      exact hstrands (event :: before) later (List.cons_prefix_cons.2 ⟨rfl, hprefix⟩)

/-- Whatever steps acquisitions have made: when none is between two of its steps, the locks that are
kept are those with a guard or a waiter, and those that were left over. A lock is left over by a
wait that its caller gave up when nobody else had a handle on the lock or was about to look at it,
and until its entity is asked for again. That does not happen to a wait that is given up while the
lock is somebody else's. Where it never happens, only locks with a guard or a waiter are kept. -/
theorem tracked_accounted (timeout : Nat) (events : List (Event Ident)) :
    let start : Registry := { timeoutMillis := timeout }
    let r := start.after events
    (r.AtRest → r.tracked = r.inUse.ncard + r.leftovers.ncard ∧
      (r.tracked = r.inUse.ncard ↔ r.leftovers = ∅)) ∧
    (∀ event x, x ∈ (r.next event).leftovers ↔
      r.Strands x event ∨ (x ∈ r.leftovers ∧ ¬ r.Begins x event)) ∧
    (∀ x t, ⟨t, x, .waiting⟩ ∈ r.acquisitions →
      ¬ (r.next (.move t (.withdraw .abandoned))).Strands x (.move t .drop)) ∧
    (start.StrandsNothing events → r.AtRest →
      r.tracked = r.inUse.ncard ∧ (r.inUse = ∅ → r.tracked = 0)) := by
  intro start r
  have hstart : start.Orderly := orderly_empty timeout
  have h : r.Orderly := hstart.after events
  refine ⟨fun hrest => ⟨h.sound.tracked_eq hrest, h.sound.tracked_eq_iff hrest⟩,
    h.mem_leftovers_next_iff, fun x t ht => h.not_strands_of_waiting ht,
    fun hstrands hrest => ?_⟩
  have hnone : start.leftovers = ∅ := by
    refine Set.eq_empty_of_forall_notMem fun x hx => ?_
    exact List.not_mem_nil hx.1
  have htracked : r.tracked = r.inUse.ncard :=
    (h.sound.tracked_eq_iff hrest).2 (hstart.leftovers_after hnone hstrands)
  refine ⟨htracked, fun hidle => ?_⟩
  rw [htracked, hidle, Set.ncard_empty]

/-- Of three acquisitions of a lock the second, which waits, is given up, and the others guard the
lock in turn. -/
def givenUp : List (Event Ident) :=
  contested ++ [.move 1 (.withdraw .abandoned), .move 1 .drop] ++
    [.move 0 (.withdraw .dropped), .move 0 .drop, .move 0 .sweep] ++
    [.move 2 .resume, .move 2 (.withdraw .dropped), .move 2 .drop, .move 2 .sweep]

theorem tracked_givenUp :
    StrandsNothing { timeoutMillis := 30000 } givenUp ∧ (run givenUp).AtRest ∧
      (run givenUp).inUse = ∅ ∧ (run givenUp).tracked = 0 := by
  have hbusy : ∀ before ∈ givenUp.inits, ∀ a ∈ (run before).acquisitions,
      a.stage = .parting .abandoned → (run before).acquisitions.AttendedBeside a.ticket a.lock := by
    unfold Contest.AttendedBeside
    decide
  have hstrands : StrandsNothing { timeoutMillis := 30000 } givenUp := by
    intro before event hprefix x hstrands
    cases event with
    | enter => exact hstrands
    | move t m =>
      cases m with
      | drop =>
        have hbefore : before ∈ givenUp.inits :=
          (List.mem_inits _ _).2 ((List.prefix_append _ _).trans hprefix)
        exact hstrands.2 (hbusy before hbefore _ hstrands.1 rfl)
      | _ => exact hstrands
  have hrest : (run givenUp).AtRest := by
    unfold AtRest
    decide
  have hidle : (run givenUp).inUse = ∅ := inUse_eq_empty (by decide)
  obtain ⟨-, -, -, hkept⟩ := tracked_accounted 30000 givenUp
  exact ⟨hstrands, hrest, hidle, (hkept hstrands hrest).2 hidle⟩

/-- Of two acquisitions of a lock the second is handed it when the first is over, and is given up
before it goes on. -/
def forsaken : List (Event Ident) :=
  [0, 1].flatMap (fun t => [.enter (.ofNat 1) t, .move t .attempt]) ++
    [.move 0 (.withdraw .dropped), .move 0 .drop, .move 0 .sweep] ++
    [.move 1 (.withdraw .abandoned), .move 1 .drop]

/-- Nobody guards the lock or waits for it, but it is kept. -/
theorem tracked_forsaken : (run forsaken).AtRest ∧ (run forsaken).inUse = ∅ ∧
    (run forsaken).tracked = 1 := by
  refine ⟨?_, inUse_eq_empty (by decide), by decide⟩
  unfold AtRest
  decide

end Registry

end TaskFlow.Lock

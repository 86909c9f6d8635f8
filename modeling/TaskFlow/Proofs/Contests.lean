import TaskFlow.Lock.Contest
import Mathlib.Data.List.Nodup
import Mathlib.Tactic.Lemma

/-!
# Fair contests

Whatever moves are made, the first in the line of a lock owns it and all others wait for it. A step
of an acquisition joins it to the line of its lock at the end, lets it go on with a lock that it was
handed, or takes it out of the line; the lines of other locks stay as they are.
-/

namespace TaskFlow.Lock

namespace Stage

/-- Whether the acquisition has let go of the lock, or of its place in the line. -/
def isPast : Stage → Bool
  | parting _ | leaving _ | gone => true
  | _ => false

lemma inLine_of_owns {s : Stage} (h : s.owns = true) : s.inLine = true := by
  cases s <;> first | rfl | cases h

lemma not_inLine_of_isPast {s : Stage} (h : s.isPast = true) : s.inLine = false := by
  cases s <;> first | rfl | cases h

lemma not_owns_of_isPast {s : Stage} (h : s.isPast = true) : s.owns = false := by
  cases s <;> first | rfl | cases h

lemma hasHandle_of_inLine {s : Stage} (h : s.inLine = true) : s.hasHandle = true := by
  cases s <;> first | rfl | cases h

lemma hasHandle_of_owns {s : Stage} (h : s.owns = true) : s.hasHandle = true :=
  hasHandle_of_inLine (inLine_of_owns h)

/-- A move takes a lock or queues for it, goes on with it, leaves the line, or comes after that. -/
lemma after_cases {taken : Bool} {m : Move} {s s' : Stage} (h : s.after taken m = some s') :
    (s = .looking ∧ s' = if taken then .waiting else .guarding) ∨
    (s = .handed ∧ s' = .guarding) ∨ (s.inLine = true ∧ s'.isPast = true) ∨
    (s.isPast = true ∧ s'.isPast = true) := by
  unfold after at h
  split at h <;> cases h <;> simp [inLine, isPast]

lemma hasHandle_of_after {taken : Bool} {m : Move} {s s' : Stage} (h : s.after taken m = some s')
    (hhandle : s'.hasHandle = true) : s.hasHandle = true := by
  unfold after at h
  split at h <;> cases h <;> first | rfl | cases hhandle

lemma after_eq_after {s : Stage} (h : s ≠ .looking) (taken taken' : Bool) (m : Move) :
    s.after taken m = s.after taken' m := by
  unfold after
  split
  · exact absurd rfl h
  all_goals rfl

end Stage

namespace Contest

variable {κ : Type} {c : Contest κ} {a b : Acquisition κ} {t u : Ticket} {lock l : κ}
  {stage : Stage}

lemma mem_of_of?_eq_some (h : c.of? t = some a) : a ∈ c ∧ a.ticket = t := by
  have hfound := List.find?_some h
  exact ⟨List.mem_of_find?_eq_some h, eq_of_beq hfound⟩

lemma ticket_ne_of_of?_eq_none (h : c.of? t = none) (ha : a ∈ c) : a.ticket ≠ t := by
  have hother := List.find?_eq_none.1 h a ha
  simpa using hother

lemma map_ticket_setStage : (c.setStage t stage).map Acquisition.ticket =
    c.map Acquisition.ticket := by
  unfold setStage
  rw [List.map_map]
  refine List.map_congr_left fun a _ => ?_
  simp only [Function.comp_apply]
  split <;> rfl

lemma setStage_cons : setStage (a :: c) t stage =
    (if a.ticket = t then { a with stage } else a) :: c.setStage t stage :=
  rfl

lemma setStage_of_forall_ne (h : ∀ a ∈ c, a.ticket ≠ t) : c.setStage t stage = c :=
  (List.map_congr_left fun a ha => if_neg (h a ha)).trans (List.map_id _)

lemma mem_setStage_self (ha : a ∈ c) : { a with stage } ∈ c.setStage a.ticket stage :=
  List.mem_map.2 ⟨a, ha, if_pos rfl⟩

lemma filter_of_not_mem (h : t ∉ c.map Acquisition.ticket) : c.filter (·.ticket != t) = c :=
  List.filter_eq_self.2 fun a ha =>
    bne_iff_ne.2 fun hsame => h (List.mem_map.2 ⟨a, ha, hsame⟩)

/-- No ticket is used twice. -/
def Distinct (c : Contest κ) : Prop :=
  (c.map Acquisition.ticket).Nodup

lemma Distinct.eq_of_ticket_eq (h : c.Distinct) (ha : a ∈ c) (hb : b ∈ c)
    (hsame : a.ticket = b.ticket) : a = b :=
  List.inj_on_of_nodup_map h ha hb hsame

lemma Distinct.of?_eq_some (h : c.Distinct) (ha : a ∈ c) : c.of? a.ticket = some a := by
  rcases hfound : c.of? a.ticket with _ | b
  · exact absurd rfl (ticket_ne_of_of?_eq_none hfound ha)
  · obtain ⟨hb, hsame⟩ := mem_of_of?_eq_some hfound
    rw [h.eq_of_ticket_eq hb ha hsame]

lemma Distinct.setStage (h : c.Distinct) : (c.setStage t stage).Distinct := by
  unfold Distinct
  rwa [map_ticket_setStage]

lemma Distinct.toBack (h : c.Distinct) : (c.toBack a).Distinct := by
  unfold Distinct Contest.toBack
  rw [List.map_append, List.map_singleton]
  have hothers : ((c.filter (·.ticket != a.ticket)).map Acquisition.ticket).Nodup :=
    h.sublist (List.filter_sublist.map _)
  refine List.nodup_append.2 ⟨hothers, List.nodup_singleton _, ?_⟩
  rintro _ hother _ hself rfl
  obtain ⟨b, hb, hsame⟩ := List.mem_map.1 hother
  have hne := (List.mem_filter.1 hb).2
  rw [List.mem_singleton.1 hself] at hsame
  simp [hsame] at hne

lemma Distinct.enter (h : c.Distinct) : (c.enter lock t).Distinct := by
  unfold Contest.enter
  split
  · exact h
  · rename_i hnew
    rw [Option.not_isSome_iff_eq_none] at hnew
    unfold Distinct
    rw [List.map_append, List.map_singleton]
    refine List.nodup_append.2 ⟨h, List.nodup_singleton _, ?_⟩
    rintro _ hother _ hself rfl
    obtain ⟨b, hb, hsame⟩ := List.mem_map.1 hother
    exact ticket_ne_of_of?_eq_none hnew hb (hsame.trans (List.mem_singleton.1 hself))

lemma Distinct.map_filter_erase (h : c.Distinct) (p : Acquisition κ → Bool) :
    ((c.filter (·.ticket != t)).filter p).map Acquisition.ticket =
      ((c.filter p).map Acquisition.ticket).erase t := by
  have hdistinct : ((c.filter p).map Acquisition.ticket).Nodup :=
    h.sublist (List.filter_sublist.map _)
  rw [hdistinct.erase_eq_filter, List.filter_map, List.filter_filter, List.filter_filter]
  congr 1
  refine List.filter_congr fun b _ => ?_
  simp [Bool.and_comm]

/-! ### Lines that are served -/

/-- A line whose first, if it waits, is handed the lock. -/
def promote : Contest κ → Contest κ
  | [] => []
  | first :: rest =>
    (if first.stage = .waiting then { first with stage := .handed } else first) :: rest

/-- The first in line owns the lock, and all others wait for it. -/
structure Served (d : Contest κ) : Prop where
  first : ∀ a ∈ d.head?, a.stage.owns = true
  others : ∀ a ∈ d.tail, a.stage = .waiting

variable {d : Contest κ}

lemma served_nil : Served ([] : Contest κ) :=
  ⟨by simp, by simp⟩

lemma served_cons :
    Served (a :: d) ↔ a.stage.owns = true ∧ ∀ b ∈ d, b.stage = .waiting := by
  constructor
  · intro h
    exact ⟨h.first a rfl, h.others⟩
  · rintro ⟨hfirst, hothers⟩
    refine ⟨?_, hothers⟩
    rintro _ ⟨⟩
    exact hfirst

lemma Served.promote_eq (h : Served d) : promote d = d := by
  cases d with
  | nil => rfl
  | cons first rest =>
    rw [promote, if_neg]
    intro hwaiting
    have howns := (served_cons.1 h).1
    rw [hwaiting] at howns
    cases howns

lemma map_ticket_promote (d : Contest κ) :
    (promote d).map Acquisition.ticket = d.map Acquisition.ticket := by
  cases d with
  | nil => rfl
  | cons first rest =>
    rw [promote, List.map_cons, List.map_cons]
    split <;> rfl

lemma filter_guarding_promote (d : Contest κ) :
    (promote d).filter (·.stage == .guarding) = d.filter (·.stage == .guarding) := by
  cases d with
  | nil => rfl
  | cons first rest =>
    rw [promote, List.filter_cons, List.filter_cons]
    split
    · rename_i hwaiting
      simp [hwaiting]
    · rfl

lemma map_ticket_filter_promote (d : Contest κ) :
    ((promote d).filter (·.stage != .guarding)).map Acquisition.ticket =
      (d.filter (·.stage != .guarding)).map Acquisition.ticket := by
  cases d with
  | nil => rfl
  | cons first rest =>
    rw [promote, List.filter_cons, List.filter_cons]
    split
    · rename_i hwaiting
      simp [hwaiting]
    · rfl

lemma served_promote (h : ∀ a ∈ d, a.stage = .waiting) : Served (promote d) := by
  cases d with
  | nil => exact served_nil
  | cons first rest =>
    rw [promote, if_pos (h first List.mem_cons_self)]
    exact served_cons.2 ⟨rfl, fun a ha => h a (List.mem_cons_of_mem _ ha)⟩

lemma Served.filter (h : Served d) {p : Acquisition κ → Bool}
    (hp : ∀ a ∈ d, a.stage.owns = true → p a = true) : Served (List.filter p d) := by
  cases d with
  | nil => exact served_nil
  | cons first rest =>
    obtain ⟨hfirst, hothers⟩ := served_cons.1 h
    rw [List.filter_cons_of_pos (hp first List.mem_cons_self hfirst)]
    exact served_cons.2 ⟨hfirst, fun a ha => hothers a (List.mem_filter.1 ha).1⟩

lemma Served.promote_filter (h : Served d) (p : Acquisition κ → Bool) :
    Served (promote (d.filter p)) := by
  cases d with
  | nil => exact served_nil
  | cons first rest =>
    obtain ⟨hfirst, hothers⟩ := served_cons.1 h
    have hrest : ∀ a ∈ rest.filter p, a.stage = .waiting :=
      fun a ha => hothers a (List.mem_filter.1 ha).1
    rw [List.filter_cons]
    split
    · have hserved : Served (first :: rest.filter p) := served_cons.2 ⟨hfirst, hrest⟩
      rwa [hserved.promote_eq]
    · exact served_promote hrest

lemma Served.setStage (h : Served d) (hown : stage.owns = true)
    (hother : ∀ a ∈ d, a.ticket = t → a.stage ≠ .waiting) :
    Served (Contest.setStage d t stage) := by
  cases d with
  | nil => exact served_nil
  | cons first rest =>
    obtain ⟨hfirst, hothers⟩ := served_cons.1 h
    have hrest : Contest.setStage rest t stage = rest := setStage_of_forall_ne fun a ha hsame =>
      hother a (List.mem_cons_of_mem _ ha) hsame (hothers a ha)
    rw [setStage_cons, hrest]
    split
    · exact served_cons.2 ⟨hown, hothers⟩
    · exact h

lemma Served.append_waiting (h : Served d) (hne : d ≠ []) (ha : a.stage = .waiting) :
    Served (d ++ [a]) := by
  cases d with
  | nil => exact absurd rfl hne
  | cons first rest =>
    obtain ⟨hfirst, hothers⟩ := served_cons.1 h
    refine served_cons.2 ⟨hfirst, fun b hb => ?_⟩
    rcases List.mem_append.1 hb with hb | hb
    · exact hothers b hb
    · rw [List.mem_singleton.1 hb]
      exact ha

variable [DecidableEq κ]

lemma Distinct.passOn (h : c.Distinct) : (c.passOn lock).Distinct := by
  unfold Contest.passOn
  split
  · exact h.setStage
  · exact h

lemma Distinct.move_eq_self (h : c.Distinct) (ha : a ∈ c) {m : Move}
    (hafter : a.stage.after (c.isTaken a.lock) m = none) : c.move a.ticket m = c := by
  unfold Contest.move
  rw [h.of?_eq_some ha]
  dsimp only
  rw [hafter]

lemma Distinct.move_eq (h : c.Distinct) (ha : a ∈ c) {m : Move}
    (hafter : a.stage.after (c.isTaken a.lock) m = some stage) : c.move a.ticket m =
      if a.stage = .looking then c.toBack { a with stage }
      else if a.stage.owns && !stage.owns then (c.setStage a.ticket stage).passOn a.lock
      else c.setStage a.ticket stage := by
  unfold Contest.move
  rw [h.of?_eq_some ha]
  dsimp only
  rw [hafter]

lemma Distinct.move_cases (h : c.Distinct) (t : Ticket) (m : Move) : c.move t m = c ∨
    ∃ a ∈ c, ∃ stage, a.ticket = t ∧ a.stage.after (c.isTaken a.lock) m = some stage ∧
      c.move t m =
        if a.stage = .looking then c.toBack { a with stage }
        else if a.stage.owns && !stage.owns then (c.setStage a.ticket stage).passOn a.lock
        else c.setStage a.ticket stage := by
  rcases hfound : c.of? t with _ | a
  · left
    unfold Contest.move
    rw [hfound]
  · obtain ⟨ha, rfl⟩ := mem_of_of?_eq_some hfound
    rcases hafter : a.stage.after (c.isTaken a.lock) m with _ | stage
    · exact .inl (h.move_eq_self ha hafter)
    · exact .inr ⟨a, ha, stage, rfl, hafter, h.move_eq ha hafter⟩

lemma Distinct.move (h : c.Distinct) {m : Move} : (c.move t m).Distinct := by
  rcases h.move_cases t m with hmove | ⟨a, -, stage, -, -, hmove⟩
  · rwa [hmove]
  · rw [hmove]
    split
    · exact h.toBack
    · split
      · exact h.setStage.passOn
      · exact h.setStage

lemma mem_passOn_of_ne_waiting (hd : c.Distinct) (ha : a ∈ c) (hstage : a.stage ≠ .waiting) :
    a ∈ c.passOn lock := by
  unfold passOn
  split
  · rename_i b hfound
    refine List.mem_map.2 ⟨a, ha, if_neg fun hsame => hstage ?_⟩
    have hwaiting := List.find?_some hfound
    rw [← hd.eq_of_ticket_eq ha (List.mem_of_find?_eq_some hfound) hsame] at hwaiting
    simpa using (Bool.and_eq_true_iff.1 hwaiting).2
  · exact ha

lemma Distinct.mem_move (h : c.Distinct) (ha : a ∈ c) {m : Move}
    (hafter : a.stage.after (c.isTaken a.lock) m = some stage) (hstage : stage ≠ .waiting) :
    { a with stage } ∈ c.move a.ticket m := by
  rw [h.move_eq ha hafter]
  split
  · exact List.mem_append_right _ (List.mem_singleton_self _)
  · split
    · exact mem_passOn_of_ne_waiting h.setStage (mem_setStage_self ha) hstage
    · exact mem_setStage_self ha

lemma mem_line : a ∈ c.line lock ↔ a ∈ c ∧ a.lock = lock ∧ a.stage.inLine = true := by
  simp [line]

lemma line_append (d : Contest κ) : line (c ++ d) lock = c.line lock ++ d.line lock :=
  List.filter_append ..

lemma line_enter : (c.enter l t).line lock = c.line lock := by
  unfold enter
  split
  · rfl
  · rw [line_append]
    simp [line, Stage.inLine]

lemma line_toBack (hin : stage.inLine = true)
    (h : ∀ b ∈ c, b.ticket = a.ticket → b.stage.inLine = false) :
    (c.toBack { a with stage }).line lock =
      if a.lock = lock then c.line lock ++ [{ a with stage }] else c.line lock := by
  have hothers : line (c.filter (·.ticket != a.ticket)) lock = c.line lock := by
    unfold line
    rw [List.filter_filter]
    refine List.filter_congr fun b hb => ?_
    by_cases hsame : b.ticket = a.ticket
    · simp [h b hb hsame]
    · simp [hsame]
  unfold toBack
  rw [line_append, hothers]
  by_cases hlock : a.lock = lock
  · simp [line, hlock, hin]
  · simp [line, hlock]

lemma line_cons : line (a :: c) lock =
    if a.lock = lock ∧ a.stage.inLine = true then a :: c.line lock else c.line lock := by
  simp [line, List.filter_cons]

lemma line_setStage_past (h : stage.isPast = true) :
    (c.setStage t stage).line lock = (c.line lock).filter (·.ticket != t) := by
  induction c with
  | nil => rfl
  | cons a rest ih =>
    rw [setStage_cons, line_cons, line_cons]
    by_cases hsame : a.ticket = t
    · rw [if_pos hsame, if_neg (by simp [Stage.not_inLine_of_isPast h]), ih]
      split
      · rw [List.filter_cons_of_neg (by simp [hsame])]
      · rfl
    · rw [if_neg hsame, ih]
      split
      · rw [List.filter_cons_of_pos (by simp [hsame])]
      · rfl

lemma line_setStage (hin : stage.inLine = true)
    (h : ∀ b ∈ c, b.ticket = t → b.stage.inLine = true) :
    (c.setStage t stage).line lock = (c.line lock).setStage t stage := by
  unfold line setStage
  rw [List.filter_map]
  congr 1
  refine List.filter_congr fun b hb => ?_
  by_cases hsame : b.ticket = t
  · simp [hsame, hin, h b hb hsame]
  · simp [hsame]

/-! ### What a step does -/

/-- No ticket is used twice, and in each line the first is served. -/
structure Fair (c : Contest κ) : Prop where
  distinct : c.Distinct
  served : ∀ lock, Served (c.line lock)

lemma fair_nil : Fair ([] : Contest κ) :=
  ⟨.nil, fun _ => served_nil⟩

lemma Fair.isTaken_iff (h : c.Fair) : c.isTaken lock = true ↔ c.line lock ≠ [] := by
  unfold isTaken
  rw [List.any_eq_true]
  constructor
  · rintro ⟨a, ha, howns⟩ hnone
    simp only [Bool.and_eq_true, decide_eq_true_eq] at howns
    have hin := mem_line.2 ⟨ha, howns.1, Stage.inLine_of_owns howns.2⟩
    rw [hnone] at hin
    cases hin
  · intro hsome
    have hserved := h.served lock
    rcases hline : c.line lock with _ | ⟨first, rest⟩
    · exact absurd hline hsome
    · rw [hline] at hserved
      have hfirst : first ∈ c.line lock := hline ▸ List.mem_cons_self
      obtain ⟨hmem, hlock, -⟩ := mem_line.1 hfirst
      exact ⟨first, hmem, by simp [hlock, hserved.first first rfl]⟩

lemma Fair.isTaken_eq_false (h : c.Fair) (hline : c.line lock = []) : c.isTaken lock = false := by
  rw [← Bool.not_eq_true, h.isTaken_iff, not_not, hline]

lemma Distinct.line (h : c.Distinct) : (c.line lock).Distinct :=
  h.sublist (List.filter_sublist.map _)

lemma setStage_line_of_ne (hd : c.Distinct) (ha : a ∈ c) (hne : a.lock ≠ l) :
    setStage (c.line l) a.ticket stage = c.line l := by
  refine setStage_of_forall_ne fun b hb hsame => hne ?_
  obtain ⟨hb, hlock, -⟩ := mem_line.1 hb
  rw [← hd.eq_of_ticket_eq hb ha hsame, hlock]

lemma line_passOn (hd : c.Distinct) (hwait : ∀ a ∈ c.line lock, a.stage = .waiting) :
    (c.passOn lock).line l = if lock = l then promote (c.line l) else c.line l := by
  have hfirst : (c.find? fun a => a.lock = lock && a.stage == .waiting) =
      (c.line lock).head? := by
    rw [← List.head?_filter]
    refine congrArg List.head? (List.filter_congr fun a ha => ?_)
    by_cases hlock : a.lock = lock
    · have hstage : a.stage.inLine = true → a.stage = .waiting :=
        fun hin => hwait a (mem_line.2 ⟨ha, hlock, hin⟩)
      rw [Bool.eq_iff_iff]
      simp only [hlock, decide_true, Bool.true_and, beq_iff_eq]
      exact ⟨fun hwaiting => by rw [hwaiting]; rfl, hstage⟩
    · simp [hlock]
  unfold passOn
  rw [hfirst]
  rcases hline : c.line lock with _ | ⟨first, rest⟩
  · rw [List.head?_nil]
    dsimp only
    split
    · rename_i hsame
      rw [← hsame, hline]
      rfl
    · rfl
  · have hmem : first ∈ c.line lock := hline ▸ List.mem_cons_self
    obtain ⟨hfirst, hlock, hin⟩ := mem_line.1 hmem
    rw [List.head?_cons]
    dsimp only
    have hset : (c.setStage first.ticket .handed).line l =
        setStage (c.line l) first.ticket .handed := by
      refine line_setStage rfl fun b hb hsame => ?_
      rwa [hd.eq_of_ticket_eq hb hfirst hsame]
    rw [hset]
    split
    · rename_i hsame
      have hdistinct : Distinct (first :: rest) := hline ▸ hd.line
      have hothers : ∀ a ∈ rest, a.ticket ≠ first.ticket := by
        intro a ha hsame
        have htickets := (List.nodup_cons.1 hdistinct).1
        rw [← hsame] at htickets
        exact htickets (List.mem_map_of_mem ha)
      rw [← hsame, hline, setStage_cons, setStage_of_forall_ne hothers, if_pos rfl, promote,
        if_pos (hwait first hmem)]
    · rename_i hne
      exact setStage_line_of_ne hd hfirst fun hsame => hne (hlock.symm.trans hsame)

lemma filter_line_of_not_inLine (hd : c.Distinct) (ha : a ∈ c) (hout : a.stage.inLine = false) :
    (c.line l).filter (·.ticket != a.ticket) = c.line l := by
  refine List.filter_eq_self.2 fun b hb => bne_iff_ne.2 fun hsame => ?_
  obtain ⟨hb, -, hin⟩ := mem_line.1 hb
  rw [hd.eq_of_ticket_eq hb ha hsame, hout] at hin
  cases hin

lemma filter_line_of_ne (hd : c.Distinct) (ha : a ∈ c) (hne : a.lock ≠ l) :
    (c.line l).filter (·.ticket != a.ticket) = c.line l := by
  refine List.filter_eq_self.2 fun b hb => bne_iff_ne.2 fun hsame => hne ?_
  obtain ⟨hb, hlock, -⟩ := mem_line.1 hb
  rw [← hd.eq_of_ticket_eq hb ha hsame, hlock]

/-- What a step of an acquisition does to the lines: nothing, or the acquisition joins the line of
its lock at the end, goes on with a lock that it was handed, or leaves the line for good. -/
inductive Effect (t : Ticket) (c c' : Contest κ) : Prop
  | idle (lines : ∀ lock, c'.line lock = c.line lock)
  | joins {a : Acquisition κ} (mem : a ∈ c) (ticket : a.ticket = t) (looking : a.stage = .looking)
      (lines : ∀ lock, c'.line lock =
        if a.lock = lock then
          c.line lock ++ [{ a with stage := if c.isTaken a.lock then .waiting else .guarding }]
        else c.line lock)
  | resumes {a : Acquisition κ} (mem : a ∈ c) (ticket : a.ticket = t) (handed : a.stage = .handed)
      (lines : ∀ lock, c'.line lock = setStage (c.line lock) t .guarding)
  | leaves {a : Acquisition κ} (mem : a ∈ c) (ticket : a.ticket = t)
      (inLine : a.stage.inLine = true) (past : ∃ a' ∈ c', a'.ticket = t ∧ a'.stage.isPast = true)
      (lines : ∀ lock, c'.line lock = promote ((c.line lock).filter (·.ticket != t)))

lemma Fair.line_eq_cons (h : c.Fair) (ha : a ∈ c) (hown : a.stage.owns = true) :
    ∃ rest, c.line a.lock = a :: rest ∧ a.ticket ∉ rest.map Acquisition.ticket ∧
      ∀ b ∈ rest, b.stage = .waiting := by
  have hin : a ∈ c.line a.lock := mem_line.2 ⟨ha, rfl, Stage.inLine_of_owns hown⟩
  have hserved := h.served a.lock
  have hdistinct : Distinct (c.line a.lock) := h.distinct.line
  rcases hline : c.line a.lock with _ | ⟨first, rest⟩
  · rw [hline] at hin
    cases hin
  rw [hline] at hin hserved hdistinct
  obtain ⟨-, hothers⟩ := served_cons.1 hserved
  obtain rfl : a = first := by
    refine (List.mem_cons.1 hin).resolve_right fun hrest => ?_
    rw [hothers a hrest] at hown
    cases hown
  exact ⟨rest, rfl, (List.nodup_cons.1 hdistinct).1, hothers⟩

lemma Fair.line_withdraw (h : c.Fair) (ha : a ∈ c) (hpast : stage.isPast = true) :
    line (if a.stage.owns && !stage.owns then (c.setStage a.ticket stage).passOn a.lock
      else c.setStage a.ticket stage) l = promote ((c.line l).filter (·.ticket != a.ticket)) := by
  have hd : (c.setStage a.ticket stage).Distinct := h.distinct.setStage
  rw [Stage.not_owns_of_isPast hpast, Bool.not_false, Bool.and_true]
  split
  · rename_i hown
    have hwaiting : ∀ b ∈ (c.setStage a.ticket stage).line a.lock, b.stage = .waiting := by
      rw [line_setStage_past hpast]
      obtain ⟨rest, hline, -, hothers⟩ := h.line_eq_cons ha hown
      intro b hb
      obtain ⟨hb, hne⟩ := List.mem_filter.1 hb
      rw [hline] at hb
      refine hothers b ((List.mem_cons.1 hb).resolve_left ?_)
      rintro rfl
      simp at hne
    rw [line_passOn hd hwaiting, line_setStage_past hpast]
    split
    · rfl
    · rename_i hne
      rw [filter_line_of_ne h.distinct ha hne, (h.served l).promote_eq]
  · rename_i hwaits
    have hserved : Served ((c.line l).filter (·.ticket != a.ticket)) := by
      refine (h.served l).filter fun b hb hown => bne_iff_ne.2 fun hsame => hwaits ?_
      rwa [← h.distinct.eq_of_ticket_eq (mem_line.1 hb).1 ha hsame]
    rw [line_setStage_past hpast, hserved.promote_eq]

lemma Fair.effect_move (h : c.Fair) (t : Ticket) (m : Move) : Effect t c (c.move t m) := by
  rcases h.distinct.move_cases t m with hmove | ⟨a, ha, stage, rfl, hafter, hmove⟩
  · rw [hmove]
    exact .idle fun _ => rfl
  rcases Stage.after_cases hafter with
    ⟨hlooking, rfl⟩ | ⟨hhanded, rfl⟩ | ⟨hin, hpast⟩ | ⟨hpast, hpast'⟩
  · rw [if_pos hlooking] at hmove
    rw [hmove]
    refine .joins ha rfl hlooking fun lock => line_toBack (by split <;> rfl) fun b hb hsame => ?_
    rw [h.distinct.eq_of_ticket_eq hb ha hsame, hlooking]
    rfl
  · rw [if_neg (by simp [hhanded]), if_neg (by simp [Stage.owns])] at hmove
    rw [hmove]
    refine .resumes ha rfl hhanded fun lock => line_setStage rfl fun b hb hsame => ?_
    rw [h.distinct.eq_of_ticket_eq hb ha hsame, hhanded]
    rfl
  · rw [if_neg (by rintro hlooking; rw [hlooking] at hin; cases hin)] at hmove
    have hmem := h.distinct.mem_move ha hafter (by rintro rfl; cases hpast)
    refine .leaves ha rfl hin ⟨_, hmem, rfl, hpast⟩ fun lock => ?_
    rw [hmove]
    exact h.line_withdraw ha hpast
  · have hout := Stage.not_inLine_of_isPast hpast
    rw [if_neg (by rintro hlooking; rw [hlooking] at hpast; cases hpast)] at hmove
    refine .idle fun lock => ?_
    rw [hmove, h.line_withdraw ha hpast', filter_line_of_not_inLine h.distinct ha hout,
      (h.served lock).promote_eq]

lemma Fair.effect (h : c.Fair) (event : Event κ) : Effect event.ticket c (c.next event) := by
  cases event with
  | enter lock ticket => exact .idle fun _ => line_enter
  | move ticket m => exact h.effect_move ticket m

theorem Fair.next (h : c.Fair) (event : Event κ) : (c.next event).Fair := by
  constructor
  · cases event with
    | enter lock ticket => exact h.distinct.enter
    | move ticket m => exact h.distinct.move
  · intro lock
    have hserved := h.served lock
    cases h.effect event with
    | idle lines => rwa [lines]
    | @joins a mem ticket looking lines =>
      rw [lines]
      split
      · rename_i hlock
        subst hlock
        by_cases htaken : c.isTaken a.lock = true
        · rw [if_pos htaken]
          exact hserved.append_waiting (h.isTaken_iff.1 htaken) rfl
        · have hempty : c.line a.lock = [] := by
            rwa [h.isTaken_iff, not_not] at htaken
          rw [if_neg htaken, hempty]
          exact served_cons.2 ⟨rfl, by simp⟩
      · exact hserved
    | @resumes a mem ticket handed lines =>
      rw [lines]
      refine hserved.setStage rfl fun b hb hsame => ?_
      rw [h.distinct.eq_of_ticket_eq (mem_line.1 hb).1 mem (hsame.trans ticket.symm), handed]
      exact Stage.noConfusion
    | leaves mem ticket inLine past lines =>
      rw [lines]
      exact hserved.promote_filter _

/-- The lock that an event is about. -/
def lockOf? (c : Contest κ) : Event κ → Option κ
  | .enter lock _ => some lock
  | .move ticket _ => (c.of? ticket).map Acquisition.lock

lemma Fair.line_next_of_ne (h : c.Fair) {event : Event κ} (hne : c.lockOf? event ≠ some l) :
    (c.next event).line l = c.line l := by
  have hlock : ∀ a ∈ c, a.ticket = event.ticket → (∀ lock ticket, event ≠ .enter lock ticket) →
      a.lock ≠ l := by
    rintro a ha hticket hmove rfl
    cases event with
    | enter lock ticket => exact hmove lock ticket rfl
    | move ticket m =>
      apply hne
      have hticket : a.ticket = ticket := hticket
      rw [lockOf?, ← hticket, h.distinct.of?_eq_some ha]
      rfl
  cases event with
  | enter lock ticket => exact line_enter
  | move ticket m =>
    cases h.effect_move ticket m with
    | idle lines => exact lines l
    | joins mem hticket looking lines =>
      exact (lines l).trans (if_neg (hlock _ mem hticket nofun))
    | resumes mem hticket handed lines =>
      subst hticket
      exact (lines l).trans (setStage_line_of_ne h.distinct mem (hlock _ mem rfl nofun))
    | leaves mem hticket inLine past lines =>
      subst hticket
      refine (lines l).trans ?_
      rw [filter_line_of_ne h.distinct mem (hlock _ mem rfl nofun), (h.served l).promote_eq]

end Contest

end TaskFlow.Lock

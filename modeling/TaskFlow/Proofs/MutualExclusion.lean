import TaskFlow.Proofs.Absence
import TaskFlow.Proofs.Registries
import Mathlib.Data.List.Infix

/-!
# Mutual exclusion

However the steps of acquisitions follow each other, an entity has one guard at most, and whoever
waits for its lock gets it in turn or is told that the wait took too long.
-/

namespace TaskFlow.Lock

namespace Registry

variable {r r' : Registry} {x y : Ident} {t u : Ticket} {a : Acquisition Ident} {stage : Stage}

def guards (r : Registry) (x : Ident) : List Ticket :=
  r.acquisitions.guards x

/-- Those who wait for a lock of an entity, in their order. The first of them may have been handed
it. -/
def waiters (r : Registry) (x : Ident) : List Ticket :=
  r.acquisitions.waiters x

/-- Two registries look alike to those who care for one entity. -/
structure Alike (r r' : Registry) (x : Ident) : Prop where
  guards : r'.guards x = r.guards x
  waiters : r'.waiters x = r.waiters x
  isLocked : r'.isLocked x = r.isLocked x

/-- Each entity has one lock in use, and in each line the first is served. -/
structure Orderly (r : Registry) : Prop where
  sound : r.Sound
  fair : r.acquisitions.Fair

lemma orderly_empty (timeout : Nat) : Orderly { timeoutMillis := timeout } :=
  ⟨sound_empty timeout, Contest.fair_nil⟩

lemma Orderly.after (h : r.Orderly) (events : List (Event Ident)) : (r.after events).Orderly := by
  refine ⟨h.sound.after events, ?_⟩
  rw [h.sound.acquisitions_after]
  exact h.fair.after events

lemma Orderly.next (h : r.Orderly) (event : Event Ident) : (r.next event).Orderly :=
  h.after [event]

lemma Orderly.alike (h : r.Orderly) (h' : r'.Orderly)
    (hline : r'.acquisitions.line x = r.acquisitions.line x) : Alike r r' x := by
  refine ⟨?_, ?_, ?_⟩
  · unfold Registry.guards Contest.guards
    rw [hline]
  · unfold Registry.waiters Contest.waiters
    rw [hline]
  · rw [h.sound.isLocked_eq, h'.sound.isLocked_eq, Bool.eq_iff_iff, h.fair.isTaken_iff,
      h'.fair.isTaken_iff, hline]

lemma timeoutMillis_next (r : Registry) (event : Event Ident) :
    (r.next event).timeoutMillis = r.timeoutMillis := by
  cases event with
  | enter x t =>
    change (r.enter x t).timeoutMillis = _
    unfold enter
    split
    · rfl
    · split <;> rfl
  | move t m =>
    change (r.move t m).timeoutMillis = _
    unfold move
    dsimp only
    split <;> rfl

lemma timeoutMillis_after (r : Registry) (events : List (Event Ident)) :
    (r.after events).timeoutMillis = r.timeoutMillis := by
  induction events generalizing r with
  | nil => rfl
  | cons event events ih => exact (ih (r.next event)).trans (timeoutMillis_next r event)

lemma Sound.reply?_cases (h : r.Sound) {m : Move} {answer : Except EngineError Unit}
    (hreply : r.reply? t m = some answer) : ∃ a ∈ r.acquisitions, a.ticket = t ∧
      ((answer = .ok () ∧ a.stage.after (r.acquisitions.isTaken a.lock) m = some .guarding) ∨
        (answer = .error (.lockTimeout a.lock (.ofMillis r.timeoutMillis)) ∧
          a.stage = .leaving .expired)) := by
  unfold reply? at hreply
  obtain ⟨a, hfound, hanswer⟩ := Option.bind_eq_some_iff.1 hreply
  obtain ⟨ha, hticket⟩ := Contest.mem_of_of?_eq_some hfound
  refine ⟨a.relabel LockId.entity, List.mem_map_of_mem ha, hticket, ?_⟩
  dsimp only [Acquisition.relabel]
  split at hanswer
  · rename_i hlooking
    split at hanswer
    · cases hanswer
    · rename_i hfree
      cases hanswer
      left
      have htaken : r.acquisitions.isTaken a.lock.entity = r.contest.isTaken a.lock :=
        Contest.isTaken_relabel h.named ha (by rw [hlooking]; rfl)
      rw [htaken, hlooking, Bool.eq_false_of_not_eq_true hfree]
      exact ⟨rfl, rfl⟩
  · rename_i hhanded
    cases hanswer
    left
    rw [hhanded]
    exact ⟨rfl, rfl⟩
  · rename_i hleaving
    cases hanswer
    right
    exact ⟨rfl, hleaving⟩
  · cases hanswer

lemma Orderly.isTaken_eq_false (h : r.Orderly) (hguards : r.guards x = [])
    (hwaiters : r.waiters x = []) : r.acquisitions.isTaken x = false :=
  h.fair.isTaken_eq_false (Contest.line_eq_nil hguards hwaiters)

lemma Orderly.reply?_attempt (h : r.Orderly) (ha : ⟨t, x, .looking⟩ ∈ r.acquisitions)
    (hfree : r.acquisitions.isTaken x = false) :
    r.reply? t .attempt = some (.ok ()) ∧ (r.next (.move t .attempt)).guards x = [t] := by
  constructor
  · obtain ⟨a, hmem, rfl, rfl, hlooking⟩ := Contest.mem_relabel.1 ha
    have htaken : r.acquisitions.isTaken a.lock.entity = r.contest.isTaken a.lock :=
      Contest.isTaken_relabel h.sound.named hmem (by rw [hlooking]; rfl)
    unfold reply?
    rw [h.sound.distinct.of?_eq_some hmem, Option.bind_some]
    dsimp only at hfree hlooking ⊢
    rw [hlooking, ← htaken, hfree]
    rfl
  · unfold guards
    rw [h.sound.acquisitions_next]
    exact h.fair.guards_move ha (by rw [hfree]; rfl)

lemma Orderly.acquire (h : r.Orderly) (hnew : ∀ a ∈ r.acquisitions, a.ticket ≠ t)
    (hguards : r.guards x = []) (hwaiters : r.waiters x = []) :
    (r.acquire x t).1 = true ∧ (r.acquire x t).2.guards x = [t] := by
  have hentered : (r.enter x t).Orderly := h.next (.enter x t)
  have hline : (r.enter x t).acquisitions.line x = r.acquisitions.line x := by
    rw [acquisitions_enter]
    exact Contest.line_enter
  have hlooking : ⟨t, x, .looking⟩ ∈ (r.enter x t).acquisitions := by
    have hnone : r.acquisitions.of? t = none :=
      List.find?_eq_none.2 fun a ha => by simpa using hnew a ha
    rw [acquisitions_enter]
    unfold Contest.enter
    rw [hnone]
    exact List.mem_append_right _ (List.mem_singleton_self _)
  have hsame : Alike r (r.enter x t) x := h.alike hentered hline
  have hfree := hentered.isTaken_eq_false (hsame.guards.trans hguards)
    (hsame.waiters.trans hwaiters)
  obtain ⟨hreply, hguarded⟩ := hentered.reply?_attempt hlooking hfree
  refine ⟨?_, hguarded⟩
  change ((r.enter x t).reply? t .attempt).isSome = true
  rw [hreply]
  rfl

/-- What whoever waits for a lock is told in the end: that it has the lock, when all that stood
before it have left, or else that it has waited too long for this lock. -/
lemma Orderly.reply?_waiter (h : r.Orderly) (ht : t ∈ r.waiters x)
    (later : List (Event Ident)) {m : Move} {answer : Except EngineError Unit}
    (hreply : (r.after later).reply? t m = some answer) :
    (answer = .ok () ∧ ((r.after later).next (.move t m)).guards x = [t] ∧
      ∀ u, [u, t].Sublist (r.guards x ++ r.waiters x) →
        u ∉ (r.after later).guards x ∧ u ∉ (r.after later).waiters x) ∨
    (answer = .error (.lockTimeout x (.ofMillis r.timeoutMillis)) ∧
      t ∉ (r.after later).guards x ∧ t ∉ (r.after later).waiters x) := by
  have hafter := h.after later
  have hrun := h.sound.acquisitions_after later
  obtain ⟨a, ha, rfl, hanswer⟩ := hafter.sound.reply?_cases hreply
  -- The acquisition is the one that waits for this lock, and it has tried it by now.
  obtain ⟨b, hb, hticket, hlock, hwaits⟩ := Contest.mem_waiters.1 ht
  obtain ⟨b', hb', hlater⟩ := h.fair.exists_later hb later
  rw [← hrun] at hb'
  obtain rfl := hafter.fair.distinct.eq_of_ticket_eq hb' ha (hlater.ticket.trans hticket)
  have hentity : b'.lock = x := hlater.lock.trans hlock
  have htried : b'.stage ≠ .looking := by
    refine hlater.tried ?_
    rcases hwaits with hs | hs <;> rw [hs] <;> exact Stage.noConfusion
  rcases hanswer with ⟨rfl, hgranted⟩ | ⟨rfl, hleaving⟩
  · left
    have hhanded : b'.stage = .handed := by
      rcases Stage.after_cases hgranted with ⟨hs, -⟩ | ⟨hs, -⟩ | ⟨-, hs⟩ | ⟨-, hs⟩
      · exact absurd hs htried
      · exact hs
      · cases hs
      · cases hs
    refine ⟨rfl, ?_, fun u hahead => ?_⟩
    · unfold guards
      rw [hafter.sound.acquisitions_next, ← hentity]
      exact hafter.fair.guards_move ha hgranted
    · unfold guards waiters at hahead ⊢
      rw [hrun]
      exact h.fair.not_mem_of_ahead hahead later (hrun ▸ ha) rfl (by rw [hhanded]; rfl)
  · right
    rw [hentity, timeoutMillis_after]
    exact ⟨rfl, Contest.not_mem_of_isPast hafter.fair.distinct ha (by rw [hleaving]; rfl)⟩

lemma Sound.reply?_sweep (h : r.Sound) (ha : ⟨t, x, .leaving .expired⟩ ∈ r.acquisitions) :
    r.reply? t .sweep = some (.error (.lockTimeout x (.ofMillis r.timeoutMillis))) := by
  obtain ⟨a, hmem, rfl, rfl, hleaving⟩ := Contest.mem_relabel.1 ha
  unfold reply?
  rw [h.distinct.of?_eq_some hmem, Option.bind_some]
  dsimp only at hleaving ⊢
  rw [hleaving]

lemma Orderly.reply?_expire (h : r.Orderly) (ht : t ∈ r.waiters x) :
    (r.after [.move t (.withdraw .expired), .move t .drop]).reply? t .sweep =
      some (.error (.lockTimeout x (.ofMillis r.timeoutMillis))) := by
  obtain ⟨b, hb, rfl, rfl, hwaits⟩ := Contest.mem_waiters.1 ht
  have hafter : b.stage.after (r.acquisitions.isTaken b.lock) (.withdraw .expired) =
      some (.parting .expired) := by
    rcases hwaits with hs | hs <;> rw [hs] <;> rfl
  have hparting := h.fair.distinct.mem_move hb hafter nofun
  have hleaving : ⟨b.ticket, b.lock, .leaving .expired⟩ ∈
      (r.acquisitions.move b.ticket (.withdraw .expired)).move b.ticket .drop := by
    apply (h.fair.next (.move b.ticket (.withdraw .expired))).distinct.mem_move hparting
    · rfl
    · exact Stage.noConfusion
  have hend := h.after [.move b.ticket (.withdraw .expired), .move b.ticket .drop]
  have hmem : ⟨b.ticket, b.lock, .leaving .expired⟩ ∈ (r.after
      [.move b.ticket (.withdraw .expired), .move b.ticket .drop]).acquisitions := by
    rw [h.sound.acquisitions_after]
    exact hleaving
  rw [hend.sound.reply?_sweep hmem, timeoutMillis_after]

lemma Sound.reply?_resume (h : r.Sound) (ha : ⟨t, x, .handed⟩ ∈ r.acquisitions) :
    r.reply? t .resume = some (.ok ()) := by
  obtain ⟨a, hmem, rfl, -, hhanded⟩ := Contest.mem_relabel.1 ha
  unfold reply?
  rw [h.distinct.of?_eq_some hmem, Option.bind_some]
  dsimp only at hhanded ⊢
  rw [hhanded]

lemma Orderly.reply?_first (h : r.Orderly) (hguards : r.guards x = [])
    (hfirst : (r.waiters x).head? = some u) : r.reply? u .resume = some (.ok ()) := by
  have hqueue : r.acquisitions.queue x = r.waiters x := by
    have hboth := h.fair.queue_eq x
    rwa [show r.acquisitions.guards x = [] from hguards, List.nil_append] at hboth
  have hserved := h.fair.served x
  rw [← hqueue] at hfirst
  unfold Contest.queue at hfirst
  rcases hline : r.acquisitions.line x with _ | ⟨a, rest⟩
  · rw [hline] at hfirst
    cases hfirst
  rw [hline] at hfirst hserved
  cases hfirst
  obtain ⟨ha, rfl, -⟩ := Contest.mem_line.1 (hline ▸ List.mem_cons_self)
  obtain ⟨hown, -⟩ := Contest.served_cons.1 hserved
  apply h.sound.reply?_resume (x := a.lock)
  cases hstage : a.stage with
  | guarding =>
    have hmem : a.ticket ∈ r.guards a.lock := Contest.mem_guards.2 ⟨a, ha, rfl, rfl, hstage⟩
    rw [hguards] at hmem
    cases hmem
  | handed => rwa [← hstage]
  | _ =>
    rw [hstage] at hown
    cases hown

lemma Orderly.expire (h : r.Orderly) (ht : t ∈ r.waiters x) (y : Ident) :
    (r.next (.move t (.withdraw .expired))).guards y = r.guards y ∧
      (r.next (.move t (.withdraw .expired))).waiters y = (r.waiters y).erase t := by
  obtain ⟨a, ha, rfl, -, hwaits⟩ := Contest.mem_waiters.1 ht
  have hafter : a.stage.after (r.acquisitions.isTaken a.lock) (.withdraw .expired) =
      some (.parting .expired) := by
    rcases hwaits with hs | hs <;> rw [hs] <;> rfl
  have hstays : a.ticket ∉ r.acquisitions.guards y := by
    intro hmem
    obtain ⟨b, hb, hsame, -, hstage⟩ := Contest.mem_guards.1 hmem
    rw [h.fair.distinct.eq_of_ticket_eq hb ha hsame] at hstage
    rcases hwaits with hs | hs <;> rw [hs] at hstage <;> cases hstage
  obtain ⟨hguards, hwaiters⟩ := h.fair.guards_withdraw ha hafter y
  rw [List.erase_of_not_mem hstays] at hguards
  unfold guards waiters
  rw [h.sound.acquisitions_next]
  exact ⟨hguards, hwaiters⟩

lemma Orderly.drop (h : r.Orderly) (ht : t ∈ r.guards x) (y : Ident) :
    (r.next (.move t (.withdraw .dropped))).guards y = (r.guards y).erase t ∧
      (r.next (.move t (.withdraw .dropped))).waiters y = r.waiters y := by
  obtain ⟨a, ha, rfl, -, hguarding⟩ := Contest.mem_guards.1 ht
  have hafter : a.stage.after (r.acquisitions.isTaken a.lock) (.withdraw .dropped) =
      some (.parting .dropped) := by
    rw [hguarding]
    rfl
  have hstays : a.ticket ∉ r.acquisitions.waiters y := by
    intro hmem
    obtain ⟨b, hb, hsame, -, hstage⟩ := Contest.mem_waiters.1 hmem
    rw [h.fair.distinct.eq_of_ticket_eq hb ha hsame, hguarding] at hstage
    rcases hstage with hs | hs <;> cases hs
  obtain ⟨hguards, hwaiters⟩ := h.fair.guards_withdraw ha hafter y
  rw [List.erase_of_not_mem hstays] at hwaiters
  unfold guards waiters
  rw [h.sound.acquisitions_next]
  exact ⟨hguards, hwaiters⟩

lemma Orderly.alike_of_isPast (h : r.Orderly) (ha : ⟨t, x, stage⟩ ∈ r.acquisitions)
    (hpast : stage.isPast = true) (m : Move) (y : Ident) : Alike r (r.next (.move t m)) y := by
  refine h.alike (h.next _) ?_
  rw [h.sound.acquisitions_next]
  exact h.fair.line_move_of_isPast ha hpast m y

lemma Orderly.alike_of_ne (h : r.Orderly) {event : Event Ident}
    (hne : r.acquisitions.lockOf? event ≠ some y) : Alike r (r.next event) y := by
  refine h.alike (h.next _) ?_
  rw [h.sound.acquisitions_next]
  exact h.fair.line_next_of_ne hne

/-- If an acquisition never owned its lock, all guards and all other waiters are where they would be
without it. -/
lemma without_acquisition (timeout : Nat) (events : List (Event Ident)) (t : Ticket)
    (hnever : ∀ before, before <+: events →
      (({ timeoutMillis := timeout } : Registry).after before).acquisitions.Bereft t) (y : Ident) :
    let r := ({ timeoutMillis := timeout } : Registry).after events
    let r' := ({ timeoutMillis := timeout } : Registry).after (events.filter (·.ticket != t))
    r'.guards y = r.guards y ∧ r'.waiters y = (r.waiters y).erase t ∧
      r'.isLocked y = r.isLocked y := by
  intro r r'
  have hr : r.Orderly := (orderly_empty timeout).after events
  have hr' : r'.Orderly := (orderly_empty timeout).after _
  have hrun (events : List (Event Ident)) :
      (({ timeoutMillis := timeout } : Registry).after events).acquisitions =
        Contest.after [] events :=
    (sound_empty timeout).acquisitions_after events
  have hbereft : r.acquisitions.Bereft t := hnever events List.prefix_rfl
  have hwithout : r'.acquisitions = r.acquisitions.without t := by
    change Registry.acquisitions (Registry.after _ _) = Contest.without (Registry.acquisitions
      (Registry.after _ _)) t
    rw [hrun, hrun]
    refine (Contest.without_after (c := []) events fun before hprefix => ?_).symm
    rw [← hrun]
    exact hnever before hprefix
  obtain ⟨hguards, hwaiters⟩ := Contest.guards_without hr.fair.distinct hbereft y
  rw [← hwithout] at hguards hwaiters
  refine ⟨hguards, hwaiters, ?_⟩
  rw [hr'.sound.isLocked_eq, hr.sound.isLocked_eq, hwithout, Contest.isTaken_without hbereft]

/-- Whatever steps acquisitions have made: an entity has one guard at most, and its lock counts as
taken just while it has a guard or was handed to a waiter. Whoever asks for a lock without guard and
waiters has it at once. A guard that is dropped is the only one to go, and a lock without guard
belongs to the first of its waiters. Whoever waits for one is told that it has it when all that
stood before it have left, or else that it has waited too long for it. When that happens, the guards
and all other waiters stay as they are, and it makes no difference after that; and if it never owned
the lock, all are where they would be without it. An acquisition of one entity makes no difference
to others. -/
theorem mutual_exclusion (timeout : Nat) (events : List (Event Ident)) :
    let start : Registry := { timeoutMillis := timeout }
    let r := start.after events
    (∀ x, (r.guards x).length ≤ 1) ∧
    (∀ x, r.isLocked x = true ↔ r.guards x ≠ [] ∨ ∃ t, ⟨t, x, .handed⟩ ∈ r.acquisitions) ∧
    (∀ x t, r.guards x = [] → r.waiters x = [] →
      (⟨t, x, .looking⟩ ∈ r.acquisitions → r.reply? t .attempt = some (.ok ()) ∧
        (r.next (.move t .attempt)).guards x = [t]) ∧
      ((∀ a ∈ r.acquisitions, a.ticket ≠ t) →
        (r.acquire x t).1 = true ∧ (r.acquire x t).2.guards x = [t])) ∧
    (∀ x t, r.guards x = [] → (r.waiters x).head? = some t →
      r.reply? t .resume = some (.ok ())) ∧
    (∀ x, ∀ t ∈ r.guards x, ∀ y,
      (r.next (.move t (.withdraw .dropped))).guards y = (r.guards y).erase t ∧
        (r.next (.move t (.withdraw .dropped))).waiters y = r.waiters y) ∧
    (∀ x, ∀ t ∈ r.waiters x,
      (∀ later m answer, (r.after later).reply? t m = some answer →
        (answer = .ok () ∧ ((r.after later).next (.move t m)).guards x = [t] ∧
          ∀ u, [u, t].Sublist (r.guards x ++ r.waiters x) →
            u ∉ (r.after later).guards x ∧ u ∉ (r.after later).waiters x) ∨
        (answer = .error (.lockTimeout x (.ofMillis timeout)) ∧
          t ∉ (r.after later).guards x ∧ t ∉ (r.after later).waiters x)) ∧
      (r.after [.move t (.withdraw .expired), .move t .drop]).reply? t .sweep =
        some (.error (.lockTimeout x (.ofMillis timeout))) ∧
      ∀ y, (r.next (.move t (.withdraw .expired))).guards y = r.guards y ∧
        (r.next (.move t (.withdraw .expired))).waiters y = (r.waiters y).erase t) ∧
    (∀ x t stage, ⟨t, x, stage⟩ ∈ r.acquisitions → stage.isPast = true →
      ∀ m y, Alike r (r.next (.move t m)) y) ∧
    (∀ t, (∀ before, before <+: events → (start.after before).acquisitions.Bereft t) →
      let r' := start.after (events.filter (·.ticket != t))
      ∀ y, r'.guards y = r.guards y ∧ r'.waiters y = (r.waiters y).erase t ∧
        r'.isLocked y = r.isLocked y) ∧
    (∀ event y, r.acquisitions.lockOf? event ≠ some y → Alike r (r.next event) y) := by
  intro start r
  have h : r.Orderly := (orderly_empty timeout).after events
  have htimeout : r.timeoutMillis = timeout := timeoutMillis_after start events
  refine ⟨h.fair.guards_length_le, fun x => ?_,
    fun x t hguards hwaiters => ⟨fun ha => ?_, fun hnew => ?_⟩,
    fun x t => h.reply?_first, fun x t ht => h.drop ht,
    fun x t ht => ⟨fun later m answer hreply => ?_, ?_, h.expire ht⟩,
    fun x t stage ha hpast => h.alike_of_isPast ha hpast,
    without_acquisition timeout events, fun event y => h.alike_of_ne⟩
  · rw [h.sound.isLocked_eq, Contest.isTaken_iff_guards]
    refine or_congr_right ⟨?_, ?_⟩
    · rintro ⟨a, ha, rfl, hhanded⟩
      exact ⟨a.ticket, by rwa [← hhanded]⟩
    · rintro ⟨t, ha⟩
      exact ⟨_, ha, rfl, rfl⟩
  · exact h.reply?_attempt ha (h.isTaken_eq_false hguards hwaiters)
  · exact h.acquire hnew hguards hwaiters
  · rw [← htimeout]
    exact h.reply?_waiter ht later hreply
  · rw [← htimeout]
    exact h.reply?_expire ht

/-- A registry of its own after events. -/
def run (events : List (Event Ident)) : Registry :=
  after { timeoutMillis := 30000 } events

/-- Three acquisitions of the same lock: the first guards it, and the others wait. -/
def contested : List (Event Ident) :=
  [0, 1, 2].flatMap fun t => [.enter (.ofNat 1) t, .move t .attempt]

/-- The second acquisition waits too long, and the guard of the first is dropped. -/
def ending : List (Event Ident) :=
  [.move 1 (.withdraw .expired), .move 1 .drop, .move 1 .sweep,
    .move 0 (.withdraw .dropped), .move 0 .drop, .move 0 .sweep]

/-- The third acquisition ends too, and nobody has a handle on the lock any more. -/
def idle : List (Event Ident) :=
  contested ++ ending ++
    [.move 2 .resume, .move 2 (.withdraw .dropped), .move 2 .drop, .move 2 .sweep]

theorem mutual_exclusion_contested :
    (run contested).isLocked (.ofNat 1) = true ∧ (run contested).waiters (.ofNat 1) = [1, 2] ∧
    ((run contested).next (.move 0 (.withdraw .dropped))).guards (.ofNat 1) = [] ∧
    ((run contested).next (.move 1 (.withdraw .expired))).waiters (.ofNat 1) = [2] ∧
    ((run contested).after ending).reply? 2 .resume = some (.ok ()) ∧
    0 ∉ ((run contested).after ending).guards (.ofNat 1) ∧
    (((run contested).after ending).next (.move 2 .resume)).guards (.ofNat 1) = [2] ∧
    (run (contested.filter (·.ticket != 1))).waiters (.ofNat 1) = [2] ∧
    Alike (run contested) ((run contested).next (.enter (.ofNat 2) 3)) (.ofNat 1) ∧
    (run idle).entries = [] ∧ ((run idle).acquire (.ofNat 1) 3).1 = true ∧
    ((run idle).acquire (.ofNat 1) 3).2.entries = [⟨.ofNat 1, 1⟩] ∧
    Alike (run idle) ((run idle).next (.move 2 .resume)) (.ofNat 1) := by
  have hwaiters : (run contested).waiters (.ofNat 1) = [1, 2] := by decide
  have hresumes : ((run contested).after ending).reply? 2 .resume = some (.ok ()) := by
    obtain ⟨-, -, -, hfirst, -⟩ := mutual_exclusion 30000 (contested ++ ending)
    exact hfirst (.ofNat 1) 2 (by decide) (by decide)
  have hnever : ∀ before, before <+: contested → (run before).acquisitions.Bereft 1 := by
    intro before hprefix
    rw [← List.mem_inits] at hprefix
    revert before
    unfold Contest.Bereft
    decide
  obtain ⟨-, hlocked, -, -, hdropped, hqueued, -, hwithout, hothers⟩ :=
    mutual_exclusion 30000 contested
  obtain ⟨-, -, hexpired⟩ := hqueued (.ofNat 1) 1 (by decide)
  obtain ⟨hgranted, -, -⟩ := hqueued (.ofNat 1) 2 (by decide)
  obtain ⟨-, hguards, hgone⟩ := (hgranted ending .resume _ hresumes).resolve_right nofun
  obtain ⟨-, -, hfree, -, -, -, hpast, -, -⟩ := mutual_exclusion 30000 idle
  refine ⟨(hlocked _).2 (.inl (by decide)), hwaiters, ?_, ?_, hresumes, ?_, hguards, ?_,
    hothers _ _ (by decide), by decide, ?_, by decide, ?_⟩
  · exact (hdropped (.ofNat 1) 0 (by decide) _).1.trans (by decide)
  · exact (hexpired _).2.trans (by decide)
  · exact (hgone 0 (by decide)).1
  · exact (hwithout 1 hnever _).2.1.trans (by decide)
  · exact ((hfree _ 3 (by decide) (by decide)).2 (by decide)).1
  · exact hpast (.ofNat 1) 2 .gone (by decide) rfl .resume _

end Registry

end TaskFlow.Lock

import TaskFlow.Proofs.Transitions
import Mathlib.Data.List.Induction
import Mathlib.Data.List.Nodup
import Mathlib.Data.Nat.Init
import Mathlib.Logic.Relation

/-!
# Ways through the flow

A flow that names each status once can be walked from end to end, and where the way back is allowed
no status is a trap. A flow that comes back to a status cannot: a status stands in the flow where it
is named first, so from its second place the walk is refused.
-/

open Relation (ReflTransGen)

namespace TaskFlow.Workflow.Spec

variable {w : Spec} {s source target next : Status} {i j : Nat}

lemma idxOf?_of_nodup_append {front : List Status} (hdistinct : front.Nodup)
    (hi : front[i]? = some s) (rest : List Status) : (front ++ rest).idxOf? s = some i := by
  obtain ⟨hlt, heq⟩ := List.getElem?_eq_some_iff.1 hi
  refine idxOf?_eq_some_iff_first.2 ⟨?_, fun j hj hsame => ?_⟩
  · rw [List.getElem?_append_left hlt, hi]
  · have hlt' : j < front.length := by omega
    rw [List.getElem?_append_left hlt'] at hsame
    obtain ⟨_, heq'⟩ := List.getElem?_eq_some_iff.1 hsame
    have hji : j = i := hdistinct.getElem_inj_iff.1 (heq'.trans heq.symm)
    omega

lemma position_of_nodup (hdistinct : w.flow.Nodup) (hi : w.flow[i]? = some s) :
    w.position s = some i := by
  have hposition := idxOf?_of_nodup_append hdistinct hi []
  rwa [List.append_nil] at hposition

lemma reaches_onward (hclosed : w.Closed) (hdistinct : w.flow.Nodup)
    (hsource : w.flow[i]? = some source) (hij : i ≤ j) (htarget : w.flow[j]? = some target) :
    ReflTransGen w.Step source target := by
  induction j, hij using Nat.le_induction generalizing target with
  | base =>
    rw [hsource] at htarget
    cases htarget
    exact .refl
  | succ j hij ih =>
    have hj : j < w.flow.length := by
      have hlt := (List.getElem?_eq_some_iff.1 htarget).1
      omega
    have hbefore : w.flow[j]? = some w.flow[j] := List.getElem?_eq_getElem hj
    have hleads : w.Leads w.flow[j] target :=
      ⟨j, j + 1, position_of_nodup hdistinct hbefore, position_of_nodup hdistinct htarget, .inl rfl⟩
    exact (ih hbefore).tail (hleads.step hclosed)

lemma reaches_within (hclosed : w.Closed) (hdistinct : w.flow.Nodup)
    (hback : w.rules.allowBackward = true) (hsource : source ∈ w.flow) (htarget : target ∈ w.flow) :
    ReflTransGen w.Step source target := by
  obtain ⟨i, hi⟩ := exists_position hsource
  obtain ⟨j, hj⟩ := exists_position htarget
  by_cases hij : i ≤ j
  · exact reaches_onward hclosed hdistinct (position_eq_some_iff.1 hi).1 hij
      (position_eq_some_iff.1 hj).1
  · have hleads : w.Leads source target := ⟨i, j, hi, hj, .inr ⟨by omega, hback⟩⟩
    exact .single (hleads.step hclosed)

/-- Where the way back is allowed and the flow names each status once and begins with one that is
not terminal, every status of the flow can be reached from every status that is allowed, by changes
that are accepted. Only a terminal status outside the flow needs a non-terminal emergency status for
that. -/
theorem reaches_flow (w : Spec) (hadmitted : w.Admitted) (hdistinct : w.flow.Nodup)
    (hstart : ∀ first, w.flow.head? = some first → first ∉ w.terminal)
    (hback : w.rules.allowBackward = true) :
    (∀ source ∈ w.allowed, source ∉ w.terminal ∨ source ∈ w.flow →
      ∀ target ∈ w.flow, ReflTransGen w.Step source target) ∧
    (w.rules.allowEmergency = true → (∃ e ∈ w.emergency, e ∉ w.terminal) →
      ∀ source ∈ w.allowed, ∀ target ∈ w.flow, ReflTransGen w.Step source target) := by
  have hclosed := hadmitted.closed
  obtain ⟨first, rest, hflow⟩ := List.exists_cons_of_ne_nil hclosed.nonempty
  have hfirst : first ∈ w.flow := by simp [hflow]
  have hopen : first ∉ w.terminal := hstart first (by simp [hflow])
  have henter : ∀ source ∈ w.allowed, source ∉ w.flow → w.Permits source first →
      ∀ target ∈ w.flow, ReflTransGen w.Step source target := by
    intro source hsource hout hpermits target htarget
    have hne : source ≠ first := by
      rintro rfl
      exact hout hfirst
    have hstep : w.Step source first :=
      step_iff.2 ⟨hsource, hclosed.flow first hfirst, hne, hpermits⟩
    exact .head hstep (reaches_within hclosed hdistinct hback hfirst htarget)
  have hsafe : ∀ source ∈ w.allowed, source ∉ w.terminal ∨ source ∈ w.flow →
      ∀ target ∈ w.flow, ReflTransGen w.Step source target := by
    intro source hsource hkind target htarget
    by_cases hin : source ∈ w.flow
    · exact reaches_within hclosed hdistinct hback hin htarget
    · have hunfinished : source ∉ w.terminal := hkind.resolve_right hin
      exact henter source hsource hin (.resuming hin hunfinished hfirst hopen) target htarget
  refine ⟨hsafe, fun hemergency hescape source hsource target htarget => ?_⟩
  by_cases hin : source ∈ w.flow
  · exact hsafe source hsource (.inr hin) target htarget
  by_cases hterminal : source ∈ w.terminal
  · exact henter source hsource hin (.reopening hemergency hterminal hfirst hescape) target htarget
  · exact hsafe source hsource (.inl hterminal) target htarget

/-- A document whose flow passes an emergency status and goes on after a terminal one. -/
def overlapping : Progression where
  flow := ["draft", "on-hold", "completed", "archived"]
  emergency := ["on-hold", "cancelled"]
  terminal := ["completed", "cancelled"]

def overlapped : Spec where
  kind := .feature
  allowed := Kind.feature.vocabulary ++ [.cancelled]
  flow := [.draft, .onHold, .completed, .archived]
  emergency := [.onHold, .cancelled]
  terminal := [.completed, .cancelled]
  roles := []
  rules := {}

theorem reaches_flow_overlapped : ofProgression .feature overlapping {} .given = .ok overlapped ∧
    overlapped.Admitted ∧ overlapped.flow.Nodup ∧
    (∀ first, overlapped.flow.head? = some first → first ∉ overlapped.terminal) ∧
    overlapped.rules.allowBackward = true ∧ overlapped.rules.allowEmergency = true ∧
    (∃ e ∈ overlapped.emergency, e ∉ overlapped.terminal) ∧
    Status.cancelled ∈ overlapped.allowed ∧ Status.archived ∈ overlapped.flow ∧
    ReflTransGen overlapped.Step .cancelled .archived := by
  have hread : ofProgression .feature overlapping {} .given = .ok overlapped := by decide
  have hdistinct : overlapped.flow.Nodup := by decide
  have hstart : ∀ first, overlapped.flow.head? = some first → first ∉ overlapped.terminal := by
    rintro first ⟨⟩
    decide
  have hescape : ∃ e ∈ overlapped.emergency, e ∉ overlapped.terminal := by decide
  have hsource : Status.cancelled ∈ overlapped.allowed := by decide
  have htarget : Status.archived ∈ overlapped.flow := by decide
  have hreaches := (reaches_flow overlapped (.read hread) hdistinct hstart rfl).2 rfl hescape
  exact ⟨hread, .read hread, hdistinct, hstart, rfl, rfl, hescape, hsource, htarget,
    hreaches _ hsource _ htarget⟩

/-- No status of the flow is named twice, save that the last may be repeated at the end. -/
def Straight (flow : List Status) : Prop :=
  ∃ front last n, flow = front ++ List.replicate (n + 1) last ∧ (front ++ [last]).Nodup

/-- Every step along the flow is accepted, and so is the step that is named as the next one when a
skip is refused. -/
structure Walkable (w : Spec) : Prop where
  onward : ∀ i source target, w.flow[i]? = some source → w.flow[i + 1]? = some target →
    source ≠ target → w.Step source target
  named : ∀ source target next,
    w.checkTransition source target = .error (.skips source target next) → w.Step source next

lemma Straight.leads (h : Straight w.flow) (hij : i < j) (hsource : w.flow[i]? = some source)
    (htarget : w.flow[j]? = some target) (hne : source ≠ target)
    (hnext : w.flow[i + 1]? = some next) : w.Leads source next := by
  obtain ⟨front, last, n, hflow, hdistinct⟩ := h
  have hsplit : w.flow = (front ++ [last]) ++ List.replicate n last := by
    rw [hflow, List.replicate_succ, List.append_cons]
  have hplace : ∀ k ≤ front.length, w.flow[k]? = (front ++ [last])[k]? := by
    intro k hk
    rw [hsplit, List.getElem?_append_left (by simp; omega)]
  have hrest : ∀ k s, front.length ≤ k → w.flow[k]? = some s → s = last := by
    intro k s hk hs
    rw [hflow, List.getElem?_append_right hk] at hs
    exact List.eq_of_mem_replicate (List.mem_of_getElem? hs)
  have hi : i < front.length := by
    by_contra hge
    have hs := hrest i source (by omega) hsource
    have ht := hrest j target (by omega) htarget
    exact hne (hs.trans ht.symm)
  have hposition : ∀ k s, k ≤ front.length → w.flow[k]? = some s → w.position s = some k := by
    intro k s hk hs
    rw [hplace k hk] at hs
    unfold position
    rw [hsplit]
    exact idxOf?_of_nodup_append hdistinct hs _
  exact ⟨i, i + 1, hposition i source (by omega) hsource, hposition (i + 1) next hi hnext, .inl rfl⟩

lemma idxOf?_append_of_mem {front : List Status} (hs : s ∈ front) (rest : List Status) :
    (front ++ rest).idxOf? s = front.idxOf? s := by
  obtain ⟨i, hi⟩ := Option.isSome_iff_exists.1 (List.isSome_idxOf?.2 hs)
  have hfront := idxOf?_eq_some_iff_first.1 hi
  have hlt := (List.getElem?_eq_some_iff.1 hfront.1).1
  rw [hi]
  refine idxOf?_eq_some_iff_first.2 ⟨?_, fun j hj => ?_⟩
  · rw [List.getElem?_append_left hlt]
    exact hfront.1
  · rw [List.getElem?_append_left (by omega)]
    exact hfront.2 j hj

/-- After a repeated status another one cannot stand next to the first place of that status, so
where it does stand there the flow has not repeated anything and goes on straight. -/
lemma straight_concat {front : List Status} {last : Status} {n k : Nat}
    (hdistinct : (front ++ [last]).Nodup) (hne : s ≠ last)
    (hlast : (front ++ List.replicate (n + 1) last ++ [s]).idxOf? last = some k)
    (hs : (front ++ List.replicate (n + 1) last ++ [s]).idxOf? s = some (k + 1)) :
    Straight (front ++ List.replicate (n + 1) last ++ [s]) := by
  have hsplit : front ++ List.replicate (n + 1) last ++ [s] =
      (front ++ [last]) ++ (List.replicate n last ++ [s]) := by
    simp [List.replicate_succ]
  have hfirst : (front ++ List.replicate (n + 1) last ++ [s]).idxOf? last = some front.length := by
    rw [hsplit]
    exact idxOf?_of_nodup_append hdistinct List.getElem?_concat_length _
  obtain rfl : k = front.length := Option.some.inj (hlast.symm.trans hfirst)
  obtain ⟨hnext, hnew⟩ := idxOf?_eq_some_iff_first.1 hs
  rw [hsplit] at hnext hnew
  have hn : n = 0 := by
    by_contra hpos
    have hsame : (List.replicate n last ++ [s])[0]? = some last := by
      rw [List.getElem?_append_left (by simp; omega), List.getElem?_replicate_of_lt (by omega)]
    rw [List.getElem?_append_right (by simp), List.length_append, List.length_singleton,
      Nat.sub_self, hsame] at hnext
    exact hne (Option.some.inj hnext).symm
  have hfresh : s ∉ front ++ [last] := by
    intro hmem
    obtain ⟨j, hj⟩ := List.getElem?_of_mem hmem
    have hlt := (List.getElem?_eq_some_iff.1 hj).1
    apply hnew j (by simpa using hlt)
    rw [List.getElem?_append_left hlt, hj]
  subst hn
  refine ⟨front ++ [last], s, 0, rfl, ?_⟩
  rw [← List.concat_eq_append]
  exact hdistinct.concat hfresh

lemma straight_of_consecutive {flow : List Status} (hne : flow ≠ [])
    (h : ∀ (i : Nat) source target, flow[i]? = some source → flow[i + 1]? = some target →
      source ≠ target → ∃ k, flow.idxOf? source = some k ∧ flow.idxOf? target = some (k + 1)) :
    Straight flow := by
  induction flow using List.reverseRecOn with
  | nil => exact absurd rfl hne
  | append_singleton shorter s ih =>
    by_cases hshorter : shorter = []
    · subst hshorter
      exact ⟨[], s, 0, rfl, List.nodup_singleton s⟩
    have hbefore := ih hshorter fun i source target hsource htarget hdiffer => by
      have hi := (List.getElem?_eq_some_iff.1 hsource).1
      have hi' := (List.getElem?_eq_some_iff.1 htarget).1
      rw [← idxOf?_append_of_mem (List.mem_of_getElem? hsource) [s],
        ← idxOf?_append_of_mem (List.mem_of_getElem? htarget) [s]]
      apply h i source target _ _ hdiffer
      · rw [List.getElem?_append_left hi, hsource]
      · rw [List.getElem?_append_left hi', htarget]
    obtain ⟨front, last, n, rfl, hdistinct⟩ := hbefore
    by_cases hlast : s = last
    · subst hlast
      refine ⟨front, s, n + 1, ?_, hdistinct⟩
      rw [List.append_assoc, ← List.replicate_succ']
    · have hlength : (front ++ List.replicate (n + 1) last).length = front.length + n + 1 := by
        simp
        omega
      have hend : (front ++ List.replicate (n + 1) last)[front.length + n]? = some last := by
        rw [List.getElem?_append_right (by omega), List.getElem?_replicate_of_lt (by omega)]
      obtain ⟨k, hk, hk'⟩ := h (front.length + n) last s
        (by rw [List.getElem?_append_left (by omega), hend])
        (by rw [← hlength, List.getElem?_concat_length]) (Ne.symm hlast)
      exact straight_concat hdistinct hlast hk hk'

/-- Whatever rules a document sets, its flow can be walked just if the flow is straight. -/
theorem walkable_iff (kind : Kind) (p : Progression) (rules : Rules) (order : KeyOrder) (w : Spec)
    (hread : ofProgression kind p rules order = .ok w) :
    (∀ other order' w', ofProgression kind p other order' = .ok w' → w'.Walkable) ↔
      Straight w.flow := by
  constructor
  · intro hwalk
    -- Under the strictest rules only the flow itself lets a status of the flow go on.
    let strict : Rules := { allowBackward := false, allowEmergency := false }
    have hstrict := hwalk strict order _ (ofProgression_with_rules hread strict)
    refine straight_of_consecutive (closed_of_ofProgression hread).nonempty ?_
    intro i source target hsource htarget hdiffer
    have hstep := hstrict.onward i source target hsource htarget hdiffer
    obtain ⟨-, -, -, hpermits⟩ := step_iff.1 hstep
    cases hpermits with
    | free hfree => cases hfree
    | flow hleads =>
      obtain ⟨k, m, hk, hm, rfl | ⟨-, hback⟩⟩ := hleads
      · exact ⟨k, hk, hm⟩
      · cases hback
    | emergency hallowed => cases hallowed
    | reopening hallowed => cases hallowed
    | resuming hout => exact absurd (List.mem_of_getElem? hsource) hout
  · intro hstraight other order' w' hother
    have hclosed := closed_of_ofProgression hother
    have hflow : w'.flow = w.flow := by
      rw [(alike_of_ofProgression (ofProgression_with_rules hread other) hother).fields]
    rw [← hflow] at hstraight
    constructor
    · intro i source target hsource htarget hdiffer
      have hleads := hstraight.leads (Nat.lt_succ_self i) hsource htarget hdiffer htarget
      exact hleads.step hclosed
    · intro source target next hskip
      obtain ⟨i, j, hi, hj, hij, hnext⟩ := of_checkTransition_skips hskip
      have hdiffer : source ≠ target := by
        rintro rfl
        have hsame := Option.some.inj (hi.symm.trans hj)
        omega
      have hleads := hstraight.leads hij (position_eq_some_iff.1 hi).1
        (position_eq_some_iff.1 hj).1 hdiffer hnext
      exact hleads.step hclosed

/-- A document whose flow ends in two spellings of one status. -/
def tapering : Progression where
  flow := ["pending", "testing", "Completed", "completed"]
  terminal := ["completed"]

theorem walkable_tapering : ∃ w, ofProgression .task tapering {} .given = .ok w ∧
    w.flow = [.pending, .testing, .completed, .completed] ∧
    ∀ other order' w', ofProgression .task tapering other order' = .ok w' → w'.Walkable := by
  rcases hread : ofProgression .task tapering {} .given with cause | w
  · cases hread
  have hflow : w.flow = [.pending, .testing, .completed, .completed] := by
    cases hread
    decide
  refine ⟨w, rfl, hflow, (walkable_iff .task tapering {} .given w hread).2 ?_⟩
  rw [hflow]
  exact ⟨[.pending, .testing], .completed, 1, rfl, by decide⟩

/-- A document whose flow comes back to its first status, in another spelling. -/
def returning : Progression where
  flow := ["pending", "in-progress", "Pending", "completed"]
  terminal := ["completed"]

/-- The workflow of tasks under that document, with the way back closed. -/
def returned : Spec where
  kind := .task
  allowed := Kind.task.vocabulary
  flow := [.pending, .inProgress, .pending, .completed]
  emergency := []
  terminal := [.completed]
  roles := []
  rules := { allowBackward := false }

/-- From its second place the first status may not go on, and what a refusal names as the next
status is refused in its turn. -/
theorem not_walkable_returned :
    ofProgression .task returning { allowBackward := false } .given = .ok returned ∧
    returned.flow[2]? = some .pending ∧ returned.flow[3]? = some .completed ∧
    returned.checkTransition .pending .completed =
      .error (.skips .pending .completed .inProgress) ∧
    returned.checkTransition .inProgress .completed =
      .error (.skips .inProgress .completed .pending) ∧
    returned.checkTransition .inProgress .pending = .error (.backward .inProgress .pending) ∧
    ¬ returned.Walkable := by
  have hrefused : ¬ returned.Step .pending .completed := by decide
  refine ⟨by decide, rfl, rfl, by decide, by decide, by decide, fun hwalk => ?_⟩
  exact hrefused (hwalk.onward 2 .pending .completed rfl rfl (by decide))

end TaskFlow.Workflow.Spec

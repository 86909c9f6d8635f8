import TaskFlow.Status
import Mathlib.Data.String.Basic
import Mathlib.Tactic.Lemma

/-!
# Names of statuses

A name in canonical form has no blanks to lose, is as many bytes long as it has characters, and
reads as the status that it names.
-/

namespace TaskFlow

variable {c : Char}

lemma toNat_of_isStatusChar (h : isStatusChar c = true) :
    (48 ≤ c.toNat ∧ c.toNat ≤ 57) ∨ (65 ≤ c.toNat ∧ c.toNat ≤ 90) ∨ c.toNat = 95 := by
  simp only [isStatusChar, Bool.or_eq_true, beq_iff_eq] at h
  rcases h with (hupper | hdigit) | rfl
  · obtain ⟨hleft, hright⟩ : c.val ≥ 'A'.val ∧ c.val ≤ 'Z'.val := of_decide_eq_true hupper
    exact .inr (.inl ⟨UInt32.le_iff_toNat_le.1 hleft, UInt32.le_iff_toNat_le.1 hright⟩)
  · exact .inl (Char.isDigit_iff_toNat.1 hdigit)
  · exact .inr (.inr rfl)

lemma isBlank_of_isStatusChar (h : isStatusChar c = true) : Text.isBlank c = false := by
  have hcode := toNat_of_isStatusChar h
  rw [← Bool.not_eq_true]
  intro hblank
  simp only [Text.isBlank, Bool.or_eq_true, Bool.and_eq_true, decide_eq_true_eq, beq_iff_eq]
    at hblank
  omega

lemma utf8Size_of_isStatusChar (h : isStatusChar c = true) : c.utf8Size = 1 := by
  have hcode := toNat_of_isStatusChar h
  rw [Char.utf8Size_eq_one_iff, UInt32.le_iff_toNat_le]
  change c.toNat ≤ 127
  omega

lemma foldChar_of_isStatusChar (h : isStatusChar c = true) : Status.foldChar c = c := by
  have hcode := toNat_of_isStatusChar h
  have hdash : ¬ (c = '-' ∨ c = ' ') := by
    rintro (rfl | rfl)
    · cases h
    · cases h
  have hlower : ¬ ('a'.val ≤ c.val ∧ c.val ≤ 'z'.val) := by
    rintro ⟨hle, -⟩
    have hle' : 97 ≤ c.toNat := UInt32.le_iff_toNat_le.1 hle
    omega
  have hupper : c.toUpper = c := dif_neg hlower
  rw [Status.foldChar, if_neg hdash, hupper]

lemma utf8Len_eq_length {cs : List Char} (h : ∀ c ∈ cs, c.utf8Size = 1) :
    String.utf8Len cs = cs.length := by
  induction cs with
  | nil => rfl
  | cons c cs ih =>
    rw [String.utf8Len_cons, ih fun d hd => h d (List.mem_cons_of_mem _ hd),
      h c List.mem_cons_self, List.length_cons]

lemma dropWhile_eq_self {p : Char → Bool} {cs : List Char} (h : ∀ c ∈ cs, p c = false) :
    cs.dropWhile p = cs := by
  cases cs with
  | nil => rfl
  | cons c cs => rw [List.dropWhile_cons_of_neg (by simp [h c List.mem_cons_self])]

lemma Text.trim_eq_self {s : String} (h : ∀ c ∈ s.toList, Text.isBlank c = false) :
    Text.trim s = s := by
  have hreverse : ∀ c ∈ s.toList.reverse, Text.isBlank c = false :=
    fun c hc => h c (List.mem_reverse.1 hc)
  rw [Text.trim, Text.trimList, dropWhile_eq_self h, dropWhile_eq_self hreverse,
    List.reverse_reverse, String.ofList_toList]

namespace Status

lemma eq_iff_toList {s s' : Status} : s = s' ↔ s.name.toList = s'.name.toList := by
  rw [String.toList_inj]
  constructor
  · rintro rfl
    rfl
  · intro hname
    cases s
    cases s'
    cases hname
    rfl

/-- A text names a status if what is left of it without the blanks around it is not empty, not too
long, and the name of the status once it is folded. -/
lemma parse_eq_ok_iff {raw : String} {s : Status} : parse raw = .ok s ↔
    (1 ≤ (Text.trim raw).utf8ByteSize ∧ (Text.trim raw).utf8ByteSize ≤ 64) ∧
      s.name.toList = (Text.trim raw).toList.map foldChar := by
  have hempty : (Text.trim raw).isEmpty = true ↔ ¬ 1 ≤ (Text.trim raw).utf8ByteSize := by
    rw [String.isEmpty_iff, ← String.utf8ByteSize_eq_zero_iff, Nat.not_le, Nat.lt_one_iff]
  unfold parse
  dsimp only
  split
  · rename_i hnone
    exact ⟨nofun, fun hread => absurd hread.1.1 (hempty.1 hnone)⟩
  rename_i hsome
  rw [hempty, not_not] at hsome
  split
  · rename_i hlong
    exact ⟨nofun, fun hread => absurd hread.1.2 (Nat.not_le.2 hlong)⟩
  rename_i hshort
  rw [Nat.not_lt] at hshort
  split
  · rw [Except.ok.injEq, eq_iff_toList, String.toList_ofList]
    exact ⟨fun hname => ⟨⟨hsome, hshort⟩, hname.symm⟩, fun hread => hread.2.symm⟩
  · rename_i hbad
    refine ⟨nofun, fun hread => absurd ?_ hbad⟩
    rw [← hread.2, String.ofList_toList]
    exact s.canonical

lemma name_chars (s : Status) : ∀ c ∈ s.name.toList, isStatusChar c = true := by
  have hname := s.canonical
  simp only [isStatusName, Bool.and_eq_true, List.all_eq_true] at hname
  exact hname.1.1

lemma name_length (s : Status) : 1 ≤ s.name.toList.length ∧ s.name.toList.length ≤ 64 := by
  have hname := s.canonical
  simp only [isStatusName, Bool.and_eq_true, decide_eq_true_eq, Bool.not_eq_true',
    List.isEmpty_eq_false_iff] at hname
  exact ⟨List.length_pos_iff.2 hname.1.2, hname.2⟩

lemma parse_eq_ok_of_map {s : Status} {text : String}
    (hplain : ∀ c ∈ text.toList, Text.isBlank c = false ∧ c.utf8Size = 1)
    (hname : text.toList.map foldChar = s.name.toList) : parse text = .ok s := by
  have hlength : text.utf8ByteSize = s.name.toList.length := by
    rw [← String.utf8Len_toList, utf8Len_eq_length fun c hc => (hplain c hc).2, ← hname,
      List.length_map]
  rw [parse_eq_ok_iff, Text.trim_eq_self fun c hc => (hplain c hc).1, hlength]
  exact ⟨s.name_length, hname.symm⟩

lemma parse_name (s : Status) : parse s.name = .ok s := by
  apply parse_eq_ok_of_map
  · intro c hc
    have hchar := s.name_chars c hc
    exact ⟨isBlank_of_isStatusChar hchar, utf8Size_of_isStatusChar hchar⟩
  · exact (List.map_congr_left fun c hc => foldChar_of_isStatusChar (s.name_chars c hc)).trans
      (List.map_id' _)

end Status

end TaskFlow

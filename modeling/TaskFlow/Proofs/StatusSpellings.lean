import TaskFlow.Proofs.StatusNames
import TaskFlow.Status
import Mathlib.Data.List.Forall2

/-!
# Spellings of statuses

Which texts name a status, and which of them name the same one: letters, digits, underscores,
hyphens and spaces spell a name, and two spellings of one status differ in nothing but the case of
letters and the choice between underscore, hyphen and space.
-/

namespace TaskFlow

/-- The text is what is left of another one without the blanks at its two ends. -/
def Text.Trims (raw text : String) : Prop :=
  ∃ before after, raw.toList = before ++ text.toList ++ after ∧
    (∀ c ∈ before ++ after, Text.isBlank c = true) ∧
    (∀ c ∈ text.toList.head?, Text.isBlank c = false) ∧
    ∀ c ∈ text.toList.getLast?, Text.isBlank c = false

lemma isBlank_of_mem_head?_dropWhile {cs : List Char} {c : Char}
    (h : c ∈ (cs.dropWhile Text.isBlank).head?) : Text.isBlank c = false := by
  have hfirst := List.head?_dropWhile_not Text.isBlank cs
  rwa [Option.mem_def.1 h] at hfirst

lemma Text.trims_trim (raw : String) : Text.Trims raw (Text.trim raw) := by
  let front := raw.toList.dropWhile Text.isBlank
  let back := front.reverse.dropWhile Text.isBlank
  have hraw : raw.toList = raw.toList.takeWhile Text.isBlank ++ front :=
    List.takeWhile_append_dropWhile.symm
  have hfront : front = back.reverse ++ (front.reverse.takeWhile Text.isBlank).reverse := by
    rw [← List.reverse_append, List.takeWhile_append_dropWhile, List.reverse_reverse]
  have htext : (Text.trim raw).toList = back.reverse := String.toList_ofList
  refine ⟨raw.toList.takeWhile Text.isBlank, (front.reverse.takeWhile Text.isBlank).reverse,
    ?_, fun c hc => ?_, fun c hc => ?_, fun c hc => ?_⟩
  · rw [htext, List.append_assoc, ← hfront, ← hraw]
  · rw [List.mem_append, List.mem_reverse] at hc
    exact hc.elim (List.all_eq_true.1 List.all_takeWhile c)
      (List.all_eq_true.1 List.all_takeWhile c)
  · have hhead : c ∈ front.head? := by
      rw [htext] at hc
      rw [hfront, List.head?_append, Option.mem_def.1 hc]
      rfl
    exact isBlank_of_mem_head?_dropWhile hhead
  · rw [htext, List.getLast?_reverse] at hc
    exact isBlank_of_mem_head?_dropWhile hc

/-- Whether a character is one of those that may stand for each other between words. -/
def isSeparator (c : Char) : Bool :=
  c == '-' || c == ' ' || c == '_'

/-- Whether a character may stand in a spelling of a status. -/
def isSpellingChar (c : Char) : Bool :=
  c.isAlphanum || isSeparator c

/-- Two characters are the same up to the case of letters, or both separate words. -/
def SpelledAlike (c d : Char) : Prop :=
  c.toLower = d.toLower ∨ (isSeparator c = true ∧ isSeparator d = true)

section Characters

variable {c d : Char}

lemma forall_char {P : Char → Prop} (hascii : ∀ n < 128, P (Char.ofNat n))
    (hother : ∀ c : Char, 128 ≤ c.toNat → P c) (c : Char) : P c := by
  rcases Nat.lt_or_ge c.toNat 128 with hc | hc
  · have hchar := hascii c.toNat hc
    rwa [Char.ofNat_toNat] at hchar
  · exact hother c hc

lemma toUpper_of_le (h : 128 ≤ c.toNat) : c.toUpper = c := by
  refine dif_neg fun hlower => ?_
  have hz : c.toNat ≤ 122 := UInt32.le_iff_toNat_le.1 hlower.2
  omega

lemma toLower_of_le (h : 128 ≤ c.toNat) : c.toLower = c := by
  refine dif_neg fun hupper => ?_
  have hz : c.toNat ≤ 90 := UInt32.le_iff_toNat_le.1 hupper.2
  omega

lemma toLower_toUpper : ∀ c : Char, c.toUpper.toLower = c.toLower :=
  forall_char (by decide) fun c hc => by rw [toUpper_of_le hc]

lemma toUpper_toLower : ∀ c : Char, c.toLower.toUpper = c.toUpper :=
  forall_char (by decide) fun c hc => by rw [toLower_of_le hc]

lemma isSeparator_toUpper : ∀ c : Char, isSeparator c.toUpper = isSeparator c :=
  forall_char (by decide) fun c hc => by rw [toUpper_of_le hc]

lemma isSeparator_toLower : ∀ c : Char, isSeparator c.toLower = isSeparator c :=
  forall_char (by decide) fun c hc => by rw [toLower_of_le hc]

lemma toUpper_eq_toUpper_iff : c.toUpper = d.toUpper ↔ c.toLower = d.toLower := by
  constructor
  · intro h
    rw [← toLower_toUpper c, h, toLower_toUpper]
  · intro h
    rw [← toUpper_toLower c, h, toUpper_toLower]

lemma foldChar_eq (c : Char) :
    Status.foldChar c = if isSeparator c = true then '_' else c.toUpper := by
  unfold Status.foldChar
  by_cases hdash : c = '-' ∨ c = ' '
  · have hsep : isSeparator c = true := by
      rcases hdash with rfl | rfl <;> rfl
    rw [if_pos hdash, if_pos hsep]
  · rw [if_neg hdash]
    split
    · rename_i hsep
      rw [not_or] at hdash
      have hscore : c = '_' := by simpa [isSeparator, hdash] using hsep
      rw [hscore]
      rfl
    · rfl

lemma foldChar_eq_iff : Status.foldChar c = Status.foldChar d ↔ SpelledAlike c d := by
  have hscore {c : Char} (hc : ¬ isSeparator c = true) : c.toUpper ≠ '_' := by
    intro h
    rw [← isSeparator_toUpper, h] at hc
    exact hc rfl
  have hcase {c d : Char} (h : c.toLower = d.toLower) : isSeparator c = isSeparator d := by
    rw [← isSeparator_toLower, h, isSeparator_toLower]
  unfold SpelledAlike
  rw [foldChar_eq, foldChar_eq]
  by_cases hc : isSeparator c = true <;> by_cases hd : isSeparator d = true
  · simp [hc, hd]
  · rw [if_pos hc, if_neg hd]
    refine ⟨fun h => absurd h.symm (hscore hd), ?_⟩
    rintro (h | h)
    · exact absurd (hcase h ▸ hc) hd
    · exact absurd h.2 hd
  · rw [if_neg hc, if_pos hd]
    refine ⟨fun h => absurd h (hscore hc), ?_⟩
    rintro (h | h)
    · exact absurd ((hcase h).symm ▸ hd) hc
    · exact absurd h.1 hc
  · rw [if_neg hc, if_neg hd, toUpper_eq_toUpper_iff]
    exact ⟨.inl, fun h => h.resolve_right fun hboth => hc hboth.1⟩

lemma toNat_lt_of_isSpellingChar (h : isSpellingChar c = true) : c.toNat < 128 := by
  change (((c.isUpper || c.isLower) || c.isDigit) || ((c == '-' || c == ' ') || c == '_')) = true
    at h
  simp only [Bool.or_eq_true, beq_iff_eq] at h
  rcases h with ((hupper | hlower) | hdigit) | ((rfl | rfl) | rfl)
  · have hle : c.toNat ≤ 90 := UInt32.le_iff_toNat_le.1 (of_decide_eq_true hupper).2
    omega
  · have hle : c.toNat ≤ 122 :=
      UInt32.le_iff_toNat_le.1 (of_decide_eq_true (Bool.and_eq_true_iff.1 hlower).2)
    omega
  · exact Nat.lt_of_le_of_lt (Char.isDigit_iff_toNat.1 hdigit).2 (by decide)
  all_goals decide

lemma isStatusChar_foldChar : ∀ c, isStatusChar (Status.foldChar c) = isSpellingChar c := by
  refine forall_char (by decide) fun c hc => ?_
  have hspelling : isSpellingChar c = false := by
    rw [← Bool.not_eq_true]
    intro h
    exact absurd (toNat_lt_of_isSpellingChar h) (Nat.not_lt.2 hc)
  have hsep : ¬ isSeparator c = true := by
    intro h
    rw [isSpellingChar, h, Bool.or_true] at hspelling
    cases hspelling
  rw [hspelling, foldChar_eq, if_neg hsep, toUpper_of_le hc, ← Bool.not_eq_true]
  intro h
  have hcode := toNat_of_isStatusChar h
  omega

end Characters

namespace Status

variable {raw raw' : String} {s s' : Status}

lemma utf8ByteSize_eq_length {text : String} (h : ∀ c ∈ text.toList, isSpellingChar c = true) :
    text.utf8ByteSize = text.length := by
  rw [← String.utf8Len_toList, utf8Len_eq_length fun c hc => ?_, String.length_toList]
  rw [Char.utf8Size_eq_one_iff, UInt32.le_iff_toNat_le]
  exact Nat.le_of_lt_succ (toNat_lt_of_isSpellingChar (h c hc))

lemma utf8ByteSize_name (s : Status) : s.name.utf8ByteSize = s.name.length := by
  rw [← String.utf8Len_toList,
    utf8Len_eq_length fun c hc => utf8Size_of_isStatusChar (s.name_chars c hc),
    String.length_toList]

lemma isSpellingChar_of_parse (h : parse raw = .ok s) :
    ∀ c ∈ (Text.trim raw).toList, isSpellingChar c = true := by
  intro c hc
  obtain ⟨-, hname⟩ := parse_eq_ok_iff.1 h
  rw [← isStatusChar_foldChar]
  apply s.name_chars
  rw [hname]
  exact List.mem_map_of_mem hc

lemma exists_parse_iff : (∃ s, parse raw = .ok s) ↔
    1 ≤ (Text.trim raw).utf8ByteSize ∧ (Text.trim raw).utf8ByteSize ≤ 64 ∧
      ∀ c ∈ (Text.trim raw).toList, isSpellingChar c = true := by
  constructor
  · rintro ⟨s, h⟩
    obtain ⟨⟨hsome, hshort⟩, -⟩ := parse_eq_ok_iff.1 h
    exact ⟨hsome, hshort, isSpellingChar_of_parse h⟩
  · rintro ⟨hsome, hshort, hchars⟩
    let folded := (Text.trim raw).toList.map foldChar
    have hlength : folded.length = (Text.trim raw).utf8ByteSize := by
      rw [utf8ByteSize_eq_length hchars, List.length_map, String.length_toList]
    have hcanonical : isStatusName (String.ofList folded) = true := by
      simp only [isStatusName, String.toList_ofList, Bool.and_eq_true, List.all_eq_true,
        decide_eq_true_eq, Bool.not_eq_true', List.isEmpty_eq_false_iff]
      refine ⟨⟨fun c hc => ?_, List.length_pos_iff.1 ?_⟩, ?_⟩
      · obtain ⟨d, hd, rfl⟩ := List.mem_map.1 hc
        rw [isStatusChar_foldChar, hchars d hd]
      · rwa [hlength]
      · rwa [hlength]
    exact ⟨⟨_, hcanonical⟩, parse_eq_ok_iff.2 ⟨⟨hsome, hshort⟩, String.toList_ofList⟩⟩

lemma length_name (h : parse raw = .ok s) : s.name.length = (Text.trim raw).length := by
  obtain ⟨-, hname⟩ := parse_eq_ok_iff.1 h
  rw [← String.length_toList, hname, List.length_map, String.length_toList]

/-- Two texts name the same status just if they are spelled alike. -/
lemma eq_iff_spelledAlike (h : parse raw = .ok s) (h' : parse raw' = .ok s') :
    s = s' ↔ List.Forall₂ SpelledAlike (Text.trim raw).toList (Text.trim raw').toList := by
  obtain ⟨-, hname⟩ := parse_eq_ok_iff.1 h
  obtain ⟨-, hname'⟩ := parse_eq_ok_iff.1 h'
  rw [eq_iff_toList, hname, hname', ← List.forall₂_eq_eq_eq, List.forall₂_map_left_iff,
    List.forall₂_map_right_iff]
  simp only [foldChar_eq_iff]

/-- The lower-case character with which a character of a name is written in documents. -/
def documentChar (c : Char) : Char :=
  if c.toLower = '_' then '-' else c.toLower

lemma toList_documentName (s : Status) :
    s.documentName.toList = s.name.toList.map documentChar := by
  unfold documentName Text.swap Text.lower
  rw [String.toList_ofList, String.toList_ofList, List.map_map]
  rfl

lemma documentChar_spec : ∀ c, isStatusChar c = true → foldChar (documentChar c) = c ∧
    Text.isBlank (documentChar c) = false ∧ (documentChar c).utf8Size = 1 := by
  refine forall_char (by decide) fun c hc h => ?_
  have hcode := toNat_of_isStatusChar h
  omega

lemma parse_documentName (s : Status) : parse s.documentName = .ok s := by
  apply parse_eq_ok_of_map
  · rw [toList_documentName]
    intro d hd
    obtain ⟨c, hc, rfl⟩ := List.mem_map.1 hd
    exact (documentChar_spec c (s.name_chars c hc)).2
  · rw [toList_documentName, List.map_map]
    refine (List.map_congr_left fun c hc => ?_).trans (List.map_id' _)
    exact (documentChar_spec c (s.name_chars c hc)).1

/-- A text names a status just if what is left of it without the blanks around it is 1 to 64 bytes
long and holds letters, digits, underscores, hyphens and spaces only. The name of the status is as
long and holds capital letters, digits and underscores only; it reads as the same status, and so
does its spelling in documents. Two texts name the same status just if they are spelled alike. -/
theorem parse_spelling (raw : String) :
    let text := Text.trim raw
    Text.Trims raw text ∧
    ((∃ s, parse raw = .ok s) ↔ 1 ≤ text.utf8ByteSize ∧ text.utf8ByteSize ≤ 64 ∧
      ∀ c ∈ text.toList, isSpellingChar c = true) ∧
    ∀ s, parse raw = .ok s →
      (∀ c ∈ s.name.toList, c.isUpper = true ∨ c.isDigit = true ∨ c = '_') ∧
      s.name.length = text.length ∧ s.name.utf8ByteSize = text.utf8ByteSize ∧
      parse s.name = .ok s ∧ parse s.documentName = .ok s ∧
      ∀ raw' s', parse raw' = .ok s' →
        (s = s' ↔ List.Forall₂ SpelledAlike text.toList (Text.trim raw').toList) := by
  intro text
  refine ⟨Text.trims_trim raw, exists_parse_iff, fun s h => ⟨fun c hc => ?_, length_name h, ?_,
    parse_name s, parse_documentName s, fun raw' s' h' => eq_iff_spelledAlike h h'⟩⟩
  · have hchar := s.name_chars c hc
    simpa only [isStatusChar, Bool.or_eq_true, beq_iff_eq, or_assoc] using hchar
  · rw [utf8ByteSize_name, length_name h, utf8ByteSize_eq_length (isSpellingChar_of_parse h)]

/-- A no-break space, a tabulator and a line break stand around the name, and a space within it. -/
theorem parse_spelling_blended :
    parse "\u00a0In-Progress\t\n" = .ok .inProgress ∧
    parse "in progress" = .ok .inProgress ∧ Status.inProgress.documentName = "in-progress" ∧
    parse Status.inProgress.documentName = .ok .inProgress ∧
    List.Forall₂ SpelledAlike (Text.trim "\u00a0In-Progress\t\n").toList
      (Text.trim "in progress").toList ∧
    ¬ ∃ s, parse "in\tprogress" = .ok s := by
  have hread : parse "\u00a0In-Progress\t\n" = .ok .inProgress := rfl
  have hread' : parse "in progress" = .ok .inProgress := rfl
  obtain ⟨-, -, hnames⟩ := parse_spelling "\u00a0In-Progress\t\n"
  obtain ⟨-, -, -, -, hdocument, halike⟩ := hnames .inProgress hread
  refine ⟨hread, hread', rfl, hdocument, (halike "in progress" _ hread').1 rfl, ?_⟩
  obtain ⟨-, hreadable, -⟩ := parse_spelling "in\tprogress"
  rw [hreadable]
  rintro ⟨-, -, hchars⟩
  have htab : '\t' ∈ (Text.trim "in\tprogress").toList := by decide
  exact absurd (hchars '\t' htab) (by decide)

end Status

end TaskFlow

import TaskFlow.Ident
import TaskFlow.Instant.Text
import Mathlib

/-!
# Written forms

A number is read back from its digits, and an identifier or an instant from the text that it is
written as. No instant is written so that the reader of a part takes more than the part.
-/

namespace TaskFlow

namespace Text

lemma isBlank_of_isDigit {c : Char} (h : c.isDigit = true) : isBlank c = false := by
  simp only [Char.isDigit, Bool.and_eq_true, decide_eq_true_eq, UInt32.le_iff_toNat_le] at h
  change 48 ≤ c.toNat ∧ c.toNat ≤ 57 at h
  simp only [isBlank, Bool.or_eq_false_iff, Bool.and_eq_false_iff, decide_eq_false_iff_not,
    beq_eq_false_iff_ne]
  omega

lemma readDigits_zeros (k : Nat) (cs : List Char) :
    readDigits (List.replicate k '0' ++ cs) = readDigits cs := by
  unfold readDigits
  rw [List.foldl_append]
  congr 1
  induction k with
  | zero => rfl
  | succ k ih => exact ih

lemma readDigits_padDigits (width n : Nat) : readDigits (padDigits width n) = n := by
  unfold padDigits
  rw [readDigits_zeros]
  exact Nat.ofDigitChars_toDigits (by decide) (by decide)

lemma isDigit_of_mem_padDigits {width n : Nat} : ∀ c ∈ padDigits width n, c.isDigit = true := by
  intro c hc
  rcases List.mem_append.1 hc with hc | hc
  · rw [List.eq_of_mem_replicate hc]
    decide
  · exact Nat.isDigit_of_mem_toDigits (by decide) (by decide) hc

lemma length_padDigits {width n : Nat} (hwidth : 0 < width) (hn : n < 10 ^ width) :
    (padDigits width n).length = width := by
  have hlen := (Nat.length_toDigits_le_iff (b := 10) (by decide) hwidth).2 hn
  unfold padDigits
  rw [List.length_append, List.length_replicate]
  omega

lemma padDigits_eq_cons (width n : Nat) : ∃ d ds, padDigits width n = d :: ds ∧
    d.isDigit = true := by
  rcases hdigits : padDigits width n with _ | ⟨d, ds⟩
  · have hempty : Nat.toDigits 10 n = [] := (List.append_eq_nil_iff.1 hdigits).2
    rw [Nat.toDigits_eq_if (by decide)] at hempty
    split at hempty <;> simp at hempty
  · have hmem : d ∈ padDigits width n := by
      rw [hdigits]
      exact List.mem_cons_self
    exact ⟨d, ds, rfl, isDigit_of_mem_padDigits d hmem⟩

lemma takeDigits_append {digits rest : List Char} {c : Char} (hc : c.isDigit = false) :
    ∀ most, digits.length ≤ most → (∀ d ∈ digits, d.isDigit = true) →
      takeDigits most (digits ++ c :: rest) = (digits, c :: rest) := by
  induction digits with
  | nil =>
    intro most _ _
    cases most with
    | zero => rfl
    | succ most => simp [takeDigits, hc]
  | cons d digits ih =>
    intro most hlen hdigits
    cases most with
    | zero => cases hlen
    | succ most =>
      have hrest := ih most (Nat.le_of_succ_le_succ hlen) fun x hx =>
        hdigits x (List.mem_cons_of_mem _ hx)
      simp [takeDigits, hdigits d List.mem_cons_self, hrest]

lemma number?_padDigits {width n most : Nat} {c : Char} {rest : List Char}
    (hlen : (padDigits width n).length ≤ most) (hc : c.isDigit = false) :
    number? most (padDigits width n ++ c :: rest) = some (n, c :: rest) := by
  obtain ⟨d, ds, hdigits, -⟩ := padDigits_eq_cons width n
  have hread := readDigits_padDigits width n
  unfold number?
  rw [takeDigits_append hc most hlen isDigit_of_mem_padDigits]
  rw [hdigits] at hread ⊢
  exact congrArg (fun m => some (m, c :: rest)) hread

lemma hexValue?_hexDigit {n : Nat} (h : n < 16) : hexValue? (hexDigit n) = some n := by
  have hall : ∀ m : Fin 16, hexValue? (hexDigit m) = some m.val := by decide
  exact hall ⟨n, h⟩

lemma length_hexDigits (width n : Nat) : (hexDigits width n).length = width := by
  induction width generalizing n with
  | zero => rfl
  | succ width ih => simp [hexDigits, ih]

lemma readHexFrom_append (n : Nat) (cs : List Char) (d : Char) :
    readHexFrom n (cs ++ [d]) =
      (readHexFrom n cs).bind fun m => (hexValue? d).map fun v => 16 * m + v := by
  induction cs generalizing n with
  | nil =>
    simp only [List.nil_append, readHexFrom]
    rcases hexValue? d with _ | v <;> rfl
  | cons c cs ih =>
    simp only [List.cons_append, readHexFrom]
    rcases hexValue? c with _ | v
    · rfl
    · exact ih (16 * n + v)

lemma readHex_hexDigits (width n : Nat) :
    readHex (hexDigits width n) = some (n % 16 ^ width) := by
  unfold readHex
  induction width generalizing n with
  | zero => simp [hexDigits, readHexFrom, Nat.mod_one]
  | succ width ih =>
    rw [hexDigits, readHexFrom_append, ih, hexValue?_hexDigit (Nat.mod_lt _ (by decide)),
      Nat.pow_succ', Nat.mod_mul]
    simp [Nat.add_comm]

end Text

namespace Ident

lemma ungroup_group {cs : List Char} (h : cs.length = 32) :
    (group cs).length = 36 ∧ ungroup (group cs) = some cs := by
  obtain ⟨a, b, c, d, e, rfl, ha, hb, hc, hd, he⟩ : ∃ a b c d e : List Char,
      cs = a ++ (b ++ (c ++ (d ++ e))) ∧ a.length = 8 ∧ b.length = 4 ∧ c.length = 4 ∧
        d.length = 4 ∧ e.length = 12 := by
    refine ⟨cs.take 8, (cs.drop 8).take 4, ((cs.drop 8).drop 4).take 4,
      (((cs.drop 8).drop 4).drop 4).take 4, (((cs.drop 8).drop 4).drop 4).drop 4, ?_⟩
    refine ⟨?_, by simp [h], by simp [h], by simp [h], by simp [h], by simp [h]⟩
    simp only [List.take_append_drop]
  have hgroup : group (a ++ (b ++ (c ++ (d ++ e)))) =
      a ++ '-' :: (b ++ '-' :: (c ++ '-' :: (d ++ '-' :: e))) := by
    simp (disch := omega) [group, List.drop_append, List.drop_eq_nil_of_le, ha, hb, hc]
  have hlen : (group (a ++ (b ++ (c ++ (d ++ e))))).length = 36 := by
    simp [hgroup, ha, hb, hc, hd, he]
  have hdigits : (group (a ++ (b ++ (c ++ (d ++ e))))).take 8 ++
      ((group (a ++ (b ++ (c ++ (d ++ e))))).drop 9).take 4 ++
      ((group (a ++ (b ++ (c ++ (d ++ e))))).drop 14).take 4 ++
      ((group (a ++ (b ++ (c ++ (d ++ e))))).drop 19).take 4 ++
      (group (a ++ (b ++ (c ++ (d ++ e))))).drop 24 = a ++ (b ++ (c ++ (d ++ e))) := by
    rw [hgroup]
    simp (disch := omega) [List.drop_append, List.drop_eq_nil_of_le, ha, hb, hc, hd]
  refine ⟨hlen, ?_⟩
  unfold ungroup
  rw [hdigits]
  exact if_pos ⟨hlen, rfl⟩

lemma unwrap_of_length {cs : List Char} (h : cs.length = 36) : unwrap cs = cs := by
  unfold unwrap
  split <;> simp [h]

lemma ofDigits?_hexDigits (i : Ident) : ofDigits? (Text.hexDigits 32 i.val) = some i := by
  have hpow : Nat.pow 2 128 = 16 ^ 32 := by decide
  have hval : i.val % 16 ^ 32 = i.val := Nat.mod_eq_of_lt (Nat.lt_of_lt_of_eq i.lt hpow)
  unfold ofDigits?
  rw [Text.readHex_hexDigits, hval]
  exact dif_pos ⟨i.lt, Text.length_hexDigits 32 i.val⟩

theorem parse?_render (i : Ident) : parse? i.render = some i := by
  obtain ⟨hlen, hungroup⟩ := ungroup_group (Text.length_hexDigits 32 i.val)
  have hother : (group (Text.hexDigits 32 i.val)).length ≠ 32 := by
    rw [hlen]
    decide
  unfold parse? render
  rw [String.toList_ofList]
  simp only [if_neg hother, unwrap_of_length hlen, hungroup, Option.bind_some,
    ofDigits?_hexDigits]

end Ident

namespace Instant

open Text

variable {c : Char} {rest : List Char}

lemma skipBlanks_cons (h : isBlank c = false) : skipBlanks (c :: rest) = c :: rest := by
  simp [skipBlanks, h]

lemma skipBlanks_padDigits (width n : Nat) (rest : List Char) :
    skipBlanks (padDigits width n ++ rest) = padDigits width n ++ rest := by
  obtain ⟨d, ds, hdigits, hd⟩ := padDigits_eq_cons width n
  rw [hdigits]
  exact skipBlanks_cons (isBlank_of_isDigit hd)

lemma readPair_padDigits {n : Nat} (hn : n < 100) (hc : c.isDigit = false) :
    readPair (padDigits 2 n ++ c :: rest) = some (n, c :: rest) := by
  have hlen : (padDigits 2 n).length = 2 := length_padDigits (by decide) hn
  unfold readPair
  rw [skipBlanks_padDigits]
  exact number?_padDigits (Nat.le_of_eq hlen) hc

lemma skipMark_cons (h : isBlank c = false) : skipMark c (c :: rest) = some rest := by
  unfold skipMark
  rw [skipBlanks_cons h]
  exact if_pos rfl

lemma readYear_of_isDigit (h : c.isDigit = true) :
    readYear (c :: rest) = (number? 4 (c :: rest)).map fun (n, rest) => ((n : Int), rest) := by
  unfold readYear
  rw [skipBlanks_cons (isBlank_of_isDigit h)]
  split
  · rename_i hsign
    cases hsign
    cases h
  · rename_i hsign
    cases hsign
    cases h
  · rfl

lemma readYear_minus (cs : List Char) :
    readYear ('-' :: cs) = (number? cs.length cs).map fun (n, rest) => (-(n : Int), rest) :=
  rfl

lemma readYear_plus (cs : List Char) :
    readYear ('+' :: cs) = (number? cs.length cs).map fun (n, rest) => ((n : Int), rest) :=
  rfl

lemma readYear_renderYear (year : Int) (hc : c.isDigit = false) :
    readYear (renderYear year ++ c :: rest) = some (year, c :: rest) := by
  have hlong : number? (padDigits 4 year.natAbs ++ c :: rest).length
      (padDigits 4 year.natAbs ++ c :: rest) = some (year.natAbs, c :: rest) :=
    number?_padDigits (by simp) hc
  unfold renderYear
  by_cases hyear : 0 ≤ year ∧ year ≤ 9999
  · obtain ⟨d, ds, hdigits, hd⟩ := padDigits_eq_cons 4 year.toNat
    have hlen : (padDigits 4 year.toNat).length = 4 := length_padDigits (by decide) (by omega)
    have hshort : number? 4 (padDigits 4 year.toNat ++ c :: rest) =
        some (year.toNat, c :: rest) := number?_padDigits (Nat.le_of_eq hlen) hc
    rw [if_pos hyear]
    rw [hdigits, List.cons_append] at hshort ⊢
    rw [readYear_of_isDigit hd, hshort, Option.map_some]
    dsimp only
    rw [Int.toNat_of_nonneg hyear.1]
  · rw [if_neg hyear, List.cons_append]
    by_cases hneg : year < 0
    · have habs : -(year.natAbs : Int) = year := by omega
      rw [if_pos hneg, readYear_minus, hlong, Option.map_some]
      dsimp only
      rw [habs]
    · have habs : (year.natAbs : Int) = year := by omega
      rw [if_neg hneg, readYear_plus, hlong, Option.map_some]
      dsimp only
      rw [habs]

lemma readFraction_point {width n : Nat} (hwidth : 0 < width) (hmost : width ≤ 9)
    (hn : n < 10 ^ width) (hc : c.isDigit = false) :
    readFraction ('.' :: (padDigits width n ++ c :: rest)) =
      some (n * 10 ^ (9 - width), c :: rest) := by
  have hlen := length_padDigits hwidth hn
  obtain ⟨d, ds, hdigits, -⟩ := padDigits_eq_cons width n
  have htake : takeDigits 9 (padDigits width n ++ c :: rest) = (padDigits width n, c :: rest) :=
    takeDigits_append hc 9 (by omega) isDigit_of_mem_padDigits
  have hread := readDigits_padDigits width n
  unfold readFraction
  simp only [htake]
  rw [hdigits] at hlen hread ⊢
  simp only [hread, hlen, List.dropWhile_cons, hc]
  rfl

/-- A fraction is written with the digits that it needs, and zeros are put in their place again. -/
lemma readFraction_renderFraction {nanos : Nat} (h : nanos < 1000000000) :
    readFraction (renderFraction nanos ++ ['Z']) = some (nanos, ['Z']) := by
  unfold renderFraction
  split
  · rename_i hzero
    rw [hzero]
    rfl
  · split
    · rename_i hmillis
      have hscale : nanos / 1000000 * 10 ^ (9 - 3) = nanos := by omega
      rw [List.cons_append, readFraction_point (by decide) (by decide) (by omega) (by decide),
        hscale]
    · split
      · rename_i hmicros
        have hscale : nanos / 1000 * 10 ^ (9 - 6) = nanos := by omega
        rw [List.cons_append, readFraction_point (by decide) (by decide) (by omega) (by decide),
          hscale]
      · rw [List.cons_append, readFraction_point (by decide) (by decide) (by omega) (by decide)]
        simp

lemma renderFraction_append_eq_cons (nanos : Nat) : ∃ c rest,
    renderFraction nanos ++ ['Z'] = c :: rest ∧ c.isDigit = false := by
  unfold renderFraction
  split
  · exact ⟨'Z', [], rfl, by decide⟩
  · split
    · exact ⟨'.', _, rfl, by decide⟩
    · split <;> exact ⟨'.', _, rfl, by decide⟩

lemma bind_of_eq_some {α β : Type} {o : Option α} {a : α} {f : α → Option β} (h : o = some a) :
    (o >>= f) = f a := by
  rw [h]
  rfl

lemma daysInMonth_le (year : Int) (month : Nat) : daysInMonth year month ≤ 31 := by
  unfold daysInMonth
  split
  · split <;> decide
  · split <;> decide

/-- An instant is read back from its written form. -/
theorem parse?_render (t : Instant) : parse? t.render = some t := by
  have hvalid := t.valid
  have hmake : make? t.year t.month t.day t.hour t.minute t.second t.nanos = some t :=
    dif_pos hvalid
  have hlong := daysInMonth_le t.year t.month
  simp only [isCalendarTime, Bool.and_eq_true, decide_eq_true_eq] at hvalid
  have hmonth : t.month < 100 := by omega
  have hday : t.day < 100 := by omega
  have hhour : t.hour < 100 := by omega
  have hminute : t.minute < 100 := by omega
  have hsecond : readPair (padDigits 2 t.second ++ (renderFraction t.nanos ++ ['Z'])) =
      some (t.second, renderFraction t.nanos ++ ['Z']) := by
    obtain ⟨c, rest, hrest, hc⟩ := renderFraction_append_eq_cons t.nanos
    rw [hrest]
    exact readPair_padDigits (by omega) hc
  have hdash : '-'.isDigit = false ∧ isBlank '-' = false := by decide
  have hcolon : ':'.isDigit = false ∧ isBlank ':' = false := by decide
  have hletter : 'T'.isDigit = false := by decide
  have hzone : readZone ['Z'] = some (0, []) := by decide
  have htext : t.render.toList = renderYear t.year ++ '-' :: (padDigits 2 t.month ++ '-' ::
      (padDigits 2 t.day ++ 'T' :: (padDigits 2 t.hour ++ ':' :: (padDigits 2 t.minute ++ ':' ::
        (padDigits 2 t.second ++ (renderFraction t.nanos ++ ['Z'])))))) := by
    unfold render
    simp only [String.toList_ofList, List.append_assoc, List.cons_append]
  unfold parse?
  rw [htext]
  refine (bind_of_eq_some (readYear_renderYear _ hdash.1)).trans ?_
  refine (bind_of_eq_some (skipMark_cons hdash.2)).trans ?_
  refine (bind_of_eq_some (readPair_padDigits hmonth hdash.1)).trans ?_
  refine (bind_of_eq_some (skipMark_cons hdash.2)).trans ?_
  refine (bind_of_eq_some (readPair_padDigits hday hletter)).trans ?_
  refine (bind_of_eq_some (readPair_padDigits hhour hcolon.1)).trans ?_
  refine (bind_of_eq_some (skipMark_cons hcolon.2)).trans ?_
  refine (bind_of_eq_some (readPair_padDigits hminute hcolon.1)).trans ?_
  refine (bind_of_eq_some (skipMark_cons hcolon.2)).trans ?_
  refine (bind_of_eq_some hsecond).trans ?_
  refine (bind_of_eq_some (readFraction_renderFraction hvalid.2)).trans ?_
  refine (bind_of_eq_some hzone).trans ?_
  refine (if_pos rfl).trans ?_
  exact (bind_of_eq_some hmake).trans (if_pos rfl)

end Instant

end TaskFlow

import TaskFlow.Binary64.Text
import TaskFlow.Proofs.Rounding
import TaskFlow.Proofs.WrittenForms

/-!
# Numbers in decimal

The text of a binary number is the shortest decimal among those that round to it. The search for it
ends on a grid where the next point rounds to the number, so it always finds one, and the text is
read back as the number.
-/

namespace TaskFlow.Binary64

variable {m n q : Nat} {e k : Int} {x : ℚ}

lemma grid_cast (a j : Nat) (e k : Int) : ∃ divisor : ℚ, 0 < divisor ∧
    ((a * Nat.pow 2 e.toNat * Nat.pow 10 (-k).toNat : Nat) : ℚ) = a / 4 * 2 ^ e * divisor ∧
      ((j * (4 * Nat.pow 2 (-e).toNat * Nat.pow 10 k.toNat) : Nat) : ℚ) =
        j * 10 ^ k * divisor := by
  have htwo := pow_toNat_div 2 Nat.two_pos e
  have hten := pow_toNat_div 10 (by decide) k
  have htwo' : (0 : ℚ) < (Nat.pow 2 (-e).toNat : Nat) := by exact_mod_cast Nat.pow_pos Nat.two_pos
  have hten' : (0 : ℚ) < (Nat.pow 10 (-k).toNat : Nat) := by
    exact_mod_cast Nat.pow_pos (by decide)
  rw [div_eq_iff htwo'.ne'] at htwo
  rw [div_eq_iff hten'.ne'] at hten
  refine ⟨4 * (Nat.pow 2 (-e).toNat : Nat) * (Nat.pow 10 (-k).toNat : Nat), by positivity, ?_, ?_⟩
  · simp only [Nat.cast_mul, Nat.cast_ofNat] at htwo ⊢
    rw [htwo]
    ring
  · simp only [Nat.cast_mul, Nat.cast_ofNat] at hten ⊢
    rw [hten]
    ring

section Grid

variable (a j : Nat) (e k : Int)

lemma grid_le_iff : a * Nat.pow 2 e.toNat * Nat.pow 10 (-k).toNat ≤
      j * (4 * Nat.pow 2 (-e).toNat * Nat.pow 10 k.toNat) ↔
    (a / 4 : ℚ) * 2 ^ e ≤ j * 10 ^ k := by
  obtain ⟨divisor, hpos, ha, hj⟩ := grid_cast a j e k
  rw [← Nat.cast_le (α := ℚ), ha, hj, mul_le_mul_iff_left₀ hpos]

lemma le_grid_iff : j * (4 * Nat.pow 2 (-e).toNat * Nat.pow 10 k.toNat) ≤
      a * Nat.pow 2 e.toNat * Nat.pow 10 (-k).toNat ↔
    (j : ℚ) * 10 ^ k ≤ a / 4 * 2 ^ e := by
  obtain ⟨divisor, hpos, ha, hj⟩ := grid_cast a j e k
  rw [← Nat.cast_le (α := ℚ), ha, hj, mul_le_mul_iff_left₀ hpos]

lemma grid_lt_iff : a * Nat.pow 2 e.toNat * Nat.pow 10 (-k).toNat <
      j * (4 * Nat.pow 2 (-e).toNat * Nat.pow 10 k.toNat) ↔
    (a / 4 : ℚ) * 2 ^ e < j * 10 ^ k := by
  rw [← not_le, le_grid_iff, not_le]

lemma lt_grid_iff : j * (4 * Nat.pow 2 (-e).toNat * Nat.pow 10 k.toNat) <
      a * Nat.pow 2 e.toNat * Nat.pow 10 (-k).toNat ↔
    (j : ℚ) * 10 ^ k < a / 4 * 2 ^ e := by
  rw [← not_le, grid_le_iff, not_le]

end Grid

/-- The point of a grid lies among the numbers that round to `m · 2 ^ e`. -/
def inside (m : Nat) (e k : Int) (j : Nat) : Bool :=
  let (low, _, high, divisor) := bounds m e
  let unit := divisor * Nat.pow 10 k.toNat
  let factor := Nat.pow 10 (-k).toNat
  if m % 2 = 0 then low * factor ≤ j * unit && j * unit ≤ high * factor
  else low * factor < j * unit && j * unit < high * factor

lemma inside_iff (hm : 0 < m) (j : Nat) : inside m e k j = true ↔ RoundsTo m e (j * 10 ^ k) := by
  have hlow : ((4 * m - if m = Nat.pow 2 (precision - 1) ∧ minExponent < e then 1 else 2 : Nat) : ℚ)
      / 4 = m - reach m e := by
    unfold reach
    simp only [Nat.pow_eq]
    split_ifs
    · rw [Nat.cast_sub (by omega)]
      push_cast
      ring
    · rw [Nat.cast_sub (by omega)]
      push_cast
      ring
  have hhigh : ((4 * m + 2 : Nat) : ℚ) / 4 = m + 1 / 2 := by
    push_cast
    ring
  unfold inside bounds RoundsTo
  dsimp only
  by_cases heven : m % 2 = 0
  · rw [if_pos heven, if_pos heven, Bool.and_eq_true, decide_eq_true_eq, decide_eq_true_eq,
      grid_le_iff, le_grid_iff, hlow, hhigh]
  · rw [if_neg heven, if_neg heven, Bool.and_eq_true, decide_eq_true_eq, decide_eq_true_eq,
      grid_lt_iff, lt_grid_iff, hlow, hhigh]

/-- The last point of a grid that is not above a number. -/
def lastPoint (m : Nat) (e k : Int) : Nat :=
  let (_, value, _, divisor) := bounds m e
  value * Nat.pow 10 (-k).toNat / (divisor * Nat.pow 10 k.toNat)

lemma nearest?_eq (m : Nat) (e k : Int) : ∃ closer : Bool, nearest? m e k =
    let q := lastPoint m e k
    if inside m e k (q + 1) && (!(inside m e k q && 0 < q) || closer) then some (q + 1)
    else if inside m e k q && 0 < q then some q
    else none :=
  ⟨_, rfl⟩

lemma inside_of_nearest? (h : nearest? m e k = some q) : 0 < q ∧ inside m e k q = true := by
  obtain ⟨closer, heq⟩ := nearest?_eq m e k
  rw [heq] at h
  dsimp only at h
  split_ifs at h with hupper hlower
  · cases h
    rw [Bool.and_eq_true] at hupper
    exact ⟨Nat.succ_pos _, hupper.1⟩
  · cases h
    rw [Bool.and_eq_true, decide_eq_true_eq] at hlower
    exact hlower.symm

lemma exists_nearest? (h : inside m e k (lastPoint m e k + 1) = true) :
    ∃ q, nearest? m e k = some q := by
  obtain ⟨closer, heq⟩ := nearest?_eq m e k
  rw [heq]
  dsimp only
  rw [h]
  split_ifs with hupper hlower
  · exact ⟨_, rfl⟩
  · exact ⟨_, rfl⟩
  · simp_all

lemma lastPoint_bounds (m : Nat) (e k : Int) : (lastPoint m e k : ℚ) * 10 ^ k ≤ m * 2 ^ e ∧
    (m : ℚ) * 2 ^ e < (lastPoint m e k + 1 : Nat) * 10 ^ k := by
  have hfour : ((4 * m : Nat) : ℚ) / 4 = m := by
    push_cast
    ring
  have hunit : 0 < 4 * Nat.pow 2 (-e).toNat * Nat.pow 10 k.toNat :=
    Nat.mul_pos (Nat.mul_pos (by decide) (Nat.pow_pos (by decide))) (Nat.pow_pos (by decide))
  have hlow := (le_grid_iff (4 * m) (lastPoint m e k) e k).1 (Nat.div_mul_le_self _ _)
  have hhigh := (grid_lt_iff (4 * m) (lastPoint m e k + 1) e k).1
    ((Nat.lt_mul_div_succ _ hunit).trans_eq (Nat.mul_comm _ _))
  rw [hfour] at hlow hhigh
  exact ⟨hlow, hhigh⟩

lemma reach_pos (m : Nat) (e : Int) : 0 < reach m e := by
  unfold reach
  split_ifs <;> norm_num

lemma roundsTo_of_lt (hlow : (m - reach m e) * 2 ^ e < x) (hhigh : x < (m + 1 / 2) * 2 ^ e) :
    RoundsTo m e x := by
  unfold RoundsTo
  split_ifs
  · exact ⟨hlow.le, hhigh.le⟩
  · exact ⟨hlow, hhigh⟩

lemma inside_of_fine (hm : 0 < m) (hfine : (10 : ℚ) ^ k < 2 ^ e / 2) :
    inside m e k (lastPoint m e k + 1) = true := by
  obtain ⟨hlow, hhigh⟩ := lastPoint_bounds m e k
  have hpos : 0 < reach m e * 2 ^ e := mul_pos (reach_pos m e) (by positivity)
  rw [inside_iff hm]
  refine roundsTo_of_lt ?_ ?_
  · linarith
  · push_cast
    linarith

/-- The search goes from one grid to the next finer one, so it ends at the latest on a grid where
the point after the number rounds to it. -/
lemma inside_shortestFrom {tries : Nat} (j : Nat) (hj : j < tries)
    (h : inside m e (k - j) (lastPoint m e (k - j) + 1) = true) :
    0 < (shortestFrom m e tries k).1 ∧
      inside m e (shortestFrom m e tries k).2 (shortestFrom m e tries k).1 = true := by
  induction tries generalizing k j with
  | zero => cases hj
  | succ tries ih =>
    unfold shortestFrom
    cases hnearest : nearest? m e k with
    | some q => exact inside_of_nearest? hnearest
    | none =>
      cases j with
      | zero =>
        obtain ⟨q, hq⟩ := exists_nearest? (by simpa using h)
        rw [hnearest] at hq
        cases hq
      | succ j =>
        refine ih j (Nat.lt_of_succ_lt_succ hj) ?_
        have hnext : k - 1 - (j : Int) = k - (j + 1 : Nat) := by omega
        rwa [hnext]

lemma digits_magnitude (hn : 0 < n) : (10 : ℚ) ^ ((Nat.toDigits 10 n).length - 1 : Int) ≤ n ∧
    (n : ℚ) < 10 ^ ((Nat.toDigits 10 n).length : Int) := by
  obtain ⟨size, hsize⟩ : ∃ size, (Nat.toDigits 10 n).length = size + 1 :=
    Nat.exists_eq_succ_of_ne_zero Nat.length_toDigits_pos.ne'
  have hhigh := (Nat.length_toDigits_le_iff (by decide) (Nat.succ_pos size)).1 hsize.le
  have hlow : 10 ^ size ≤ n := by
    cases size with
    | zero => exact hn
    | succ size =>
      rw [← Nat.not_lt, ← Nat.length_toDigits_le_iff (by decide) (Nat.succ_pos size), hsize]
      exact Nat.not_succ_le_self _
  rw [hsize]
  constructor
  · rw [Nat.cast_succ, add_sub_cancel_right, zpow_natCast]
    exact_mod_cast hlow
  · rw [zpow_natCast]
    exact_mod_cast hhigh

lemma exists_shortest_eq (hm : 0 < m) (e : Int) : ∃ size : Int,
    shortest m e = shortestFrom m e 20 size ∧ (10 : ℚ) ^ (size - 2) < m * 2 ^ e := by
  let value := 4 * m * Nat.pow 2 e.toNat
  let divisor := 4 * Nat.pow 2 (-e).toNat
  have hvalue : 0 < value := Nat.mul_pos (by omega) (Nat.pow_pos (by decide))
  have hdivisor : 0 < divisor := Nat.mul_pos (by decide) (Nat.pow_pos (by decide))
  refine ⟨_, rfl, ?_⟩
  have hlow := (digits_magnitude hvalue).1
  have hhigh := (digits_magnitude hdivisor).2
  have hpow := pow_toNat_div 2 Nat.two_pos e
  have hquotient : (m : ℚ) * 2 ^ e = value / divisor := by
    simp only [value, divisor, Nat.cast_mul, Nat.cast_ofNat] at hpow ⊢
    rw [← hpow, mul_assoc 4, mul_div_mul_left _ _ four_ne_zero, mul_div_assoc]
  have hpos : (0 : ℚ) < divisor := by exact_mod_cast hdivisor
  rw [hquotient, lt_div_iff₀ hpos]
  calc (10 : ℚ) ^ (((Nat.toDigits 10 value).length : Int) -
          (Nat.toDigits 10 divisor).length + 1 - 2) * divisor
      < 10 ^ (((Nat.toDigits 10 value).length : Int) - (Nat.toDigits 10 divisor).length + 1 - 2) *
          10 ^ ((Nat.toDigits 10 divisor).length : Int) := by gcongr
    _ = 10 ^ ((Nat.toDigits 10 value).length - 1 : Int) := by
        rw [← zpow_add₀ (by norm_num)]
        congr 1
        ring
    _ ≤ value := hlow

lemma roundsTo_shortest (h : Fits m e) (hm : 0 < m) :
    RoundsTo m e ((shortest m e).1 * 10 ^ (shortest m e).2) := by
  obtain ⟨size, hsize, hmagnitude⟩ := exists_shortest_eq hm e
  have hshort : (m : ℚ) < 2 ^ 53 := by exact_mod_cast h.short
  have hfine : (10 : ℚ) ^ (size - (19 : Nat)) < 2 ^ e / 2 := by
    have hpos : (0 : ℚ) < 2 ^ e := by positivity
    have hsplit : (10 : ℚ) ^ (size - (19 : Nat)) = 10 ^ (size - 2) / 10 ^ 17 := by
      rw [← zpow_natCast, ← zpow_sub₀ (by norm_num)]
      congr 1
      push_cast
      ring
    have hless := hmagnitude.trans (mul_lt_mul_of_pos_right hshort hpos)
    rw [hsplit, div_lt_iff₀ (by positivity)]
    norm_num at hless ⊢
    linarith
  rw [hsize, ← inside_iff hm]
  exact (inside_shortestFrom 19 (by decide) (inside_of_fine hm hfine)).2

lemma two_zpow_lt {a : Int} (h : a ≤ 1075) : (2 : ℚ) ^ a < 10 ^ (400 : Int) :=
  calc (2 : ℚ) ^ a ≤ 2 ^ ((3 : Int) * 400) := zpow_le_zpow_right₀ one_le_two (by omega)
    _ = (2 ^ (3 : Int)) ^ (400 : Int) := zpow_mul _ _ _
    _ < 10 ^ (400 : Int) := zpow_lt_zpow_left₀ (by decide) (by norm_num) (by norm_num)

lemma RoundsTo.magnitude (h : RoundsTo m e x) (hfits : Fits m e) (hm : 0 < m) :
    (10 : ℚ) ^ (-400 : Int) < x ∧ x < 10 ^ (400 : Int) := by
  have hone : (1 : ℚ) ≤ m := by exact_mod_cast hm
  constructor
  · calc (10 : ℚ) ^ (-400 : Int) < 2 ^ (-1075 : Int) := by
          rw [zpow_neg, zpow_neg]
          exact inv_strictAnti₀ (by positivity) (two_zpow_lt (le_refl _))
      _ = 2 ^ (-1 : Int) * 2 ^ minExponent := by
          rw [← zpow_add₀ two_ne_zero]
          rfl
      _ ≤ (m - 1 / 2) * 2 ^ e := by
          refine mul_le_mul ?_ ?_ (by positivity) (by linarith)
          · norm_num
            linarith
          · exact zpow_le_zpow_right₀ one_le_two hfits.least
      _ ≤ x := h.half_below_le
  · calc x < 2 ^ (53 : Int) * 2 ^ e := h.lt hfits
      _ = 2 ^ (53 + e) := (zpow_add₀ two_ne_zero _ _).symm
      _ < 10 ^ (400 : Int) := by
          have hmost : e ≤ 971 := hfits.most
          exact two_zpow_lt (by omega)

lemma RoundsTo.pos (h : RoundsTo m e (q * 10 ^ k)) (hfits : Fits m e) (hm : 0 < m) : 0 < q := by
  have hpos := lt_trans (by positivity) (h.magnitude hfits hm).1
  rw [Nat.pos_iff_ne_zero]
  rintro rfl
  simp at hpos

/-- A decimal is read as the number of the format that it rounds to. -/
theorem ofDecimal_eq (negative : Bool) (hfits : Fits m e) (hm : 0 < m)
    (h : RoundsTo m e (q * 10 ^ k)) : ofDecimal negative q k = .finite negative m e := by
  obtain ⟨hleast, hmost⟩ := h.magnitude hfits hm
  have hq := h.pos hfits hm
  obtain ⟨hlow, hhigh⟩ := digits_magnitude hq
  have hpos : (0 : ℚ) < 10 ^ k := by positivity
  have hsmall : ¬ ((Nat.toDigits 10 q).length + k : Int) < -400 := by
    have hsize := hleast.trans (mul_lt_mul_of_pos_right hhigh hpos)
    rw [← zpow_add₀ (by norm_num), zpow_lt_zpow_iff_right₀ (by norm_num)] at hsize
    omega
  have hlarge : ¬ 400 < ((Nat.toDigits 10 q).length + k : Int) := by
    have hsize := (mul_le_mul_of_nonneg_right hlow hpos.le).trans_lt hmost
    rw [← zpow_add₀ (by norm_num), zpow_lt_zpow_iff_right₀ (by norm_num)] at hsize
    omega
  have hten := pow_toNat_div 10 (by decide) k
  rw [Nat.cast_ofNat] at hten
  unfold ofDecimal
  dsimp only
  rw [if_neg (by simp [hq.ne', hsmall]), if_neg hlarge]
  refine ofQuotient_eq negative hfits (Nat.mul_pos hq (Nat.pow_pos (by decide)))
    (Nat.pow_pos (by decide)) ?_
  rwa [Nat.cast_mul, mul_div_assoc, hten]

lemma inFormat_ofDecimal (negative : Bool) (q : Nat) (k : Int) :
    InFormat (ofDecimal negative q k) := by
  unfold ofDecimal
  dsimp only
  split_ifs
  · exact inFormat_ofQuotient negative Nat.one_pos
  · trivial
  · exact inFormat_ofQuotient negative (Nat.pow_pos (by decide))

/-- Whatever a text is read as is a number of the format. -/
theorem inFormat_of_parse? {text : String} {y : Binary64} (h : parse? text = some y) :
    InFormat y := by
  unfold parse? at h
  dsimp only at h
  split at h
  · cases h
    trivial
  · cases h
    trivial
  · cases h
    trivial
  · unfold unsigned? at h
    dsimp only at h
    split_ifs at h
    · cases h
    · obtain ⟨k, -, hy⟩ := Option.bind_eq_some_iff.1 h
      cases hy
      exact inFormat_ofDecimal _ _ _

section Positional

variable {ds whole fraction cs : List Char} {c : Char}

lemma span_digits (hds : ∀ c ∈ ds, c.isDigit = true) (rest : List Char)
    (hrest : ∀ c ∈ rest.head?, c.isDigit = false) :
    (ds ++ rest).span Char.isDigit = (ds, rest) := by
  rw [List.span_eq_takeWhile_dropWhile, List.takeWhile_append_of_pos hds,
    List.dropWhile_append_of_pos hds]
  cases rest with
  | nil => simp
  | cons c rest => simp [hrest c rfl]

lemma le_length_padDigits (width n : Nat) : width ≤ (Text.padDigits width n).length := by
  unfold Text.padDigits
  rw [List.length_append, List.length_replicate]
  omega

lemma toDigits_eq_padDigits (n : Nat) : Nat.toDigits 10 n = Text.padDigits 0 n := by
  simp [Text.padDigits]

lemma positional_eq (q : Nat) (k : Int) :
    (0 ≤ k ∧ positional q k = Text.padDigits 0 (q * 10 ^ k.toNat)) ∨
      ∃ whole fraction, k = -(fraction.length : Int) ∧ whole ≠ [] ∧
        whole ++ fraction = Text.padDigits (fraction.length + 1) q ∧
          positional q k = whole ++ '.' :: fraction := by
  unfold positional
  by_cases hk : 0 ≤ k
  · rw [if_pos hk]
    exact .inl ⟨hk, toDigits_eq_padDigits _⟩
  · obtain ⟨places, hplaces⟩ := Int.eq_ofNat_of_zero_le (a := -k) (by omega)
    have hlen := le_length_padDigits (places + 1) q
    have hfraction : ((Text.padDigits (places + 1) q).drop
        ((Text.padDigits (places + 1) q).length - places)).length = places := by
      rw [List.length_drop]
      omega
    rw [if_neg hk, hplaces, Int.toNat_natCast]
    refine .inr ⟨_, _, ?_, ?_, ?_, rfl⟩
    · rw [hfraction]
      omega
    · rw [Ne, List.take_eq_nil_iff, ← List.length_eq_zero_iff]
      omega
    · rw [hfraction, List.take_append_drop]

lemma unsigned?_digits (negative : Bool) (hne : ds ≠ []) (hds : ∀ c ∈ ds, c.isDigit = true) :
    unsigned? negative ds = some (ofDecimal negative (Text.readDigits ds) 0) := by
  have hspan : ds.span Char.isDigit = (ds, []) := by
    simpa only [List.append_nil] using span_digits hds [] (by simp)
  unfold unsigned?
  simp only [hspan, List.isEmpty_eq_false_iff.2 hne, Bool.false_and, Bool.false_eq_true, if_false]
  rw [List.append_nil]
  rfl

lemma unsigned?_point (negative : Bool) (hne : whole ≠ [])
    (hds : ∀ c ∈ whole ++ fraction, c.isDigit = true) :
    unsigned? negative (whole ++ '.' :: fraction) =
      some (ofDecimal negative (Text.readDigits (whole ++ fraction)) (-fraction.length)) := by
  have hwhole : (whole ++ '.' :: fraction).span Char.isDigit = (whole, '.' :: fraction) :=
    span_digits (fun c hc => hds c (List.mem_append_left _ hc)) _ (by simp)
  have hfraction : fraction.span Char.isDigit = (fraction, []) := by
    simpa only [List.append_nil] using
      span_digits (fun c hc => hds c (List.mem_append_right _ hc)) [] (by simp)
  unfold unsigned?
  simp only [hwhole, hfraction, List.isEmpty_eq_false_iff.2 hne, Bool.false_and,
    Bool.false_eq_true, if_false]
  rw [← zero_sub]
  rfl

lemma unsigned?_positional (negative : Bool) (q : Nat) (k : Int) :
    unsigned? negative (positional q k) =
      some (ofDecimal negative (q * 10 ^ k.toNat) (min k 0)) := by
  rcases positional_eq q k with ⟨hk, heq⟩ | ⟨whole, fraction, rfl, hne, hdigits, heq⟩
  · obtain ⟨d, ds, hds, -⟩ := Text.padDigits_eq_cons 0 (q * 10 ^ k.toNat)
    rw [heq, unsigned?_digits negative (by simp [hds]) Text.isDigit_of_mem_padDigits,
      Text.readDigits_padDigits, min_eq_right hk]
  · rw [heq, unsigned?_point negative hne (hdigits ▸ Text.isDigit_of_mem_padDigits), hdigits,
      Text.readDigits_padDigits, min_eq_left (by omega)]
    simp

lemma lt_of_mem_positional {q : Nat} {k : Int} (h : c ∈ positional q k) : c.toNat < 65 := by
  have hdigit {c : Char} {width n : Nat} (hc : c ∈ Text.padDigits width n) : c.toNat < 65 :=
    lt_of_le_of_lt (Char.isDigit_iff_toNat.1 (Text.isDigit_of_mem_padDigits c hc)).2 (by decide)
  rcases positional_eq q k with ⟨-, heq⟩ | ⟨whole, fraction, -, -, hdigits, heq⟩
  · exact hdigit (heq ▸ h)
  · rw [heq, List.mem_append, List.mem_cons] at h
    rcases h with h | rfl | h
    · exact hdigit (hdigits ▸ List.mem_append_left fraction h)
    · decide
    · exact hdigit (hdigits ▸ List.mem_append_right whole h)

lemma positional_eq_cons (q : Nat) (k : Int) :
    ∃ c cs, positional q k = c :: cs ∧ c.isDigit = true := by
  rcases positional_eq q k with ⟨-, heq⟩ | ⟨whole, fraction, -, hne, hdigits, heq⟩
  · obtain ⟨d, ds, hds, hd⟩ := Text.padDigits_eq_cons 0 (q * 10 ^ k.toNat)
    exact ⟨d, ds, heq.trans hds, hd⟩
  · obtain ⟨c, cs, rfl⟩ := List.exists_cons_of_ne_nil hne
    have hmem : c ∈ Text.padDigits (fraction.length + 1) q := by
      rw [← hdigits]
      exact List.mem_cons_self
    exact ⟨c, _, heq, Text.isDigit_of_mem_padDigits c hmem⟩

lemma takeSign_of_isDigit (negative : Bool) (h : c.isDigit = true) :
    takeSign ((if negative then ['-'] else []) ++ c :: cs) = (negative, c :: cs) := by
  cases negative with
  | true => rfl
  | false =>
    rw [if_neg Bool.false_ne_true, List.nil_append]
    unfold takeSign
    split
    · rename_i hminus
      cases hminus
      cases h
    · rename_i hplus
      cases hplus
      cases h
    · rfl

lemma parse?_of_isDigit (negative : Bool) (h : c.isDigit = true) :
    parse? (.ofList ((if negative then ['-'] else []) ++ c :: cs)) =
      unsigned? negative (c :: cs) := by
  have hkept : c.toLower = c := by
    refine dif_neg fun hupper => ?_
    have hlow : 65 ≤ c.toNat := UInt32.le_iff_toNat_le.1 hupper.1
    have hhigh : c.toNat ≤ 57 := (Char.isDigit_iff_toNat.1 h).2
    omega
  have hname (name : String) (d : Char) (ds : List Char) (hname : name.toList = d :: ds)
      (hd : d.isDigit = false) : Text.lower (.ofList (c :: cs)) ≠ name := by
    rintro rfl
    unfold Text.lower at hname
    rw [String.toList_ofList, String.toList_ofList, List.map_cons, hkept] at hname
    cases hname
    rw [h] at hd
    cases hd
  unfold parse?
  rw [String.toList_ofList, takeSign_of_isDigit negative h]
  dsimp only
  split
  · rename_i hinf
    exact absurd hinf (hname "inf" _ _ rfl (by decide))
  · rename_i hinfinity
    exact absurd hinfinity (hname "infinity" _ _ rfl (by decide))
  · rename_i hnan
    exact absurd hnan (hname "nan" _ _ rfl (by decide))
  · rfl

lemma render_finite {negative : Bool} (h : InFormat (.finite negative m e)) : ∃ q k,
    (finite negative m e).render = .ofList ((if negative then ['-'] else []) ++ positional q k) ∧
      ((m = 0 ∧ e = minExponent ∧ q = 0 ∧ k = 0) ∨
        (0 < m ∧ 0 < q ∧ RoundsTo m e (q * 10 ^ k))) := by
  by_cases hm : m = 0
  · subst hm
    exact ⟨0, 0, rfl, .inl ⟨rfl, h.full.resolve_left (by decide), rfl, rfl⟩⟩
  · have hpos := Nat.pos_of_ne_zero hm
    have hround := roundsTo_shortest h hpos
    refine ⟨_, _, ?_, .inr ⟨hpos, hround.pos h hpos, hround⟩⟩
    unfold render
    simp only [if_neg hm]

/-- A number of the format is read back from its text. -/
theorem parse?_render {y : Binary64} (h : InFormat y) : parse? y.render = some y := by
  cases y with
  | nan => decide +kernel
  | infinite negative => cases negative <;> decide +kernel
  | finite negative m e =>
    obtain ⟨q, k, hrender, hcases⟩ := render_finite h
    obtain ⟨c, cs, hcons, hc⟩ := positional_eq_cons q k
    rw [hrender, hcons, parse?_of_isDigit negative hc, ← hcons, unsigned?_positional]
    rcases hcases with ⟨rfl, rfl, rfl, rfl⟩ | ⟨hm, -, hround⟩
    · cases negative <;> rfl
    · have hsame : ((q * 10 ^ k.toNat : Nat) : ℚ) * 10 ^ min k 0 = q * 10 ^ k := by
        have hsum : (k.toNat : Int) + min k 0 = k := by omega
        rw [Nat.cast_mul, Nat.cast_pow, Nat.cast_ofNat, mul_assoc, ← zpow_natCast,
          ← zpow_add₀ (by norm_num), hsum]
      rw [ofDecimal_eq negative h hm (hsame ▸ hround)]

end Positional

end TaskFlow.Binary64

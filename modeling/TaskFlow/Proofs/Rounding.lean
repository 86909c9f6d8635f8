import TaskFlow.Binary64
import Mathlib

/-!
# Rounding to binary numbers

Every number of the binary format has an interval of rational numbers that round to it. A quotient
in this interval is rounded to the number, and whatever a quotient is rounded to is of the format.
-/

namespace TaskFlow.Binary64

/-- The mantissa and the exponent of a number of the format: the mantissa has full length, or the
exponent is the least one. -/
structure Fits (m : Nat) (e : Int) : Prop where
  short : m < 2 ^ precision
  least : minExponent ≤ e
  most : e ≤ maxExponent
  full : 2 ^ (precision - 1) ≤ m ∨ e = minExponent

def InFormat : Binary64 → Prop
  | .finite _ m e => Fits m e
  | _ => True

/-- A whole number is the nearest to `x`, or one of the two nearest and even. -/
def NextTo (m : Nat) (x : ℚ) : Prop :=
  if m % 2 = 0 then m - 1 / 2 ≤ x ∧ x ≤ m + 1 / 2 else m - 1 / 2 < x ∧ x < m + 1 / 2

/-- How far below `m · 2 ^ e` the numbers begin that round to it, in units of its last place. Below
a power of two the binary numbers are twice as dense. -/
def reach (m : Nat) (e : Int) : ℚ :=
  if m = 2 ^ (precision - 1) ∧ minExponent < e then 1 / 4 else 1 / 2

/-- A number rounds to `m · 2 ^ e`. The bounds are included if the mantissa is even. -/
def RoundsTo (m : Nat) (e : Int) (x : ℚ) : Prop :=
  if m % 2 = 0 then (m - reach m e) * 2 ^ e ≤ x ∧ x ≤ (m + 1 / 2) * 2 ^ e
  else (m - reach m e) * 2 ^ e < x ∧ x < (m + 1 / 2) * 2 ^ e

variable {n d m : Nat} {e : Int} {x : ℚ}

lemma NextTo.bounds (h : NextTo m x) : m - 1 / 2 ≤ x ∧ x ≤ m + 1 / 2 := by
  unfold NextTo at h
  split_ifs at h
  · exact h
  · exact ⟨h.1.le, h.2.le⟩

lemma NextTo.le_of (h : NextTo m x) (h' : NextTo n x) : n ≤ m := by
  by_contra hlt
  have hstep : (m : ℚ) + 1 ≤ n := by exact_mod_cast Nat.not_le.1 hlt
  unfold NextTo at h h'
  split_ifs at h h' with hm hn hn
  · have heq : (n : ℚ) = m + 1 := by linarith
    have heq' : n = m + 1 := by exact_mod_cast heq
    omega
  all_goals linarith

lemma NextTo.unique (h : NextTo m x) (h' : NextTo n x) : m = n :=
  Nat.le_antisymm (h'.le_of h) (h.le_of h')

lemma nextTo_roundDiv (hd : 0 < d) : NextTo (roundDiv n d) (n / d : ℚ) := by
  have hd' : (0 : ℚ) < d := by exact_mod_cast hd
  have hdiv : (n / d : ℚ) = (n / d : Nat) + (n % d : Nat) / d := by
    have hn : (n : ℚ) = d * (n / d : Nat) + (n % d : Nat) := by
      exact_mod_cast (Nat.div_add_mod n d).symm
    rw [div_eq_iff hd'.ne', add_mul, div_mul_cancel₀ _ hd'.ne']
    linarith
  have hrest : (0 : ℚ) ≤ (n % d : Nat) / d := by positivity
  have hrest' : ((n % d : Nat) : ℚ) / d < 1 := by
    rw [div_lt_one hd']
    exact_mod_cast Nat.mod_lt n hd
  unfold roundDiv
  dsimp only
  split_ifs with hless hhalf
  · have hless' : ((n % d : Nat) : ℚ) / d < 1 / 2 := by
      have htwice : (2 : ℚ) * (n % d : Nat) < d := by exact_mod_cast hless
      rw [div_lt_iff₀ hd']
      linarith
    unfold NextTo
    rw [hdiv]
    split_ifs <;> constructor <;> linarith
  · have hhalf' : ((n % d : Nat) : ℚ) / d = 1 / 2 := by
      have htwice : (2 : ℚ) * (n % d : Nat) = d := by exact_mod_cast hhalf
      rw [div_eq_iff hd'.ne']
      linarith
    have heven : (n / d + n / d % 2) % 2 = 0 := by omega
    unfold NextTo
    rw [if_pos heven, hdiv, hhalf']
    rcases Nat.mod_two_eq_zero_or_one (n / d) with hparity | hparity
    · rw [hparity]
      push_cast
      constructor <;> linarith
    · rw [hparity]
      push_cast
      constructor <;> linarith
  · have hmore : 1 / 2 < ((n % d : Nat) : ℚ) / d := by
      have htwice : (d : ℚ) < 2 * (n % d : Nat) := by
        exact_mod_cast (by omega : d < 2 * (n % d))
      rw [lt_div_iff₀ hd']
      linarith
    unfold NextTo
    rw [hdiv]
    push_cast
    split_ifs <;> constructor <;> linarith

lemma roundDiv_eq_iff (hd : 0 < d) : roundDiv n d = m ↔ NextTo m (n / d : ℚ) := by
  constructor
  · rintro rfl
    exact nextTo_roundDiv hd
  · exact (nextTo_roundDiv hd).unique

lemma pow_toNat_div (b : Nat) (hb : 0 < b) (e : Int) :
    ((Nat.pow b e.toNat : Nat) : ℚ) / (Nat.pow b (-e).toNat : Nat) = (b : ℚ) ^ e := by
  have hb' : (b : ℚ) ≠ 0 := by positivity
  rcases le_total 0 e with h | h
  · obtain ⟨n, rfl⟩ := Int.eq_ofNat_of_zero_le h
    simp
  · obtain ⟨n, hn⟩ := Int.eq_ofNat_of_zero_le (Int.neg_nonneg.2 h)
    obtain rfl : e = -n := by omega
    simp

lemma lt_of_zpow_mul_lt {a b : Int} (i j : Int) (hlow : (2 : ℚ) ^ i * 2 ^ a ≤ x)
    (hhigh : x < 2 ^ j * 2 ^ b) : i + a < j + b := by
  rw [← zpow_add₀ two_ne_zero] at hlow hhigh
  exact (zpow_lt_zpow_iff_right₀ one_lt_two).1 (hlow.trans_lt hhigh)

lemma scale_pos (hd : 0 < d) : 0 < (scale n d e).2 :=
  Nat.mul_pos hd (Nat.pow_pos Nat.two_pos)

lemma scale_div (n d : Nat) (e : Int) :
    ((scale n d e).1 : ℚ) / (scale n d e).2 = (n / d : ℚ) / 2 ^ e := by
  have hpow := pow_toNat_div 2 Nat.two_pos e
  have hpos : (0 : ℚ) < (Nat.pow 2 (-e).toNat : Nat) := by
    exact_mod_cast Nat.pow_pos Nat.two_pos
  rw [div_eq_iff hpos.ne'] at hpow
  unfold scale
  rw [Nat.cast_mul, Nat.cast_mul, hpow]
  push_cast
  field_simp

/-- The exponent of a quotient gives it a mantissa of full length, or is the least one. -/
lemma exists_exponent (hn : 0 < n) (hd : 0 < d) :
    ∃ E : Int, exponentOf n d = max minExponent E ∧ (2 : ℚ) ^ (52 : Int) * 2 ^ E ≤ n / d ∧
      (n / d : ℚ) < 2 ^ (53 : Int) * 2 ^ E := by
  have hd' : (0 : ℚ) < d := by exact_mod_cast hd
  have hlog {k : Nat} (hk : 0 < k) :
      (2 : ℚ) ^ (k.log2 : Int) ≤ k ∧ (k : ℚ) < 2 ^ ((k.log2 : Int) + 1) := by
    have hlow := Nat.log2_self_le hk.ne'
    have hhigh := Nat.lt_log2_self (n := k)
    exact ⟨by exact_mod_cast hlow, by exact_mod_cast hhigh⟩
  let e : Int := (n.log2 : Int) - d.log2 - 52
  have hhigh : (n / d : ℚ) < 2 ^ (53 : Int) * 2 ^ e := by
    have hsum : (2 : ℚ) ^ (53 : Int) * 2 ^ e * 2 ^ (d.log2 : Int) = 2 ^ ((n.log2 : Int) + 1) := by
      rw [← zpow_add₀ two_ne_zero, ← zpow_add₀ two_ne_zero]
      congr 1
      omega
    rw [div_lt_iff₀ hd']
    calc (n : ℚ) < 2 ^ (53 : Int) * 2 ^ e * 2 ^ (d.log2 : Int) := hsum ▸ (hlog hn).2
      _ ≤ 2 ^ (53 : Int) * 2 ^ e * d := mul_le_mul_of_nonneg_left (hlog hd).1 (by positivity)
  have hlow : (2 : ℚ) ^ (52 : Int) * 2 ^ (e - 1) ≤ n / d := by
    have hsum : (2 : ℚ) ^ (52 : Int) * 2 ^ (e - 1) * 2 ^ ((d.log2 : Int) + 1) =
        2 ^ (n.log2 : Int) := by
      rw [← zpow_add₀ two_ne_zero, ← zpow_add₀ two_ne_zero]
      congr 1
      omega
    rw [le_div_iff₀ hd']
    calc (2 : ℚ) ^ (52 : Int) * 2 ^ (e - 1) * d
        ≤ 2 ^ (52 : Int) * 2 ^ (e - 1) * 2 ^ ((d.log2 : Int) + 1) :=
          mul_le_mul_of_nonneg_left (hlog hd).2.le (by positivity)
      _ ≤ n := hsum ▸ (hlog hn).1
  have htest : (scale n d e).1 < Nat.pow 2 (precision - 1) * (scale n d e).2 ↔
      (n / d : ℚ) < 2 ^ (52 : Int) * 2 ^ e := by
    have hpos : (0 : ℚ) < (scale n d e).2 := by exact_mod_cast scale_pos hd
    rw [← div_lt_iff₀ (by positivity), ← scale_div, div_lt_iff₀ hpos]
    norm_num [precision]
    exact_mod_cast Iff.rfl
  have hexponent : exponentOf n d = max minExponent
      (if (scale n d e).1 < Nat.pow 2 (precision - 1) * (scale n d e).2 then e - 1 else e) := rfl
  simp only [htest] at hexponent
  refine ⟨_, hexponent, ?_⟩
  split_ifs with hless
  · refine ⟨hlow, hless.trans_eq ?_⟩
    rw [← zpow_add₀ two_ne_zero, ← zpow_add₀ two_ne_zero]
    congr 1
    omega
  · exact ⟨not_lt.1 hless, hhigh⟩

lemma RoundsTo.bounds (h : RoundsTo m e x) :
    (m - reach m e) * 2 ^ e ≤ x ∧ x ≤ (m + 1 / 2) * 2 ^ e := by
  unfold RoundsTo at h
  split_ifs at h
  · exact h
  · exact ⟨h.1.le, h.2.le⟩

lemma reach_le (m : Nat) (e : Int) : reach m e ≤ 1 / 2 := by
  unfold reach
  split_ifs <;> norm_num

lemma RoundsTo.half_below_le (h : RoundsTo m e x) : ((m : ℚ) - 1 / 2) * 2 ^ e ≤ x := by
  refine le_trans (mul_le_mul_of_nonneg_right ?_ (by positivity)) h.bounds.1
  linarith [reach_le m e]

lemma RoundsTo.lt (h : RoundsTo m e x) (hm : Fits m e) : x < 2 ^ (53 : Int) * 2 ^ e := by
  have hshort : (m : ℚ) + 1 ≤ 2 ^ (53 : Int) := by exact_mod_cast hm.short
  refine h.bounds.2.trans_lt (mul_lt_mul_of_pos_right ?_ (by positivity))
  linarith

lemma RoundsTo.nextTo (h : RoundsTo m e x) : NextTo m (x / 2 ^ e) := by
  have hpos : (0 : ℚ) < 2 ^ e := by positivity
  have hle : ((m : ℚ) - 1 / 2) * 2 ^ e ≤ (m - reach m e) * 2 ^ e := by
    refine mul_le_mul_of_nonneg_right ?_ hpos.le
    linarith [reach_le m e]
  unfold RoundsTo at h
  unfold NextTo
  rw [le_div_iff₀ hpos, div_le_iff₀ hpos, lt_div_iff₀ hpos, div_lt_iff₀ hpos]
  split_ifs at h ⊢
  · exact ⟨hle.trans h.1, h.2⟩
  · exact ⟨hle.trans_lt h.1, h.2⟩

lemma RoundsTo.nextTo_below (h : RoundsTo (2 ^ (precision - 1)) e x) (hmin : minExponent < e)
    (hless : x < 2 ^ (52 : Int) * 2 ^ e) : NextTo (2 ^ precision) (x / 2 ^ (e - 1)) := by
  have hpos : (0 : ℚ) < 2 ^ (e - 1) := by positivity
  have htwice : (2 : ℚ) ^ e = 2 * 2 ^ (e - 1) := by
    rw [← zpow_one_add₀ two_ne_zero]
    congr 1
    omega
  have hlow := h.bounds.1
  rw [reach, if_pos ⟨rfl, hmin⟩, htwice] at hlow
  rw [htwice] at hless
  unfold NextTo
  rw [if_pos (by decide), le_div_iff₀ hpos, div_le_iff₀ hpos]
  norm_num [precision] at hlow hless ⊢
  constructor <;> linarith

lemma RoundsTo.exponentOf_cases (h : RoundsTo m e (n / d)) (hm : Fits m e) (hn : 0 < n)
    (hd : 0 < d) :
    exponentOf n d = e ∨ (exponentOf n d = e - 1 ∧ m = 2 ^ (precision - 1) ∧ minExponent < e ∧
      (n / d : ℚ) < 2 ^ (52 : Int) * 2 ^ e) := by
  obtain ⟨E, hE, hlow, hhigh⟩ := exists_exponent hn hd
  have hle := lt_of_zpow_mul_lt 52 53 hlow (h.lt hm)
  have hleast := hm.least
  rw [hE]
  by_cases hfull : (2 : ℚ) ^ (52 : Int) * 2 ^ e ≤ n / d
  · have hge := lt_of_zpow_mul_lt 52 53 hfull hhigh
    left
    omega
  · rw [not_le] at hfull
    by_cases hmin : minExponent < e
    · have hlong := hm.full.resolve_right hmin.ne'
      have hpower : m = 2 ^ (precision - 1) := by
        refine Nat.le_antisymm ?_ hlong
        have hlt := lt_of_mul_lt_mul_right (h.half_below_le.trans_lt hfull) (by positivity)
        have hlt' : (m : ℚ) < 2 ^ 52 + 1 := by
          norm_num at hlt
          linarith
        exact Nat.lt_succ_iff.1 (by exact_mod_cast hlt')
      have hge : (2 : ℚ) ^ (51 : Int) * 2 ^ e ≤ n / d := by
        refine le_trans (mul_le_mul_of_nonneg_right ?_ (by positivity)) h.half_below_le
        rw [hpower]
        norm_num [precision]
      have hge' := lt_of_zpow_mul_lt 51 53 hge hhigh
      have hlt' := lt_of_zpow_mul_lt 52 52 hlow hfull
      exact .inr ⟨by omega, hpower, hmin, hfull⟩
    · left
      omega

/-- A quotient is rounded to the number of the format in whose interval it lies. -/
theorem ofQuotient_eq (negative : Bool) (hm : Fits m e) (hn : 0 < n) (hd : 0 < d)
    (h : RoundsTo m e (n / d)) : ofQuotient negative n d = .finite negative m e := by
  have hround (e' : Int) (m' : Nat) (h' : NextTo m' (n / d / 2 ^ e' : ℚ)) :
      roundDiv (scale n d e').1 (scale n d e').2 = m' := by
    rwa [roundDiv_eq_iff (scale_pos hd), scale_div]
  unfold ofQuotient
  simp only [Nat.pow_eq]
  rw [if_neg hn.ne']
  rcases h.exponentOf_cases hm hn hd with hexp | ⟨hexp, rfl, hmin, hless⟩
  · rw [hexp, hround e m h.nextTo, if_neg (Nat.ne_of_lt hm.short)]
    exact if_neg (not_lt.2 hm.most)
  · rw [hexp, hround (e - 1) (2 ^ precision) (h.nextTo_below hmin hless), if_pos rfl,
      Int.sub_add_cancel]
    exact if_neg (not_lt.2 hm.most)

lemma inFormat_zero (negative : Bool) : InFormat (.finite negative 0 minExponent) where
  short := Nat.two_pow_pos _
  least := le_refl _
  most := by decide
  full := .inr rfl

lemma mantissa_bounds (hn : 0 < n) (hd : 0 < d) :
    let m := roundDiv (scale n d (exponentOf n d)).1 (scale n d (exponentOf n d)).2
    m ≤ 2 ^ precision ∧ minExponent ≤ exponentOf n d ∧
      (2 ^ (precision - 1) ≤ m ∨ exponentOf n d = minExponent) := by
  intro m
  obtain ⟨E, hE, hlow, hhigh⟩ := exists_exponent hn hd
  have hpos : (0 : ℚ) < 2 ^ exponentOf n d := by positivity
  have hnear : NextTo m (n / d / 2 ^ exponentOf n d : ℚ) := by
    rw [← scale_div]
    exact nextTo_roundDiv (scale_pos hd)
  have hle : (n / d : ℚ) / 2 ^ exponentOf n d < 2 ^ (53 : Int) := by
    rw [div_lt_iff₀ hpos]
    refine hhigh.trans_le (mul_le_mul_of_nonneg_left ?_ (by positivity))
    exact zpow_le_zpow_right₀ one_le_two (by omega)
  have hshort : m ≤ 2 ^ precision := by
    have hlt : (m : ℚ) < 2 ^ 53 + 1 := by
      norm_num at hle
      linarith [hnear.bounds.1]
    exact Nat.lt_succ_iff.1 (by exact_mod_cast hlt)
  refine ⟨hshort, by omega, ?_⟩
  by_cases hmin : exponentOf n d = minExponent
  · exact .inr hmin
  · left
    have hexp : exponentOf n d = E := by omega
    rw [← hexp, ← le_div_iff₀ hpos] at hlow
    have hlt : (2 : ℚ) ^ 52 < m + 1 := by
      norm_num at hlow
      linarith [hnear.bounds.2]
    exact Nat.lt_succ_iff.1 (by exact_mod_cast hlt)

/-- Whatever a quotient is rounded to is a number of the format. -/
theorem inFormat_ofQuotient (negative : Bool) (hd : 0 < d) :
    InFormat (ofQuotient negative n d) := by
  unfold ofQuotient
  simp only [Nat.pow_eq]
  split_ifs with hzero hcarry hover hover
  · exact inFormat_zero negative
  · trivial
  · obtain ⟨-, hleast, -⟩ := mantissa_bounds (Nat.pos_of_ne_zero hzero) hd
    exact ⟨Nat.pow_lt_pow_right (by decide) (by decide), by omega, not_lt.1 hover, .inl (le_refl _)⟩
  · trivial
  · obtain ⟨hshort, hleast, hfull⟩ := mantissa_bounds (Nat.pos_of_ne_zero hzero) hd
    exact ⟨lt_of_le_of_ne hshort hcarry, hleast, not_lt.1 hover, hfull⟩

end TaskFlow.Binary64

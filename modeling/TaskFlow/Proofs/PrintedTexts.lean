import TaskFlow.Proofs.DecimalText
import TaskFlow.Proofs.Loading

/-!
# Texts that are read as values

The text of a variable is read as a truth value or a number if it is one, and where a text is asked
for, this value is written out again. The text is kept if it is written like that, or if it is read
as neither.
-/

namespace TaskFlow

/-- What stands in a setting that is a text if a variable gives a text for it. -/
def heldText (text : String) : String :=
  (Given.ofVariable text).toText?.getD text

/-- A text is what a truth value, a whole number of 64 bits or a binary number is written as, or it
is read as none of them. Negative zero is left out, since its text is read as a whole number. -/
inductive Printed : String → Prop
  | truth (b : Bool) : Printed (toString b)
  | whole (n : Int) (least : -2 ^ 63 ≤ n) (most : n < 2 ^ 63) : Printed (toString n)
  | real (x : Binary64) (format : x.InFormat)
      (signed : x ≠ .finite true 0 Binary64.minExponent) : Printed x.render
  | plain (text : String) (word : ∀ b : Bool, Text.lowercase text ≠ toString b)
      (whole : int64? 10 text.toList = none) (real : Binary64.parse? text = none) : Printed text

lemma ofVariable_cases (text : String) :
    (∃ b : Bool, Text.lowercase text = toString b ∧ Given.ofVariable text = .bool b) ∨
      (∀ b : Bool, Text.lowercase text ≠ toString b) ∧
        ((∃ n, int64? 10 text.toList = some n ∧ Given.ofVariable text = .whole n) ∨
          int64? 10 text.toList = none ∧
            ((∃ x, Binary64.parse? text = some x ∧ Given.ofVariable text = .real x) ∨
              Binary64.parse? text = none ∧ Given.ofVariable text = .text text)) := by
  unfold Given.ofVariable
  dsimp only
  split_ifs with htrue hfalse
  · exact .inl ⟨true, htrue, rfl⟩
  · exact .inl ⟨false, hfalse, rfl⟩
  · refine .inr ⟨fun b => ?_, ?_⟩
    · cases b
      · exact hfalse
      · exact htrue
    · cases hwhole : int64? 10 text.toList with
      | some n => exact .inl ⟨n, rfl, rfl⟩
      | none =>
        cases hreal : Binary64.parse? text with
        | some x => exact .inr ⟨rfl, .inl ⟨x, rfl, rfl⟩⟩
        | none => exact .inr ⟨rfl, .inr ⟨rfl, rfl⟩⟩

section Whole

variable {c : Char} {cs : List Char} {n : Nat} {i : Int} {base : Nat} {negative : Bool}

lemma int64?_bounds (h : int64? base cs = some i) : -2 ^ 63 ≤ i ∧ i < 2 ^ 63 := by
  unfold int64? at h
  obtain ⟨n, -, hn⟩ := Option.bind_eq_some_iff.1 h
  simp only [Nat.pow_eq] at hn
  split_ifs at hn
  · cases hn
    omega
  · cases hn
    omega

lemma readBase_eq_none (hc : Text.hexValue? c = none) (hmem : c ∈ cs) :
    readBase base cs = none := by
  have hread (n : Nat) : cs.foldlM (fun n c => do
      let d ← Text.hexValue? c
      if d < base then some (base * n + d) else none) n = none := by
    induction cs generalizing n with
    | nil => cases hmem
    | cons d cs ih =>
      rw [List.foldlM_cons]
      rcases List.mem_cons.1 hmem with rfl | hmem
      · rw [hc]
        rfl
      · exact Option.bind_eq_none_iff.2 fun m _ => ih hmem m
  unfold readBase
  rw [hread]
  split_ifs <;> rfl

lemma readBase_padDigits (width n : Nat) : readBase 10 (Text.padDigits width n) = some n := by
  obtain ⟨d, ds, hds, -⟩ := Text.padDigits_eq_cons width n
  refine readBase_of_digits ?_
  unfold Text.nat?
  rw [if_pos ⟨by simp [hds], List.all_eq_true.2 Text.isDigit_of_mem_padDigits⟩,
    Text.readDigits_padDigits]

lemma int64?_signed (hc : c.isDigit = true) (h : readBase 10 (c :: cs) = some n) :
    int64? 10 ((if negative then ['-'] else []) ++ c :: cs) =
      if negative then if n ≤ 2 ^ 63 then some (-(n : Int)) else none
      else if n < 2 ^ 63 then some (n : Int) else none := by
  unfold int64?
  rw [Binary64.takeSign_of_isDigit negative hc]
  simp only [h, Nat.pow_eq]
  rfl

lemma toString_signed (h : negative = true → n ≠ 0) :
    toString (if negative then -(n : Int) else n) =
      .ofList ((if negative then ['-'] else []) ++ Text.padDigits 0 n) := by
  rw [← Binary64.toDigits_eq_padDigits]
  cases negative with
  | false => rfl
  | true =>
    obtain ⟨m, rfl⟩ := Nat.exists_eq_succ_of_ne_zero (h rfl)
    rw [if_pos rfl, if_pos rfl, String.ofList_append]
    rfl

lemma exists_signed (i : Int) : ∃ (negative : Bool) (n : Nat),
    i = (if negative then -(n : Int) else n) ∧ (negative = true → n ≠ 0) := by
  rcases lt_or_ge i 0 with hi | hi
  · refine ⟨true, i.natAbs, ?_, fun _ => by omega⟩
    rw [if_pos rfl]
    omega
  · refine ⟨false, i.natAbs, ?_, nofun⟩
    rw [if_neg Bool.false_ne_true]
    omega

lemma lt_of_mem_signed (h : ∀ c ∈ cs, c.toNat < 65) :
    ∀ c ∈ (if negative then ['-'] else []) ++ cs, c.toNat < 65 := by
  intro c hc
  rcases List.mem_append.1 hc with hc | hc
  · split_ifs at hc
    · rw [List.mem_singleton.1 hc]
      decide
    · cases hc
  · exact h c hc

lemma ofVariable_toString (least : -2 ^ 63 ≤ i) (most : i < 2 ^ 63) :
    Given.ofVariable (toString i) = .whole i := by
  obtain ⟨negative, n, rfl, hzero⟩ := exists_signed i
  obtain ⟨d, ds, hds, hd⟩ := Text.padDigits_eq_cons 0 n
  have hread := readBase_padDigits 0 n
  have hdigits : ∀ c ∈ Text.padDigits 0 n, c.toNat < 65 := fun c hc =>
    lt_of_le_of_lt (Char.isDigit_iff_toNat.1 (Text.isDigit_of_mem_padDigits c hc)).2 (by decide)
  have hwhole : int64? 10 ((if negative then ['-'] else []) ++ Text.padDigits 0 n) =
      some (if negative then -(n : Int) else n) := by
    rw [hds] at hread ⊢
    rw [int64?_signed hd hread]
    cases negative with
    | true => exact if_pos (by simp at least; omega)
    | false => exact if_pos (by simp at most; omega)
  rcases ofVariable_cases (toString (if negative then -(n : Int) else n)) with
    ⟨b, hb, -⟩ | ⟨-, ⟨i, hi, hread⟩ | ⟨hnone, -⟩⟩
  · refine absurd hb (lowercase_ne_toString ?_ b)
    rw [toString_signed hzero, String.toList_ofList]
    exact lt_of_mem_signed hdigits
  · rw [toString_signed hzero, String.toList_ofList, hwhole] at hi
    rw [hread, ← Option.some.inj hi]
  · rw [toString_signed hzero, String.toList_ofList, hwhole] at hnone
    cases hnone

end Whole

lemma toString_of_positional {negative : Bool} {q : Nat} {k i : Int}
    (hq : negative = true → q ≠ 0)
    (h : int64? 10 ((if negative then ['-'] else []) ++ Binary64.positional q k) = some i) :
    toString i = .ofList ((if negative then ['-'] else []) ++ Binary64.positional q k) := by
  obtain ⟨c, cs, hcons, hc⟩ := Binary64.positional_eq_cons q k
  rcases Binary64.positional_eq q k with ⟨-, heq⟩ | ⟨whole, fraction, -, -, -, heq⟩
  · have hread := readBase_padDigits 0 (q * 10 ^ k.toNat)
    rw [← heq, hcons] at hread
    rw [hcons, int64?_signed hc hread] at h
    have hi : i = if negative then -((q * 10 ^ k.toNat : Nat) : Int)
        else (q * 10 ^ k.toNat : Nat) := by
      split_ifs at h ⊢ <;> exact (Option.some.inj h).symm
    rw [heq, ← toString_signed fun hneg => Nat.mul_ne_zero (hq hneg) (by positivity), hi]
  · have hnone : readBase 10 (c :: cs) = none := by
      rw [← hcons]
      exact readBase_eq_none (c := '.') (by decide) (by simp [heq])
    unfold int64? at h
    rw [hcons, Binary64.takeSign_of_isDigit negative hc] at h
    simp [hnone] at h

/-- A binary number is held as it is written, though its text may be read as a whole number. -/
lemma heldText_render {x : Binary64} (h : x.InFormat)
    (hzero : x ≠ .finite true 0 Binary64.minExponent) : heldText x.render = x.render := by
  have hparse := Binary64.parse?_render h
  cases x with
  | nan => decide +kernel
  | infinite negative => cases negative <;> decide +kernel
  | finite negative m e =>
    obtain ⟨q, k, hrender, hcases⟩ := Binary64.render_finite h
    unfold heldText
    rcases ofVariable_cases (Binary64.finite negative m e).render with
      ⟨b, hb, -⟩ | ⟨-, ⟨i, hwhole, hread⟩ | ⟨-, ⟨x, hx, hread⟩ | ⟨hnone, -⟩⟩⟩
    · refine absurd hb (lowercase_ne_toString ?_ b)
      rw [hrender, String.toList_ofList]
      exact lt_of_mem_signed fun c => Binary64.lt_of_mem_positional
    · have hq : negative = true → q ≠ 0 := by
        rintro rfl
        rcases hcases with ⟨rfl, rfl, -, -⟩ | ⟨-, hq, -⟩
        · exact absurd rfl hzero
        · exact hq.ne'
      rw [hrender, String.toList_ofList] at hwhole
      rw [hread, hrender]
      exact toString_of_positional hq hwhole
    · rw [hparse] at hx
      rw [hread, ← Option.some.inj hx]
      rfl
    · rw [hparse] at hnone
      cases hnone

lemma toText?_ofVariable (text : String) :
    (Given.ofVariable text).toText? = some (heldText text) := by
  unfold heldText
  rcases ofVariable_cases text with ⟨b, -, h⟩ | ⟨-, ⟨n, -, h⟩ | ⟨-, ⟨x, -, h⟩ | ⟨-, h⟩⟩⟩ <;>
    rw [h] <;> rfl

lemma ofVariable_ne_table (text : String) : Given.ofVariable text ≠ .table true := by
  intro h
  have hheld := toText?_ofVariable text
  rw [h] at hheld
  cases hheld

lemma exists_visible_signed (negative : Bool) {c : Char} {cs : List Char} (h : c.isDigit = true) :
    ∃ d ∈ (if negative then ['-'] else []) ++ c :: cs, Text.isBlank d = false :=
  ⟨c, List.mem_append_right _ List.mem_cons_self, Text.isBlank_of_isDigit h⟩

lemma exists_visible_heldText {text : String} (h : ∃ c ∈ text.toList, Text.isBlank c = false) :
    ∃ c ∈ (heldText text).toList, Text.isBlank c = false := by
  unfold heldText
  rcases ofVariable_cases text with
    ⟨b, -, hheld⟩ | ⟨-, ⟨n, -, hheld⟩ | ⟨-, ⟨x, hx, hheld⟩ | ⟨-, hheld⟩⟩⟩
  · rw [hheld]
    change ∃ c ∈ (if b then "true" else "false" : String).toList, _
    cases b
    · exact ⟨'f', by decide, by decide⟩
    · exact ⟨'t', by decide, by decide⟩
  · obtain ⟨negative, m, rfl, hzero⟩ := exists_signed n
    obtain ⟨d, ds, hds, hd⟩ := Text.padDigits_eq_cons 0 m
    rw [hheld]
    change ∃ c ∈ (toString (if negative then -(m : Int) else m)).toList, _
    rw [toString_signed hzero, String.toList_ofList, hds]
    exact exists_visible_signed negative hd
  · rw [hheld]
    change ∃ c ∈ x.render.toList, _
    cases x with
    | nan => exact ⟨'N', by decide, by decide⟩
    | infinite negative =>
      cases negative
      · exact ⟨'i', by decide, by decide⟩
      · exact ⟨'i', by decide, by decide⟩
    | finite negative m e =>
      obtain ⟨q, k, hrender, -⟩ := Binary64.render_finite (Binary64.inFormat_of_parse? hx)
      obtain ⟨c, cs, hcons, hc⟩ := Binary64.positional_eq_cons q k
      rw [hrender, String.toList_ofList, hcons]
      exact exists_visible_signed negative hc
  · rw [hheld]
    exact h

/-- A text is kept just if it is written as a value is, or is read as none. -/
theorem heldText_eq_iff (text : String) : heldText text = text ↔ Printed text := by
  constructor
  · intro h
    unfold heldText at h
    rcases ofVariable_cases text with
      ⟨b, -, hb⟩ | ⟨hword, ⟨n, hn, hheld⟩ | ⟨hwhole, ⟨x, hx, hheld⟩ | ⟨hreal, -⟩⟩⟩
    · rw [hb] at h
      rw [← h]
      cases b
      · exact .truth false
      · exact .truth true
    · obtain ⟨least, most⟩ := int64?_bounds hn
      rw [hheld] at h
      rw [← h]
      exact .whole n least most
    · rw [hheld] at h
      have hsigned : x ≠ .finite true 0 Binary64.minExponent := by
        rintro rfl
        have htext : text = "-0" := h.symm
        rw [htext] at hwhole
        exact absurd hwhole (by decide)
      rw [← h]
      exact .real x (Binary64.inFormat_of_parse? hx) hsigned
    · exact .plain text hword hwhole hreal
  · rintro (b | ⟨n, least, most⟩ | ⟨x, format, signed⟩ | ⟨_, word, whole, real⟩)
    · cases b <;> decide +kernel
    · unfold heldText
      rw [ofVariable_toString least most]
      rfl
    · exact heldText_render format signed
    · unfold heldText
      rcases ofVariable_cases text with
        ⟨b, hb, -⟩ | ⟨-, ⟨n, hn, -⟩ | ⟨-, ⟨x, hx, -⟩ | ⟨-, hheld⟩⟩⟩
      · exact absurd hb (word b)
      · rw [whole] at hn
        cases hn
      · rw [real] at hx
        cases hx
      · rw [hheld]
        rfl

example : heldText "-0" = "0" ∧ heldText "True" = "true" ∧ heldText "0.50" = "0.5" := by
  decide +kernel

end TaskFlow

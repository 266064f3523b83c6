import SqlTree.Proofs.Fold.Reference
import SqlTree.Proofs.Number.Double

/-! # Integer parts of doubles

The doubles whose integer part is a word, as bounds on the doubles themselves. A bound is a power of
two with more bits than a significand has, so a double next to it has no fraction and the order is
that of the integer parts.

Main definitions:

* `Binary64.Shape`: what a double is, in terms of its bits.
* `Binary64.BelowZero`: the doubles less than zero.

Main statements:

* `Binary64.shape`: every double has a shape.
* `Binary64.Shape.compare_power`, `Binary64.Shape.neg_power_compare`: doubles against powers of two.
* `Binary64.between_iff_signed`, `Binary64.between_iff_unsigned`: integer parts that are words.
-/

namespace SqlTree.Binary64

open Float.Model Float.Model.UnpackedFloat

/-! Parts. -/

/-- The 64 bits of a double. -/
def bits (x : Float) : BitVec Format.binary64.numBits := x.toModel.toBits.toBitVec

def sign (x : Float) : Sign := if isNegative x then .negative else .positive

theorem toNat_unpackExponent (x : Float) : (unpackExponent (bits x)).toNat = exponentField x := by
  change (BitVec.extractLsb 62 52 (bits x)).toNat = _
  rw [BitVec.extractLsb_toNat]
  rfl

theorem toNat_unpackMantissa (x : Float) : (unpackMantissa (bits x)).toNat = fractionField x := by
  change (BitVec.extractLsb 51 0 (bits x)).toNat = _
  rw [BitVec.extractLsb_toNat]
  rfl

theorem fractionField_lt (x : Float) : fractionField x < 2 ^ 52 := Nat.mod_lt _ (by decide)

theorem ofBitVec_unpackSign_bits (x : Float) : Sign.ofBitVec (unpackSign (bits x)) = sign x := by
  have hlt : (bits x).toNat < 2 ^ 64 := (bits x).isLt
  have hbit : (unpackSign (bits x)).toNat = (bits x).toNat / 2 ^ 63 % 2 := by
    change (BitVec.extractLsb 63 63 (bits x)).toNat = _
    rw [BitVec.extractLsb_toNat, Nat.shiftRight_eq_div_pow]
  have hzero : unpackSign (bits x) = 0#1 ↔ ¬ isNegative x = true := by
    rw [← BitVec.toNat_inj, hbit, isNegative, decide_eq_true_iff]
    change _ = 0 ↔ ¬ 2 ^ 63 ≤ (bits x).toNat
    omega
  by_cases h : isNegative x = true
  · rw [sign, if_pos h]
    exact if_neg fun hn => hzero.1 hn h
  · rw [sign, if_neg h]
    exact if_pos (hzero.2 h)

/-- What a double is, in terms of its bits. A finite significand has 53 bits unless the exponent is
the least one. -/
inductive Shape (x : Float) : UnpackedFloat → Prop
  | notANumber : Shape x .notANumber
  | infinity (s : Sign) : Shape x (.infinity s)
  | zero (h : mantissa x = 0) : Shape x (.zero (sign x))
  | finite (h : 0 < mantissa x) (hhigh : mantissa x < 2 ^ 53)
      (hlow : 2 ^ 52 ≤ mantissa x ∨ exponent x = -1074) :
      Shape x (.finite (sign x) (mantissa x) (exponent x) h)

namespace Shape

variable {x : Float}

theorem of_eq {s : Sign} {m : Nat} {e : Int} (hs : s = sign x) (hm : m = mantissa x)
    (he : e = exponent x) (hpos : 0 < m) (hhigh : m < 2 ^ 53) (hlow : 2 ^ 52 ≤ m ∨ e = -1074) :
    Shape x (.finite s m e hpos) := by
  subst hs hm he
  exact .finite hpos hhigh hlow

/-- The greatest exponent is that of the infinities and of what is not a number. -/
theorem of_exponent_eq_max (h : unpackExponent (bits x) = -1#11) : Shape x x.toModel.unpack := by
  have hunpack : x.toModel.unpack =
      if unpackMantissa (bits x) = 0#52 then .infinity (Sign.ofBitVec (unpackSign (bits x)))
      else .notANumber :=
    if_pos h
  rw [hunpack]
  split
  · exact .infinity _
  · exact .notANumber

/-- The least exponent is that of zero and of significands with no leading bit of their own. -/
theorem of_exponent_eq_min (h : unpackExponent (bits x) = 0#11) : Shape x x.toModel.unpack := by
  have hmax : unpackExponent (bits x) ≠ -1#11 := by
    rw [h]
    decide
  have hfield : exponentField x = 0 := by
    rw [← toNat_unpackExponent, h]
    rfl
  have hm : mantissa x = (unpackMantissa (bits x)).toNat :=
    (if_pos hfield).trans (toNat_unpackMantissa x).symm
  by_cases hzero : unpackMantissa (bits x) = 0#52
  · have hunpack : x.toModel.unpack = .zero (Sign.ofBitVec (unpackSign (bits x))) :=
      (if_neg hmax).trans ((if_pos h).trans (dif_pos hzero))
    rw [hunpack, ofBitVec_unpackSign_bits]
    refine .zero ?_
    rw [hm, hzero]
    rfl
  · have hpos : 0 < (unpackMantissa (bits x)).toNat :=
      Nat.pos_of_ne_zero fun hn => hzero (BitVec.toNat_inj.1 hn)
    have hunpack : x.toModel.unpack =
        .finite (Sign.ofBitVec (unpackSign (bits x))) (unpackMantissa (bits x)).toNat
          ((unpackExponent (bits x)).toNat - 1075 + 1) hpos :=
      (if_neg hmax).trans ((if_pos h).trans (dif_neg hzero))
    have he : exponent x = -1074 := by
      rw [exponent, hfield]
      rfl
    have hlt := fractionField_lt x
    rw [hunpack]
    rw [← toNat_unpackExponent] at hfield
    rw [← toNat_unpackMantissa] at hlt
    exact of_eq (ofBitVec_unpackSign_bits x) hm.symm (by omega) hpos (by omega) (.inr (by omega))

/-- Between the two the significand has a leading bit. -/
theorem of_exponent_ne (hmax : unpackExponent (bits x) ≠ -1#11)
    (hmin : unpackExponent (bits x) ≠ 0#11) : Shape x x.toModel.unpack := by
  have hlt := fractionField_lt x
  have hfield : exponentField x ≠ 0 := by
    rw [← toNat_unpackExponent]
    exact fun hn => hmin (BitVec.toNat_inj.1 hn)
  have hm : mantissa x = 2 ^ 52 + fractionField x := if_neg hfield
  have hsignificand : (1#1 ++ unpackMantissa (bits x)).toNat = 2 ^ 52 + fractionField x := by
    rw [BitVec.toNat_append, ← Nat.shiftLeft_add_eq_or_of_lt (BitVec.isLt _), toNat_unpackMantissa]
    rfl
  have hpos : 0 < (1#1 ++ unpackMantissa (bits x)).toNat := by omega
  have hunpack : x.toModel.unpack =
      .finite (Sign.ofBitVec (unpackSign (bits x))) (1#1 ++ unpackMantissa (bits x)).toNat
        ((unpackExponent (bits x)).toNat - 1075) hpos :=
    (if_neg hmax).trans (if_neg hmin)
  have he : exponent x = exponentField x - 1075 := by
    unfold exponent
    omega
  rw [hunpack]
  refine of_eq (ofBitVec_unpackSign_bits x) (hsignificand.trans hm.symm) ?_ hpos (by omega)
    (.inl (by omega))
  rw [toNat_unpackExponent, he]

end Shape

theorem shape (x : Float) : Shape x x.toModel.unpack := by
  by_cases hmax : unpackExponent (bits x) = -1#11
  · exact .of_exponent_eq_max hmax
  · by_cases hmin : unpackExponent (bits x) = 0#11
    · exact .of_exponent_eq_min hmin
    · exact .of_exponent_ne hmax hmin

/-! Bounds. -/

theorem le_iff_compare {x y : Float} :
    x ≤ y ↔ (x.toModel.unpack.compare y.toModel.unpack).any Ordering.isLE = true := by
  change decide ((x.toModel.unpack.compare y.toModel.unpack).any Ordering.isLE = true) = true ↔ _
  rw [decide_eq_true_iff]

theorem le_iff_of_compare {x y : Float} {m n : Int}
    (h : x.toModel.unpack.compare y.toModel.unpack = some (compare m n)) : x ≤ y ↔ m ≤ n := by
  rw [le_iff_compare, h, Option.any_some, Int.isLE_compare]

theorem lt_iff_of_compare {x y : Float} {m n : Int}
    (h : x.toModel.unpack.compare y.toModel.unpack = some (compare m n)) : x < y ↔ m < n := by
  rw [lt_iff_compare, h, Option.some_inj, Int.compare_eq_lt]

/-- What lies between finite doubles is finite. -/
theorem isFinite_of_between {x low high : Float} (hlow : low.isFinite = true)
    (hhigh : high.isFinite = true) (hle : low ≤ x) (hlt : x < high) : x.isFinite = true := by
  rw [le_iff_compare] at hle
  rw [lt_iff_compare] at hlt
  change x.toModel.unpack.isFinite = true
  change low.toModel.unpack.isFinite = true at hlow
  change high.toModel.unpack.isFinite = true at hhigh
  generalize x.toModel.unpack = u at *
  generalize low.toModel.unpack = v at *
  generalize high.toModel.unpack = w at *
  cases u with
  | notANumber => cases w <;> cases hlt
  | infinity s =>
    cases s with
    | positive => cases w <;> first | cases hlt | cases hhigh
    | negative => cases v <;> first | cases hle | cases hlow
  | zero _ | finite _ _ _ _ => rfl

theorem wholePart_natCast (m k : Nat) : (wholePart m k).1 = m * 2 ^ k := by
  rw [wholePart, if_pos (Int.natCast_nonneg k), Int.toNat_natCast, Nat.shiftLeft_eq]

theorem wholePart_le_half (m : Nat) {e : Int} (he : e < 0) : (wholePart m e).1 ≤ m / 2 := by
  have hpow : 2 ^ 1 ≤ 2 ^ (-e).toNat := Nat.pow_le_pow_right (by decide) (by omega)
  rw [wholePart, if_neg (Int.not_le.2 he)]
  change m >>> _ ≤ _
  rw [Nat.shiftRight_eq_div_pow]
  exact Nat.div_le_div_left hpow (by decide)

theorem wholePart_lt {m k : Nat} {e : Int} (hhigh : m < 2 ^ 53) (h : e < k) :
    (wholePart m e).1 < 2 ^ 52 * 2 ^ k := by
  rcases Int.lt_or_le e 0 with he | he
  · have hhalf := wholePart_le_half m he
    have hpow := Nat.mul_le_mul_left (2 ^ 52) (Nat.two_pow_pos k)
    omega
  · obtain ⟨j, rfl⟩ := Int.eq_ofNat_of_zero_le he
    rw [wholePart_natCast]
    calc m * 2 ^ j < 2 ^ 53 * 2 ^ j := Nat.mul_lt_mul_of_pos_right hhigh (Nat.two_pow_pos j)
      _ = 2 ^ 52 * 2 ^ (j + 1) := by rw [Nat.pow_succ]; omega
      _ ≤ 2 ^ 52 * 2 ^ k := Nat.mul_le_mul_left _ (Nat.pow_le_pow_right (by decide) (by omega))

theorem lt_wholePart {m k : Nat} {e : Int} (hlow : 2 ^ 52 ≤ m) (h : k < e) :
    2 ^ 52 * 2 ^ k < (wholePart m e).1 := by
  obtain ⟨j, rfl⟩ := Int.eq_ofNat_of_zero_le (Int.le_trans (Int.natCast_nonneg k) (Int.le_of_lt h))
  have hpow : 2 ^ k < 2 ^ j := Nat.pow_lt_pow_right (by decide) (by omega)
  rw [wholePart_natCast]
  calc 2 ^ 52 * 2 ^ k < 2 ^ 52 * 2 ^ j := Nat.mul_lt_mul_of_pos_left hpow (by decide)
    _ ≤ m * 2 ^ j := Nat.mul_le_mul_right _ hlow

/-- The order of a double and a power of two with at least 53 bits is that of the integer part. -/
theorem compare_wholePart {m : Nat} {e : Int} (hhigh : m < 2 ^ 53)
    (hlow : 2 ^ 52 ≤ m ∨ e = -1074) (k : Nat) :
    (compare e k).then (compare m (2 ^ 52)) = compare (wholePart m e).1 (2 ^ 52 * 2 ^ k) := by
  rcases Int.lt_trichotomy e k with h | rfl | h
  · rw [Int.compare_eq_lt.2 h, Nat.compare_eq_lt.2 (wholePart_lt hhigh h)]
    rfl
  · have hpos := Nat.two_pow_pos k
    rw [wholePart_natCast, Int.compare_eq_eq.2 rfl]
    simp only [Ordering.then, Nat.compare_eq_ite_lt, Nat.mul_lt_mul_right hpos]
  · have hnormal : 2 ^ 52 ≤ m := by omega
    rw [Int.compare_eq_gt.2 h, Nat.compare_eq_gt.2 (lt_wholePart hnormal h)]
    rfl

theorem truncate_eq (x : Float) :
    truncate x = (sign x).apply (wholePart (mantissa x) (exponent x)).1 := by
  unfold truncate sign
  split <;> rfl

theorem wholePart_zero (e : Int) : (wholePart 0 e).1 = 0 := by
  unfold wholePart
  split
  · exact Nat.zero_shiftLeft _
  · exact Nat.zero_shiftRight _

theorem truncate_of_mantissa_eq_zero {x : Float} (h : mantissa x = 0) : truncate x = 0 := by
  rw [truncate_eq, h, wholePart_zero]
  cases sign x <;> rfl

theorem leadingBit_pos : 0 < 2 ^ 52 := by decide

/-- A power of two, with a significand of 53 bits. -/
def power (s : Sign) (k : Nat) : UnpackedFloat := .finite s (2 ^ 52) k leadingBit_pos

namespace Shape

variable {x : Float} {u : UnpackedFloat}

/-- A finite double is below a power of two with at least 53 bits if its integer part is. -/
theorem compare_power (h : Shape x u) (hfinite : u.isFinite = true) (k : Nat) :
    u.compare (power .positive k) = some (compare (truncate x) (2 ^ 52 * 2 ^ k : Nat)) := by
  have hpos : 0 < 2 ^ 52 * 2 ^ k := Nat.mul_pos (by decide) (Nat.two_pow_pos k)
  cases h with
  | notANumber | infinity s => cases hfinite
  | zero hzero =>
    rw [truncate_of_mantissa_eq_zero hzero, Int.compare_eq_lt.2 (by omega)]
    rfl
  | finite h hhigh hlow =>
    rw [truncate_eq]
    cases sign x with
    | negative =>
      rw [Int.compare_eq_lt.2 (by simp only [Sign.apply]; omega)]
      rfl
    | positive =>
      change some ((compare (exponent x) k).then (compare (mantissa x) (2 ^ 52))) = _
      rw [compare_wholePart hhigh hlow, Nat.compare_eq_ite_lt, Sign.apply, Int.compare_eq_ite_lt]
      simp only [Int.ofNat_lt]

theorem neg_power_compare (h : Shape x u) (hfinite : u.isFinite = true) (k : Nat) :
    (power .negative k).compare u =
      some (compare (-(2 ^ 52 * 2 ^ k : Nat) : Int) (truncate x)) := by
  have hpos : 0 < 2 ^ 52 * 2 ^ k := Nat.mul_pos (by decide) (Nat.two_pow_pos k)
  cases h with
  | notANumber | infinity s => cases hfinite
  | zero hzero =>
    rw [truncate_of_mantissa_eq_zero hzero, Int.compare_eq_lt.2 (by omega)]
    rfl
  | finite h hhigh hlow =>
    rw [truncate_eq]
    cases sign x with
    | positive =>
      rw [Int.compare_eq_lt.2 (by simp only [Sign.apply]; omega)]
      rfl
    | negative =>
      change some ((compare (k : Int) (exponent x)).then (compare (2 ^ 52) (mantissa x))).swap = _
      rw [Ordering.swap_then, Int.compare_swap, Nat.compare_swap, compare_wholePart hhigh hlow,
        Nat.compare_eq_ite_lt, Sign.apply, Int.compare_eq_ite_lt]
      simp only [Int.ofNat_lt, Int.neg_lt_neg_iff]

end Shape

/-- The value is less than zero. -/
def BelowZero (x : Float) : Prop := isNegative x = true ∧ mantissa x ≠ 0

theorem truncate_nonneg {x : Float} (h : ¬ BelowZero x) : 0 ≤ truncate x := by
  by_cases hneg : isNegative x = true
  · have hzero : mantissa x = 0 := Decidable.not_not.1 fun hne => h ⟨hneg, hne⟩
    exact Int.le_of_eq (truncate_of_mantissa_eq_zero hzero).symm
  · rw [truncate_eq, sign, if_neg hneg]
    exact Int.natCast_nonneg _

theorem Shape.zero_le_iff {x : Float} {u : UnpackedFloat} (h : Shape x u)
    (hfinite : u.isFinite = true) :
    ((UnpackedFloat.zero .positive).compare u).any Ordering.isLE = true ↔ ¬ BelowZero x := by
  cases h with
  | notANumber | infinity s => cases hfinite
  | zero hzero => exact iff_of_true rfl fun h => h.2 hzero
  | finite hpos _ _ =>
    by_cases hneg : isNegative x = true
    · rw [sign, if_pos hneg]
      exact iff_of_false (by rintro ⟨⟩) fun h => h ⟨hneg, by omega⟩
    · rw [sign, if_neg hneg]
      exact iff_of_true rfl fun h => hneg h.1

/-- The bounds of signed words. -/
theorem between_iff_signed (x : Float) :
    -9223372036854775808.0 ≤ x ∧ x < 9223372036854775808.0 ↔
      x.isFinite = true ∧ Kind.signed.Fits (truncate x) := by
  by_cases hfinite : x.isFinite = true
  · have hlow : (-9223372036854775808.0 : Float).toModel.unpack.compare x.toModel.unpack =
        some (compare (-9223372036854775808) (truncate x)) :=
      (shape x).neg_power_compare hfinite 11
    have hhigh : x.toModel.unpack.compare (9223372036854775808.0 : Float).toModel.unpack =
        some (compare (truncate x) 9223372036854775808) :=
      (shape x).compare_power hfinite 11
    rw [le_iff_of_compare hlow, lt_iff_of_compare hhigh, and_iff_right hfinite]
    change _ ↔ -9223372036854775808 ≤ truncate x ∧ truncate x ≤ 9223372036854775807
    omega
  · exact iff_of_false (fun h => hfinite (isFinite_of_between rfl rfl h.1 h.2))
      fun h => hfinite h.1

/-- The bounds of unsigned words. The integer part of a fraction between minus one and zero is a
word, but the fraction is below the bound. -/
theorem between_iff_unsigned (x : Float) :
    0.0 ≤ x ∧ x < 18446744073709551616.0 ↔
      x.isFinite = true ∧ ¬ BelowZero x ∧ Kind.unsigned.Fits (truncate x) := by
  by_cases hfinite : x.isFinite = true
  · have hlow : 0.0 ≤ x ↔ ¬ BelowZero x :=
      le_iff_compare.trans ((shape x).zero_le_iff hfinite)
    have hhigh : x.toModel.unpack.compare (18446744073709551616.0 : Float).toModel.unpack =
        some (compare (truncate x) 18446744073709551616) :=
      (shape x).compare_power hfinite 12
    rw [hlow, lt_iff_of_compare hhigh, and_iff_right hfinite]
    exact and_congr_right fun h => (and_iff_right (truncate_nonneg h)).symm
  · exact iff_of_false (fun h => hfinite (isFinite_of_between rfl rfl h.1 h.2))
      fun h => hfinite h.1

end SqlTree.Binary64

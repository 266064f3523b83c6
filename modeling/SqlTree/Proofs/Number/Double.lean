import SqlTree.Number.Binary64
import SqlTree.Proofs.Number.Nearest

/-! # Doubles of integers

The double of an integer of 64 bits is its neighbour of 53 significant bits. Doubles compare by
exponent and significand, which is the order of the numbers they stand for as long as each
significand has 53 bits.

Main definitions:

* `Binary64.Denotes`: a double in parts that stands for an integer.

Main statements:

* `Binary64.unpack_pack_normal`: the bits of a double keep its parts.
* `Binary64.Denotes.compare_eq`: the order of doubles that stand for integers.
* `Binary64.denotes_round`: rounding to a double.
* `Binary64.compare?_ofInt`: the order of the doubles of two integers.
-/

namespace SqlTree.Binary64

open Float.Model Float.Model.UnpackedFloat

/-! Bits. -/

theorem ofBitVec_unpackSign (s : Sign) (e : BitVec 11) (m : BitVec 52) :
    Sign.ofBitVec (unpackSign (packComponents Format.binary64 s e m)) = s := by
  change Sign.ofBitVec (BitVec.extractLsb' 63 1 (s.toBitVec ++ e ++ m)) = s
  rw [BitVec.extractLsb'_append_eq_of_le (by decide),
    BitVec.extractLsb'_append_eq_of_le (by decide)]
  cases s <;> rfl

/-- Between the least and the greatest exponent the significand has a leading bit of its own. -/
theorem unpack_packComponents {b : BitVec Format.binary64.numBits} {s : Sign} {e : BitVec 11}
    {m : BitVec 52} (hb : b = packComponents Format.binary64 s e m) (hmin : e ≠ 0#11)
    (hmax : e ≠ -1#11) (hpos : 0 < (1#1 ++ m).toNat) :
    UnpackedFloat.unpack Format.binary64 b = .finite s (1#1 ++ m).toNat (e.toNat - 1075) hpos := by
  have hm : unpackMantissa b = m := by
    rw [hb]
    exact unpackMantissa_packComponents
  have he : unpackExponent b = e := by
    rw [hb]
    exact unpackExponent_packComponents
  have hs : Sign.ofBitVec (unpackSign b) = s := by
    rw [hb, ofBitVec_unpackSign]
  subst hm he hs
  exact (if_neg hmax).trans (if_neg hmin)

/-- A double with a significand of 53 bits comes back from its bits. -/
theorem unpack_pack_normal (s : Sign) {m : Nat} {e : Int} (hm : 0 < m) (hlow : 2 ^ 52 ≤ m)
    (hhigh : m < 2 ^ 53) (hmin : -1074 ≤ e) (hmax : e ≤ 970) :
    (Float.Model.pack (.finite s m e hm)).unpack = .finite s m e hm := by
  have hlog : m.log2 = 52 := (Nat.log2_eq_iff (Nat.ne_of_gt hm)).2 ⟨hlow, hhigh⟩
  generalize hbiased : (e + 1023 + 52).toNat = biased
  have hexponent : (BitVec.ofNat 11 biased).toNat = biased := Nat.mod_eq_of_lt (by omega)
  have hmantissa : (1#1 ++ BitVec.ofNat 52 m).toNat = m := by
    rw [BitVec.toNat_append, ← Nat.shiftLeft_add_eq_or_of_lt (BitVec.isLt _)]
    change 2 ^ 52 + m % 2 ^ 52 = m
    omega
  have hne : ∀ k : BitVec 11, biased ≠ k.toNat → BitVec.ofNat 11 biased ≠ k := by
    intro k hk heq
    rw [← heq, hexponent] at hk
    exact hk rfl
  have hpack : UnpackedFloat.pack Format.binary64 (.finite s m e hm) =
      packComponents Format.binary64 s (BitVec.ofNat 11 biased) (BitVec.ofNat 52 m) := by
    rw [← hbiased]
    have hfits : ¬ 2 ^ 11 ≤ (e + 1023 + 52).toNat + 1 := by omega
    have hnormal : m.log2 + 1 = 53 := by omega
    exact (if_neg hfits).trans (if_pos hnormal)
  refine (unpack_packComponents hpack (hne _ ?_) (hne _ ?_) (by omega)).trans ?_
  · change biased ≠ 0
    omega
  · change biased ≠ 2047
    omega
  · congr 1
    omega

/-! Integers. -/

/-- The parts of a double that stands for the integer `n`: a significand of 53 bits, which the
exponent turns into an integer. -/
inductive Denotes : UnpackedFloat → Int → Prop
  | zero (s : Sign) : Denotes (.zero s) 0
  | finite (s : Sign) {m n : Nat} {e : Int} (hm : 0 < m) (hlow : 2 ^ 52 ≤ m) (hhigh : m < 2 ^ 53)
      (hmin : -52 ≤ e) (hmax : e ≤ 970) (hn : m * 2 ^ (e + 52).toNat = n * 2 ^ 52) :
      Denotes (.finite s m e hm) (s.apply n)

/-- The exponents decide the order of significands of 53 bits. -/
theorem lt_of_exponent_lt {m m' n n' : Nat} {e e' : Int} (hhigh : m < 2 ^ 53) (hlow : 2 ^ 52 ≤ m')
    (hmin : -52 ≤ e) (hn : m * 2 ^ (e + 52).toNat = n * 2 ^ 52)
    (hn' : m' * 2 ^ (e' + 52).toNat = n' * 2 ^ 52) (h : e < e') : n < n' := by
  have hlt : n * 2 ^ 52 < n' * 2 ^ 52 := by
    calc n * 2 ^ 52 = m * 2 ^ (e + 52).toNat := hn.symm
      _ < 2 ^ 53 * 2 ^ (e + 52).toNat := Nat.mul_lt_mul_of_pos_right hhigh (Nat.two_pow_pos _)
      _ = 2 ^ 52 * 2 ^ ((e + 52).toNat + 1) := by rw [Nat.pow_succ]; omega
      _ ≤ 2 ^ 52 * 2 ^ (e' + 52).toNat :=
          Nat.mul_le_mul_left _ (Nat.pow_le_pow_right (by decide) (by omega))
      _ ≤ m' * 2 ^ (e' + 52).toNat := Nat.mul_le_mul_right _ hlow
      _ = n' * 2 ^ 52 := hn'
  omega

theorem compare_parts {m m' n n' : Nat} {e e' : Int} (hlow : 2 ^ 52 ≤ m) (hhigh : m < 2 ^ 53)
    (hmin : -52 ≤ e) (hn : m * 2 ^ (e + 52).toNat = n * 2 ^ 52) (hlow' : 2 ^ 52 ≤ m')
    (hhigh' : m' < 2 ^ 53) (hmin' : -52 ≤ e') (hn' : m' * 2 ^ (e' + 52).toNat = n' * 2 ^ 52) :
    (compare e e').then (compare m m') = compare (n : Int) n' := by
  rcases Int.lt_trichotomy e e' with h | rfl | h
  · have hlt := lt_of_exponent_lt hhigh hlow' hmin hn hn' h
    rw [Int.compare_eq_lt.2 h, Int.compare_eq_lt.2 (by omega)]
    rfl
  · rw [Int.compare_eq_eq.2 rfl]
    have hpos := Nat.two_pow_pos (e + 52).toNat
    rcases Nat.lt_trichotomy m m' with h | rfl | h
    · have hlt := Nat.mul_lt_mul_of_pos_right h hpos
      rw [Nat.compare_eq_lt.2 h, Int.compare_eq_lt.2 (by omega)]
      rfl
    · rw [Nat.compare_eq_eq.2 rfl, Int.compare_eq_eq.2 (by omega)]
      rfl
    · have hlt := Nat.mul_lt_mul_of_pos_right h hpos
      rw [Nat.compare_eq_gt.2 h, Int.compare_eq_gt.2 (by omega)]
      rfl
  · have hlt := lt_of_exponent_lt hhigh' hlow hmin' hn' hn h
    rw [Int.compare_eq_gt.2 h, Int.compare_eq_gt.2 (by omega)]
    rfl

theorem swap_compare (a b : Int) : (compare a b).swap = compare (-a) (-b) := by
  rw [Int.compare_swap]
  simp only [Int.compare_eq_ite_lt, Int.neg_lt_neg_iff]

namespace Denotes

variable {x y : UnpackedFloat} {a b : Int}

theorem unpack_pack (h : Denotes x a) : (Float.Model.pack x).unpack = x := by
  cases h with
  | zero s => cases s <;> rfl
  | finite s hm hlow hhigh hmin hmax _ => exact unpack_pack_normal s hm hlow hhigh (by omega) hmax

theorem neg (h : Denotes x a) : Denotes x.neg (-a) := by
  cases h with
  | zero s => exact .zero (-s)
  | finite s hm hlow hhigh hmin hmax hn =>
    cases s with
    | negative =>
      rw [Sign.apply, Int.neg_neg]
      exact .finite .positive hm hlow hhigh hmin hmax hn
    | positive => exact .finite .negative hm hlow hhigh hmin hmax hn

theorem pos_of_finite {m n : Nat} {e : Int} (hm : 0 < m)
    (hn : m * 2 ^ (e + 52).toNat = n * 2 ^ 52) : 0 < n := by
  have hpos := Nat.mul_pos hm (Nat.two_pow_pos (e + 52).toNat)
  omega

/-- Doubles that stand for integers are in the order of these. -/
theorem compare_eq (hx : Denotes x a) (hy : Denotes y b) : x.compare y = some (compare a b) := by
  have hlt : ∀ {a b : Int}, a < b → some Ordering.lt = some (compare a b) := fun h =>
    congrArg some (Int.compare_eq_lt.2 h).symm
  have hgt : ∀ {a b : Int}, b < a → some Ordering.gt = some (compare a b) := fun h =>
    congrArg some (Int.compare_eq_gt.2 h).symm
  cases hx with
  | zero s =>
    cases hy with
    | zero s' => rfl
    | finite s' hm' hlow' hhigh' hmin' hmax' hn' =>
      have hpos' := pos_of_finite hm' hn'
      cases s' with
      | negative => exact hgt (by simp only [Sign.apply]; omega)
      | positive => exact hlt (by simp only [Sign.apply]; omega)
  | finite s hm hlow hhigh hmin hmax hn =>
    have hpos := pos_of_finite hm hn
    cases hy with
    | zero s' =>
      cases s with
      | negative => exact hlt (by simp only [Sign.apply]; omega)
      | positive => exact hgt (by simp only [Sign.apply]; omega)
    | finite s' hm' hlow' hhigh' hmin' hmax' hn' =>
      have hpos' := pos_of_finite hm' hn'
      have hparts := compare_parts hlow hhigh hmin hn hlow' hhigh' hmin' hn'
      cases s with
      | negative =>
        cases s' with
        | negative => exact congrArg some ((congrArg Ordering.swap hparts).trans (swap_compare _ _))
        | positive => exact hlt (by simp only [Sign.apply]; omega)
      | positive =>
        cases s' with
        | negative => exact hgt (by simp only [Sign.apply]; omega)
        | positive => exact congrArg some hparts

end Denotes

/-! Rounding. -/

/-- What is left after bits are shifted out: the quotient, whether the remainder is half or more,
and whether it differs from nothing and from a half. -/
theorem shiftRight_eq (m s : Nat) :
    (ExtendedMantissa.mk m false false >>> s : ExtendedMantissa) =
      ⟨m / 2 ^ s, decide (2 ^ s ≤ 2 * (m % 2 ^ s)), decide (2 * (m % 2 ^ s) % 2 ^ s ≠ 0)⟩ := by
  induction s with
  | zero => simp [HShiftRight.hShiftRight, Nat.repeat, Nat.mod_one]
  | succ s ih =>
    have hlast : m / 2 ^ s % 2 = 0 ∨ m / 2 ^ s % 2 = 1 := Nat.mod_two_eq_zero_or_one _
    have hrest : m % 2 ^ s < 2 ^ s := Nat.mod_lt _ (Nat.two_pow_pos s)
    have hsticky : 2 * (m % 2 ^ (s + 1)) % 2 ^ (s + 1) = 2 * (m % 2 ^ s) := by
      rw [Nat.pow_succ', Nat.mul_mod_mul_left, Nat.mod_mul_left_mod]
    change (ExtendedMantissa.mk m false false >>> s).shiftRightOne = _
    rw [ih]
    change ExtendedMantissa.mk (m / 2 ^ s / 2) (m / 2 ^ s % 2 != 0)
      (decide (2 ^ s ≤ 2 * (m % 2 ^ s)) || decide (2 * (m % 2 ^ s) % 2 ^ s ≠ 0)) = _
    rw [hsticky, Nat.mod_pow_succ, Nat.div_div_eq_div_mul, ← Nat.pow_succ]
    congr 1
    · rcases hlast with h | h <;> rw [h] <;> simp [Nat.pow_succ] <;> omega
    · rw [← Bool.decide_or, decide_eq_decide]
      rcases Nat.lt_or_ge (2 * (m % 2 ^ s)) (2 ^ s) with h | h
      · rw [Nat.mod_eq_of_lt h]
        omega
      · have := Nat.two_pow_pos s
        omega

theorem roundedMantissa_eq (m s : Nat) :
    (ExtendedMantissa.mk m false false >>> s).roundedMantissa = roundShift m s := by
  have hrest : m % 2 ^ s < 2 ^ s := Nat.mod_lt _ (Nat.two_pow_pos s)
  rw [shiftRight_eq]
  unfold roundShift
  split
  · rename_i h
    rw [decide_eq_false (Nat.not_le.2 h)]
    cases decide (2 * (m % 2 ^ s) % 2 ^ s ≠ 0) <;> rfl
  · split
    · rename_i h
      rw [h, Nat.mod_self, decide_eq_true (Nat.le_refl _)]
      rfl
    · have hmod : 2 * (m % 2 ^ s) % 2 ^ s ≠ 0 := by
        rw [Nat.mod_eq_sub_mod (by omega), Nat.mod_eq_of_lt (by omega)]
        omega
      rw [decide_eq_true (by omega), decide_eq_true hmod]
      rfl

/-- The bits beyond the first 53 are shifted out. -/
theorem shiftToTargetExponent_eq {m t : Nat} {e : Int} (ht : m.log2 = t + 52)
    (he : -1074 ≤ e + t) :
    shiftToTargetExponent Format.binary64 m e .exact =
      (ExtendedMantissa.mk m false false >>> t, e + t) := by
  have htarget : Format.binary64.targetExponent (totalExponent m e) - e = t := by
    change max ((m.log2 : Int) + 1 + e - 53) (-1074) - e = t
    omega
  change (ExtendedMantissa.mk m false false >>> (_ : Int).toNat, e + ((_ : Int).toNat : Int)) = _
  rw [htarget, Int.toNat_natCast]

/-- Rounding shifts twice, since the rounded significand can have a bit more. -/
theorem roundWithAccuracy_eq (s : Sign) {m r k : Nat} {e e₁ e₂ : Int} {em em' : ExtendedMantissa}
    (hfirst : shiftToTargetExponent Format.binary64 m e .exact = (em, e₁))
    (hround : em.roundedMantissa = r)
    (hsecond : shiftToTargetExponent Format.binary64 r e₁ .exact = (em', e₂))
    (hk : em'.mantissa = k) (hpos : 0 < k) :
    roundWithAccuracy Format.binary64 s m e .exact = .finite s k e₂ hpos := by
  subst hround hk
  unfold roundWithAccuracy
  rw [hfirst]
  dsimp only
  rw [hsecond]
  exact dif_neg (Nat.ne_of_gt hpos)

theorem log2_mul_two_pow {n : Nat} (hn : n ≠ 0) (j : Nat) : (n * 2 ^ j).log2 = n.log2 + j := by
  induction j with
  | zero => rw [Nat.pow_zero, Nat.mul_one, Nat.add_zero]
  | succ j ih =>
    have hpos := Nat.mul_pos (Nat.pos_of_ne_zero hn) (Nat.two_pow_pos j)
    rw [Nat.pow_succ', Nat.mul_left_comm, Nat.log2_two_mul (Nat.ne_of_gt hpos), ih, Nat.add_assoc]

/-- A number of 53 bits or more is rounded to its neighbour. If this fills up all bits of the
significand, the exponent grows by one. -/
theorem denotes_round (s : Sign) {n j : Nat} (hn : n ≠ 0) (hn' : n.log2 ≤ 63)
    (hj : 52 ≤ n.log2 + j) :
    Denotes (roundWithAccuracy Format.binary64 s (n * 2 ^ j) (-j) .exact)
      (s.apply (nearestMagnitude n)) := by
  have hlog := log2_mul_two_pow hn j
  have hne : n * 2 ^ j ≠ 0 := Nat.ne_of_gt (Nat.mul_pos (Nat.pos_of_ne_zero hn) (Nat.two_pow_pos j))
  obtain ⟨t, ht⟩ : ∃ t, n.log2 + j = t + 52 := ⟨n.log2 + j - 52, by omega⟩
  have hsignificand := roundShift_significand hj
  have hround := roundedMantissa_eq (n * 2 ^ j) t
  have hlow : 2 ^ 52 ≤ roundShift (n * 2 ^ j) t := by
    have h := two_pow_le_roundShift (Nat.le_add_right t 52) (ht ▸ hlog ▸ Nat.log2_self_le hne)
    rwa [Nat.add_sub_cancel_left] at h
  have hhigh : roundShift (n * 2 ^ j) t ≤ 2 ^ 53 := by
    have hlt := Nat.lt_log2_self (n := n * 2 ^ j)
    rw [hlog, ht] at hlt
    have h := roundShift_le_two_pow (Nat.le_add_right t 53) (Nat.le_of_lt hlt)
    rwa [Nat.add_sub_cancel_left] at h
  have hfirst := shiftToTargetExponent_eq (e := -j) (hlog.trans ht) (by omega)
  rw [ht, Nat.add_sub_cancel] at hsignificand
  generalize roundShift (n * 2 ^ j) t = r at *
  rcases Nat.lt_or_eq_of_le hhigh with hlt | rfl
  · have hlog' : r.log2 = 0 + 52 := (Nat.log2_eq_iff (by omega)).2 ⟨hlow, hlt⟩
    have hsecond := shiftToTargetExponent_eq (e := -j + t) hlog' (by omega)
    rw [roundWithAccuracy_eq (k := r) s hfirst hround hsecond rfl (by omega)]
    refine .finite s _ hlow hlt (by omega) (by omega) ?_
    have he : (-(j : Int) + t + (0 : Nat) + 52).toNat = n.log2 := by omega
    rw [he]
    exact hsignificand
  · have hlog' : (2 ^ 53).log2 = 1 + 52 := Nat.log2_two_pow
    have hsecond := shiftToTargetExponent_eq (e := -j + t) hlog' (by omega)
    rw [roundWithAccuracy_eq (k := 2 ^ 52) s hfirst hround hsecond rfl (by decide)]
    refine .finite s _ (by decide) (by decide) (by omega) (by omega) ?_
    have he : (-(j : Int) + t + (1 : Nat) + 52).toNat = n.log2 + 1 := by omega
    rw [he, ← hsignificand, Nat.pow_succ' (n := n.log2)]
    omega

theorem denotes_round_natCast {n : Nat} (hn : n ≠ 0) (hlog : n.log2 ≤ 52) :
    Denotes (round Format.binary64 .positive n 0) (nearestMagnitude n) := by
  have htarget : Format.binary64.targetExponent (totalExponent n 0) = n.log2 - 52 := by
    change max ((n.log2 : Int) + 1 + 0 - 53) (-1074) = _
    omega
  have hshift : (0 - ((n.log2 : Int) - 52)).toNat = 52 - n.log2 := by omega
  have hround : round Format.binary64 .positive n 0 =
      roundWithAccuracy Format.binary64 .positive (n * 2 ^ (52 - n.log2)) (-(52 - n.log2 : Nat))
        .exact := by
    change roundWithAccuracy Format.binary64 .positive (n <<< (_ : Int).toNat)
      (0 - ((_ : Int).toNat : Int)) .exact = _
    rw [htarget, hshift, Nat.shiftLeft_eq, Int.zero_sub]
  rw [hround]
  exact denotes_round .positive hn (by omega) (by omega)

/-- The number one, with a significand of 53 bits. -/
def oneParts : UnpackedFloat := .finite .positive (2 ^ 52) (-52) (by decide)

/-- A product with one is an integer of at most 53 bits again. -/
theorem Denotes.mul_one {x : UnpackedFloat} {a : Int} (h : Denotes x a) (ha : a.natAbs < 2 ^ 53) :
    Denotes (UnpackedFloat.mul Format.binary64 x oneParts) a := by
  cases h with
  | zero s => cases s <;> exact .zero _
  | @finite s m n e hm hlow hhigh hmin hmax hn =>
    have hpos := pos_of_finite hm hn
    have hn' : n < 2 ^ 53 := by
      cases s <;> simpa [Sign.apply] using ha
    have hlog : n.log2 < 53 := (Nat.log2_lt (by omega)).2 hn'
    -- The exponent is at most 0, since the number has no more bits than the significand.
    have he : e ≤ 0 := by
      refine Int.not_lt.1 fun he => ?_
      have hle := Nat.mul_le_mul hlow (Nat.pow_le_pow_right (by decide : 0 < 2)
        (by omega : 53 ≤ (e + 52).toNat))
      omega
    obtain ⟨j, hj, rfl⟩ : ∃ j : Nat, j ≤ 52 ∧ e = -j := ⟨(-e).toNat, by omega, by omega⟩
    have hm' : m * 2 ^ 52 = n * 2 ^ (j + 52) := by
      have hexponent : (-(j : Int) + 52).toNat = 52 - j := by omega
      rw [hexponent] at hn
      calc m * 2 ^ 52 = m * 2 ^ (52 - j) * 2 ^ j := by
            rw [Nat.mul_assoc, ← Nat.pow_add, Nat.sub_add_cancel hj]
        _ = n * 2 ^ (j + 52) := by rw [hn, Nat.mul_assoc, ← Nat.pow_add, Nat.add_comm 52 j]
    have hmul : UnpackedFloat.mul Format.binary64 (.finite s m (-j) hm) oneParts =
        roundWithAccuracy Format.binary64 s (n * 2 ^ (j + 52)) (-(j + 52 : Nat)) .exact := by
      have he : -(j : Int) + -52 = -(j + 52 : Nat) := by omega
      rw [← hm', ← he]
      cases s <;> rfl
    rw [hmul]
    have hround := denotes_round s (by omega) (by omega) (by omega : 52 ≤ n.log2 + (j + 52))
    rwa [nearestMagnitude_eq_self (by omega)] at hround

/-! Conversion. -/

theorem denotes_toFloat {n : Nat} (hn : n < 2 ^ 53) :
    Denotes n.toUInt64.toFloat.toModel.unpack n := by
  have hword : n.toUInt64.toFloat.toModel =
      Float.Model.pack (UnpackedFloat.normalize Format.binary64 n 0 .positive) := by
    have hnat : n.toUInt64.toNat = n := Nat.mod_eq_of_lt (by omega)
    change Float.Model.pack
      (UnpackedFloat.normalize Format.binary64 n.toUInt64.toNat 0 .positive) = _
    rw [hnat]
  have hdenotes : Denotes (UnpackedFloat.normalize Format.binary64 n 0 .positive) n := by
    by_cases hne : n = 0
    · subst hne
      exact .zero .positive
    · have hlog : n.log2 < 53 := (Nat.log2_lt hne).2 hn
      have hround : UnpackedFloat.normalize Format.binary64 n 0 .positive =
          round Format.binary64 .positive n 0 := by
        unfold UnpackedFloat.normalize
        rw [Int.compare_eq_gt.2 (by omega)]
        rfl
      have h := denotes_round_natCast hne (by omega)
      rwa [nearestMagnitude_eq_self (by omega), ← hround] at h
  rw [hword, hdenotes.unpack_pack]
  exact hdenotes

/-- A natural number of 64 bits becomes its neighbour. Up to 53 bits it is converted as a word and
multiplied with one; a longer one is rounded. -/
theorem denotes_ofNat {n : Nat} (hn : n < 2 ^ 64) :
    Denotes (Float.ofNat n).toModel.unpack (nearestMagnitude n) := by
  rcases Nat.lt_or_ge n (2 ^ 53) with hsmall | hlarge
  · have hproduct : Float.ofNat n = n.toUInt64.toFloat * Float.ofBits 0x3FF0000000000000 :=
      dif_pos ⟨hsmall, by decide⟩
    have hone : (Float.ofBits 0x3FF0000000000000).toModel.unpack = oneParts := rfl
    have hdenotes := (denotes_toFloat hsmall).mul_one (by omega)
    rw [← hone] at hdenotes
    rw [hproduct, nearestMagnitude_eq_self (by omega)]
    change Denotes (Float.Model.pack _).unpack n
    rw [hdenotes.unpack_pack]
    exact hdenotes
  · have hne : n ≠ 0 := by omega
    have hlog : n.log2 < 64 := (Nat.log2_lt hne).2 hn
    have hround : Float.ofNat n = Float.ofModel (Float.Model.ofScientific n 0) :=
      dif_neg fun h => by omega
    have hparts : UnpackedFloat.ofScientific Format.binary64 n 0 =
        roundWithAccuracy Format.binary64 .positive (n * 2 ^ 53) (-(53 : Nat)) .exact := by
      refine (dif_neg hne).trans ((if_neg (by decide)).trans ((if_neg ?_).trans
        ((if_pos (by decide)).trans ?_)))
      · change ¬ (0 : Int) < -(2048 + n.log2)
        omega
      · change roundWithAccuracy Format.binary64 .positive (n <<< 53 * 1) (-(53 : Nat)) .exact = _
        rw [Nat.mul_one, Nat.shiftLeft_eq]
    have hdenotes := denotes_round .positive hne (by omega) (by omega : 52 ≤ n.log2 + 53)
    rw [← hparts] at hdenotes
    rw [hround]
    change Denotes (Float.Model.pack _).unpack _
    rw [hdenotes.unpack_pack]
    exact hdenotes

theorem denotes_ofInt {n : Int} (hn : n.natAbs < 2 ^ 64) :
    Denotes (ofInt n).toModel.unpack (nearest n) := by
  cases n with
  | ofNat n => exact nearest_natCast n ▸ denotes_ofNat hn
  | negSucc n =>
    have hdenotes := (denotes_ofNat (n := n + 1) hn).neg
    rw [Int.negSucc_eq, ← Int.natCast_succ, nearest_neg, nearest_natCast]
    change Denotes (Float.Model.pack _).unpack _
    rw [hdenotes.unpack_pack]
    exact hdenotes

/-! Order. -/

theorem lt_iff_compare {x y : Float} :
    x < y ↔ x.toModel.unpack.compare y.toModel.unpack = some .lt := by
  change decide ((x.toModel.unpack.compare y.toModel.unpack == some .lt) = true) = true ↔ _
  rw [decide_eq_true_iff, beq_iff_eq]

theorem beq_iff_compare {x y : Float} :
    (x == y) = true ↔ x.toModel.unpack.compare y.toModel.unpack = some .eq := by
  change (x.toModel.unpack.compare y.toModel.unpack == some .eq) = true ↔ _
  rw [beq_iff_eq]

/-- The doubles of two integers of 64 bits are in the order of the neighbours of these. -/
theorem compare?_ofInt {a b : Int} (ha : a.natAbs < 2 ^ 64) (hb : b.natAbs < 2 ^ 64) :
    compare? (ofInt a) (ofInt b) = some (compare (nearest a) (nearest b)) := by
  have hab := (denotes_ofInt ha).compare_eq (denotes_ofInt hb)
  have hba := (denotes_ofInt hb).compare_eq (denotes_ofInt ha)
  unfold compare?
  simp only [lt_iff_compare, beq_iff_compare, hab, hba, Option.some.injEq, Int.compare_eq_lt,
    Int.compare_eq_eq]
  rw [Int.compare_eq_ite_lt]
  split
  · rfl
  · split
    · rfl
    · rw [if_pos (by omega)]

end SqlTree.Binary64

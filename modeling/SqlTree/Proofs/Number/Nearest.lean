import Mathlib.Algebra.Group.Nat.Defs

/-! # Integers of 53 significant bits

The integer of at most 53 significant bits next to a given one, with ties to even. Up to `2 ^ 53`
every integer is its own neighbour. Beyond that integers can fall together, but none overtakes
another.

Main definitions:

* `Binary64.roundShift`: a quotient by a power of two, rounded.
* `Binary64.nearest`, `Binary64.nearestMagnitude`: the neighbour of an integer and of a natural
  number.

Main statements:

* `Binary64.nearest_mono`: the neighbours are in the order of the integers.
* `Binary64.nearest_eq_self`: the integers up to `2 ^ 53`.
* `Binary64.compare_nearest_iff`: when the neighbours compare as the integers do.
-/

namespace SqlTree.Binary64

/-! Rounded quotients. -/

/-- The integer nearest to `m / 2 ^ s`, and the even one of two that are equally near. -/
def roundShift (m s : Nat) : Nat :=
  if 2 * (m % 2 ^ s) < 2 ^ s then m / 2 ^ s
  else if 2 * (m % 2 ^ s) = 2 ^ s then m / 2 ^ s + m / 2 ^ s % 2
  else m / 2 ^ s + 1

theorem roundShift_bounds (m s : Nat) :
    m / 2 ^ s ≤ roundShift m s ∧ roundShift m s ≤ m / 2 ^ s + 1 := by
  unfold roundShift
  split
  · omega
  · split <;> omega

@[simp] theorem roundShift_zero (m : Nat) : roundShift m 0 = m := by
  simp [roundShift, Nat.mod_one]

theorem roundShift_mono {a b : Nat} (h : a ≤ b) (s : Nat) : roundShift a s ≤ roundShift b s := by
  have hdiv : a / 2 ^ s ≤ b / 2 ^ s := Nat.div_le_div_right h
  rcases Nat.lt_or_eq_of_le hdiv with hlt | heq
  · have ha := (roundShift_bounds a s).2
    have hb := (roundShift_bounds b s).1
    omega
  · -- The quotients are the same, so the remainders are in order.
    have hmod : a % 2 ^ s ≤ b % 2 ^ s := by
      have ha := Nat.div_add_mod a (2 ^ s)
      have hb := Nat.div_add_mod b (2 ^ s)
      rw [heq] at ha
      omega
    unfold roundShift
    rw [heq]
    generalize b / 2 ^ s = q at *
    split <;> split <;> (try split) <;> (try split) <;> omega

/-- Only the quotient counts. -/
theorem roundShift_mul_two_pow (m s j : Nat) :
    roundShift (m * 2 ^ j) (s + j) = roundShift m s := by
  have hpos : 0 < 2 ^ j := Nat.two_pow_pos j
  have hdiv : m * 2 ^ j / 2 ^ (s + j) = m / 2 ^ s := by
    rw [Nat.pow_add, Nat.mul_div_mul_right _ _ hpos]
  have hmod : 2 * (m * 2 ^ j % 2 ^ (s + j)) = 2 * (m % 2 ^ s) * 2 ^ j := by
    rw [Nat.pow_add, Nat.mul_mod_mul_right, Nat.mul_assoc]
  unfold roundShift
  simp only [hdiv, hmod]
  simp only [Nat.pow_add, Nat.mul_lt_mul_right hpos, Nat.mul_left_inj (Nat.ne_of_gt hpos)]

theorem roundShift_two_pow {e s : Nat} (h : s ≤ e) : roundShift (2 ^ e) s = 2 ^ (e - s) := by
  have heq := roundShift_mul_two_pow (2 ^ (e - s)) 0 s
  rwa [← Nat.pow_add, Nat.sub_add_cancel h, Nat.zero_add, roundShift_zero] at heq

/-- Powers of two that are multiples of `2 ^ s` stay bounds after rounding. -/
theorem roundShift_le_two_pow {m e s : Nat} (hs : s ≤ e) (h : m ≤ 2 ^ e) :
    roundShift m s ≤ 2 ^ (e - s) := by
  rw [← roundShift_two_pow hs]
  exact roundShift_mono h s

theorem two_pow_le_roundShift {m e s : Nat} (hs : s ≤ e) (h : 2 ^ e ≤ m) :
    2 ^ (e - s) ≤ roundShift m s := by
  rw [← roundShift_two_pow hs]
  exact roundShift_mono h s

/-! Neighbours. -/

/-- The natural number of at most 53 significant bits nearest to `n`, with ties to even. -/
def nearestMagnitude (n : Nat) : Nat := roundShift n (n.log2 - 52) * 2 ^ (n.log2 - 52)

theorem nearestMagnitude_le {n e : Nat} (h : n ≤ 2 ^ e) : nearestMagnitude n ≤ 2 ^ e := by
  by_cases hn : n = 0
  · subst hn
    exact Nat.zero_le _
  · have hlog : n.log2 ≤ e := by
      have hself := Nat.log2_self_le hn
      exact (Nat.pow_le_pow_iff_right (by decide : 1 < 2)).1 (Nat.le_trans hself h)
    have hround := roundShift_le_two_pow (s := n.log2 - 52) (by omega) h
    calc nearestMagnitude n ≤ 2 ^ (e - (n.log2 - 52)) * 2 ^ (n.log2 - 52) :=
          Nat.mul_le_mul_right _ hround
      _ = 2 ^ e := by rw [← Nat.pow_add, Nat.sub_add_cancel (by omega)]

theorem le_nearestMagnitude {n e : Nat} (h : 2 ^ e ≤ n) : 2 ^ e ≤ nearestMagnitude n := by
  have hn : n ≠ 0 := by
    have := Nat.two_pow_pos e
    omega
  have hlog : e ≤ n.log2 := (Nat.le_log2 hn).2 h
  have hround := two_pow_le_roundShift (s := n.log2 - 52) (Nat.sub_le _ _) (Nat.log2_self_le hn)
  calc 2 ^ e ≤ 2 ^ n.log2 := Nat.pow_le_pow_right (by decide) hlog
    _ = 2 ^ (n.log2 - (n.log2 - 52)) * 2 ^ (n.log2 - 52) := by
          rw [← Nat.pow_add, Nat.sub_add_cancel (Nat.sub_le _ _)]
    _ ≤ nearestMagnitude n := Nat.mul_le_mul_right _ hround

theorem nearestMagnitude_mono {a b : Nat} (h : a ≤ b) :
    nearestMagnitude a ≤ nearestMagnitude b := by
  by_cases ha : a = 0
  · subst ha
    exact Nat.zero_le _
  · have hb : b ≠ 0 := by omega
    have hlog : a.log2 ≤ b.log2 := (Nat.le_log2 hb).2 (Nat.le_trans (Nat.log2_self_le ha) h)
    rcases Nat.lt_or_eq_of_le hlog with hlt | heq
    · -- A power of two lies between the two numbers.
      have hle := nearestMagnitude_le (Nat.le_of_lt (Nat.lt_log2_self (n := a)))
      calc nearestMagnitude a ≤ 2 ^ (a.log2 + 1) := hle
        _ ≤ 2 ^ b.log2 := Nat.pow_le_pow_right (by decide) hlt
        _ ≤ nearestMagnitude b := le_nearestMagnitude (Nat.log2_self_le hb)
    · unfold nearestMagnitude
      rw [heq]
      exact Nat.mul_le_mul_right _ (roundShift_mono h _)

theorem nearestMagnitude_eq_self {n : Nat} (h : n ≤ 2 ^ 53) : nearestMagnitude n = n := by
  rcases Nat.lt_or_eq_of_le h with hlt | rfl
  · have hlog : n.log2 - 52 = 0 := by
      by_cases hn : n = 0
      · subst hn
        rfl
      · have := (Nat.log2_lt hn).2 hlt
        omega
    rw [nearestMagnitude, hlog, roundShift_zero, Nat.pow_zero, Nat.mul_one]
  · exact Nat.le_antisymm (nearestMagnitude_le (Nat.le_refl _))
      (le_nearestMagnitude (Nat.le_refl _))

/-- The significand of 53 bits, computed from any multiple of the number by a power of two that has
as many bits. -/
theorem roundShift_significand {n j : Nat} (hj : 52 ≤ n.log2 + j) :
    roundShift (n * 2 ^ j) (n.log2 + j - 52) * 2 ^ n.log2 = nearestMagnitude n * 2 ^ 52 := by
  unfold nearestMagnitude
  rcases Nat.le_total 52 n.log2 with hlog | hlog
  · have hshift : n.log2 + j - 52 = n.log2 - 52 + j := by omega
    rw [hshift, roundShift_mul_two_pow, Nat.mul_assoc, ← Nat.pow_add, Nat.sub_add_cancel hlog]
  · have hshift : j = 52 - n.log2 + (n.log2 + j - 52) := by omega
    have hround := roundShift_mul_two_pow (n * 2 ^ (52 - n.log2)) 0 (n.log2 + j - 52)
    rw [Nat.mul_assoc, ← Nat.pow_add, ← hshift, Nat.zero_add, roundShift_zero] at hround
    rw [hround, Nat.sub_eq_zero_of_le hlog, roundShift_zero, Nat.pow_zero, Nat.mul_one,
      Nat.mul_assoc, ← Nat.pow_add, Nat.sub_add_cancel hlog]

/-- The integer of at most 53 significant bits nearest to `n`, with ties to even. -/
def nearest (n : Int) : Int := n.sign * nearestMagnitude n.natAbs

@[simp] theorem nearest_natCast (n : Nat) : nearest n = nearestMagnitude n := by
  cases n with
  | zero => rfl
  | succ n => rw [nearest, Int.natAbs_natCast, Int.natCast_succ, Int.sign_natCast_add_one,
      Int.one_mul]

@[simp] theorem nearest_neg (n : Int) : nearest (-n) = -nearest n := by
  rw [nearest, Int.sign_neg, Int.natAbs_neg, Int.neg_mul, nearest]

theorem nearest_mono {a b : Int} (h : a ≤ b) : nearest a ≤ nearest b := by
  obtain ⟨m, rfl | rfl⟩ := a.eq_nat_or_neg <;> obtain ⟨n, rfl | rfl⟩ := b.eq_nat_or_neg
  · simp only [nearest_natCast]
    exact_mod_cast nearestMagnitude_mono (by omega : m ≤ n)
  · have hm : m = 0 := by omega
    have hn : n = 0 := by omega
    subst hm hn
    exact Int.le_refl _
  · simp only [nearest_neg, nearest_natCast]
    omega
  · have := nearestMagnitude_mono (by omega : n ≤ m)
    simp only [nearest_neg, nearest_natCast]
    omega

theorem nearest_eq_self {n : Int} (h : n.natAbs ≤ 2 ^ 53) : nearest n = n := by
  rw [nearest, nearestMagnitude_eq_self h, Int.sign_mul_natAbs]

/-- The neighbours of two different integers compare as these do unless they are the same. -/
theorem compare_nearest_iff (a b : Int) :
    compare (nearest a) (nearest b) = compare a b ↔ a = b ∨ nearest a ≠ nearest b := by
  rcases Int.lt_trichotomy a b with hlt | rfl | hlt
  · have hle := nearest_mono (Int.le_of_lt hlt)
    rw [Int.compare_eq_lt.2 hlt, Int.compare_eq_lt]
    omega
  · simp
  · have hle := nearest_mono (Int.le_of_lt hlt)
    rw [Int.compare_eq_gt.2 hlt, Int.compare_eq_gt]
    omega

end SqlTree.Binary64

import SqlTree.Proofs.Fold.Shift
import SqlTree.Proofs.Fold.Soundness

/-! # Sums and products of swapped operands

A product does not depend on the order of its operands. Neither does a sum, apart from two texts,
which are put one after the other, and from an interval and an instant with an offset: the instant
is shifted only if it comes first.

Main definitions:

* `Literal.Swaps`: two literals that have the same sum either way round.

Main statements:

* `Binary64.add_comm`, `Binary64.mul_comm`: doubles.
* `Literal.arithmetic?_comm`: two literals.
* `Expr.fold?_comm_iff`: sums and products that fold.
-/

namespace SqlTree

/-! Doubles. -/

namespace Binary64

open Float.Model

theorem unpacked_add_comm (spec : Format) (x y : UnpackedFloat) :
    UnpackedFloat.add spec x y = UnpackedFloat.add spec y x := by
  cases x with
  | notANumber => cases y <;> rfl
  | infinity s =>
    cases y with
    | infinity s' => cases s <;> cases s' <;> rfl
    | _ => rfl
  | zero s =>
    cases y with
    | zero s' => cases s <;> cases s' <;> rfl
    | _ => rfl
  | finite s m e hm =>
    cases y with
    | finite s' m' e' hm' =>
      -- Both significands are brought to the lesser exponent, and then added as integers.
      change UnpackedFloat.normalize spec (s.apply (m <<< _ : Nat) + s'.apply (m' <<< _ : Nat))
          (min e e') .positive =
        UnpackedFloat.normalize spec (s'.apply (m' <<< _ : Nat) + s.apply (m <<< _ : Nat))
          (min e' e) .positive
      rw [Int.add_comm, Int.min_comm]
    | _ => rfl

theorem unpacked_mul_comm (spec : Format) (x y : UnpackedFloat) :
    UnpackedFloat.mul spec x y = UnpackedFloat.mul spec y x := by
  have hsign (s s' : UnpackedFloat.Sign) : s * s' = s' * s := by cases s <;> cases s' <;> rfl
  cases x with
  | notANumber => cases y <;> rfl
  | infinity s =>
    cases y with
    | infinity s' | finite s' _ _ _ => exact congrArg UnpackedFloat.infinity (hsign s s')
    | _ => rfl
  | zero s =>
    cases y with
    | zero s' | finite s' _ _ _ => exact congrArg UnpackedFloat.zero (hsign s s')
    | _ => rfl
  | finite s m e hm =>
    cases y with
    | notANumber => rfl
    | infinity s' => exact congrArg UnpackedFloat.infinity (hsign s s')
    | zero s' => exact congrArg UnpackedFloat.zero (hsign s s')
    | finite s' m' e' hm' =>
      change UnpackedFloat.roundWithAccuracy spec (s * s') (m * m') (e + e') .exact =
        UnpackedFloat.roundWithAccuracy spec (s' * s) (m' * m) (e' + e) .exact
      rw [hsign, Nat.mul_comm, Int.add_comm]

theorem add_comm (x y : Float) : x + y = y + x :=
  congrArg (fun u => Float.ofModel (Float.Model.pack u)) (unpacked_add_comm _ _ _)

theorem mul_comm (x y : Float) : x * y = y * x :=
  congrArg (fun u => Float.ofModel (Float.Model.pack u)) (unpacked_mul_comm _ _ _)

end Binary64

/-! Words and intervals. -/

namespace Word.Operation

variable {op : Operation} (hop : op = .add ∨ op = .multiply)

include hop

theorem value?_comm (m n : Int) : op.value? m n = op.value? n m := by
  rcases hop with rfl | rfl
  · exact congrArg some (Int.add_comm m n)
  · exact congrArg some (Int.mul_comm m n)

theorem signed?_comm (a b : Int64) : op.signed? a b = op.signed? b a := by
  unfold signed?
  rw [value?_comm hop]
  rcases hop with rfl | rfl <;> simp only [reduceCtorEq, if_false]

theorem unsigned?_comm (a b : UInt64) : op.unsigned? a b = op.unsigned? b a := by
  unfold unsigned?
  rw [value?_comm hop]

end Word.Operation

theorem Interval.add?_comm (a b : Interval) : a.add? b = b.add? a := by
  unfold add?
  rw [Int.add_comm]

/-! Literals. -/

namespace Literal

variable {op : Word.Operation} {a b : Literal}

/-- Arithmetic on two literals as doubles. -/
def doubles? (op : Word.Operation) (a b : Literal) : Option Literal := do
  return .float (← doubleOperation? op (← a.toDouble?) (← b.toDouble?))

/-- The sum of the literals is the same either way round: two texts make up the same text, and no
instant with an offset can be shifted by the interval beside it. -/
def Swaps : Literal → Literal → Prop
  | .string s, .string t => s ++ t = t ++ s
  | .interval d, .dateTimeOffset t => t.shift? d.total = none
  | .dateTimeOffset t, .interval d => t.shift? d.total = none
  | _, _ => True

section

variable (hop : op = .add ∨ op = .multiply)

include hop

theorem doubleOperation?_comm (x y : Float) :
    doubleOperation? op x y = doubleOperation? op y x := by
  rcases hop with rfl | rfl
  · exact congrArg (fun z => (some z).filter Float.isFinite) (Binary64.add_comm x y)
  · exact congrArg (fun z => (some z).filter Float.isFinite) (Binary64.mul_comm x y)

theorem doubles?_comm (a b : Literal) : doubles? op a b = doubles? op b a := by
  unfold doubles?
  cases a.toDouble? with
  | none => cases b.toDouble? <;> rfl
  | some x =>
    cases b.toDouble? with
    | none => rfl
    | some y =>
      change doubleOperation? op x y >>= _ = doubleOperation? op y x >>= _
      rw [doubleOperation?_comm hop]

theorem arithmetic?_integers_comm {j k : Kind} {m n : Int}
    (ha : a.datum? = some (.integer j m)) (hb : b.datum? = some (.integer k n)) :
    arithmetic? op a b = arithmetic? op b a := by
  rcases eq_of_datum?_integer ha with ⟨-, x, rfl, -⟩ | ⟨-, x, rfl, -⟩ <;>
    rcases eq_of_datum?_integer hb with ⟨-, y, rfl, -⟩ | ⟨-, y, rfl, -⟩
  · simp only [arithmetic?, Word.Operation.signed?_comm hop x]
  · simp only [arithmetic?, Word.Operation.signed?_comm hop x]
  · simp only [arithmetic?, Word.Operation.signed?_comm hop y]
  · simp only [arithmetic?, Word.Operation.unsigned?_comm hop x]

/-- An interval is scaled by an integer on either side. -/
theorem arithmetic?_factor_comm (d : Interval) (n : Int64) :
    arithmetic? op (.interval d) (.int n) = arithmetic? op (.int n) (.interval d) := by
  rcases hop with rfl | rfl <;> rfl

/-- A date or a point in time without an offset is shifted by an interval on either side. -/
theorem arithmetic?_shift_comm {t : DateTime} (h : a.shifted? = some (.dateTime t))
    (d : Interval) : arithmetic? op a (.interval d) = arithmetic? op (.interval d) a := by
  rw [arithmetic?_interval h]
  unfold shifted? at h
  split at h <;> cases h <;> rcases hop with rfl | rfl <;> rfl

/-- An instant with an offset is shifted by an interval behind it only. -/
theorem arithmetic?_offset_comm {t : OffsetDateTime} {d : Interval}
    (h : op = .add → t.shift? d.total = none) :
    arithmetic? op (.dateTimeOffset t) (.interval d) =
      arithmetic? op (.interval d) (.dateTimeOffset t) := by
  rw [arithmetic?_interval rfl]
  rcases hop with rfl | rfl
  · simp [shiftOf?, move?, h rfl, arithmetic?, toDouble?]
  · rfl

theorem arithmetic?_comm (h : op = .add → a.Swaps b) :
    arithmetic? op a b = arithmetic? op b a := by
  -- Most pairs have no arithmetic of their own and are taken as doubles.
  cases a <;> cases b <;> try exact doubles?_comm hop _ _
  case int.int | int.uint | uint.int | uint.uint => exact arithmetic?_integers_comm hop rfl rfl
  case int.interval n d => exact (arithmetic?_factor_comm hop d n).symm
  case interval.int d n => exact arithmetic?_factor_comm hop d n
  case string.string s t =>
    rcases hop with rfl | rfl
    · exact congrArg (some ∘ string) (h rfl)
    · rfl
  case interval.interval c d =>
    rcases hop with rfl | rfl
    · exact congrArg (Option.map interval) (Interval.add?_comm c d)
    · rfl
  case dateTime.dateTime => rcases hop with rfl | rfl <;> rfl
  case date.interval day d =>
    exact arithmetic?_shift_comm hop rfl d
  case interval.date d day =>
    exact (arithmetic?_shift_comm hop rfl d).symm
  case dateTime.interval t d =>
    exact arithmetic?_shift_comm hop rfl d
  case interval.dateTime d t =>
    exact (arithmetic?_shift_comm hop rfl d).symm
  case dateTimeOffset.interval => exact arithmetic?_offset_comm hop h
  case interval.dateTimeOffset => exact (arithmetic?_offset_comm hop h).symm

end

/-- Where the sum depends on the order, it differs. -/
theorem swaps_of_arithmetic?_comm (h : arithmetic? .add a b = arithmetic? .add b a) :
    a.Swaps b := by
  have hshift {t : OffsetDateTime} {d : Interval}
      (h : arithmetic? .add (.dateTimeOffset t) (.interval d) = none) :
      t.shift? d.total = none := by
    rw [arithmetic?_interval rfl] at h
    exact Option.map_eq_none_iff.1 h
  unfold Swaps
  split
  · simpa [arithmetic?] using h
  · exact hshift h.symm
  · exact hshift h
  · trivial

end Literal

/-! Operators. -/

namespace Operator

variable {a b : Literal}

theorem fold?_add_comm_iff : fold? .add a b = fold? .add b a ↔ a.Swaps b := by
  rw [fold?_eq_foldValues? (by decide) (by decide), fold?_eq_foldValues? (by decide) (by decide),
    Bool.or_comm b.isNull]
  split
  · rename_i hnull
    refine iff_of_true rfl ?_
    unfold Literal.Swaps
    split
    · cases hnull
    · cases hnull
    · cases hnull
    · trivial
  · exact ⟨Literal.swaps_of_arithmetic?_comm,
      fun h => Literal.arithmetic?_comm (.inl rfl) fun _ => h⟩

theorem fold?_multiply_comm (a b : Literal) : fold? .multiply a b = fold? .multiply b a := by
  have hvalues : foldValues? .multiply a b = foldValues? .multiply b a :=
    Literal.arithmetic?_comm (.inr rfl) (by simp)
  rw [fold?_eq_foldValues? (by decide) (by decide), fold?_eq_foldValues? (by decide) (by decide),
    Bool.or_comm b.isNull, hvalues]

end Operator

namespace Expr

/-- A product folds like that of the swapped operands. A sum does so unless its operands fold to two
texts whose order shows, or to an interval and an instant with an offset that it can shift. Of these
the sum with the interval in front does not fold. -/
theorem fold?_comm_iff (ctx : Context) (l r : Expr) (p p' : Int) (t t' : DataType)
    (nullable nullable' : Bool) :
    (fold? ctx (.binary .add l r p t nullable) = fold? ctx (.binary .add r l p' t' nullable') ↔
      ∀ a b, l.fold? ctx = some a → r.fold? ctx = some b → a.Swaps b) ∧
    (∀ d u, l.fold? ctx = some (.interval d) → r.fold? ctx = some (.dateTimeOffset u) →
      fold? ctx (.binary .add l r p t nullable) = none) ∧
    fold? ctx (.binary .multiply l r p t nullable) =
      fold? ctx (.binary .multiply r l p' t' nullable') := by
  refine ⟨?_, fun d u hl hr => ?_, ?_⟩
  · rw [fold?, fold?]
    cases hl : l.fold? ctx with
    | none => cases r.fold? ctx <;> simp
    | some a =>
      cases hr : r.fold? ctx with
      | none => simp
      | some b => simpa using Operator.fold?_add_comm_iff
  · rw [fold?, hl, hr]
    rfl
  · rw [fold?, fold?]
    cases l.fold? ctx with
    | none => cases r.fold? ctx <;> rfl
    | some a =>
      cases r.fold? ctx with
      | none => rfl
      | some b => exact Operator.fold?_multiply_comm a b

end Expr

namespace Sample

/-- Midnight at the start of 1970, one hour east of universal time. -/
def eastern : OffsetDateTime := ⟨⟨-3600000000000, false, by decide, by decide⟩, 60, by decide⟩

def hour : Interval := .ofTotal 3600000000000

/-- An instant with an offset is shifted by the interval after it and not by the one before it. -/
theorem fold?_eastern :
    (Expr.operation .add (.literal (.dateTimeOffset eastern)) (.literal (.interval hour))
        .dateTimeOffset).fold? {} =
        some (.dateTimeOffset ⟨firstMidnight, 60, by decide⟩) ∧
      (Expr.operation .add (.literal (.interval hour)) (.literal (.dateTimeOffset eastern))
        .dateTimeOffset).fold? {} = none := by
  have hshift : eastern.shift? hour.total = some ⟨firstMidnight, 60, by decide⟩ :=
    OffsetDateTime.shift?_eq_some_iff.2 ⟨(DateTime.shift?_eq_some_iff rfl).2 (by decide), rfl⟩
  have hl : (Expr.literal (.dateTimeOffset eastern)).fold? {} =
      some (.dateTimeOffset eastern) := rfl
  have hr : (Expr.literal (.interval hour)).fold? {} = some (.interval hour) := rfl
  refine ⟨(Expr.fold?_add_interval hl rfl hr _ _ _).trans ?_, rfl⟩
  rw [Literal.move?, hshift]
  rfl

end Sample

end SqlTree

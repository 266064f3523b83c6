import SqlTree.Proofs.Lowering.DateShift
import SqlTree.Proofs.Time.Quotient

/-! # Dates that are shifted by a part of an interval

A whole number of milliseconds that is divided by one of its divisors becomes the quotient, or an
interval a nanosecond short of it. What is left of that in whole milliseconds is a millisecond
short, and by this a date is shifted.

Main definitions:

* `SqlCe.ShiftsBy`: sums and differences that shift a date by a number of milliseconds.

Main statements:

* `SqlCe.shiftsBy_quotient`: the value of a quotient, of the quotient of a product, and the shift by
  a quotient.
-/

namespace SqlTree

/-! Operations on intervals that fold. -/

namespace Expr

variable {ctx : Context} {l r : Expr} {d q : Interval} {n : Int64}

section

variable (hl : l.fold? ctx = some (.interval d)) (hr : r.fold? ctx = some (.int n))
  (hn : Literal.factor? n = some n.toInt) (p : Int) (t : DataType) (nullable : Bool)

include hl hr hn

theorem fold?_divide (hq : d.div? n.toInt = some q) :
    fold? ctx (.binary .divide l r p t nullable) = some (.interval q) := by
  have hfold : Literal.arithmetic? .divide (.interval d) (.int n) = some (.interval q) := by
    simp only [Literal.arithmetic?, hn, hq, Option.bind_eq_bind, Option.bind_some, Option.pure_def]
  rw [fold?, hl, hr]
  exact hfold

theorem fold?_multiply (hq : d.mul? n.toInt = some q) :
    fold? ctx (.binary .multiply l r p t nullable) = some (.interval q) := by
  have hfold : Literal.arithmetic? .multiply (.interval d) (.int n) = some (.interval q) := by
    simp only [Literal.arithmetic?, hn, hq, Option.bind_eq_bind, Option.bind_some, Option.pure_def]
  rw [fold?, hl, hr]
  exact hfold

end

end Expr

namespace SqlCe

variable {ctx : Context} {l r : Expr} {d : Interval} {n : Int64}

/-- Sums of the date and the interval shift the date by `n` milliseconds, and the difference shifts
it as far back. -/
def ShiftsBy (ctx : Context) (date interval : Expr) (n : Int) : Prop :=
  ∀ p t nullable,
    MovesBy date interval n (convert ctx (.binary .add date interval p t nullable)) ∧
      MovesBy date interval n (convert ctx (.binary .add interval date p t nullable)) ∧
      MovesBy date interval (-n) (convert ctx (.binary .subtract date interval p t nullable))

theorem shiftsBy_of_limited {date interval : Expr} (hdate : date.dataType.isTemporal = true)
    (hinterval : interval.dataType.isDuration = true)
    (hvalue : interval.fold? ctx = some (.interval d)) (hd : d.Limited) :
    ShiftsBy ctx date interval d.wholeMillis :=
  fun p t nullable => convert_of_countable hdate hinterval hvalue hd.countable p t nullable

/-- Whole milliseconds within the limit that are divided by one of their divisors, an integer of 32
bits, fold to the quotient, less a nanosecond if the quotient falls short. A date is shifted by the
milliseconds of the quotient, less a millisecond in that case. The quotient of a product within the
limit is the first factor, less a nanosecond if the quotient falls short. -/
theorem shiftsBy_quotient (hl : l.fold? ctx = some (.interval d)) (hr : r.fold? ctx = some (.int n))
    (hd : d.Whole) (hn : n ≠ 0) (hlow : Int32.minValue.toInt ≤ n.toInt)
    (hhigh : n.toInt ≤ Int32.maxValue.toInt) (p : Int) (t : DataType) (nullable : Bool) :
    (n.toInt ∣ d.wholeMillis →
      (∃ q, Expr.fold? ctx (.binary .divide l r p t nullable) = some (.interval q) ∧
        q.total = d.wholeMillis / n.toInt * 1000000 - Interval.loss d.total n.toInt) ∧
      ∀ date : Expr, date.dataType.isTemporal = true → t.isDuration = true →
        ShiftsBy ctx date (.binary .divide l r p t nullable)
          (d.wholeMillis / n.toInt - Interval.loss d.total n.toInt)) ∧
    ((d.wholeMillis * n.toInt).natAbs ≤ Interval.maxMillis → ∀ p' t' nullable',
      ∃ q, Expr.fold? ctx
          (.binary .divide (.binary .multiply l r p t nullable) r p' t' nullable') =
            some (.interval q) ∧
        q.total = d.total - Interval.loss (d.total * n.toInt) n.toInt) := by
  have hfactor : Literal.factor? n = some n.toInt := if_pos ⟨hlow, hhigh⟩
  have hk : n.toInt ≠ 0 := fun h => hn (Int64.toInt_inj.1 h)
  refine ⟨fun hdvd => ?_, fun hlimit p' t' nullable' => ?_⟩
  · obtain ⟨q, hq, hlimited, htotal, hmillis⟩ := hd.exists_div? hk hdvd
    have hvalue := Expr.fold?_divide hl hr hfactor p t nullable hq
    refine ⟨⟨q, hvalue, htotal⟩, fun date hdate ht => ?_⟩
    rw [← hmillis]
    exact shiftsBy_of_limited hdate ht hvalue hlimited
  · have hlimit' : (d.total * n.toInt).natAbs ≤ Interval.maxMillis * 1000000 := by
      rw [hd.total_eq, Int.mul_right_comm]
      omega
    obtain ⟨product, q, hproduct, hq, htotal⟩ := Interval.exists_mul?_div? hk hlimit'
    have hvalue := Expr.fold?_multiply hl hr hfactor p t nullable hproduct
    exact ⟨q, Expr.fold?_divide hvalue hr hfactor p' t' nullable' hq, htotal⟩

end SqlCe

namespace Sample

/-- The interval of `1002` milliseconds before, and of as many after. -/
def secondBefore : Interval := ⟨-2, 998000000, by decide⟩

def secondAfter : Interval := ⟨1, 2000000, by decide⟩

def third (d : Interval) : Expr := .operation .divide (.literal (.interval d)) (.int 3) .interval

/-- A third of the time before, as an interval and taken from a date. -/
theorem shiftsBy_thirdBefore :
    secondBefore.Whole ∧ secondBefore.wholeMillis = -1002 ∧
      SqlCe.ShiftsBy {} placedAt (third secondBefore) (-334) := by
  have hwhole : secondBefore.Whole := by decide
  have hl : (Expr.literal (.interval secondBefore)).fold? {} = some (.interval secondBefore) := rfl
  have hr : (Expr.int 3).fold? {} = some (.int 3) := rfl
  have h := SqlCe.shiftsBy_quotient hl hr hwhole (by decide) (by decide) (by decide)
    Operator.divide.precedence .interval false
  exact ⟨hwhole, by decide, (h.1 (by decide)).2 placedAt rfl rfl⟩

/-- A third of the time after is a nanosecond short, by which a date is shifted a millisecond less
than it should be. -/
theorem fold?_thirdAfter :
    secondAfter.wholeMillis = 1002 ∧
      (third secondAfter).fold? {} = some (.interval ⟨0, 333999999, by decide⟩) ∧
      SqlCe.convert {} (.operation .add placedAt (third secondAfter) .dateTime) =
        .ok (SqlCe.shift .millisecond 333 placedAt false) := by
  exact ⟨by decide, by rfl, by rfl⟩

end Sample

end SqlTree

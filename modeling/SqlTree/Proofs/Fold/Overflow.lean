import SqlTree.Fold.Basic
import SqlTree.Proofs.Tree

/-! # Evaluations that cannot go on

An evaluation that comes to a number beyond 64 bits has no value. The numbers in question are the
seconds of an interval or of a shift, which are then far outside the limits of the result.

Main statements:

* `Literal.arithmetic?_of_overflows`: sums and differences.
* `Expr.fold?_of_overflows`: expressions.
-/

namespace SqlTree

/-! Intervals and points in time. -/

namespace Interval

theorem ofTotal?_of_lt {n : Int} (h : maxMillis * 1000000 < n.natAbs) : ofTotal? n = none :=
  if_neg (Int.not_le.2 h)

variable {a b : Interval}

theorem add?_of_sumOverflows (h : a.sumOverflows b = true) : a.add? b = none := by
  have hmin : Int64.minValue.toInt = -9223372036854775808 := rfl
  have hmax : Int64.maxValue.toInt = 9223372036854775807 := rfl
  have hlimit : maxMillis = 9223372036854775807 := rfl
  have ha := a.nanos_lt
  have hb := b.nanos_lt
  simp only [sumOverflows, decide_eq_true_eq] at h
  refine ofTotal?_of_lt ?_
  unfold total
  omega

theorem sub?_of_differenceOverflows (h : a.differenceOverflows b = true) : a.sub? b = none := by
  have hmin : Int64.minValue.toInt = -9223372036854775808 := rfl
  have hmax : Int64.maxValue.toInt = 9223372036854775807 := rfl
  have hlimit : maxMillis = 9223372036854775807 := rfl
  have ha := a.nanos_lt
  have hb := b.nanos_lt
  simp only [differenceOverflows, decide_eq_true_eq] at h
  refine ofTotal?_of_lt ?_
  unfold total
  split at h <;> omega

end Interval

namespace DateTime

theorem ofNanos?_of_lt {n : Int} (h : n < minDay * nanosPerDay ∨ (maxDay + 1) * nanosPerDay ≤ n) :
    ofNanos? n = none :=
  dif_neg fun hrange => by omega

theorem lead_nonneg_le (t : DateTime) (n : Int) : 0 ≤ t.lead n ∧ t.lead n ≤ 1000000000 := by
  unfold lead
  split <;> decide

/-- A shift that has no result leaves the range of dates by far. -/
theorem shift?_of_shiftOverflows {t : DateTime} {n : Int} (h : t.shiftOverflows n = true) :
    t.shift? n = none := by
  have hmin : Int64.minValue.toInt = -9223372036854775808 := rfl
  have hmax : Int64.maxValue.toInt = 9223372036854775807 := rfl
  have hlead := t.lead_nonneg_le n
  have hrange := t.inRange
  have h := of_decide_eq_true h
  simp only [minDay, maxDay, nanosPerDay] at h hrange
  unfold shift?
  split
  · rename_i hleap
    have hstays := of_decide_eq_true (Bool.and_eq_true_iff.1 hleap).2
    omega
  · refine ofNanos?_of_lt ?_
    simp only [minDay, maxDay, nanosPerDay]
    omega

end DateTime

/-! Operators and calls. -/

theorem Literal.arithmetic?_of_overflows {op : Word.Operation} {a b : Literal}
    (h : overflows op a b = true) : arithmetic? op a b = none := by
  unfold overflows at h
  split at h
  case h_1 =>
    cases op with
    | add => simp only [arithmetic?, Interval.add?_of_sumOverflows h, Option.map_none]
    | subtract => simp only [arithmetic?, Interval.sub?_of_differenceOverflows h, Option.map_none]
    | _ => cases h
  case h_5 =>
    simp only [Bool.and_eq_true, decide_eq_true_eq] at h
    simp only [arithmetic?, h.1, if_true, DateTime.shift?_of_shiftOverflows h.2, Option.map_none]
  case h_6 =>
    simp only [Bool.and_eq_true, decide_eq_true_eq] at h
    simp only [arithmetic?, h.1, if_true, DateTime.shift?_of_shiftOverflows h.2, Option.map_none]
  case h_7 => cases h
  all_goals
    obtain ⟨n, hn, hshift⟩ := (Option.any_eq_true _ _).1 h
    simp [arithmetic?, hn, OffsetDateTime.shift?, DateTime.shift?_of_shiftOverflows hshift]

theorem Literal.isNull_of_overflows {op : Word.Operation} {a b : Literal}
    (h : overflows op a b = true) : (a.isNull || b.isNull) = false := by
  cases a <;> cases b <;> first | rfl | cases h

theorem Operator.fold?_of_overflows {op : Operator} {a b : Literal} (h : op.overflows a b = true) :
    op.fold? a b = none := by
  cases op with
  | add | subtract =>
    simp only [overflows] at h
    simp only [fold?, Literal.isNull_of_overflows h, foldValues?,
      Literal.arithmetic?_of_overflows h, Bool.false_eq_true, if_false]
  | _ => cases h

theorem coalesce?_of_overflows {values : List (Bool × Option Literal)}
    (hvalues : ∀ v ∈ values, v.1 = true → v.2 = none) (h : coalesceOverflows values = true) :
    coalesce? (values.map Prod.snd) = none := by
  induction values with
  | nil => cases h
  | cons v vs ih =>
    obtain ⟨overflows, value⟩ := v
    simp only [List.forall_mem_cons] at hvalues
    simp only [coalesceOverflows, Bool.or_eq_true, Bool.and_eq_true] at h
    rcases h with h | ⟨hnull, h⟩
    · cases hvalues.1 h
      rfl
    · obtain ⟨l, rfl, hl⟩ := (Option.any_eq_true _ _).1 hnull
      simp only [List.map_cons, coalesce?, hl, if_true]
      exact ih hvalues.2 h

theorem applyUnary?_of_overflows {f : Literal → Option Literal}
    {values : List (Bool × Option Literal)} (hvalues : ∀ v ∈ values, v.1 = true → v.2 = none)
    (h : unaryOverflows values = true) : applyUnary? f (values.map Prod.snd) = none := by
  unfold unaryOverflows at h
  split at h
  · simp only [List.forall_mem_singleton] at hvalues
    simp only [List.map_cons, List.map_nil, hvalues h, applyUnary?]
  · cases h

theorem foldCall?_of_overflows {name : String} {args : List Expr}
    {values : List (Bool × Option Literal)} (hvalues : ∀ v ∈ values, v.1 = true → v.2 = none)
    (h : callOverflows name args values = true) :
    foldCall? name args (values.map Prod.snd) = none := by
  unfold callOverflows at h
  unfold foldCall?
  generalize name.toLower = name' at h
  split at h
  · exact coalesce?_of_overflows hvalues h
  · split at h
    · simp only [List.forall_mem_cons] at hvalues
      simp only [List.map_cons, List.map_nil, hvalues.2.1 h]
    · cases h
  any_goals exact applyUnary?_of_overflows hvalues h
  cases h

/-! Expressions. -/

theorem overflowsEach_eq_map (ctx : Context) (es : List Expr) :
    overflowsEach ctx es = es.map fun e => (e.overflows ctx, e.fold? ctx) := by
  induction es with
  | nil => rfl
  | cons e es ih => rw [overflowsEach, List.map_cons, ih]

theorem map_snd_overflowsEach (ctx : Context) (es : List Expr) :
    (overflowsEach ctx es).map Prod.snd = foldEach? ctx es := by
  induction es with
  | nil => rfl
  | cons e es ih => rw [overflowsEach, foldEach?, List.map_cons, ih]

theorem Expr.fold?_of_overflows_closed (ctx : Context) :
    Tree.Closed (fun e => e.overflows ctx = true → e.fold? ctx = none) (fun _ => True)
      (fun _ => True) where
  value _ _ h := by cases h
  parameter _ h := by cases h
  field _ h := by cases h
  column _ h := by cases h
  call name t args flags hargs h := by
    rw [overflows, Bool.and_eq_true_iff] at h
    rw [fold?, if_pos h.1, ← map_snd_overflowsEach]
    refine foldCall?_of_overflows ?_ h.2
    rw [overflowsEach_eq_map, List.forall_mem_map]
    exact hargs
  binary op l r p t n hl hr h := by
    simp only [overflows, Bool.or_eq_true] at h
    rw [fold?]
    rcases h with h | h
    · rw [hl h]
      rfl
    · obtain ⟨a, ha, h⟩ := (Option.any_eq_true _ _).1 h
      rw [ha]
      rcases Bool.or_eq_true_iff.1 h with h | h
      · rw [hr h]
        rfl
      · obtain ⟨b, hb, h⟩ := (Option.any_eq_true _ _).1 h
        rw [hb]
        exact Operator.fold?_of_overflows h
  raw _ _ _ _ _ h := by cases h
  typeName _ h := by cases h
  subquery _ _ h := by cases h
  existsRow _ _ h := by cases h
  query _ _ := trivial
  source _ _ := trivial

theorem Expr.fold?_of_overflows {ctx : Context} {e : Expr} (h : e.overflows ctx = true) :
    e.fold? ctx = none :=
  (fold?_of_overflows_closed ctx).onExpr e h

end SqlTree

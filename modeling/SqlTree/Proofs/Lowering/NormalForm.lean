import SqlTree.Proofs.Lowering.DateShift

/-! # Expressions that the conversion leaves no more of

The conversion for SQL Server Compact Edition acts on an expression whose children are converted,
and what it makes is not converted again. Nothing that it acts on is left all the same: neither the
nodes that it makes nor the ones that it moves up are such expressions, although the types of
converted children differ from those of the children before.

Main definitions:

* `SqlCe.Shifts`: a date and an interval of known value.
* `SqlCe.Reducible`: an expression that has another form on the engine.

Main statements:

* `SqlCe.form_ne_self`: the conversion acts on every such expression.
* `SqlCe.not_reducible_convert`: none is left where the conversion ends.
-/

namespace SqlTree

namespace SqlCe

variable {ctx : Context}

/-- The value is NULL or an interval within the limit. -/
inductive Counted : Literal → Prop
  | null : Counted .null
  | interval {d : Interval} (hd : d.Limited) : Counted (.interval d)

/-- The one expression is a date, and the other one is an interval of known value. -/
structure Shifts (ctx : Context) (date interval : Expr) : Prop where
  temporal : date.dataType.isTemporal = true
  duration : interval.dataType.isDuration = true
  counted : ∃ l, interval.fold? ctx = some l ∧ Counted l

/-- The expression has another form on the engine. -/
inductive Reducible (ctx : Context) : Expr → Prop
  | modulo {l r : Expr} {p : Int} {t : DataType} {n : Bool} (hl : l.dataType.isInteger = false) :
      Reducible ctx (.binary .modulo l r p t n)
  | add {l r : Expr} {p : Int} {t : DataType} {n : Bool} (h : Shifts ctx l r ∨ Shifts ctx r l) :
      Reducible ctx (.binary .add l r p t n)
  | subtract {l r : Expr} {p : Int} {t : DataType} {n : Bool} (h : Shifts ctx l r) :
      Reducible ctx (.binary .subtract l r p t n)
  | time {name : String} {t : DataType} {value : Expr} {flags : CallFlags}
      (hname : name.toLower = "convert") (ht : t ∈ [DataType.date, .dateTime, .time]) :
      Reducible ctx (.call name t [.typeName .time, value] flags)
  | date {name : String} {t : DataType} {value : Expr} {flags : CallFlags}
      (hname : name.toLower = "convert") (ht : t ∈ [DataType.date, .dateTime, .time])
      (hvalue : value.dataType.isTemporal = true) :
      Reducible ctx (.call name t [.typeName .date, value] flags)

theorem Shifts.exists_dateAdd? {date interval : Expr} (h : Shifts ctx date interval)
    (negate : Bool) : ∃ e, dateAdd? ctx date interval negate = some e := by
  obtain ⟨l, hl, hcounted⟩ := h.counted
  cases hcounted with
  | null => exact ⟨_, by simp [dateAdd?, h.temporal, h.duration, hl]; rfl⟩
  | interval hd =>
    obtain ⟨⟨_, _, hforth, -⟩, _, _, hback, -⟩ :=
      SqlCe.exists_dateAdd? h.temporal h.duration hl hd.countable
    cases negate with
    | false => exact ⟨_, hforth⟩
    | true => exact ⟨_, hback⟩

theorem ne_binary_of_dateAdd? {date interval e : Expr} {negate : Bool}
    (h : dateAdd? ctx date interval negate = some e) (op : Operator) (l r : Expr) (p : Int)
    (t : DataType) (n : Bool) : e ≠ .binary op l r p t n := by
  obtain ⟨-, rfl | ⟨_, _, _, rfl⟩⟩ := dateAdd?_eq_some h
  · simp [Expr.null]
  · simp [shift]

theorem form_of_typeName {name : String} {target t : DataType} {value : Expr} {flags : CallFlags}
    (hname : name.toLower = "convert") (ht : t ∈ [DataType.date, .dateTime, .time]) :
    form ctx (.call name t [.typeName target, value] flags) =
      (convertTemporal? target t value).getD (.call name t [.typeName target, value] flags) := by
  simp only [List.mem_cons, List.not_mem_nil, or_false] at ht
  rcases ht with rfl | rfl | rfl
  all_goals simp [form, hname, convertCall]

/-- The conversion acts on every such expression. -/
theorem form_ne_self {e : Expr} (h : Reducible ctx e) : form ctx e ≠ e := by
  cases h with
  | @modulo l r p t n hl =>
    intro heq
    have hleft : Expr.convert .int32 l = l := by
      simp only [form, convertBinary, hl, Bool.false_eq_true, if_false] at heq
      exact (Expr.binary.inj heq).2.1
    have hint : (Expr.convert .int32 l).dataType.isInteger = true := rfl
    rw [hleft, hl] at hint
    cases hint
  | @add l r p t n h =>
    obtain ⟨e, he⟩ : ∃ e, (dateAdd? ctx l r false).or (dateAdd? ctx r l false) = some e := by
      rcases h with h | h
      all_goals
        obtain ⟨e, he⟩ := h.exists_dateAdd? false
        simp [he]
    simp only [form, convertBinary, he, Option.getD_some]
    rcases Option.or_eq_some_iff.1 he with he | ⟨-, he⟩
    all_goals exact ne_binary_of_dateAdd? he _ _ _ _ _ _
  | @subtract l r p t n h =>
    obtain ⟨e, he⟩ := h.exists_dateAdd? true
    simp only [form, convertBinary, he, Option.getD_some]
    exact ne_binary_of_dateAdd? he _ _ _ _ _ _
  | @time name t value flags hname ht =>
    have hvalue : value ≠ .call name t [.typeName .time, value] flags := by
      intro heq
      have hsize := congrArg sizeOf heq
      simp at hsize
      omega
    rw [form_of_typeName hname ht]
    unfold convertTemporal?
    grind
  | @date name t value flags hname ht hvalue =>
    rw [form_of_typeName hname ht]
    simp [convertTemporal?, hvalue]

/-- No expression at or below the expression has another form on the engine. -/
abbrev Normal (ctx : Context) (e : Expr) : Prop := e.EachExpr fun e => ¬ Reducible ctx e

theorem normal_value (l : Literal) (t : DataType) : Normal ctx (.value l t) :=
  (Expr.eachExpr_iff _).2 ⟨nofun, by simp [Node.children]⟩

theorem normal_typeName (t : DataType) : Normal ctx (.typeName t) :=
  (Expr.eachExpr_iff _).2 ⟨nofun, by simp [Node.children]⟩

theorem normal_raw {format : String} {p : Int} {args : List Expr} {t : DataType}
    (h : ∀ e ∈ args, Normal ctx e) : Normal ctx (.raw format p args t) :=
  Expr.eachExpr_raw.2 ⟨nofun, h⟩

/-- A call is in its form if its type has no date and no time of day, or if it has not two
arguments. -/
theorem normal_call {name : String} {t : DataType} {args : List Expr} {flags : CallFlags}
    (h : ∀ e ∈ args, Normal ctx e)
    (hcall : t ∉ [DataType.date, .dateTime, .time] ∨ args.length ≠ 2) :
    Normal ctx (.call name t args flags) := by
  refine Expr.eachExpr_call.2 ⟨fun hreducible => ?_, h⟩
  cases hreducible with
  | time _ ht => simp_all
  | date _ ht _ => simp_all

/-- What the conversion makes of an expression whose children are in their forms. -/
theorem normal_form {e : Expr}
    (h : ∀ c ∈ (Node.expr e).children, c.All (Node.IfExpr fun e => ¬ Reducible ctx e)) :
    Normal ctx (form ctx e) := by
  have hconverted := converted ctx e
  generalize he' : form ctx e = e' at hconverted
  cases hconverted with
  | unchanged => exact (Expr.eachExpr_iff e).2 ⟨fun hreducible => form_ne_self hreducible he', h⟩
  | @modulo l r p t n =>
    have hl : Normal ctx l := h _ (by simp [Node.children])
    have hr : Normal ctx r := h _ (by simp [Node.children])
    have hconvert : Normal ctx (.convert .int32 l) :=
      normal_call (by simp [normal_typeName, hl]) (.inl (by decide))
    refine Expr.eachExpr_binary.2 ⟨fun hreducible => ?_, hconvert, hr⟩
    -- The operand is an integer now.
    cases hreducible with
    | modulo hl => cases hl
  | @shift op l r date p t n hop hdate _ unit count nullable =>
    have hdate : Normal ctx date := by
      rcases hdate with rfl | rfl
      all_goals exact h _ (by simp [Node.children])
    have hunit : Normal ctx (.raw unit.name Precedence.primary [] .nVarChar) :=
      normal_raw (by simp)
    exact normal_call (by simp [hunit, hdate, Expr.long, normal_value]) (.inr (by simp))
  | null t' => exact normal_value _ _
  | @floor name target value flags =>
    have htarget : Normal ctx target := h _ (by simp [Node.children])
    have hvalue : Normal ctx value := h _ (by simp [Node.children])
    have hfloor : Normal ctx (.function "Floor" value.dataType [value]) :=
      normal_call (by simp [hvalue]) (.inr (by simp))
    exact normal_call (by simp [htarget, hfloor]) (.inl (by decide))
  | text format => exact normal_raw fun e he => h _ (by simp_all [Node.children])
  | value => exact h _ (by simp [Node.children])

/-- The conversion of all expressions, children first, leaves none that has another form on the
engine. It succeeds unless there is an operation where it cannot go on. -/
theorem not_reducible_convert (ctx : Context) (s : Statement) :
    (∀ s', dialect.convertStatement ctx s = .ok s' →
      ∀ e, .expr e ∈ (Node.statement s').preorder → ¬ Reducible ctx e) ∧
    ((∃ s', dialect.convertStatement ctx s = .ok s') ↔ (Node.statement s).Convertible ctx) ∧
    (¬ (Node.statement s).Convertible ctx →
      dialect.convertStatement ctx s = .error .overflow) := by
  have hP := Node.IfExpr.ofTrees fun e => ¬ Reducible ctx e
  have hyields := Transform.establishes (O := .success Error) (t := dialect.conversion ctx) hP
    (fun e he e' he' => by
      rw [((conversion_attempts ctx).expr e).eq_ok_iff.1 he' |>.2]
      exact normal_form he) fun {q p} h => by
      refine (Outcome.success Error).mono h.rebuild fun q' hq' => ?_
      exact (Node.all_query hP q').2 ⟨nofun, hq'.each_all⟩
  have hattempts := convertStatement_attempts ctx s
  refine ⟨fun s' hs' e he => (hyields.onStatement s s' hs').all hP _ he e rfl, ?_, hattempts.fails⟩
  simp [hattempts.eq_ok_iff]

end SqlCe

end SqlTree

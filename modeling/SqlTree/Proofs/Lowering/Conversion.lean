import SqlTree.Dialect.SqlCe
import SqlTree.Lowering.Pipeline
import SqlTree.Proofs.Attempt

/-! # What the conversion for SQL Server Compact Edition makes of an expression

Main definitions:

* `SqlCe.Converted`: the forms of an expression after the conversion.
* `Node.Convertible`: a tree in which the conversion can go on everywhere.

Main statements:

* `SqlCe.converted`: a converted expression has one of the forms.
* `SqlCe.convertUp_attempts`, `SqlCe.convertStatement_attempts`: the conversion of trees.
-/

namespace SqlTree

namespace SqlCe

/-- The call that shifts a date. -/
def shift (unit : IntervalUnit) (count : Int64) (date : Expr) (nullable : Bool) : Expr :=
  .call "DateAdd" date.dataType [.raw unit.name Precedence.primary [] .nVarChar, .long count, date]
    { nullable }

/-- The forms of an expression after the conversion. -/
inductive Converted : Expr → Expr → Prop
  | unchanged (e : Expr) : Converted e e
  | modulo {l r : Expr} {p : Int} {t : DataType} {n : Bool} (hl : l.dataType.isInteger = false) :
      Converted (.binary .modulo l r p t n) (.binary .modulo (.convert .int32 l) r p .int32
        ((Expr.convert .int32 l).canBeNull || r.canBeNull))
  | shift {op : Operator} {l r date : Expr} {p : Int} {t : DataType} {n : Bool}
      (hop : op = .add ∨ op = .subtract) (hdate : date = l ∨ date = r)
      (htemporal : date.dataType.isTemporal = true)
      (unit : IntervalUnit) (count : Int64) (nullable : Bool) :
      Converted (.binary op l r p t n) (shift unit count date nullable)
  | null {op : Operator} {l r : Expr} {p : Int} {t : DataType} {n : Bool} (t' : DataType) :
      Converted (.binary op l r p t n) (.null t')
  | floor {name : String} {target value : Expr} {flags : CallFlags} :
      Converted (.call name .uint64 [target, value] flags)
        (.call name .uint64 [target, .function "Floor" value.dataType [value]] flags)
  | text {name : String} {t : DataType} {target value : Expr} {flags : CallFlags}
      (format : String) :
      Converted (.call name t [target, value] flags) (.raw format Precedence.primary [value] t)
  | value {name : String} {t : DataType} {target value : Expr} {flags : CallFlags} :
      Converted (.call name t [target, value] flags) value

variable {ctx : Context}

theorem dateAdd?_eq_some {date interval e : Expr} {negate : Bool}
    (h : dateAdd? ctx date interval negate = some e) :
    date.dataType.isTemporal = true ∧ (e = .null date.dataType ∨
      ∃ unit count nullable, e = shift unit count date nullable) := by
  cases ht : date.dataType.isTemporal && interval.dataType.isDuration with
  | false => simp [dateAdd?, ht] at h
  | true =>
    refine ⟨(Bool.and_eq_true_iff.1 ht).1, ?_⟩
    simp only [dateAdd?, ht, Bool.not_true, Bool.false_eq_true, if_false] at h
    obtain ⟨l, -, h⟩ := Option.bind_eq_some_iff.1 h
    cases l with
    | null =>
      cases h
      exact .inl rfl
    | interval d =>
      dsimp only at h
      obtain ⟨⟨unit, count⟩, -, h⟩ := Option.bind_eq_some_iff.1 h
      dsimp only at h
      split at h
      all_goals
        obtain ⟨count', -, h⟩ := Option.bind_eq_some_iff.1 h
        cases h
        exact .inr ⟨unit, count', _, rfl⟩
    | _ => cases h

theorem converted_of_dateAdd? {op : Operator} {l r date interval e : Expr} {p : Int} {t : DataType}
    {n negate : Bool} (h : dateAdd? ctx date interval negate = some e)
    (hop : op = .add ∨ op = .subtract) (hdate : date = l ∨ date = r) :
    Converted (.binary op l r p t n) e := by
  obtain ⟨htemporal, rfl | ⟨unit, count, nullable, rfl⟩⟩ := dateAdd?_eq_some h
  · exact .null _
  · exact .shift hop hdate htemporal unit count nullable

theorem converted_binary (op : Operator) (l r : Expr) (p : Int) (t : DataType) (n : Bool) :
    Converted (.binary op l r p t n) (convertBinary ctx op l r p t n) := by
  cases op with
  | modulo =>
    simp only [convertBinary]
    cases hl : l.dataType.isInteger with
    | true => exact .unchanged _
    | false => exact .modulo hl
  | add =>
    simp only [convertBinary]
    cases h : (dateAdd? ctx l r false).or (dateAdd? ctx r l false) with
    | none => exact .unchanged _
    | some e =>
      rcases Option.or_eq_some_iff.1 h with h | ⟨-, h⟩
      · exact converted_of_dateAdd? h (.inl rfl) (.inl rfl)
      · exact converted_of_dateAdd? h (.inl rfl) (.inr rfl)
  | subtract =>
    simp only [convertBinary]
    cases h : dateAdd? ctx l r true with
    | none => exact .unchanged _
    | some e => exact converted_of_dateAdd? h (.inr rfl) (.inl rfl)
  | _ => exact .unchanged _

theorem converted_temporal (name : String) (target t : DataType) (value : Expr)
    (flags : CallFlags) :
    Converted (.call name t [.typeName target, value] flags)
      ((convertTemporal? target t value).getD (.call name t [.typeName target, value] flags)) := by
  unfold convertTemporal?
  split
  · split
    · exact .text _
    · split
      · exact .value
      · exact .text _
  · split
    · exact .text _
    · exact .unchanged _
  · exact .unchanged _

theorem converted_call (name : String) (t : DataType) (target value : Expr) (flags : CallFlags) :
    Converted (.call name t [target, value] flags) (convertCall name t target value flags) := by
  unfold convertCall
  dsimp only
  split
  · split
    · exact .floor
    · exact .unchanged _
  -- The three types with a date or a time of day have the same conversions.
  iterate 3
    split
    · exact converted_temporal ..
    · exact .unchanged _
  · exact .unchanged _

/-- A converted expression has one of the forms. -/
theorem converted (ctx : Context) (e : Expr) : Converted e (form ctx e) := by
  unfold form
  split
  · exact converted_binary ..
  · split
    · exact converted_call ..
    · exact .unchanged _
  · exact .unchanged _

/-! Trees. -/

end SqlCe

/-- No operation of the tree, once its operands are converted, depends on an interval that cannot be
evaluated or counted. -/
def Node.Convertible (ctx : Context) (n : Node) : Prop :=
  n.All (Node.IfExpr fun e => SqlCe.overflows ctx (e.mapBelow (SqlCe.form ctx)) = false)

/-- A sum or a difference. -/
def Node.isSum : Node → Bool
  | .expr (.binary .add ..) => true
  | .expr (.binary .subtract ..) => true
  | _ => false

/-- The conversion can go on everywhere in a tree without sums and differences. -/
theorem Node.convertible_of_isSum {ctx : Context} {n : Node}
    (h : ∀ m ∈ n.preorder, m.isSum = false) : n.Convertible ctx := by
  rintro m hm e rfl
  cases e with
  | binary op l r p t nullable =>
    cases op with
    | add => cases h _ hm
    | subtract => cases h _ hm
    | _ => rfl
  | _ => rfl

namespace SqlCe

theorem conversion_attempts (ctx : Context) :
    (dialect.conversion ctx).Attempts .overflow (fun e => overflows ctx e = false) (form ctx) where
  expr e := ⟨fun h => if_neg (by simp [h]), fun h => if_pos (by simpa using h)⟩
  query := rfl

theorem convertUp_attempts (ctx : Context) (e : Expr) :
    Attempts .overflow ((Node.expr e).Convertible ctx) (e.mapUp (form ctx))
      (dialect.convertUp ctx e) :=
  (conversion_attempts ctx).onExpr e

/-- The conversion of a statement has the form of each expression, unless it comes to an operation
where there is no going on. -/
theorem convertStatement_attempts (ctx : Context) (s : Statement) :
    Attempts .overflow ((Node.statement s).Convertible ctx) (s.mapUp (form ctx))
      (dialect.convertStatement ctx s) :=
  (conversion_attempts ctx).onStatement s

end SqlCe

end SqlTree

import SqlTree.Dialect.Basic

/-! # SQL Server Compact Edition

The engine has no statements over several tables, takes no bound parameters among inserted values
and has no intervals. Its modulo is one of integers, and its conversions know no time of day.

Main definitions:

* `SqlCe.dateAdd?`: a date shifted by a constant interval.
* `SqlCe.convertBinary`, `SqlCe.convertCall`: operations and conversions of values.
* `SqlCe.form`: the form of an expression.
* `SqlCe.overflows`: a shift of a date by an interval that 64 bits do not hold.
* `SqlCe.convert`: the form of an expression, unless there is no going on.
* `SqlCe.dialect`: the profile.
-/

namespace SqlTree.SqlCe

/-- The call that shifts a date, for an interval with a known value that can be counted. A shift by
NULL is NULL. -/
def dateAdd? (ctx : Context) (date interval : Expr) (negate : Bool) : Option Expr := do
  if !(date.dataType.isTemporal && interval.dataType.isDuration) then none
  match ← interval.fold? ctx with
  | .null => return .null date.dataType
  | .interval d =>
    let (unit, count) ← d.increment?
    let count ← if negate then Word.signed? (-count.toInt) else some count
    return .call "DateAdd" date.dataType
      [.raw unit.name Precedence.primary [] .nVarChar, .long count, date]
      { nullable := date.canBeNull || interval.canBeNull }
  | _ => none

/-- The form of an operation: a modulo has an integer on the left, and sums with an interval of
known value are calls. -/
def convertBinary (ctx : Context) (op : Operator) (left right : Expr) (p : Int) (t : DataType)
    (nullable : Bool) : Expr :=
  let unchanged : Expr := .binary op left right p t nullable
  match op with
  | .modulo =>
    if left.dataType.isInteger then unchanged
    else
      let left := Expr.convert .int32 left
      .binary op left right p .int32 (left.canBeNull || right.canBeNull)
  | .add =>
    ((dateAdd? ctx left right false).or (dateAdd? ctx right left false)).getD unchanged
  | .subtract => (dateAdd? ctx left right true).getD unchanged
  | _ => unchanged

/-- The engine text of the time of day of a value, as text. -/
def timeText : String := "Convert(NChar, \x7b0\x7d, 114)"

/-- The engine text of the time of day of a point in time. -/
def timeOfDateTime : String := "Cast(Convert(NChar, \x7b0\x7d, 114) as DateTime)"

/-- The engine text of the midnight before a point in time. -/
def dateOfDateTime : String := "Cast(Floor(Cast(\x7b0\x7d as Float)) as DateTime)"

/-- The conversion of a value to a time of day or a date. -/
def convertTemporal? (target t : DataType) (value : Expr) : Option Expr :=
  match target with
  | .time =>
    if value.dataType.isTemporal then some (.raw timeOfDateTime Precedence.primary [value] t)
    else if value.dataType.isText then some value
    else some (.raw timeText Precedence.primary [value] t)
  | .date =>
    if value.dataType.isTemporal then some (.raw dateOfDateTime Precedence.primary [value] t)
    else none
  | _ => none

/-- The form of a conversion: a float is rounded down before it becomes an unsigned integer. -/
def convertCall (name : String) (t : DataType) (target value : Expr) (flags : CallFlags) : Expr :=
  let unchanged : Expr := .call name t [target, value] flags
  match t with
  | .uint64 =>
    if value.dataType.isFloat then
      .call name t [target, .function "Floor" value.dataType [value]] flags
    else unchanged
  | .date | .dateTime | .time =>
    match target with
    | .typeName target => (convertTemporal? target t value).getD unchanged
    | _ => unchanged
  | _ => unchanged

/-- The form of an expression whose children are converted. -/
def form (ctx : Context) : Expr → Expr
  | .binary op left right p t nullable => convertBinary ctx op left right p t nullable
  | .call name t [target, value] flags =>
    if name.toLower = "convert" then convertCall name t target value flags
    else .call name t [target, value] flags
  | e => e

/-- The interval by which a date is to be shifted cannot be evaluated, or not counted. -/
def shiftOverflows (ctx : Context) (date interval : Expr) : Bool :=
  date.dataType.isTemporal && interval.dataType.isDuration &&
    (interval.overflows ctx ||
      match interval.fold? ctx with
      | some (.interval d) => d.increment?.isNone
      | _ => false)

/-- The form of an operation depends on an interval that cannot be evaluated or counted. -/
def overflows (ctx : Context) : Expr → Bool
  | .binary .add left right _ _ _ =>
    shiftOverflows ctx left right || shiftOverflows ctx right left
  | .binary .subtract left right _ _ _ => shiftOverflows ctx left right
  | _ => false

/-- The form of an expression whose children are converted, as long as 64 bits hold the intervals
that it depends on. -/
def convert (ctx : Context) (e : Expr) : Except Error Expr :=
  if overflows ctx e then .error .overflow else .ok (form ctx e)

def dialect : Dialect where
  name := DialectKind.sqlCe.name
  kind := .sqlCe
  capabilities := { parametersInInsert := false, multiTableDml := false }
  likeEscapes := ["_", "%"]
  convert

end SqlTree.SqlCe

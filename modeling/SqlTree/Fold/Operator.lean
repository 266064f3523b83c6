import SqlTree.Expr
import SqlTree.Number.Word

/-! # Operators on literals

What an operator yields for two literals. There is no result where the values do not fit the
operator, where the result does not fit its type, or where a division by zero occurs. Some results
that do not fit their type are not refused: the evaluation cannot go on from there.

Main definitions:

* `Literal.arithmetic?`: sums, differences, products, quotients and remainders.
* `Literal.compare?`: the order of two literals of one kind.
* `Operator.fold?`: any operator, with NULL and three-valued logic.
* `Operator.overflows`: operands of an operator from which the evaluation cannot go on.
-/

namespace SqlTree

namespace Literal

/-- The double nearest to a number. -/
def toDouble? : Literal → Option Float
  | .int n => some (Binary64.ofInt n.toInt)
  | .uint n => some (Binary64.ofInt n.toNat)
  | .float x => some x
  | _ => none

/-- An operation on doubles, as long as the result is finite. -/
def doubleOperation? (op : Word.Operation) (x y : Float) : Option Float :=
  let result :=
    match op with
    | .add => some (x + y)
    | .subtract => some (x - y)
    | .multiply => some (x * y)
    | .divide => if y == 0 then none else some (x / y)
    | .modulo => if y == 0 then none else some (Binary64.remainder x y)
  result.filter Float.isFinite

/-- The nanoseconds by which a point in time moves when an interval is added or subtracted. -/
def shiftOf? (op : Word.Operation) (d : Interval) : Option Int :=
  match op with
  | .add => some d.total
  | .subtract => some (-d.total)
  | _ => none

/-- An integer factor or divisor of an interval, which has 32 bits. -/
def factor? (n : Int64) : Option Int :=
  if Int32.minValue.toInt ≤ n.toInt ∧ n.toInt ≤ Int32.maxValue.toInt then some n.toInt else none

/-- Arithmetic on two literals other than NULL. Signed and unsigned integers meet as signed ones and
other numbers as doubles; a date counts as its midnight when it is shifted. -/
def arithmetic? (op : Word.Operation) : Literal → Literal → Option Literal
  | .int a, .int b => (op.signed? a b).map .int
  | .uint a, .uint b => (op.unsigned? a b).map .uint
  | .int a, .uint b => do return .int (← op.signed? a (← Word.signed? b.toNat))
  | .uint a, .int b => do return .int (← op.signed? (← Word.signed? a.toNat) b)
  | .string a, .string b => if op = .add then some (.string (a ++ b)) else none
  | .interval a, .interval b =>
    match op with
    | .add => (a.add? b).map .interval
    | .subtract => (a.sub? b).map .interval
    | _ => none
  | .interval d, .int n =>
    match op with
    | .multiply => do return .interval (← d.mul? (← factor? n))
    | .divide => do return .interval (← d.div? (← factor? n))
    | _ => none
  | .int n, .interval d =>
    if op = .multiply then do return .interval (← d.mul? (← factor? n)) else none
  | .date d, .interval i => do return .dateTime (← d.midnight.shift? (← shiftOf? op i))
  | .dateTime t, .interval i => do return .dateTime (← t.shift? (← shiftOf? op i))
  | .dateTimeOffset t, .interval i => do return .dateTimeOffset (← t.shift? (← shiftOf? op i))
  | .interval i, .dateTime t =>
    if op = .add then (t.shift? i.total).map .dateTime else none
  | .interval i, .date d =>
    if op = .add then (d.midnight.shift? i.total).map .dateTime else none
  | .dateTime a, .dateTime b => if op = .subtract then some (.interval (a.since b)) else none
  | a, b => do return .float (← doubleOperation? op (← a.toDouble?) (← b.toDouble?))

/-- The seconds of a sum or a difference of intervals, or those of a point in time that is shifted,
leave 64 bits. -/
def overflows (op : Word.Operation) : Literal → Literal → Bool
  | .interval a, .interval b =>
    match op with
    | .add => a.sumOverflows b
    | .subtract => a.differenceOverflows b
    | _ => false
  | .date d, .interval i => (shiftOf? op i).any d.midnight.shiftOverflows
  | .dateTime t, .interval i => (shiftOf? op i).any t.shiftOverflows
  | .dateTimeOffset t, .interval i => (shiftOf? op i).any t.utc.shiftOverflows
  | .interval i, .dateTime t => op = .add && t.shiftOverflows i.total
  | .interval i, .date d => op = .add && d.midnight.shiftOverflows i.total
  | _, _ => false

/-- The order of two literals. Integers of one kind are compared exactly and other numbers as
doubles; texts are compared by code points and instants without their offsets. -/
def compare? : Literal → Literal → Option Ordering
  | .int a, .int b => some (compare a.toInt b.toInt)
  | .uint a, .uint b => some (compare a.toNat b.toNat)
  | .string a, .string b => some (compare a b)
  | .boolean a, .boolean b => some (compare a.toNat b.toNat)
  | .date a, .date b => some (compare a.day b.day)
  | .dateTime a, .dateTime b => some (a.compare b)
  | .dateTimeOffset a, .dateTimeOffset b => some (a.utc.compare b.utc)
  | .interval a, .interval b => some (a.compare b)
  | a, b => do Binary64.compare? (← a.toDouble?) (← b.toDouble?)

/-- Conjunction: FALSE on either side decides, and otherwise NULL stands for an unknown truth
value. -/
def and? : Literal → Literal → Option Literal
  | .boolean false, _ => some (.boolean false)
  | _, .boolean false => some (.boolean false)
  | .boolean true, .boolean true => some (.boolean true)
  | .null, .boolean _ => some .null
  | .null, .null => some .null
  | .boolean _, .null => some .null
  | _, _ => none

/-- Disjunction: TRUE on either side decides, and otherwise NULL stands for an unknown truth
value. -/
def or? : Literal → Literal → Option Literal
  | .boolean true, _ => some (.boolean true)
  | _, .boolean true => some (.boolean true)
  | .boolean false, .boolean false => some (.boolean false)
  | .null, .boolean _ => some .null
  | .null, .null => some .null
  | .boolean _, .null => some .null
  | _, _ => none

/-- The truth of a comparison. -/
def test? (holds : Ordering → Bool) (a b : Literal) : Option Literal :=
  (a.compare? b).map fun o => .boolean (holds o)

end Literal

/-- The value of an operator for two operands other than NULL. -/
def Operator.foldValues? (op : Operator) (a b : Literal) : Option Literal :=
  match op with
  | .add => Literal.arithmetic? .add a b
  | .subtract => Literal.arithmetic? .subtract a b
  | .multiply => Literal.arithmetic? .multiply a b
  | .divide => Literal.arithmetic? .divide a b
  | .modulo => Literal.arithmetic? .modulo a b
  | .concat =>
    match a, b with
    | .string a, .string b => some (.string (a ++ b))
    | _, _ => none
  | .equal => Literal.test? (· == .eq) a b
  | .notEqual => Literal.test? (· != .eq) a b
  | .less => Literal.test? (· == .lt) a b
  | .lessOrEqual => Literal.test? (· != .gt) a b
  | .greater => Literal.test? (· == .gt) a b
  | .greaterOrEqual => Literal.test? (· != .lt) a b
  | .and | .or => none

/-- The value of an operator for two literals. Apart from the logical operators, NULL yields
NULL. -/
def Operator.fold? (op : Operator) (a b : Literal) : Option Literal :=
  match op with
  | .and => a.and? b
  | .or => a.or? b
  | op => if a.isNull || b.isNull then some .null else op.foldValues? a b

/-- The evaluation of an operator cannot go on from these operands. -/
def Operator.overflows (op : Operator) (a b : Literal) : Bool :=
  match op with
  | .add => Literal.overflows .add a b
  | .subtract => Literal.overflows .subtract a b
  | _ => false

end SqlTree

import SqlTree.Fold.Basic

/-! # A reference for integers and truth values

An evaluator that computes with integers of any size and needs a value for every field. NULL passes
through arithmetic, comparisons and functions, and AND and OR are three-valued. Where an operation
has no result, as in a division by zero, there is none for the whole expression.

Main definitions:

* `Datum`: NULL, a truth value, or an integer of one of two kinds; `Datum.Fits`: what 64 bits hold.
* `Literal.datum?`: the datum that a literal denotes.
* `Operator.arithmetic?`, `Operator.relation?`, `Datum.connective?`: the operators.
* `Expr.evaluate?`: the evaluator.
* `Expr.Integral`: the expressions that it is a reference for.
* `Expr.Needs`: the parts of an expression that it evaluates.
* `Expr.Computed`: expressions that words compute, given that they compute the parts.
-/

namespace SqlTree

/-- Signed and unsigned integers. -/
inductive Kind where
  | signed
  | unsigned
deriving DecidableEq, Repr

namespace Kind

/-- The kind of a result: unsigned if both operands are. -/
def meet : Kind → Kind → Kind
  | .unsigned, .unsigned => .unsigned
  | _, _ => .signed

/-- There is a word of this kind for the integer. -/
def Fits (n : Int) : Kind → Prop
  | .signed => Int64.minValue.toInt ≤ n ∧ n ≤ Int64.maxValue.toInt
  | .unsigned => 0 ≤ n ∧ n < UInt64.size

/-- There are words of this kind for the operands and, for a remainder, the quotient. -/
def Holds (k : Kind) (remainder : Prop) (m n : Int) : Prop :=
  k.Fits m ∧ k.Fits n ∧ (remainder → k.Fits (m.tdiv n))

end Kind

/-- What a reference computes with. -/
inductive Datum where
  | null
  | truth (b : Bool)
  | integer (k : Kind) (n : Int)
deriving DecidableEq, Repr

/-- The datum has a literal of its own. -/
def Datum.Fits : Datum → Prop
  | .integer k n => k.Fits n
  | _ => True

/-- The datum that a literal denotes. -/
def Literal.datum? : Literal → Option Datum
  | .null => some .null
  | .boolean b => some (.truth b)
  | .int n => some (.integer .signed n.toInt)
  | .uint n => some (.integer .unsigned n.toNat)
  | _ => none

/-! Operators. -/

namespace Operator

/-- Arithmetic on integers. Division goes toward zero, and the remainder has the sign of the
dividend. -/
def arithmetic? (op : Operator) (m n : Int) : Option Int :=
  match op with
  | .add => some (m + n)
  | .subtract => some (m - n)
  | .multiply => some (m * n)
  | .divide => if n = 0 then none else some (m.tdiv n)
  | .modulo => if n = 0 then none else some (m.tmod n)
  | _ => none

/-- The comparison of integers that an operator stands for. -/
def relation? : Operator → Option (Int → Int → Bool)
  | .equal => some fun m n => decide (m = n)
  | .notEqual => some fun m n => decide (m ≠ n)
  | .less => some fun m n => decide (m < n)
  | .lessOrEqual => some fun m n => decide (m ≤ n)
  | .greater => some fun m n => decide (n < m)
  | .greaterOrEqual => some fun m n => decide (n ≤ m)
  | _ => none

end Operator

namespace Datum

/-- The truth values that an operand may turn out to be. -/
def possible : Datum → List Bool
  | .truth b => [b]
  | _ => [false, true]

/-- Truth values and NULL. -/
def isLogical : Datum → Bool
  | .integer _ _ => false
  | _ => true

/-- A connective in three-valued logic. The result is a truth value if it is the same whatever the
operands turn out to be, and otherwise NULL. -/
def connective? (f : Bool → Bool → Bool) (a b : Datum) : Option Datum :=
  let results := a.possible.flatMap fun p => b.possible.map (f p)
  if results.all id then some (.truth true)
  else if results.all not then some (.truth false)
  else if a.isLogical && b.isLogical then some .null
  else none

/-- Arithmetic and comparisons. FALSE is less than TRUE. -/
def combine? (op : Operator) : Datum → Datum → Option Datum
  | .null, _ | _, .null => some .null
  | .truth p, .truth q => op.relation?.map fun r => .truth (r p.toNat q.toNat)
  | .integer j m, .integer k n =>
    match op.relation? with
    | some r => some (.truth (r m n))
    | none => (op.arithmetic? m n).map (.integer (j.meet k))
  | _, _ => none

/-- Words of the kind of the result hold what is computed with. -/
def Held (op : Operator) : Datum → Datum → Prop
  | .integer j m, .integer k n => op.relation? = none → (j.meet k).Holds (op = .modulo) m n
  | _, _ => True

def operator? (op : Operator) (a b : Datum) : Option Datum :=
  match op with
  | .and => connective? and a b
  | .or => connective? or a b
  | op => combine? op a b

/-- A function of one argument, by its name in lower case. -/
def function? (name : String) : Datum → Option Datum
  | .null => some .null
  | .integer k n =>
    if name = "abs" then some (.integer k n.natAbs)
    else if name = "floor" || name = "ceiling" then some (.integer k n)
    else none
  | .truth _ => none

end Datum

/-! Expressions. -/

/-- The value of a parameter, which the context can replace. -/
def Context.valueOf (ctx : Context) (p : Parameter) : Literal := (ctx.value? p.name).getD p.value

section

variable (ctx : Context) (ρ : FieldRef → Datum)

mutual

/-- The value of an expression for the values `ρ` of the fields. -/
def Expr.evaluate? : Expr → Option Datum
  | .value l _ => l.datum?
  | .parameter p => (ctx.valueOf p).datum?
  | .field f => some (ρ f)
  | .binary op left right _ _ _ => do Datum.operator? op (← left.evaluate?) (← right.evaluate?)
  | .call name _ args _ =>
    if name.toLower = "coalesce" then evaluateFirst? args else evaluateSole? name.toLower args
  | .column _ | .raw .. | .typeName _ | .subquery _ | .existsRow _ => none

/-- The first value other than NULL, from left to right. -/
def evaluateFirst? : List Expr → Option Datum
  | [] => some .null
  | e :: es => do
    let d ← e.evaluate?
    if d = .null then evaluateFirst? es else return d

/-- A function of the only argument. -/
def evaluateSole? (name : String) : List Expr → Option Datum
  | [e] => do Datum.function? name (← e.evaluate?)
  | _ => none

end

end

/-- One value is a signed and the other an unsigned integer. -/
def Literal.Mixed (a b : Literal) : Prop :=
  ∃ j m k n, a.datum? = some (.integer j m) ∧ b.datum? = some (.integer k n) ∧ j ≠ k

/-- Expressions of integers, truth values, NULL and fields. No signed integer is compared with an
unsigned one: where both operands fold, they are of one kind. -/
inductive Expr.Integral (ctx : Context) : Expr → Prop
  | value (l : Literal) (t : DataType) : l.datum?.isSome → Integral ctx (.value l t)
  | parameter (p : Parameter) : (ctx.valueOf p).datum?.isSome → Integral ctx (.parameter p)
  | field (f : FieldRef) : Integral ctx (.field f)
  | binary {op : Operator} {l r : Expr} {p : Int} {t : DataType} {nullable : Bool} :
      op ≠ .concat → Integral ctx l → Integral ctx r →
      (op.relation?.isSome → ∀ a b, l.fold? ctx = some a → r.fold? ctx = some b → ¬ a.Mixed b) →
      Integral ctx (.binary op l r p t nullable)
  | call {name : String} {t : DataType} {args : List Expr} {flags : CallFlags} :
      name.toLower ∈ ["coalesce", "abs", "floor", "ceiling"] → flags.pure = true →
      (∀ a ∈ args, Integral ctx a) → Integral ctx (.call name t args flags)

/-- The part `a` is evaluated in the course of `e`: operands and arguments are, and the arguments of
COALESCE up to the first that is not NULL. -/
inductive Expr.Needs (ctx : Context) (ρ : FieldRef → Datum) : Expr → Expr → Prop
  | self (e : Expr) : Needs ctx ρ e e
  | left {op : Operator} {l r a : Expr} {p : Int} {t : DataType} {nullable : Bool} :
      Needs ctx ρ l a → Needs ctx ρ (.binary op l r p t nullable) a
  | right {op : Operator} {l r a : Expr} {p : Int} {t : DataType} {nullable : Bool} :
      Needs ctx ρ r a → Needs ctx ρ (.binary op l r p t nullable) a
  | argument {name : String} {t : DataType} {args : List Expr} {flags : CallFlags} {x a : Expr} :
      name.toLower ≠ "coalesce" → x ∈ args → Needs ctx ρ x a →
      Needs ctx ρ (.call name t args flags) a
  | alternative {name : String} {t : DataType} {before after : List Expr} {flags : CallFlags}
      {x a : Expr} :
      name.toLower = "coalesce" → (∀ y ∈ before, y.evaluate? ctx ρ = some .null) →
      Needs ctx ρ x a → Needs ctx ρ (.call name t (before ++ x :: after) flags) a

/-- The expression has a value that fits, and words hold what an operator computes with. It is no
field and no aggregate. -/
def Expr.Computed (ctx : Context) (ρ : FieldRef → Datum) (e : Expr) : Prop :=
  (∃ d, e.evaluate? ctx ρ = some d ∧ d.Fits) ∧
    match e with
    | .field _ => False
    | .binary op left right _ _ _ =>
      ∀ x y, left.evaluate? ctx ρ = some x → right.evaluate? ctx ρ = some y → Datum.Held op x y
    | .call _ _ _ flags => flags.aggregate = false
    | _ => True

end SqlTree

import SqlTree.Fold.Function

/-! # Constant folding

Main definitions:

* `Context`: values of parameters beside those in the tree.
* `Expr.fold?`: the value of an expression that does not depend on data.
* `Expr.overflows`: an expression whose evaluation cannot go on.
-/

namespace SqlTree

/-- Values that take the place of those which parameters carry. -/
structure Context where
  values : List (String × Literal) := []

def Context.value? (ctx : Context) (name : String) : Option Literal := ctx.values.lookup name

mutual

/-- The value of the expression, if it can be known before the statement runs. -/
def Expr.fold? (ctx : Context) : Expr → Option Literal
  | .value l _ => some l
  | .parameter p => some ((ctx.value? p.name).getD p.value)
  | .binary op left right _ _ _ => do op.fold? (← left.fold? ctx) (← right.fold? ctx)
  | .call name _ args flags =>
    if flags.pure && !flags.aggregate then foldCall? name args (foldEach? ctx args) else none
  | .field _ | .column _ | .raw .. | .typeName _ | .subquery _ | .existsRow _ => none

/-- The values of several expressions. -/
def foldEach? (ctx : Context) : List Expr → List (Option Literal)
  | [] => []
  | e :: es => e.fold? ctx :: foldEach? ctx es

end

mutual

/-- The evaluation of the expression comes to operands from which it cannot go on. Operands are
evaluated from left to right, as long as they have values. -/
def Expr.overflows (ctx : Context) : Expr → Bool
  | .binary op left right _ _ _ =>
    left.overflows ctx || (left.fold? ctx).any fun a =>
      right.overflows ctx || (right.fold? ctx).any fun b => op.overflows a b
  | .call name _ args flags =>
    flags.pure && !flags.aggregate && callOverflows name args (overflowsEach ctx args)
  | .value .. | .parameter _ | .field _ | .column _ | .raw .. | .typeName _ | .subquery _
  | .existsRow _ => false

/-- Whether the evaluation of each expression cannot go on, and the values. -/
def overflowsEach (ctx : Context) : List Expr → List (Bool × Option Literal)
  | [] => []
  | e :: es => (e.overflows ctx, e.fold? ctx) :: overflowsEach ctx es

end

def Expr.isConstant (ctx : Context) (e : Expr) : Bool := (e.fold? ctx).isSome

end SqlTree

import SqlTree.Node

/-! # Walks with hooks

A hook sees a node before or after its children and puts a node in its place. A hook that comes
before the children decides whether the walk goes on into the node it returns, which need not be one
of the tree, so the depth of the walk is bounded by a limit.

Main definitions:

* `Step`: the decision of a hook.
* `Hooks`: what to do with expressions and queries before and after their children.
* `Hooks.onExpr`, `Hooks.onQuery`, `Hooks.onStatement`: the walk.
-/

namespace SqlTree

inductive Step (α : Type) where
  /-- Put the node in place and go on with its children. -/
  | descend (node : α)
  /-- Put the node in place and leave its children alone. -/
  | stop (node : α)

structure Hooks (m : Type → Type) [Monad m] where
  enterExpr : Expr → m (Step Expr) := fun e => return .descend e
  leaveExpr : Expr → m Expr := pure
  enterQuery : Query → m (Step Query) := fun q => return .descend q
  leaveQuery : Query → m Query := pure

namespace Hooks

variable {m : Type → Type} [Monad m]

/-- Act on the expression of a column. -/
def inColumn (f : Expr → m Expr) (c : Column) : m Column := return { c with expr := ← f c.expr }

def inOrderItem (f : Expr → m Expr) (o : OrderItem) : m OrderItem :=
  return { o with expr := ← f o.expr }

def inSetItem (f : Expr → m Expr) (i : SetItem) : m SetItem := return { i with expr := ← f i.expr }

def inOptional (f : Expr → m Expr) : Option Expr → m (Option Expr)
  | none => return none
  | some e => return some (← f e)

mutual

/-- Act on the queries and conditions of a source and of the sources joined to it. -/
def inSource (f : Expr → m Expr) (g : Query → m Query) : Source → m Source
  | ⟨id, origin, aliasName, joins⟩ =>
    return ⟨id, ← inOrigin g origin, aliasName, ← inJoins f g joins⟩

def inOrigin (g : Query → m Query) : Origin → m Origin
  | .table t => return .table t
  | .query q => return .query (← g q)

def inJoins (f : Expr → m Expr) (g : Query → m Query) : List Join → m (List Join)
  | [] => return []
  | ⟨kind, source, condition⟩ :: joins => do
    let source ← inSource f g source
    let condition ← inOptional f condition
    return ⟨kind, source, condition⟩ :: (← inJoins f g joins)

end

/-- Act on the children of an expression. -/
def inExpr (f : Expr → m Expr) (g : Query → m Query) : Expr → m Expr
  | .call name t args flags => return .call name t (← args.mapM f) flags
  | .binary op left right p t nullable =>
    return .binary op (← f left) (← f right) p t nullable
  | .raw format p args t => return .raw format p (← args.mapM f) t
  | .subquery q => return .subquery (← g q)
  | .existsRow q => return .existsRow (← g q)
  | e => return e

/-- Act on the clauses of a query. -/
def inQuery (f : Expr → m Expr) (g : Query → m Query) (q : Query) : m Query :=
  return {
    id := q.id
    columns := ← q.columns.mapM (inColumn f)
    distinct := q.distinct
    skip := ← inOptional f q.skip
    take := ← inOptional f q.take
    sources := ← q.sources.mapM (inSource f g)
    filter := ← inOptional f q.filter
    groupBy := ← q.groupBy.mapM f
    having := ← inOptional f q.having
    orderBy := ← q.orderBy.mapM (inOrderItem f) }

mutual

/-- Walk over an expression, down to a depth of `limit`. -/
def onExpr (h : Hooks m) : Nat → Expr → m Expr
  | 0, e => return e
  | limit + 1, e => do
    match ← h.enterExpr e with
    | .stop e => return e
    | .descend e => h.leaveExpr (← inExpr (h.onExpr limit) (h.onQuery limit) e)

/-- Walk over a query, down to a depth of `limit`. -/
def onQuery (h : Hooks m) : Nat → Query → m Query
  | 0, q => return q
  | limit + 1, q => do
    match ← h.enterQuery q with
    | .stop q => return q
    | .descend q => h.leaveQuery (← inQuery (h.onExpr limit) (h.onQuery limit) q)

end

/-- Walk over all queries and expressions of a statement. -/
def onStatement (h : Hooks m) (limit : Nat) : Statement → m Statement
  | .select q => return .select (← h.onQuery limit q)
  | .insert into items q =>
    return .insert into (← items.mapM (inSetItem (h.onExpr limit))) (← h.onQuery limit q)
  | .update target items q =>
    return .update target (← items.mapM (inSetItem (h.onExpr limit))) (← h.onQuery limit q)
  | .delete target q => return .delete target (← h.onQuery limit q)
  | .merge target q on operations => do
    let target ← inSource (h.onExpr limit) (h.onQuery limit) target
    let q ← h.onQuery limit q
    let on ← inOptional (h.onExpr limit) on
    let operations ← operations.mapM fun o => return { o with
      condition := ← inOptional (h.onExpr limit) o.condition
      items := ← o.items.mapM (inSetItem (h.onExpr limit)) }
    return .merge target q on operations
  | .createTable t => return .createTable t
  | .dropTable t ifExists => return .dropTable t ifExists

end Hooks

end SqlTree

import SqlTree.Transform.Basic

/-! # Parameters in the text

An engine that takes no bound parameter in some place needs the value in the text there. These
passes unbind parameters and change nothing else.

Main definitions:

* `Statement.debindInsertParameters`: inserted values.
* `Statement.inlineFunctionParameters`: arguments of calls.
* `Statement.inlineAllParameters`: all parameters.
-/

namespace SqlTree

namespace Expr

/-- The expression, unbound if it is a parameter itself. -/
def unbind : Expr → Expr
  | .parameter p => .parameter p.unbind
  | e => e

/-- The expression with the parameters among the arguments of a call unbound. -/
def unbindArgs : Expr → Expr
  | .call name t args flags => .call name t (args.map unbind) flags
  | e => e

end Expr

/-- The query with the parameters among its own columns unbound. -/
def Query.unbindColumns (q : Query) : Query :=
  { q with columns := q.columns.map fun c => { c with expr := c.expr.unbind } }

namespace Statement

/-- Unbind the parameters that are values or columns of an insertion themselves. -/
def debindInsertParameters : Statement → Statement
  | .insert into items q =>
    .insert into (items.map fun i => { i with expr := i.expr.unbind }) q.unbindColumns
  | s => s

/-- Unbind the parameters that are arguments of calls, at any depth. -/
def inlineFunctionParameters (s : Statement) : Statement := s.mapUp Expr.unbindArgs

/-- Unbind all parameters. -/
def inlineAllParameters (s : Statement) : Statement := s.mapUp Expr.unbind

end Statement

end SqlTree

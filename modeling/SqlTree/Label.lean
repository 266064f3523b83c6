import SqlTree.Codec.Tree
import SqlTree.Error
import SqlTree.Node

/-! # Labels

A label names the kind of a node and what is particular to it.

Main definitions:

* `Expr.label`, `Query.label`, `Node.label`: labels.
* `Label.matches`: the labels that a pattern stands for.
-/

namespace SqlTree

def Expr.label : Expr → String
  | .value _ t => "value:" ++ t.label
  | .parameter p => "parameter:" ++ p.name
  | .field f => "field:" ++ Decimal.integer f.source.val ++ "." ++ f.name
  | .column c => "column_ref:" ++ Decimal.integer c.query.val ++ "." ++ Decimal.integer c.index
  | .call name _ _ _ => "function:" ++ name
  | .binary op _ _ _ _ _ => "binary_op:" ++ op.symbol
  | .raw format _ _ _ => "raw:" ++ format
  | .typeName t => "data_type:" ++ t.label
  | .subquery q => "subquery:" ++ Decimal.integer q.id.val
  | .existsRow q => "exists:" ++ Decimal.integer q.id.val

def Query.label (q : Query) : String := "query:" ++ Decimal.integer q.id.val

def Node.label : Node → String
  | .statement s => "statement:" ++ s.kind.tag
  | .query q => q.label
  | .column c => "column:" ++ c.aliasName.getD ""
  | .source s => "source:" ++ s.id.text ++ ":" ++ s.aliasName.getD ""
  | .join j => "join:" ++ j.kind.tag
  | .table t => "table:" ++ t.name
  | .order o => if o.desc then "order_by:desc" else "order_by:asc"
  | .setItem i => "set_item:" ++ i.column
  | .mergeOperation o => "merge_operation:" ++ o.kind.tag
  | .expr e => e.label

/-- The part of a label that names the kind of the node. -/
def Label.head (label : String) : String := String.ofList (label.toList.takeWhile (· ≠ ':'))

/-- A pattern is a label, the kind of a node or a star for all nodes. -/
def Label.matches (pattern label : String) : Bool :=
  pattern == label || pattern == head label || pattern == "*"

end SqlTree

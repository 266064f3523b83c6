import SqlTree.Query

/-! # Statements

Main definitions:

* `Statement`: the root of a tree. Apart from the definitions of tables, each kind owns one query.
* `Statement.query?`, `Statement.mapQuery`: that query.
-/

namespace SqlTree

/-- The assignment of a value to a column. -/
structure SetItem where
  column : String
  expr : Expr

/-- What a merge does with a row: update or delete one that matches, or insert one that does not. -/
inductive MergeKind where
  | update
  | delete
  | insert
deriving DecidableEq, Repr

structure MergeOperation where
  kind : MergeKind
  condition : Option Expr := none
  items : List SetItem := []

inductive StatementKind where
  | select
  | insert
  | update
  | delete
  | merge
  | createTable
  | dropTable
deriving DecidableEq, Repr

/-- A statement. The target of an update or a deletion is the first source of its query unless it is
named. -/
inductive Statement where
  | select (query : Query)
  | insert (into : Table) (items : List SetItem) (query : Query)
  | update (target : Option SourceId) (items : List SetItem) (query : Query)
  | delete (target : Option SourceId) (query : Query)
  | merge (target : Source) (query : Query) (on : Option Expr) (operations : List MergeOperation)
  | createTable (table : Table)
  | dropTable (table : Table) (ifExists : Bool)

namespace Statement

def kind : Statement → StatementKind
  | .select _ => .select
  | .insert .. => .insert
  | .update .. => .update
  | .delete .. => .delete
  | .merge .. => .merge
  | .createTable _ => .createTable
  | .dropTable .. => .dropTable

/-- The query of the statement. -/
def query? : Statement → Option Query
  | .select q => some q
  | .insert _ _ q => some q
  | .update _ _ q => some q
  | .delete _ q => some q
  | .merge _ q _ _ => some q
  | .createTable _ => none
  | .dropTable .. => none

/-- The statement with its query changed. -/
def mapQuery (f : Query → Query) : Statement → Statement
  | .select q => .select (f q)
  | .insert into items q => .insert into items (f q)
  | .update target items q => .update target items (f q)
  | .delete target q => .delete target (f q)
  | .merge target q on operations => .merge target (f q) on operations
  | .createTable t => .createTable t
  | .dropTable t ifExists => .dropTable t ifExists

def isInsert (s : Statement) : Bool := s.kind == .insert

end Statement

end SqlTree

import SqlTree.Ids

/-! # Building statements

Main definitions:

* `Ids.tableSource`, `Ids.derivedSource`, `Ids.select`, `Ids.insertInto`: parts of a tree with new
  ids.
* `Query.addColumnAs`, `Query.addSource`, `Query.addGroup`, `Query.addOrderDesc`: a query with one
  more part.
-/

namespace SqlTree

namespace Ids

/-- A source over a table. -/
def tableSource (ids : Ids) (t : Table) (aliasName : String) : Source × Ids :=
  let (id, ids) := ids.drawSource
  ({ id, origin := .table t, aliasName := some aliasName }, ids)

/-- A source over a query. -/
def derivedSource (ids : Ids) (q : Query) (aliasName : String) : Source × Ids :=
  let (id, ids) := ids.drawSource
  ({ id, origin := .query q, aliasName := some aliasName }, ids)

/-- An empty query. -/
def select (ids : Ids) : Query × Ids :=
  let (id, ids) := ids.drawQuery
  ({ id }, ids)

/-- An insertion of values, fed by an empty query. -/
def insertInto (ids : Ids) (t : Table) (items : List SetItem) : Statement × Ids :=
  let (q, ids) := ids.select
  (.insert t items q, ids)

end Ids

namespace Query

/-- The query with a named column at the end. -/
def addColumnAs (q : Query) (e : Expr) (aliasName : String) : Query :=
  { q with columns := q.columns ++ [{ expr := e, aliasName := some aliasName }] }

def addColumns (q : Query) (es : List Expr) : Query := es.foldl addColumn q

def addSource (q : Query) (s : Source) : Query := { q with sources := q.sources ++ [s] }

def addGroup (q : Query) (e : Expr) : Query := { q with groupBy := q.groupBy ++ [e] }

/-- The query with a descending order item at the end. -/
def addOrderDesc (q : Query) (e : Expr) : Query :=
  { q with orderBy := q.orderBy ++ [{ expr := e, desc := true }] }

end Query

end SqlTree

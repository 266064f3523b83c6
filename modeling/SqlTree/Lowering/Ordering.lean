import SqlTree.Error
import SqlTree.Transform.Basic

/-! # An ordering for every query that skips rows

An engine that skips rows needs an order in which to count them. A query that has none is ordered by
its columns, or by the key of its first source if it has no columns either.

Main definitions:

* `Query.orderKeys`: what a query without columns is ordered by.
* `Statement.correctPagination`: the pass.
-/

namespace SqlTree

namespace Query

/-- Whether the query skips rows in no stated order. -/
def lacksOrdering (q : Query) : Bool := q.hasSkip && q.orderBy.isEmpty

/-- What a query without columns projects to be ordered by: what identifies the rows of its first
source. -/
def orderKeys (q : Query) : List Expr :=
  if q.columns.isEmpty then (q.sources.head?.map Source.keyExprs).getD [] else []

/-- The query with `keys` among its columns, ordered by all columns. -/
def orderByColumns (q : Query) (keys : List Expr) : Query :=
  let columns := q.columns ++ keys.map fun e => { expr := e }
  { q with columns, orderBy := columns.map fun c => { expr := c.expr } }

/-- The query with an ordering, if it needs one. -/
def correctPagination (q : Query) (p : QueryParts (Except Error)) : Except Error Query := do
  if q.lacksOrdering then
    let keys := q.orderKeys
    if q.columns.isEmpty && keys.isEmpty then throw (.missingOrdering q.id)
    return (← p.rebuild q).orderByColumns keys
  else
    p.rebuild q

end Query

def Transform.correctPagination : Transform (Except Error) where
  query := Query.correctPagination

/-- Give every query that skips rows an ordering. -/
def Statement.correctPagination (s : Statement) : Except Error Statement :=
  s.transform .correctPagination

end SqlTree

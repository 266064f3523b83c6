import SqlTree.Error
import SqlTree.Ids
import SqlTree.Transform.Basic

/-! # Row bounds by row numbers

For an engine that cannot skip rows, a query with bounds becomes a derived table that numbers its
rows, inside a query that selects the numbers between the bounds. That query keeps the id and the
columns, so references from outside stay good. Rows that are to be distinct are made so in a derived
table of their own first, for no two numbered rows are equal.

Main definitions:

* `rowNumber`: the number of a row in an ordering.
* `Query.page`: the query that selects rows by their numbers.
* `Query.emulatePagination`: a query with its bounds expressed by row numbers.
* `Statement.emulatePagination`: the pass.
-/

namespace SqlTree

/-- The alias of the column with the row numbers. -/
def rowNumberAlias : String := "row_num"

/-- The alias of the derived table with the numbered rows. -/
def pagedAlias : String := "paged"

/-- The alias of the derived table with the distinct rows. -/
def distinctAlias : String := "distinct_rows"

/-- The place of an argument and the direction it is ordered in. -/
def orderPlace (index : Nat) (o : OrderItem) : String :=
  "\x7b" ++ Decimal.integer index ++ "\x7d" ++ if o.desc then " DESC" else ""

/-- The number of a row, counted from 1 in the given order. -/
def rowNumber (order : List OrderItem) : Expr :=
  .raw ("ROW_NUMBER() OVER (ORDER BY " ++ ", ".intercalate (order.mapIdx orderPlace) ++ ")")
    Precedence.primary (order.map (·.expr)) .int64

/-- A transformation that takes new ids and can fail. -/
abbrev Numbering := StateT Ids (Except Error)

namespace Query

/-- Columns that refer to those of the query under the id `id`, with the same aliases. -/
def refColumns (q : Query) (id : QueryId) : List Column :=
  q.columns.mapIdx fun index c =>
    { expr := .column { query := id, index, dataType := c.dataType }, aliasName := c.aliasName }

/-- The ordering by projected columns, as references to those of the query under the id `id`. There
is none if an expression to order by is not projected. -/
def refOrder? (q : Query) (id : QueryId) : Option (List OrderItem) :=
  q.orderBy.mapM fun o => do
    let index ← q.columns.findIdx? fun c => c.expr.same o.expr
    let column ← (q.refColumns id)[index]?
    return { o with expr := column.expr }

/-- The query with its rows numbered in the given order. -/
def numbered (order : List OrderItem) (q : Query) : Query :=
  { q with columns := q.columns ++ [{ expr := rowNumber order, aliasName := some rowNumberAlias }] }

/-- The row number as it is seen from outside the query `inner` with `width` columns before it. -/
def rowNumberRef (inner : QueryId) (width : Nat) : Expr :=
  .column { query := inner, index := width, dataType := .int64 }

/-- The query that selects rows of `inner` by the bounds on their numbers. -/
def page (id : QueryId) (columns : List Column) (inner : Query) (source : SourceId)
    (bounds : List Expr) (number : Expr) : Query :=
  let q : Query := {
    id, columns
    sources := [{ id := source, origin := .query inner, aliasName := some pagedAlias }]
    orderBy := [{ expr := number }] }
  bounds.foldl addFilter q

end Query

namespace QueryParts

/-- The clauses that make the rows of a query: all but its bounds and its ordering. -/
def rows (q : Query) (p : QueryParts Numbering) : Numbering Query := do
  return {
    id := q.id
    columns := ← p.columns
    distinct := q.distinct
    sources := ← p.sources
    filter := ← p.filter
    groupBy := ← p.groupBy
    having := ← p.having }

/-- The rows of a query, numbered in its order. -/
def numberedRows (q : Query) (p : QueryParts Numbering) : Numbering Query := do
  let columns ← p.columns
  let order ← p.orderBy
  return Query.numbered order {
    id := q.id
    columns
    distinct := q.distinct
    sources := ← p.sources
    filter := ← p.filter
    groupBy := ← p.groupBy
    having := ← p.having }

/-- The conditions on a row number that the bounds of the query make. -/
def bounds (q : Query) (p : QueryParts Numbering) (number : Expr) : Numbering (List Expr) := do
  let lower := (← p.skip).map fun skip => Expr.operation .greater number skip .boolean
  if q.take.isNone then return lower.toList
  let skip ← p.skip
  let take ← p.take
  let upper := do
    return Expr.operation .lessOrEqual number (.operation .add (← skip) (← take) .int64) .boolean
  return lower.toList ++ upper.toList

end QueryParts

namespace Query

/-- The query with its bounds expressed by row numbers, if it skips rows. -/
def emulatePagination (q : Query) (p : QueryParts Numbering) : Numbering Query := do
  if !q.hasSkip then return ← p.rebuild q
  if q.orderBy.isEmpty then
    throw (.pass .emulatePagination (.query q.id) "pagination requires ordering")
  if q.distinct then
    let rowsId ← modifyGet Ids.drawQuery
    let some order := q.refOrder? rowsId
      | throw (.pass .emulatePagination (.query q.id) "DISTINCT ordering must be projected")
    let rowsSource ← modifyGet Ids.drawSource
    let innerId ← modifyGet Ids.drawQuery
    let source ← modifyGet Ids.drawSource
    let rows ← p.rows { q with id := rowsId }
    let inner : Query := {
      id := innerId, columns := q.refColumns rowsId
      sources := [{ id := rowsSource, origin := .query rows, aliasName := some distinctAlias }] }
    let number := rowNumberRef innerId q.columns.length
    return page q.id (q.refColumns innerId) (inner.numbered order) source (← p.bounds q number)
      number
  else
    let innerId ← modifyGet Ids.drawQuery
    let source ← modifyGet Ids.drawSource
    let inner ← p.numberedRows { q with id := innerId }
    let number := rowNumberRef innerId q.columns.length
    return page q.id (q.refColumns innerId) inner source (← p.bounds q number) number

end Query

def Transform.emulatePagination : Transform Numbering where
  query := Query.emulatePagination

/-- Express the bounds of every query that skips rows by row numbers. -/
def Statement.emulatePagination (s : Statement) : Except Error Statement :=
  (s.transform .emulatePagination).run' (.after (.statement s))

end SqlTree

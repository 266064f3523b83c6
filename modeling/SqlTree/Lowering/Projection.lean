import SqlTree.Transform.Basic

/-! # A column for every grouped query

Main definitions:

* `Statement.fixEmptyProjection`: the pass.
-/

namespace SqlTree

/-- Whether the query groups its rows and projects nothing. -/
def Query.lacksProjection (q : Query) : Bool := !q.groupBy.isEmpty && q.columns.isEmpty

/-- The query with the constant 1 as a column, if it needs one. -/
def Query.fixEmptyProjection (q : Query) (p : QueryParts Id) : Query :=
  let fixed := (p.rebuild q).run
  if q.lacksProjection then fixed.addColumn (.int 1) else fixed

def Transform.fixEmptyProjection : Transform Id where
  query q p := pure (q.fixEmptyProjection p)

/-- Give every grouped query without columns the constant 1 as a column. -/
def Statement.fixEmptyProjection (s : Statement) : Statement :=
  (s.transform .fixEmptyProjection).run

end SqlTree

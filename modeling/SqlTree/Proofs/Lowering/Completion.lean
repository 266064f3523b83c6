import SqlTree.Lowering.Ordering
import SqlTree.Lowering.Projection
import SqlTree.Proofs.Outcome

/-! # Orderings and columns that are added

Two passes add to queries what an engine asks for: an ordering to those that skip rows, and a column
to those that group rows. All that is shown of them is shown from what they make of a query.

Main definitions:

* `Query.OrderedAs`, `Query.ProjectedAs`: the shapes of a query after the passes.

Main statements:

* `Query.holds_correctPagination`, `Query.holds_fixEmptyProjection`: a query that comes out has one
  of the shapes.
-/

namespace SqlTree

variable (RE : Expr → Expr → Prop) (RS : Source → Source → Prop)

/-- The shapes of a query after it was given an ordering: by its columns, or by keys that become
columns if there are none. -/
inductive Query.OrderedAs (q : Query) : Query → Prop
  | rebuilt {q' : Query} (hlacks : q.lacksOrdering = false) (h : q.Aligned RE RS q') :
      OrderedAs q q'
  | byColumns {r : Query} (hlacks : q.lacksOrdering = true)
      (hkeys : q.columns = [] → q.orderKeys ≠ []) (h : q.Aligned RE RS r) :
      OrderedAs q (r.orderByColumns q.orderKeys)

/-- The shapes of a query after it was given a column. -/
inductive Query.ProjectedAs (q : Query) : Query → Prop
  | rebuilt {q' : Query} (hlacks : q.lacksProjection = false) (h : q.Aligned RE RS q') :
      ProjectedAs q q'
  | constant {r : Query} (hlacks : q.lacksProjection = true) (h : q.Aligned RE RS r) :
      ProjectedAs q (r.addColumn (.int 1))

namespace Query

variable {RE RS} {q : Query}

theorem orderBy_eq_nil (h : q.lacksOrdering = true) : q.orderBy = [] :=
  List.isEmpty_iff.1 (Bool.and_eq_true_iff.1 h).2

theorem holds_correctPagination {p : QueryParts (Except Error)}
    (h : p.Yield (.success Error) RE RS q) :
    (Outcome.success Error).Holds (q.OrderedAs RE RS) (q.correctPagination p) := by
  let O := Outcome.success Error
  unfold correctPagination
  cases hlacks : q.lacksOrdering with
  | false => exact O.mono h.rebuild fun q' hq' => .rebuilt hlacks hq'
  | true =>
    simp only [if_true]
    split
    · intro q' hq'
      cases hq'
    · rename_i hkeys
      refine O.bind h.rebuild fun r hr => O.pure (.byColumns hlacks (fun hcolumns hnone => ?_) hr)
      simp [hcolumns, hnone] at hkeys

theorem holds_fixEmptyProjection {p : QueryParts Id} (h : p.Yield .result RE RS q) :
    q.ProjectedAs RE RS (q.fixEmptyProjection p) := by
  unfold fixEmptyProjection
  cases hlacks : q.lacksProjection with
  | false => exact .rebuilt hlacks h.rebuild
  | true => exact .constant hlacks h.rebuild

end Query

end SqlTree

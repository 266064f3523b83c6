import SqlTree.Proofs.Descent
import SqlTree.Proofs.Lowering.Ordering
import SqlTree.Proofs.Pagination.Shape

/-! # The passes on bounds, from the top down

The pass that adds orderings and the one that numbers rows can be read in two ways. They act on a
query and then go on into the clauses of what they made, with copies of columns and bounds and with
new queries around the old one. Or they transform each clause where it stood and put the results
where they belong. Both ways come to the same, and the first one ends.

Main definitions:

* `Query.unbounded`: the query whose rows are numbered.
* `Statement.WalkEnds`: the walk of a hook over statements ends with the results of a pass.

Main statements:

* `Transform.topDown_correctPagination`, `Transform.topDown_emulatePagination`: the two ways come to
  the same.
* `Query.wellFounded_correctPagination`, `Query.wellFounded_emulatePagination`: the calls of the
  hooks are well-founded.
* `Statement.walkEnds_pagination`: the walks end with the results of the passes.
-/

namespace SqlTree

/-! Parts that a transformation of queries puts together. -/

section Parts

variable {m : Type → Type} [Monad m]

theorem Expr.transform_reference {t : Transform m} (ht : ∀ e, t.expr e = pure e) {e : Expr}
    (he : (Node.expr e).isColumnReference = true) : e.transform t = pure e := by
  cases e with
  | field f => exact ht _
  | column c => exact ht _
  | _ => cases he

variable [LawfulMonad m]

theorem QueryParts.rebuild_unchanged (q : Query) :
    (QueryParts.unchanged q : QueryParts m).rebuild q = pure q := by
  cases q
  simp [rebuild, unchanged]

variable {t : Transform m}

theorem transformColumns_append (cs cs' : List Column) :
    transformColumns t (cs ++ cs') = transformColumns t cs >>= fun ds =>
      transformColumns t cs' >>= fun ds' => pure (ds ++ ds') := by
  simp [transformColumns_eq_mapM]

/-- The ordering by all columns. -/
theorem transformOrder_columns (cs : List Column) :
    transformOrder t (cs.map fun c => { expr := c.expr }) =
      transformColumns t cs >>= fun ds => pure (ds.map fun c => { expr := c.expr }) := by
  induction cs with
  | nil => simp [transformOrder, transformColumns]
  | cons c cs ih =>
    cases c
    simp [transformOrder, transformColumns, OrderItem.transform, Column.transform, ih]

/-- The places in the text of a row number depend on the directions only. -/
theorem transformOrder_bind {α : Type} (f : Nat → Bool → String) (os : List OrderItem)
    (k : List String → List Expr → m α) :
    (transformOrder t os >>= fun os' => k (os'.mapIdx fun i o => f i o.desc) (os'.map (·.expr))) =
      transformExprs t (os.map (·.expr)) >>= k (os.mapIdx fun i o => f i o.desc) := by
  induction os generalizing f k with
  | nil => simp [transformOrder, transformExprs]
  | cons o os ih =>
    cases o with
    | mk expr desc =>
      simp only [transformOrder, OrderItem.transform, transformExprs, bind_assoc, pure_bind,
        List.map_cons, List.mapIdx_cons]
      exact bind_congr fun e => ih (fun i => f (i + 1)) fun ss es => k (f 0 desc :: ss) (e :: es)

variable (ht : ∀ e, t.expr e = pure e)

include ht

theorem transformColumns_references {cs : List Column}
    (h : ∀ c ∈ cs, (Node.expr c.expr).isColumnReference = true) :
    transformColumns t cs = pure cs := by
  rw [transformColumns_eq_mapM, mapM_eq_pure_map (g := id), List.map_id]
  intro c hc
  rw [Expr.transform_reference ht (h c hc), pure_bind]
  cases c
  rfl

theorem transformOrder_references {os : List OrderItem}
    (h : ∀ o ∈ os, (Node.expr o.expr).isColumnReference = true) :
    transformOrder t os = pure os := by
  rw [transformOrder_eq_mapM, mapM_eq_pure_map (g := id), List.map_id]
  intro o ho
  rw [Expr.transform_reference ht (h o ho), pure_bind]
  cases o
  rfl

/-- Whether a value can be NULL is known before its parts are transformed. -/
theorem Expr.transform_bind_canBeNull {α : Type} (e : Expr) (k : Bool → Expr → m α) :
    (e.transform t >>= fun e' => k e'.canBeNull e') = e.transform t >>= k e.canBeNull := by
  cases e <;> simp only [transform, ht, bind_assoc, pure_bind, canBeNull]

theorem Expr.transform_operation (op : Operator) (l r : Expr) (ty : DataType) :
    (operation op l r ty).transform t = l.transform t >>= fun l' => r.transform t >>= fun r' =>
      pure (operation op l' r' ty) := by
  simp only [operation, transform, ht]
  rw [← transform_bind_canBeNull ht l fun n l' => r.transform t >>= fun r' =>
    pure (binary op l' r' op.precedence ty (n || r.canBeNull))]
  exact bind_congr fun l' => (transform_bind_canBeNull ht r fun n r' =>
    pure (binary op l' r' op.precedence ty (l'.canBeNull || n))).symm

theorem transformOptional_conjoin (o : Option Expr) (e : Expr) :
    transformOptional t (conjoin o e) = transformOptional t o >>= fun o' =>
      e.transform t >>= fun e' => pure (conjoin o' e') := by
  cases o with
  | none => simp [conjoin, transformOptional]
  | some old => simp [conjoin, transformOptional, Expr.and, Expr.transform_operation ht]

theorem transformOptional_conjunction (es : List Expr) (o : Option Expr) :
    transformOptional t (es.foldl conjoin o) = transformOptional t o >>= fun o' =>
      transformExprs t es >>= fun es' => pure (es'.foldl conjoin o') := by
  induction es generalizing o with
  | nil => simp [transformExprs]
  | cons e es ih => simp [ih, transformOptional_conjoin ht, transformExprs]

theorem transform_rowNumber (os : List OrderItem) :
    (rowNumber os).transform t = transformOrder t os >>= fun os' => pure (rowNumber os') := by
  simp only [rowNumber, Expr.transform, ht]
  exact (transformOrder_bind (fun i desc => orderPlace i { expr := .int 0, desc }) os
    fun places args => pure (Expr.raw
      ("ROW_NUMBER() OVER (ORDER BY " ++ ", ".intercalate places ++ ")") Precedence.primary args
      .int64)).symm

theorem Query.descend_page {id : QueryId} {columns : List Column} {inner : Query}
    {source : SourceId} {bounds : List Expr} {number : Expr}
    (hcolumns : ∀ c ∈ columns, (Node.expr c.expr).isColumnReference = true)
    (hnumber : (Node.expr number).isColumnReference = true) :
    (page id columns inner source bounds number).descend t = inner.transform t >>= fun inner' =>
      transformExprs t bounds >>= fun bounds' =>
        pure (page id columns inner' source bounds' number) := by
  have horder : transformOrder t [{ expr := number }] = pure [{ expr := number }] :=
    transformOrder_references ht (by simpa using hnumber)
  simp [page_eq, descend, QueryParts.rebuild, QueryParts.transformed,
    transformColumns_references ht hcolumns, horder, transformOptional_conjunction ht,
    transformOptional, transformSources, Source.transform, Origin.transform, transformJoins,
    transformExprs]

end Parts

/-! The first pass. -/

theorem Query.descend_orderByColumns {q : Query} (horder : q.orderBy = [])
    {keys : List Expr} (hkeys : ∀ e ∈ keys, (Node.expr e).isColumnReference = true) :
    (q.orderByColumns keys).descend .correctPagination =
      q.descend .correctPagination >>= fun r => pure (r.orderByColumns keys) := by
  have hkeyColumns : transformColumns .correctPagination (keys.map fun e => { expr := e }) =
      pure (keys.map fun e => { expr := e }) :=
    transformColumns_references (fun _ => rfl) (List.forall_mem_map.2 hkeys)
  unfold descend QueryParts.rebuild QueryParts.transformed orderByColumns
  simp only [transformColumns_append, transformOrder_columns, hkeyColumns, horder, transformOrder]
  -- The columns are transformed again in the ordering, with the same result.
  cases hcolumns : transformColumns .correctPagination q.columns with
  | error e => rfl
  | ok cs =>
    have hpure : (Except.ok cs : Except Error (List Column)) = pure cs := rfl
    simp only [hpure, pure_bind, bind_assoc]

/-- What becomes of a query before the walk goes on into its clauses. -/
theorem Query.atQuery_correctPagination (q : Query) :
    Transform.correctPagination.atQuery q =
      if q.lacksOrdering then
        if q.columns.isEmpty && q.orderKeys.isEmpty then throw (.missingOrdering q.id)
        else pure (q.orderByColumns q.orderKeys)
      else pure q := by
  change q.correctPagination _ = _
  unfold correctPagination
  rw [QueryParts.rebuild_unchanged]
  rfl

theorem Transform.topDown_correctPagination : Transform.correctPagination.TopDown where
  expr _ := rfl
  query q := by
    rw [Query.atQuery_correctPagination]
    change q.correctPagination _ = _
    unfold Query.correctPagination
    cases hlacks : q.lacksOrdering with
    | false =>
      simp only [Bool.false_eq_true, if_false, pure_bind]
      rfl
    | true =>
      simp only [if_true]
      split
      · rfl
      · exact (Query.descend_orderByColumns (Query.orderBy_eq_nil hlacks)
          q.reference_of_mem_orderKeys).symm

/-! Pagination by row numbers. -/

namespace Query

theorem transform_emulatePagination {q : Query} (hskip : q.hasSkip = false) :
    q.transform .emulatePagination = q.descend .emulatePagination := by
  rw [Query.transform_eq]
  change q.emulatePagination _ = _
  simp only [emulatePagination, hskip, Bool.not_false, if_true]
  rfl

theorem atQuery_emulatePagination {q : Query} (hskip : q.hasSkip = false) :
    Transform.emulatePagination.atQuery q = pure q := by
  change q.emulatePagination _ = _
  simp only [emulatePagination, hskip, Bool.not_false, if_true, QueryParts.rebuild_unchanged]

theorem references_refColumns (q : Query) (id : QueryId) :
    ∀ c ∈ q.refColumns id, (Node.expr c.expr).isColumnReference = true :=
  q.forall_mem_refColumns (E := fun e => (Node.expr e).isColumnReference = true) fun _ _ _ => rfl

theorem reference_rowNumberRef (id : QueryId) (width : Nat) :
    (Node.expr (rowNumberRef id width)).isColumnReference = true :=
  rfl

end Query

/-- The query under the id `id`, without its bounds and its ordering. -/
def Query.unbounded (q : Query) (id : QueryId) : Query where
  id := id
  columns := q.columns
  distinct := q.distinct
  sources := q.sources
  filter := q.filter
  groupBy := q.groupBy
  having := q.having

namespace QueryParts

variable (q : Query) (id : QueryId)

theorem rows_unchanged : (unchanged q).rows { q with id } = pure (q.unbounded id) := by
  simp [rows, unchanged, Query.unbounded]

theorem rows_transformed : (transformed .emulatePagination q).rows { q with id } =
    (q.unbounded id).transform .emulatePagination := by
  rw [Query.transform_emulatePagination rfl]
  simp [rows, transformed, Query.descend, rebuild, Query.unbounded, transformOptional,
    transformOrder]

theorem numberedRows_unchanged : (unchanged q).numberedRows { q with id } =
    pure ((q.unbounded id).numbered q.orderBy) := by
  simp [numberedRows, unchanged, Query.unbounded]

theorem numberedRows_transformed : (transformed .emulatePagination q).numberedRows { q with id } =
    ((q.unbounded id).numbered q.orderBy).transform .emulatePagination := by
  rw [Query.transform_emulatePagination rfl]
  simp [numberedRows, transformed, Query.descend, rebuild, Query.unbounded, Query.numbered,
    transformOptional, transformOrder, transformColumns_append, transformColumns, Column.transform,
    transform_rowNumber (t := .emulatePagination) fun _ => rfl]

/-- The bounds as they stand, and with the bounds of the query transformed. -/
theorem exists_bounds {q : Query} (hskip : q.hasSkip = true) {number : Expr}
    (hnumber : (Node.expr number).isColumnReference = true) :
    ∃ bs, (unchanged q).bounds q number = pure bs ∧
      (transformed .emulatePagination q).bounds q number =
        transformExprs .emulatePagination bs := by
  have hpure : ∀ e, Transform.emulatePagination.expr e = pure e := fun _ => rfl
  obtain ⟨skip, hskip⟩ := Option.isSome_iff_exists.1 hskip
  cases htake : q.take with
  | none =>
    refine ⟨[.operation .greater number skip .boolean], ?_, ?_⟩
    · simp [bounds, unchanged, hskip, htake]
    · simp [bounds, transformed, hskip, htake, transformOptional, transformExprs,
        Expr.transform_operation hpure, Expr.transform_reference hpure hnumber]
  | some take =>
    refine ⟨[.operation .greater number skip .boolean, .operation .lessOrEqual number
      (.operation .add skip take .int64) .boolean], ?_, ?_⟩
    · simp [bounds, unchanged, hskip, htake]
    · simp [bounds, transformed, hskip, htake, transformOptional, transformExprs,
        Expr.transform_operation hpure, Expr.transform_reference hpure hnumber]

end QueryParts

theorem Query.transform_numbered_ofRows {columns : List Column} {order : List OrderItem}
    (hcolumns : ∀ c ∈ columns, (Node.expr c.expr).isColumnReference = true)
    (horder : ∀ o ∈ order, (Node.expr o.expr).isColumnReference = true) (id : QueryId)
    (source : SourceId) (rows : Query) :
    let inner (rows : Query) : Query := {
      id, columns
      sources := [{ id := source, origin := .query rows, aliasName := some distinctAlias }] }
    ((inner rows).numbered order).transform .emulatePagination =
      rows.transform .emulatePagination >>= fun rows' => pure ((inner rows').numbered order) := by
  intro inner
  rw [transform_emulatePagination rfl]
  have hpure : ∀ e, Transform.emulatePagination.expr e = pure e := fun _ => rfl
  simp [inner, descend, QueryParts.rebuild, QueryParts.transformed, numbered,
    transformColumns_append, transformColumns_references hpure hcolumns, transformColumns,
    Column.transform, transform_rowNumber hpure, transformOrder_references hpure horder,
    transformOptional, transformSources, Source.transform, Origin.transform, transformJoins,
    transformExprs, transformOrder]

theorem Query.reference_of_mem_refOrder? {q : Query} {id : QueryId} {order : List OrderItem}
    (h : q.refOrder? id = some order) :
    ∀ o ∈ order, (Node.expr o.expr).isColumnReference = true :=
  forall_mem_refersTo (E := fun e => (Node.expr e).isColumnReference = true)
    (refersTo_of_refOrder? h) fun _ _ _ => rfl

theorem Transform.topDown_emulatePagination : Transform.emulatePagination.TopDown where
  expr _ := rfl
  query q := by
    change q.emulatePagination _ = q.emulatePagination _ >>= _
    unfold Query.emulatePagination
    cases hskip : q.hasSkip with
    | false =>
      simp only [Bool.not_false, if_true, QueryParts.rebuild_unchanged, pure_bind]
      rfl
    | true =>
      simp only [Bool.not_true, Bool.false_eq_true, if_false]
      by_cases horder : q.orderBy.isEmpty = true
      case pos =>
        simp only [if_pos horder]
        rfl
      case neg =>
        simp only [if_neg horder]
        by_cases hdistinct : q.distinct = true
        case neg =>
          simp only [if_neg hdistinct, bind_assoc, pure_bind]
          refine bind_congr fun innerId => bind_congr fun source => ?_
          obtain ⟨bs, hunchanged, htransformed⟩ :=
            QueryParts.exists_bounds hskip (Query.reference_rowNumberRef innerId q.columns.length)
          simp only [QueryParts.numberedRows_unchanged, QueryParts.numberedRows_transformed,
            hunchanged, htransformed, pure_bind]
          exact (Query.descend_page (fun _ => rfl) (q.references_refColumns innerId) rfl).symm
        case pos =>
          simp only [if_pos hdistinct, bind_assoc]
          refine bind_congr fun rowsId => ?_
          cases hrefs : q.refOrder? rowsId with
          | none => rfl
          | some order =>
            simp only [bind_assoc, pure_bind]
            refine bind_congr fun rowsSource => bind_congr fun innerId => ?_
            refine bind_congr fun source => ?_
            obtain ⟨bs, hunchanged, htransformed⟩ :=
              QueryParts.exists_bounds hskip (Query.reference_rowNumberRef innerId q.columns.length)
            simp only [QueryParts.rows_unchanged, QueryParts.rows_transformed, hunchanged,
              htransformed, pure_bind]
            rw [Query.descend_page (fun _ => rfl) (q.references_refColumns innerId) rfl,
              Query.transform_numbered_ofRows (q.references_refColumns rowsId)
                (Query.reference_of_mem_refOrder? hrefs)]
            simp only [bind_assoc, pure_bind]

/-! Calls that end. -/

theorem Numbering.run_liftM {α : Type} (x : Except Error α) (ids : Ids) :
    (liftM x : Numbering α).run ids = x.map (·, ids) := by
  cases x <;> rfl

theorem Numbering.eq_ok_of_run_liftM {α : Type} {x : Except Error α} {a : α} {ids ids' : Ids}
    (h : (liftM x : Numbering α).run ids = .ok (a, ids')) : x = .ok a := by
  rw [run_liftM] at h
  cases x with
  | error e => cases h
  | ok b =>
    cases h
    rfl

section Calls

variable (P : Query → Prop)

/-- If the queries of the first expression have the property, those of the second one have it. -/
def Expr.Passes (e e' : Expr) : Prop := e.EachQuery P → e'.EachQuery P

def Source.Passes (s s' : Source) : Prop := s.EachQuery P → s'.EachQuery P

variable {P}

theorem QueryParts.passes_unchanged {m : Type → Type} [Monad m] (O : Outcome m) (q : Query) :
    (unchanged q).Yield O (Expr.Passes P) (Source.Passes P) q :=
  have hexpr : ∀ e, Expr.Passes P e e := fun _ he => he
  { columns := O.pure (List.forall₂_same.2 fun c _ => ⟨hexpr c.expr, rfl⟩)
    skip := O.pure (rel_self hexpr q.skip)
    take := O.pure (rel_self hexpr q.take)
    sources := O.pure (List.forall₂_same.2 fun _ _ hs => hs)
    filter := O.pure (rel_self hexpr q.filter)
    groupBy := O.pure (List.forall₂_same.2 fun e _ => hexpr e)
    having := O.pure (rel_self hexpr q.having)
    orderBy := O.pure (List.forall₂_same.2 fun o _ => ⟨hexpr o.expr, rfl⟩) }

theorem Query.Aligned.eachBelow {q q' : Query} (h : q.Aligned (Expr.Passes P) (Source.Passes P) q')
    (hq : q.EachBelow P) : q'.EachBelow P :=
  h.leads (fun _ _ he => he) (fun _ _ hs => hs) hq

namespace Query

/-- Of the query that the first pass makes, the queries below are those of the query before. -/
theorem eachBelow_correctPagination {q r : Query} (hq : q.EachBelow P)
    (hr : Transform.correctPagination.atQuery q = .ok r) : r.EachBelow P := by
  rw [atQuery_correctPagination] at hr
  split at hr
  · split at hr
    · cases hr
    · cases hr
      exact each_orderByColumns hq (q.all_orderKeys (Node.IfQuery.selective P))
  · cases hr
    exact hq

theorem eachBelow_numbered {q : Query} {order : List OrderItem} (hq : q.EachBelow P)
    (horder : ∀ o ∈ order, o.expr.EachQuery P) : (q.numbered order).EachBelow P := by
  refine each_numbered hq ?_
  rw [rowNumber, Expr.eachQuery_raw]
  exact List.forall_mem_map.2 horder

theorem eachQuery_derived {id : SourceId} {q : Query} {a : Option String} (h : P q)
    (hq : q.EachBelow P) : Source.EachQuery P { id, origin := .query q, aliasName := a } :=
  (Node.IfQuery.selective P).all_derived.2 ((eachQuery_iff q).2 ⟨h, hq⟩)

theorem eachQuery_refColumns (q : Query) (id : QueryId) :
    ∀ c ∈ q.refColumns id, c.expr.EachQuery P :=
  q.forall_mem_refColumns fun c _ _ => Expr.eachQuery_column c

theorem eachBelow_page {q inner : Query} {id : QueryId} {source : SourceId} {bounds : List Expr}
    (h : P inner) (hinner : inner.EachBelow P) (hq : q.EachBelow P)
    (hbounds : q.Bounded (Expr.Passes P) (rowNumberRef id q.columns.length) bounds) :
    (page q.id (q.refColumns id) inner source bounds
      (rowNumberRef id q.columns.length)).EachBelow P := by
  have hoperation : ∀ op l r t, Expr.EachQuery P l → Expr.EachQuery P r →
      Expr.EachQuery P (.operation op l r t) :=
    fun op l r t hl hr => (Expr.eachQuery_operation op l r t).2 ⟨hl, hr⟩
  have hnumber : Expr.EachQuery P (rowNumberRef id q.columns.length) := Expr.eachQuery_column _
  refine each_page (q.eachQuery_refColumns id) (eachQuery_derived h hinner) ?_
    (fun l r => hoperation .and l r .boolean) hnumber
  exact hbounds.forall_mem hoperation hnumber (fun e he _ hpasses => hpasses (hq.skip e he))
    fun e he _ hpasses => hpasses (hq.take e he)

/-- Of the query that row numbers make, the queries below are those of the query before and new ones
that skip no rows. -/
theorem eachBelow_emulatePagination {q r : Query} {ids ids' : Ids}
    (hnew : ∀ q : Query, q.hasSkip = false → q.EachBelow P → P q) (hq : q.EachBelow P)
    (hr : (Transform.emulatePagination.atQuery q).run ids = .ok (r, ids')) : r.EachBelow P := by
  obtain ⟨-, hshape⟩ := holds_emulatePagination (QueryParts.passes_unchanged _ q) ids r ids'
    (Ids.le_refl ids) hr
  cases hshape with
  | rebuilt _ h => exact h.eachBelow hq
  | @numbered inner order _ _ _ _ _ _ hplain hclauses hbounds =>
    have hrows : Query.EachBelow P { inner with orderBy := order } :=
      hclauses.eachBelow { hq with skip := by simp, take := by simp }
    have hinner : inner.EachBelow P := { hrows with orderBy := by simp [hplain.orderBy] }
    have hnumbered := eachBelow_numbered hinner hrows.orderBy
    have hskip : (inner.numbered order).hasSkip = false := by simp [numbered, hasSkip, hplain.skip]
    exact eachBelow_page (hnew _ hskip hnumbered) hnumbered hq hbounds
  | @distinct rows order innerId rowsSource _ _ _ _ _ _ _ _ horder hclauses hbounds =>
    have hrows : rows.EachBelow P :=
      hclauses.eachBelow { hq with skip := by simp, take := by simp, orderBy := by simp }
    have hskip : rows.hasSkip = false := by simp [hasSkip, rel_isSome hclauses.skip]
    have hordered : ∀ o ∈ order, o.expr.EachQuery P :=
      forall_mem_refersTo horder fun c _ _ => Expr.eachQuery_column c
    have hinner : (q.ofRows rows innerId rowsSource).EachBelow P :=
      each_ofRows (q.eachQuery_refColumns rows.id) (eachQuery_derived (hnew rows hskip hrows) hrows)
    have hnumbered := eachBelow_numbered hinner hordered
    exact eachBelow_page (hnew _ rfl hnumbered) hnumbered hq hbounds

/-- A call of the first pass leads to calls with queries that lie below its own. -/
theorem wellFounded_correctPagination :
    WellFounded (CalledFor fun q => liftM (Transform.correctPagination.atQuery q)) := by
  refine ⟨belowInduction fun q hq => acc_calledFor fun ids r ids' hrun => ?_⟩
  exact eachBelow_correctPagination hq (Numbering.eq_ok_of_run_liftM hrun)

/-- A call leads to calls with queries below and with new queries. The hook returns these as they
are, for they skip no rows. -/
theorem wellFounded_emulatePagination :
    WellFounded (CalledFor Transform.emulatePagination.atQuery) := by
  have hnew : ∀ q : Query, q.hasSkip = false →
      q.EachBelow (Acc (CalledFor Transform.emulatePagination.atQuery)) →
      Acc (CalledFor Transform.emulatePagination.atQuery) q := by
    intro q hskip hq
    refine acc_calledFor fun ids r ids' hrun => ?_
    rw [atQuery_emulatePagination hskip] at hrun
    cases hrun
    exact hq
  refine ⟨belowInduction fun q hq => acc_calledFor fun ids r ids' hrun => ?_⟩
  exact eachBelow_emulatePagination hnew hq hrun

end Query

end Calls

/-! The walks. -/

namespace Statement

theorem walked_correctPagination (s : Statement) :
    ∃ calls bound, ∀ limit, bound ≤ limit →
      s.walked (fun q => liftM (Transform.correctPagination.atQuery q)) limit =
        (s.correctPagination, calls) := by
  obtain ⟨calls, bound, h⟩ :=
    Transform.topDown_correctPagination.onStatement Query.wellFounded_correctPagination s
  refine ⟨calls, bound, fun limit hlimit => ?_⟩
  rw [h limit hlimit, StateT.run'_eq, Numbering.run_liftM]
  unfold correctPagination
  cases s.transform .correctPagination <;> rfl

theorem walked_emulatePagination (s : Statement) :
    ∃ calls bound, ∀ limit, bound ≤ limit →
      s.walked Transform.emulatePagination.atQuery limit = (s.emulatePagination, calls) :=
  Transform.topDown_emulatePagination.onStatement Query.wellFounded_emulatePagination s

/-- The calls of `f` in a walk over a statement are well-founded. The walk returns what `pass`
returns, after the same calls whatever the limit from some limit on. -/
structure WalkEnds (f : Query → Numbering Query) (pass : Statement → Except Error Statement) :
    Prop where
  calls : WellFounded (Query.CalledFor f)
  result : ∀ s : Statement, ∃ calls bound, ∀ limit, bound ≤ limit →
    s.walked f limit = (pass s, calls)

/-- The walks from the top down that give queries an ordering and express their bounds by row
numbers end, also if they fail, with the results of the passes. -/
theorem walkEnds_pagination :
    WalkEnds (fun q => liftM (Transform.correctPagination.atQuery q)) correctPagination ∧
      WalkEnds Transform.emulatePagination.atQuery emulatePagination :=
  ⟨⟨Query.wellFounded_correctPagination, walked_correctPagination⟩,
    ⟨Query.wellFounded_emulatePagination, walked_emulatePagination⟩⟩

end Statement

end SqlTree

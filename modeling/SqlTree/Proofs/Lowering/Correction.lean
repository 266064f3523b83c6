import SqlTree.Proofs.Key
import SqlTree.Proofs.Lowering.Descent

/-! # Orderings that were missing

The pass that adds orderings changes a statement at the queries that skip rows in no stated order
and nowhere else. This is said of two statements by a relation between their parts, with a rule for
each kind of node, and the second statement is the result of the pass if and only if there is such a
relation. In particular the ordering and the columns of a query are corrected alike, although they
are separate copies when the walk enters them.

Main definitions:

* `Query.OrderingColumns`: the columns that a query is ordered by.
* `Query.Corrected`: what becomes of a query.
* `Statement.Corrected`: what becomes of a statement.

Main statements:

* `Query.corrected_iff`: the rule for queries, in terms of the pass.
* `correction_correctsTo`, `Correction.closed`: the pass is such a relation, and the only one.
* `Statement.correctPagination_eq_ok_iff`: the results of the pass.
-/

namespace SqlTree

/-! What the pass does to a query. -/

section Corrected

variable (RE : Expr → Expr → Prop) (RQ : Query → Query → Prop) (RS : Source → Source → Prop)

/-- The columns of a query to be ordered by its columns: those that it has, or else the key of its
first source as the query stands. -/
inductive Query.OrderingColumns (q : Query) : List Column → Prop
  | existing {columns : List Column} (hne : q.columns ≠ [])
      (h : List.Forall₂ (fun c c' => RE c.expr c'.expr ∧ c'.aliasName = c.aliasName) q.columns
        columns) : OrderingColumns q columns
  | keys {s : Source} {rest : List Source} {es : List Expr} (hnone : q.columns = [])
      (hsources : q.sources = s :: rest) (hkey : s.IsKey es) (hne : es ≠ []) :
      OrderingColumns q (es.map fun e => { expr := e, aliasName := none })

/-- What becomes of a query. One that skips rows in no stated order is ordered by its columns, each
in ascending order, and its other clauses stay as they are but for corrections below. -/
inductive Query.Corrected (q q' : Query) : Prop
  | kept (h : q.skip = none ∨ q.orderBy ≠ []) (hclauses : q.Aligned RE RS q')
  | ordered (hskip : q.skip ≠ none) (horder : q.orderBy = [])
      (hcolumns : q.OrderingColumns RE q'.columns)
      (horderBy : q'.orderBy = q'.columns.map fun c => { expr := c.expr, desc := false })
      (hclauses : Query.Aligned RE RS { q with columns := [] }
        { q' with columns := [], orderBy := [] })

/-- Relations between the parts of two trees that differ only by orderings where they were missing:
related expressions and sources have the same form and related parts. -/
structure Correction : Prop where
  expr : ∀ e e', RE e e' → e.Aligned RE RQ e'
  query : ∀ q q', RQ q q' → q.Corrected RE RS q'
  source : ∀ s s', RS s s' → s.Aligned RE RQ RS s'

end Corrected

/-- The second statement is the first one with an ordering for each query that skips rows in no
stated order, at all depths, and no other change. -/
def Statement.Corrected (s s' : Statement) : Prop :=
  ∃ RE RQ RS, Correction RE RQ RS ∧ s.Aligned RE RQ RS s'

variable {RE : Expr → Expr → Prop} {RQ : Query → Query → Prop} {RS : Source → Source → Prop}

namespace Query

theorem lacksOrdering_iff {q : Query} :
    q.lacksOrdering = true ↔ q.skip ≠ none ∧ q.orderBy = [] := by
  simp [lacksOrdering, hasSkip, Option.isSome_iff_ne_none]

theorem orderKeys_of_columns {q : Query} (h : q.columns ≠ []) : q.orderKeys = [] := by
  simp [orderKeys, h]

theorem orderKeys_of_sources {q : Query} (h : q.columns = []) {s : Source} {rest : List Source}
    (hsources : q.sources = s :: rest) : q.orderKeys = s.keyExprs := by
  simp [orderKeys, h, hsources]

theorem orderingColumns_orderKeys {q r : Query} (h : q.Aligned RE RS r)
    (hkeys : q.columns = [] → q.orderKeys ≠ []) :
    q.OrderingColumns RE (r.orderByColumns q.orderKeys).columns := by
  by_cases hnone : q.columns = []
  case neg =>
    have hcolumns : (r.orderByColumns q.orderKeys).columns = r.columns := by
      simp [orderByColumns, orderKeys_of_columns hnone]
    rw [hcolumns]
    exact .existing hnone h.columns
  case pos =>
    have hcolumns : r.columns = [] := by
      have hforall := h.columns
      rwa [hnone, List.forall₂_nil_left_iff] at hforall
    have hne := hkeys hnone
    cases hsources : q.sources with
    | nil => simp [orderKeys, hnone, hsources] at hne
    | cons s rest =>
      rw [orderKeys_of_sources hnone hsources] at hne ⊢
      have hprojected : (r.orderByColumns s.keyExprs).columns =
          s.keyExprs.map fun e => { expr := e, aliasName := none } := by
        simp [orderByColumns, hcolumns]
      rw [hprojected]
      exact .keys hnone hsources (Source.isKey_iff.2 rfl) hne

/-- A query in the order of its columns, of which the last ones are keys. -/
theorem eq_orderByColumns {q : Query} {columns : List Column} {keys : List Expr}
    (hcolumns : q.columns = columns ++ keys.map fun e => { expr := e })
    (horderBy : q.orderBy = q.columns.map fun c => { expr := c.expr }) :
    q = orderByColumns { q with columns, orderBy := [] } keys := by
  cases q
  simp_all [orderByColumns]

theorem corrected_iff {q q' : Query} : q.Corrected RE RS q' ↔ q.OrderedAs RE RS q' := by
  constructor
  · rintro (⟨hkept, hclauses⟩ | ⟨hskip, horder, hcolumns, horderBy, hclauses⟩)
    · refine .rebuilt ?_ hclauses
      rw [← Bool.not_eq_true, lacksOrdering_iff]
      rintro ⟨hskip, horder⟩
      exact hkept.elim hskip fun hne => hne horder
    · have hlacks := lacksOrdering_iff.2 ⟨hskip, horder⟩
      generalize hcs : q'.columns = columns at hcolumns
      cases hcolumns with
      | existing hne hcolumns =>
        have hq' : q' = orderByColumns { q' with columns, orderBy := [] } q.orderKeys :=
          eq_orderByColumns (by simp [hcs, orderKeys_of_columns hne]) horderBy
        rw [hq']
        refine .byColumns hlacks (fun hnone => absurd hnone hne) ?_
        exact { hclauses with columns := hcolumns }
      | keys hnone hsources hkey hne =>
        have hkeys := orderKeys_of_sources hnone hsources
        rw [← Source.isKey_iff.1 hkey] at hkeys
        have hq' : q' = orderByColumns { q' with columns := [], orderBy := [] } q.orderKeys :=
          eq_orderByColumns (by simp [hcs, hkeys]) horderBy
        rw [hq']
        refine .byColumns hlacks (fun _ => hkeys ▸ hne) ?_
        exact { hclauses with columns := by simp [hnone] }
  · intro h
    cases h with
    | rebuilt hlacks h =>
      refine .kept ?_ h
      have hlacks : ¬ (q.skip ≠ none ∧ q.orderBy = []) := by
        simpa [← lacksOrdering_iff] using hlacks
      by_cases horder : q.orderBy = []
      · exact .inl (Decidable.not_not.1 fun hskip => hlacks ⟨hskip, horder⟩)
      · exact .inr horder
    | @byColumns r hlacks hkeys h =>
      obtain ⟨hskip, horder⟩ := lacksOrdering_iff.1 hlacks
      refine .ordered hskip horder (orderingColumns_orderKeys h hkeys) rfl ?_
      exact { h with columns := .nil, orderBy := by simp [horder] }

end Query

/-! The pass node by node. -/

theorem Query.OrderedAs.imp {RE' : Expr → Expr → Prop} {RS' : Source → Source → Prop}
    {q q' : Query} (h : q.OrderedAs RE RS q')
    (himp : q.Each (fun e => ∀ e', RE e e' → RE' e e') (fun s => ∀ s', RS s s' → RS' s s')) :
    q.OrderedAs RE' RS' q' := by
  cases h with
  | rebuilt hlacks h => exact .rebuilt hlacks (h.imp himp)
  | byColumns hlacks hkeys h => exact .byColumns hlacks hkeys (h.imp himp)

theorem mapM_eq_ok {ε α β : Type} {k : α → Except ε β} {xs : List α} {ys : List β}
    (h : List.Forall₂ (fun x y => k x = .ok y) xs ys) : xs.mapM k = .ok ys := by
  induction h with
  | nil => rfl
  | cons hx _ ih =>
    rw [List.mapM_cons, hx, ih]
    rfl

/-- What the pass makes of an expression. -/
def Expr.CorrectsTo (e e' : Expr) : Prop := e.transform .correctPagination = .ok e'

def Query.CorrectsTo (q q' : Query) : Prop := q.transform .correctPagination = .ok q'

def Source.CorrectsTo (s s' : Source) : Prop := s.transform .correctPagination = .ok s'

theorem transformOptional_eq_ok {o o' : Option Expr} (h : Option.Rel Expr.CorrectsTo o o') :
    transformOptional .correctPagination o = .ok o' := by
  cases h with
  | none => rfl
  | some h =>
    rw [transformOptional, h]
    rfl

theorem transformExprs_eq_ok {es es' : List Expr} (h : List.Forall₂ Expr.CorrectsTo es es') :
    transformExprs .correctPagination es = .ok es' := by
  rw [transformExprs_eq_mapM]
  exact mapM_eq_ok h

theorem Expr.Aligned.correctsTo {e e' : Expr}
    (h : e.Aligned Expr.CorrectsTo Query.CorrectsTo e') : e.CorrectsTo e' := by
  unfold Expr.CorrectsTo
  cases h with
  | call name t flags hargs =>
    rw [Expr.transform, transformExprs_eq_ok hargs]
    rfl
  | binary op p t n hl hr =>
    rw [Expr.transform, hl, hr]
    rfl
  | raw format p t hargs =>
    rw [Expr.transform, transformExprs_eq_ok hargs]
    rfl
  | subquery hq =>
    rw [Expr.transform, hq]
    rfl
  | existsRow hq =>
    rw [Expr.transform, hq]
    rfl
  | _ => rfl

theorem transformColumns_eq_ok {cs cs' : List Column}
    (h : List.Forall₂ (fun c c' => c.expr.CorrectsTo c'.expr ∧ c'.aliasName = c.aliasName) cs
      cs') : transformColumns .correctPagination cs = .ok cs' := by
  rw [transformColumns_eq_mapM]
  refine mapM_eq_ok (h.imp ?_)
  rintro c ⟨expr, aliasName⟩ ⟨hexpr, rfl⟩
  rw [hexpr]
  rfl

theorem transformOrder_eq_ok {os os' : List OrderItem}
    (h : List.Forall₂ (fun o o' => o.expr.CorrectsTo o'.expr ∧ o'.desc = o.desc) os os') :
    transformOrder .correctPagination os = .ok os' := by
  rw [transformOrder_eq_mapM]
  refine mapM_eq_ok (h.imp ?_)
  rintro o ⟨expr, desc⟩ ⟨hexpr, rfl⟩
  rw [hexpr]
  rfl

theorem Query.Aligned.descend_eq_ok {q q' : Query}
    (h : q.Aligned Expr.CorrectsTo Source.CorrectsTo q') :
    q.descend .correctPagination = .ok q' := by
  have hsources : transformSources .correctPagination q.sources = .ok q'.sources := by
    rw [transformSources_eq_mapM]
    exact mapM_eq_ok h.sources
  unfold descend QueryParts.rebuild QueryParts.transformed
  rw [transformColumns_eq_ok h.columns, transformOptional_eq_ok h.skip,
    transformOptional_eq_ok h.take, hsources, transformOptional_eq_ok h.filter,
    transformExprs_eq_ok h.groupBy, transformOptional_eq_ok h.having,
    transformOrder_eq_ok h.orderBy, ← h.id, ← h.distinct]
  cases q'
  rfl

theorem Query.OrderedAs.correctsTo {q q' : Query}
    (h : q.OrderedAs Expr.CorrectsTo Source.CorrectsTo q') : q.CorrectsTo q' := by
  have hquery : q.transform .correctPagination =
      q.correctPagination (.transformed .correctPagination q) := q.transform_eq _
  unfold Query.CorrectsTo
  rw [hquery, correctPagination]
  cases h with
  | rebuilt hlacks h =>
    rw [hlacks, if_neg Bool.false_ne_true]
    exact h.descend_eq_ok
  | @byColumns r hlacks hkeys h =>
    have hsome : ¬ (q.columns.isEmpty && q.orderKeys.isEmpty) = true := by
      simpa using hkeys
    have hrebuild : (QueryParts.transformed .correctPagination q).rebuild q = .ok r :=
      h.descend_eq_ok
    rw [if_pos hlacks]
    simp only [if_neg hsome, hrebuild]
    rfl

theorem Source.Aligned.correctsTo {s s' : Source}
    (h : s.Aligned Expr.CorrectsTo Query.CorrectsTo Source.CorrectsTo s') : s.CorrectsTo s' := by
  have horigin : s.origin.transform .correctPagination = .ok s'.origin := by
    have horigin := h.origin
    generalize s.origin = origin, s'.origin = origin' at horigin
    cases horigin with
    | table t => rfl
    | query hq =>
      rw [Origin.transform, hq]
      rfl
  have hjoins : transformJoins .correctPagination s.joins = .ok s'.joins := by
    rw [transformJoins_eq_mapM]
    refine mapM_eq_ok (h.joins.imp ?_)
    rintro j ⟨kind, source, condition⟩ ⟨rfl, hsource, hcondition⟩
    rw [hsource, transformOptional_eq_ok hcondition]
    rfl
  unfold Source.CorrectsTo
  rw [Source.transform_eq, horigin, hjoins, ← h.id, ← h.aliasName]
  cases s'
  rfl

theorem SetItem.mapM_transform_eq_ok {items items' : List SetItem}
    (h : List.Forall₂ (SetItem.Aligned Expr.CorrectsTo) items items') :
    items.mapM (SetItem.transform .correctPagination) = .ok items' := by
  refine mapM_eq_ok (h.imp ?_)
  rintro i ⟨column, expr⟩ ⟨rfl, hexpr⟩
  rw [SetItem.transform, hexpr]
  rfl

theorem MergeOperation.mapM_transform_eq_ok {operations operations' : List MergeOperation}
    (h : List.Forall₂ (MergeOperation.Aligned Expr.CorrectsTo) operations operations') :
    operations.mapM (MergeOperation.transform .correctPagination) = .ok operations' := by
  refine mapM_eq_ok (h.imp ?_)
  rintro o ⟨kind, condition, items⟩ ⟨rfl, hcondition, hitems⟩
  rw [MergeOperation.transform, transformOptional_eq_ok hcondition,
    SetItem.mapM_transform_eq_ok hitems]
  rfl

theorem Statement.Aligned.correctPagination_eq_ok {s s' : Statement}
    (h : s.Aligned Expr.CorrectsTo Query.CorrectsTo Source.CorrectsTo s') :
    s.correctPagination = .ok s' := by
  unfold Statement.correctPagination
  cases h with
  | select hq =>
    rw [Statement.transform, hq]
    rfl
  | insert into hitems hq =>
    rw [Statement.transform, SetItem.mapM_transform_eq_ok hitems, hq]
    rfl
  | update target hitems hq =>
    rw [Statement.transform, SetItem.mapM_transform_eq_ok hitems, hq]
    rfl
  | delete target hq =>
    rw [Statement.transform, hq]
    rfl
  | merge htarget hq hon hoperations =>
    rw [Statement.transform, htarget, hq, transformOptional_eq_ok hon,
      MergeOperation.mapM_transform_eq_ok hoperations]
    rfl
  | createTable t => rfl
  | dropTable t ifExists => rfl

/-! The pass on whole trees. -/

/-- The results of the pass on the parts of a node make up its result on the node. -/
theorem Transform.yields_correctsTo :
    Transform.correctPagination.Yields (.success Error)
      (Expr.Aligned Expr.CorrectsTo Query.CorrectsTo)
      (Query.OrderedAs Expr.CorrectsTo Source.CorrectsTo)
      (Source.Aligned Expr.CorrectsTo Query.CorrectsTo Source.CorrectsTo) where
  expr h := (Outcome.success Error).pure
    (h.imp (fun _ _ => Expr.Aligned.correctsTo) fun _ _ => Query.OrderedAs.correctsTo)
  query {q p} h := by
    refine (Outcome.success Error).mono (Query.holds_correctPagination h) fun q' hq' => ?_
    exact hq'.imp (.of_forall (fun _ _ => Expr.Aligned.correctsTo)
      (fun _ _ => Source.Aligned.correctsTo) q)
  source {s _} h := h.imp (.of_forall (fun _ _ => Expr.Aligned.correctsTo)
    (fun _ _ => Query.OrderedAs.correctsTo) (fun _ _ => Source.Aligned.correctsTo) s)

theorem correction_correctsTo :
    Correction Expr.CorrectsTo Query.CorrectsTo Source.CorrectsTo where
  expr := Transform.yields_correctsTo.onExpr
  query q q' h := Query.corrected_iff.2 (Transform.yields_correctsTo.onQuery q q' h)
  source := Transform.yields_correctsTo.onSource

namespace Correction

variable (h : Correction RE RQ RS)

include h

/-- What the relations say of a node, the pass does, if it does so of the parts. -/
theorem closed : Tree.Closed (fun e => ∀ e', RE e e' → e.CorrectsTo e')
    (fun q => ∀ q', RQ q q' → q.CorrectsTo q') (fun s => ∀ s', RS s s' → s.CorrectsTo s') where
  value _ _ _ he := by
    cases h.expr _ _ he
    rfl
  parameter _ _ he := by
    cases h.expr _ _ he
    rfl
  field _ _ he := by
    cases h.expr _ _ he
    rfl
  column _ _ he := by
    cases h.expr _ _ he
    rfl
  typeName _ _ he := by
    cases h.expr _ _ he
    rfl
  call name t args flags ih e' he := by
    cases h.expr _ _ he with
    | call _ _ _ hargs =>
      exact Expr.Aligned.correctsTo (.call name t flags (forall₂_imp_of_mem hargs ih))
  raw format p args t ih e' he := by
    cases h.expr _ _ he with
    | raw _ _ _ hargs =>
      exact Expr.Aligned.correctsTo (.raw format p t (forall₂_imp_of_mem hargs ih))
  binary op l r p t n ihl ihr e' he := by
    cases h.expr _ _ he with
    | binary _ _ _ _ hl hr =>
      exact Expr.Aligned.correctsTo (.binary op p t n (ihl _ hl) (ihr _ hr))
  subquery q ih e' he := by
    cases h.expr _ _ he with
    | subquery hq => exact Expr.Aligned.correctsTo (.subquery (ih _ hq))
  existsRow q ih e' he := by
    cases h.expr _ _ he with
    | existsRow hq => exact Expr.Aligned.correctsTo (.existsRow (ih _ hq))
  query q ih q' hq := ((Query.corrected_iff.1 (h.query q q' hq)).imp ih).correctsTo
  source s ih s' hs := ((h.source s s' hs).imp ih).correctsTo

end Correction

/-- The pass succeeds with a statement if and only if this is the given one with the orderings that
were missing. So does the walk that orders a query, with copies of its columns, before it goes on
into the columns and into the copies. -/
theorem Statement.correctPagination_eq_ok_iff (s s' : Statement) :
    (s.correctPagination = .ok s' ↔ s.Corrected s') ∧
      ((∃ calls bound, ∀ limit, bound ≤ limit →
        s.walked (fun q => liftM (Transform.correctPagination.atQuery q)) limit =
          (.ok s', calls)) ↔ s.Corrected s') := by
  have hpass : s.correctPagination = .ok s' ↔ s.Corrected s' := by
    constructor
    · intro h
      have haligned := Transform.yields_correctsTo.onStatement s s' h
      exact ⟨_, _, _, correction_correctsTo, haligned.imp (fun _ _ => Expr.Aligned.correctsTo)
        (fun _ _ => Query.OrderedAs.correctsTo) fun _ _ => Source.Aligned.correctsTo⟩
    · rintro ⟨RE, RQ, RS, hcorrection, haligned⟩
      exact (haligned.imp hcorrection.closed.onExpr hcorrection.closed.onQuery
        hcorrection.closed.onSource).correctPagination_eq_ok
  refine ⟨hpass, Iff.trans ?_ hpass⟩
  obtain ⟨calls, bound, hwalk⟩ := s.walked_correctPagination
  constructor
  · rintro ⟨calls', bound', hwalk'⟩
    have heq := (hwalk (max bound bound') (Nat.le_max_left ..)).symm.trans
      (hwalk' (max bound bound') (Nat.le_max_right ..))
    exact congrArg Prod.fst heq
  · intro hok
    exact ⟨calls, bound, fun limit hlimit => hok ▸ hwalk limit hlimit⟩

namespace Sample

/-- All notes but the first, or how they are read after the pass: by all fields, for the table has
no key. -/
def laterNotes (columns : List Column) (order : List OrderItem) : Query where
  id := ⟨2⟩
  columns := columns
  skip := some (.int 1)
  sources := [{
    id := ⟨2⟩
    origin := .table { name := "notes", fields := [{ name := "text", dataType := .text }] } }]
  orderBy := order

def noteText : Expr := .field { source := ⟨2⟩, name := "text", dataType := .text }

/-- The tasks from the eleventh on, each with a note. -/
def laterTasks (note : Query) (order : List OrderItem) : Query where
  id := ⟨1⟩
  columns := [{ expr := .subquery note, aliasName := some "note" }]
  skip := some (.int 10)
  sources := [{ id := ⟨1⟩, origin := .table { name := "tasks" } }]
  orderBy := order

-- The subquery is corrected where it is projected and where it is ordered by.
example :
    let note := laterNotes [{ expr := noteText }] [{ expr := noteText }]
    (Statement.select (laterTasks (laterNotes [] []) [])).correctPagination =
      .ok (.select (laterTasks note [{ expr := .subquery note }])) :=
  rfl

end Sample

end SqlTree

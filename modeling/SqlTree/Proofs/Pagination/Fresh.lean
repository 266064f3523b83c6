import SqlTree.Proofs.Declared
import SqlTree.Proofs.Pagination.Queries

/-! # The ids of pages

Pagination by row numbers takes ids for the queries and sources that it adds, and it moves the
clauses of a query to another place. It is followed one id at a time: each time that the id comes up
in the result is paid for by a place where it stood before, or by the one time that it is taken.

Main definitions:

* `Numbering.Takes`: what a result and the number of times that an id is taken satisfy.
* `Numbering.Declares`: the id comes up no more often than before, but for the times it is taken.
* `Query.BoundsOnce`: the one clause that is put in two places has no queries.

Main statements:

* `QueryParts.Declares.emulatePagination`: one query.
* `Statement.nodup_emulatePagination`: the ids of a statement stay distinct.
-/

namespace SqlTree

/-- How often the id was given out: at most once. -/
def Ident.given (ids : Ids) : Ident → Nat
  | .source id => if id.val < ids.nextSource then 1 else 0
  | .query id => if id.val < ids.nextQuery then 1 else 0

theorem Ident.given_le_one (i : Ident) (ids : Ids) : i.given ids ≤ 1 := by
  cases i <;> simp only [given] <;> split <;> omega

theorem Ident.given_of_below {i : Ident} {ids : Ids} (h : i.Below ids) : i.given ids = 1 := by
  cases i <;> exact if_pos h

namespace Numbering

variable {α β : Type} {i : Ident}

/-- The result and the number of times that `i` is taken on the way to it satisfy `P`. -/
def Takes (i : Ident) (P : α → Nat → Prop) (x : Numbering α) : Prop :=
  ∀ σ a σ', x.run σ = .ok (a, σ') → ∃ d, i.given σ' = i.given σ + d ∧ P a d

/-- The id `i` comes up in a result no more often than in `old`, but for the times it is taken. -/
def Declares (i : Ident) (old : List Ident) (new : α → List Ident) : Numbering α → Prop :=
  Takes i fun a d => (new a).count i ≤ old.count i + d

theorem Takes.pure {P : α → Nat → Prop} {a : α} (h : P a 0) : Takes i P (pure a) := by
  intro σ b σ' hrun
  cases hrun
  exact ⟨0, rfl, h⟩

theorem Takes.bind {P : α → Nat → Prop} {Q : β → Nat → Prop} {x : Numbering α}
    {f : α → Numbering β} (hx : Takes i P x)
    (hf : ∀ a d, P a d → Takes i (fun b d' => Q b (d + d')) (f a)) : Takes i Q (x >>= f) := by
  intro σ b σ'' hrun
  rw [StateT.run_bind] at hrun
  cases hrunx : x.run σ with
  | error e =>
    rw [hrunx] at hrun
    cases hrun
  | ok r =>
    obtain ⟨a, σ'⟩ := r
    rw [hrunx] at hrun
    obtain ⟨d, hd, ha⟩ := hx σ a σ' hrunx
    obtain ⟨d', hd', hb⟩ := hf a d ha σ' b σ'' hrun
    exact ⟨d + d', by omega, hb⟩

theorem takes_throw (P : α → Nat → Prop) (e : Error) : Takes i P (throw e) := by
  intro σ a σ' hrun
  cases hrun

theorem takes_drawQuery :
    Takes i (fun id d => [Ident.query id].count i = d) (modifyGet Ids.drawQuery) := by
  intro σ id σ' hrun
  cases hrun
  refine ⟨_, ?_, rfl⟩
  cases i with
  | source j => simp [Ident.given]
  | query j =>
    obtain ⟨j⟩ := j
    simp only [Ident.given, List.count_singleton, beq_iff_eq, Ident.query.injEq, QueryId.mk.injEq]
    split_ifs <;> omega

theorem takes_drawSource :
    Takes i (fun id d => [Ident.source id].count i = d) (modifyGet Ids.drawSource) := by
  intro σ id σ' hrun
  cases hrun
  refine ⟨_, ?_, rfl⟩
  cases i with
  | query j => simp [Ident.given]
  | source j =>
    obtain ⟨j⟩ := j
    simp only [Ident.given, List.count_singleton, beq_iff_eq, Ident.source.injEq, SourceId.mk.injEq]
    split_ifs <;> omega

namespace Declares

theorem map {old : List Ident} {new : α → List Ident} {new' : β → List Ident} {x : Numbering α}
    {f : α → β} (h : Declares i old new x) (hf : ∀ a, new' (f a) = new a) :
    Declares i old new' (x >>= fun a => Pure.pure (f a)) := by
  refine Takes.bind h fun a d ha => Takes.pure ?_
  rw [hf]
  omega

theorem mapM {old : α → List Ident} {new : β → List Ident} {f : α → Numbering β} {xs : List α}
    (h : ∀ x ∈ xs, Declares i (old x) new (f x)) :
    Declares i (xs.flatMap old) (List.flatMap new) (xs.mapM f) := by
  induction xs with
  | nil => exact Takes.pure (Nat.zero_le _)
  | cons x xs ih =>
    rw [List.mapM_cons]
    refine Takes.bind (h x List.mem_cons_self) fun y d hy => ?_
    refine Takes.bind (ih fun z hz => h z (List.mem_cons_of_mem x hz)) fun ys d' hys => ?_
    refine Takes.pure ?_
    simp only [List.flatMap_cons, List.count_append]
    omega

end Declares

end Numbering

/-! One query. -/

/-- The query limits its rows only if what it skips declares no ids. -/
def Query.BoundsOnce (q : Query) : Prop := q.take.isSome = true → Node.declaredIn q.skip = []

namespace Query

variable (i : Ident)

/-- The ids that the clauses declare which make the rows of a query: all but its bounds and its
ordering. -/
def declaredByRows (q : Query) : List Ident :=
  (q.columns.flatMap fun c => (Node.expr c.expr).declared) ++
    (q.sources.flatMap fun s => (Node.source s).declared) ++ Node.declaredIn q.filter ++
      (q.groupBy.flatMap fun e => (Node.expr e).declared) ++ Node.declaredIn q.having

theorem count_declared (q : Query) :
    (Node.query q).declared.count i = [Ident.query q.id].count i + q.declaredByRows.count i +
      (Node.declaredIn q.skip).count i + (Node.declaredIn q.take).count i +
        (q.orderBy.flatMap fun o => (Node.expr o.expr).declared).count i := by
  rw [Node.declared_query]
  simp only [declaredByRows, List.count_cons, List.count_append, List.count_nil]
  omega

theorem count_numbered (q : Query) (order : List OrderItem) :
    (Node.query (q.numbered order)).declared.count i = (Node.query q).declared.count i +
      (order.flatMap fun o => (Node.expr o.expr).declared).count i := by
  have hnumber : (Node.expr (rowNumber order)).declared =
      order.flatMap fun o => (Node.expr o.expr).declared := by
    rw [rowNumber, Node.declared_raw, List.flatMap_map]
  rw [Node.declared_query, Node.declared_query q]
  simp only [numbered, List.flatMap_append, List.flatMap_singleton, hnumber, List.count_cons,
    List.count_append]
  omega

theorem declared_refColumns (q : Query) (id : QueryId) :
    (q.refColumns id).flatMap (fun c => (Node.expr c.expr).declared) = [] := by
  rw [List.flatMap_eq_nil_iff]
  intro c hc
  obtain ⟨k, hk, rfl⟩ := List.mem_mapIdx.1 hc
  rfl

theorem declaredIn_foldl_conjoin (bounds : List Expr) (o : Option Expr) :
    Node.declaredIn (bounds.foldl conjoin o) =
      Node.declaredIn o ++ bounds.flatMap fun e => (Node.expr e).declared := by
  induction bounds generalizing o with
  | nil => simp
  | cons e bounds ih =>
    rw [List.foldl_cons, ih]
    cases o <;> simp [conjoin, Expr.and, Expr.operation]

theorem count_page (q inner : Query) (source : SourceId) (bounds : List Expr) (id : QueryId)
    (width : Nat) :
    (Node.query (page q.id (q.refColumns id) inner source bounds
      (rowNumberRef id width))).declared.count i =
      [Ident.query q.id].count i + [Ident.source source].count i +
        (Node.query inner).declared.count i +
          (bounds.flatMap fun e => (Node.expr e).declared).count i := by
  rw [page_eq, Node.declared_query]
  simp only [declared_refColumns, Node.declaredIn_none, declaredIn_foldl_conjoin,
    List.flatMap_singleton, Node.declared_derived, List.nil_append]
  have hnumber : (Node.expr (rowNumberRef id width)).declared = [] := rfl
  simp only [hnumber, List.count_cons, List.count_append, List.count_nil, List.flatMap_nil]
  omega

theorem count_derived (q rows : Query) (id rowsId : QueryId) (source : SourceId)
    (aliasName : Option String) :
    (Node.query {
      id
      columns := q.refColumns rowsId
      sources := [{ id := source, origin := .query rows, aliasName }] }).declared.count i =
        [Ident.query id].count i + [Ident.source source].count i +
          (Node.query rows).declared.count i := by
  rw [Node.declared_query]
  simp only [declared_refColumns, Node.declaredIn_none, List.flatMap_singleton,
    Node.declared_derived, List.nil_append, List.count_cons, List.count_append, List.count_nil,
    List.flatMap_nil]
  omega

theorem declared_refOrder {q : Query} {id : QueryId} {order : List OrderItem}
    (h : q.refOrder? id = some order) :
    order.flatMap (fun o => (Node.expr o.expr).declared) = [] := by
  rw [List.flatMap_eq_nil_iff]
  intro o' ho'
  obtain ⟨o, -, index, c, -, -, rfl⟩ := exists_of_forall₂ (refersTo_of_refOrder? h) ho'
  rfl

end Query

/-- The actions on the clauses of a query declare the ids of the clauses and those that they
take. -/
structure QueryParts.Declares (i : Ident) (q : Query) (p : QueryParts Numbering) : Prop where
  columns : Numbering.Declares i (q.columns.flatMap fun c => (Node.expr c.expr).declared)
    (List.flatMap fun c => (Node.expr c.expr).declared) p.columns
  skip : Numbering.Declares i (Node.declaredIn q.skip) Node.declaredIn p.skip
  take : Numbering.Declares i (Node.declaredIn q.take) Node.declaredIn p.take
  sources : Numbering.Declares i (q.sources.flatMap fun s => (Node.source s).declared)
    (List.flatMap fun s => (Node.source s).declared) p.sources
  filter : Numbering.Declares i (Node.declaredIn q.filter) Node.declaredIn p.filter
  groupBy : Numbering.Declares i (q.groupBy.flatMap fun e => (Node.expr e).declared)
    (List.flatMap fun e => (Node.expr e).declared) p.groupBy
  having : Numbering.Declares i (Node.declaredIn q.having) Node.declaredIn p.having
  orderBy : Numbering.Declares i (q.orderBy.flatMap fun o => (Node.expr o.expr).declared)
    (List.flatMap fun o => (Node.expr o.expr).declared) p.orderBy

namespace QueryParts.Declares

variable {i : Ident} {q : Query} {p : QueryParts Numbering} (h : p.Declares i q)

include h

theorem rebuild : Numbering.Declares i (Node.query q).declared (fun q => (Node.query q).declared)
    (p.rebuild q) := by
  refine h.columns.bind fun cs _ hcs => h.skip.bind fun sk _ hsk => h.take.bind fun tk _ htk => ?_
  refine h.sources.bind fun ss _ hss => h.filter.bind fun f _ hf => h.groupBy.bind fun g _ hg => ?_
  refine h.having.bind fun v _ hv => h.orderBy.bind fun os _ hos => .pure ?_
  simp only [Node.declared_query, List.count_cons, List.count_append]
  omega

theorem rows (id : QueryId) : Numbering.Declares i (.query id :: q.declaredByRows)
    (fun q => (Node.query q).declared) (p.rows { q with id }) := by
  refine h.columns.bind fun cs _ hcs => h.sources.bind fun ss _ hss => ?_
  refine h.filter.bind fun f _ hf => h.groupBy.bind fun g _ hg => h.having.bind fun v _ hv => ?_
  refine .pure ?_
  simp only [Node.declared_query, Query.declaredByRows, List.count_cons, List.count_append,
    Node.declaredIn_none, List.flatMap_nil, List.count_nil]
  omega

theorem numberedRows (id : QueryId) : Numbering.Declares i
    (.query id :: (q.declaredByRows ++ q.orderBy.flatMap fun o => (Node.expr o.expr).declared))
    (fun q => (Node.query q).declared) (p.numberedRows { q with id }) := by
  refine h.columns.bind fun cs _ hcs => h.orderBy.bind fun os _ hos => ?_
  refine h.sources.bind fun ss _ hss => h.filter.bind fun f _ hf => ?_
  refine h.groupBy.bind fun g _ hg => h.having.bind fun v _ hv => .pure ?_
  simp only [Query.count_numbered]
  simp only [Node.declared_query, Query.declaredByRows, List.count_cons, List.count_append,
    Node.declaredIn_none, List.flatMap_nil, List.count_nil]
  omega

/-- The number of rows to skip is computed twice for a query that limits its rows. -/
theorem bounds (honce : q.BoundsOnce) {number : Expr} (hnumber : (Node.expr number).declared = []) :
    Numbering.Declares i (Node.declaredIn q.skip ++ Node.declaredIn q.take)
      (List.flatMap fun e => (Node.expr e).declared) (p.bounds q number) := by
  have hlowerBound : ∀ o : Option Expr,
      ((o.map fun e => Expr.operation .greater number e .boolean).toList.flatMap
        fun e => (Node.expr e).declared) = Node.declaredIn o := by
    intro o
    cases o <;> simp [Expr.operation, hnumber]
  have hupperBound : ∀ o o' : Option Expr,
      ((o >>= fun e => o' >>= fun e' => pure (Expr.operation .lessOrEqual number
        (.operation .add e e' .int64) .boolean)).toList.flatMap
          fun e => (Node.expr e).declared).count i ≤
        (Node.declaredIn o).count i + (Node.declaredIn o').count i := by
    intro o o'
    cases o <;> cases o' <;> simp [Expr.operation, hnumber]
  unfold QueryParts.bounds
  refine h.skip.bind fun lower _ hlower => ?_
  cases htake : q.take with
  | none =>
    refine .pure ?_
    rw [hlowerBound, List.count_append]
    omega
  | some take =>
    -- The second time, nothing is there to be declared.
    have hskip := honce (by simp [htake])
    refine h.skip.bind fun skip _ hagain => h.take.bind fun upper _ hupper => .pure ?_
    rw [List.flatMap_append, List.count_append, hlowerBound, List.count_append, ← htake]
    rw [hskip, List.count_nil] at hlower hagain ⊢
    have hsum := hupperBound skip upper
    omega

/-- A page declares the ids of the query that it replaces and those that it takes. -/
theorem emulatePagination (honce : q.BoundsOnce) : Numbering.Declares i (Node.query q).declared
    (fun q => (Node.query q).declared) (q.emulatePagination p) := by
  unfold Query.emulatePagination
  cases hskip : q.hasSkip with
  | false => exact h.rebuild
  | true =>
    simp only [Bool.not_true, Bool.false_eq_true, if_false]
    by_cases horder : q.orderBy.isEmpty = true
    case pos =>
      simp only [if_pos horder]
      exact Numbering.Takes.bind (Numbering.takes_throw (fun _ _ => False) _)
        fun _ _ hfalse => hfalse.elim
    case neg =>
      simp only [if_neg horder]
      by_cases hdistinct : q.distinct = true
      case neg =>
        rw [if_neg hdistinct]
        refine Numbering.takes_drawQuery.bind fun innerId _ hid => ?_
        refine Numbering.takes_drawSource.bind fun source _ hsource => ?_
        refine (h.numberedRows innerId).bind fun inner _ hinner => ?_
        refine (h.bounds honce rfl).bind fun bounds _ hbounds => .pure ?_
        simp only [Query.count_page, Query.count_declared i q]
        simp only [List.count_cons, List.count_append, List.count_nil] at *
        omega
      case pos =>
        rw [if_pos hdistinct]
        refine Numbering.takes_drawQuery.bind fun rowsId _ hrowsId => ?_
        cases hrefs : q.refOrder? rowsId with
        | none => exact Numbering.takes_throw _ _
        | some order =>
          refine Numbering.takes_drawSource.bind fun rowsSource _ hrowsSource => ?_
          refine Numbering.takes_drawQuery.bind fun innerId _ hid => ?_
          refine Numbering.takes_drawSource.bind fun source _ hsource => ?_
          refine (h.rows rowsId).bind fun rows _ hrows => ?_
          refine (h.bounds honce rfl).bind fun bounds _ hbounds => .pure ?_
          simp only [Query.count_page, Query.count_numbered, Query.declared_refOrder hrefs,
            Query.count_derived, Query.count_declared i q]
          simp only [List.count_cons, List.count_append, List.count_nil] at *
          omega

end QueryParts.Declares

/-! Whole trees. -/

namespace Tree

variable {i : Ident}

/-- The transformation of an optional expression. -/
theorem declares_optional {o : Option Expr}
    (h : ∀ e ∈ o, Numbering.Declares i (Node.expr e).declared (fun e => (Node.expr e).declared)
      (e.transform .emulatePagination)) :
    Numbering.Declares i (Node.declaredIn o) Node.declaredIn
      (transformOptional .emulatePagination o) := by
  cases o with
  | none => exact Numbering.Takes.pure (Nat.zero_le _)
  | some e =>
    rw [Node.declaredIn_some]
    exact (h e rfl).map Node.declaredIn_some

theorem declares_exprs {es : List Expr}
    (h : ∀ e ∈ es, Numbering.Declares i (Node.expr e).declared (fun e => (Node.expr e).declared)
      (e.transform .emulatePagination)) :
    Numbering.Declares i (es.flatMap fun e => (Node.expr e).declared)
      (List.flatMap fun e => (Node.expr e).declared)
      (transformExprs .emulatePagination es) := by
  rw [transformExprs_eq_mapM]
  exact .mapM h

theorem declares_emulatePagination (i : Ident) :
    Tree.Closed
      (fun e => e.EachQuery Query.BoundsOnce → Numbering.Declares i (Node.expr e).declared
        (fun e => (Node.expr e).declared) (e.transform .emulatePagination))
      (fun q => q.EachQuery Query.BoundsOnce → Numbering.Declares i (Node.query q).declared
        (fun q => (Node.query q).declared) (q.transform .emulatePagination))
      (fun s => s.EachQuery Query.BoundsOnce → Numbering.Declares i (Node.source s).declared
        (fun s => (Node.source s).declared) (s.transform .emulatePagination)) where
  value _ _ _ := Numbering.Takes.pure (Nat.le_refl _)
  parameter _ _ := Numbering.Takes.pure (Nat.le_refl _)
  field _ _ := Numbering.Takes.pure (Nat.le_refl _)
  column _ _ := Numbering.Takes.pure (Nat.le_refl _)
  call name t args flags ih h := by
    rw [Node.declared_call]
    refine (declares_exprs fun e he => ih e he ?_).map fun args => Node.declared_call ..
    exact (Expr.eachQuery_call ..).1 h e he
  binary op l r p t n hl hr h := by
    obtain ⟨h₁, h₂⟩ := (Expr.eachQuery_binary ..).1 h
    refine (hl h₁).bind fun l' _ hl' => (hr h₂).bind fun r' _ hr' => .pure ?_
    simp only [Node.declared_binary, List.count_append] at hl' hr' ⊢
    omega
  raw format p args t ih h := by
    rw [Node.declared_raw]
    refine (declares_exprs fun e he => ih e he ?_).map fun args => Node.declared_raw ..
    exact (Expr.eachQuery_raw ..).1 h e he
  typeName _ _ := Numbering.Takes.pure (Nat.le_refl _)
  subquery q ih h := by
    rw [Node.declared_subquery]
    exact (ih ((Expr.eachQuery_subquery q).1 h)).map Node.declared_subquery
  existsRow q ih h := by
    rw [Node.declared_existsRow]
    exact (ih ((Expr.eachQuery_existsRow q).1 h)).map Node.declared_existsRow
  query q ih h := by
    obtain ⟨honce, hparts⟩ := (Query.eachQuery_iff q).1 h
    rw [Query.transform_eq]
    refine QueryParts.Declares.emulatePagination ?_ honce
    exact {
      columns := by
        rw [transformColumns_eq_mapM]
        exact .mapM fun c hc => (ih.columns c hc (hparts.columns c hc)).map fun _ => rfl
      skip := declares_optional fun e he => ih.skip e he (hparts.skip e he)
      take := declares_optional fun e he => ih.take e he (hparts.take e he)
      sources := by
        rw [transformSources_eq_mapM]
        exact .mapM fun s hs => ih.sources s hs (hparts.sources s hs)
      filter := declares_optional fun e he => ih.filter e he (hparts.filter e he)
      groupBy := declares_exprs fun e he => ih.groupBy e he (hparts.groupBy e he)
      having := declares_optional fun e he => ih.having e he (hparts.having e he)
      orderBy := by
        rw [transformOrder_eq_mapM]
        exact .mapM fun o ho => (ih.orderBy o ho (hparts.orderBy o ho)).map fun _ => rfl }
  source s ih h := by
    have hparts := (Source.eachQuery_iff s).1 h
    have horigin : Numbering.Declares i (Node.declaredBy s.origin) Node.declaredBy
        (s.origin.transform .emulatePagination) := by
      cases ho : s.origin with
      | table t => exact Numbering.Takes.pure (Nat.le_refl _)
      | query q => exact (ih.origin q ho (hparts.origin q ho)).map fun _ => rfl
    have hjoins : Numbering.Declares i
        (s.joins.flatMap fun j => (Node.source j.source).declared ++ Node.declaredIn j.condition)
        (List.flatMap fun j => (Node.source j.source).declared ++ Node.declaredIn j.condition)
        (transformJoins .emulatePagination s.joins) := by
      rw [transformJoins_eq_mapM]
      refine .mapM fun j hj => ?_
      refine (ih.joins j hj (hparts.joins j hj)).bind fun source _ hsource => ?_
      refine (declares_optional fun e he => ih.conditions j hj e he
        (hparts.conditions j hj e he)).bind fun condition _ hcondition => .pure ?_
      simp only [List.count_append] at hsource hcondition ⊢
      omega
    rw [Source.transform_eq]
    refine horigin.bind fun origin _ ho => hjoins.bind fun joins _ hj => .pure ?_
    beta_reduce
    rw [Node.declared_source, Node.declared_source s]
    simp only [List.count_cons, List.count_append]
    omega

end Tree

/-- Without rows to skip, no ids are taken. -/
theorem Transform.declares_of_unskipped (ids : Ids) :
    Transform.emulatePagination.Yields (Numbering.results ids)
      (fun e e' => Node.Declares (Node.IfQuery fun q => q.hasSkip = false) Eq (.expr e) (.expr e'))
      (fun q q' => Node.Declares (Node.IfQuery fun q => q.hasSkip = false) Eq (.query q)
        (.query q'))
      (fun s s' => Node.Declares (Node.IfQuery fun q => q.hasSkip = false) Eq (.source s)
        (.source s')) where
  expr h := (Numbering.results ids).pure
    (h.declares Ident.congruence_eq (fun _ _ h => h) fun _ _ h => h)
  query {q _} h := by
    refine (Numbering.results ids).mono (Query.holds_emulatePagination h) fun q' hq' hC => ?_
    have hskip : q.hasSkip = false := hC.self q rfl
    cases hq' with
    | rebuilt _ h => exact h.declares Ident.congruence_eq (fun _ _ h => h) (fun _ _ h => h) hC
    | numbered hskip' => simp [hskip] at hskip'
    | distinct hskip' => simp [hskip] at hskip'
  source h := h.declares Ident.congruence_eq (fun _ _ h => h) (fun _ _ h => h) fun _ _ h => h

namespace Statement

variable {i : Ident}

theorem declares_items {items : List SetItem}
    (h : ∀ e ∈ items, (Node.setItem e).All (Node.IfQuery Query.BoundsOnce)) :
    Numbering.Declares i (items.flatMap fun e => (Node.expr e.expr).declared)
      (List.flatMap fun e => (Node.expr e.expr).declared)
      (items.mapM (SetItem.transform .emulatePagination)) := by
  refine .mapM fun e he => ?_
  have hexpr := (Node.all_setItem (Node.IfQuery.ofTrees _) e).1 (h e he)
  exact ((Tree.declares_emulatePagination i).onExpr e.expr hexpr).map fun _ => rfl

theorem declares_operation {o : MergeOperation}
    (h : (Node.mergeOperation o).All (Node.IfQuery Query.BoundsOnce)) :
    Numbering.Declares i (Node.mergeOperation o).declared
      (fun o => (Node.mergeOperation o).declared) (o.transform .emulatePagination) := by
  have hclosed := Tree.declares_emulatePagination i
  obtain ⟨-, hchildren⟩ := (Node.all_iff _).1 h
  simp only [Node.children, List.mem_append, or_imp, forall_and, Node.forall_ofOption,
    List.forall_mem_map] at hchildren
  refine (Tree.declares_optional fun e he => hclosed.onExpr e (hchildren.1 e he)).bind
    fun condition _ hcondition => ?_
  refine (declares_items hchildren.2).bind fun items _ hitems => .pure ?_
  simp only [Node.declared_mergeOperation, List.count_append]
  omega

theorem declares_emulatePagination (i : Ident) {s : Statement}
    (h : (Node.statement s).All (Node.IfQuery Query.BoundsOnce)) :
    Numbering.Declares i (Node.statement s).declared (fun s => (Node.statement s).declared)
      (s.transform .emulatePagination) := by
  have hclosed := Tree.declares_emulatePagination i
  obtain ⟨-, hchildren⟩ := (Node.all_iff _).1 h
  cases s with
  | select q =>
    simp only [Node.children, List.forall_mem_singleton] at hchildren
    rw [Node.declared_select]
    exact (hclosed.onQuery q hchildren).map Node.declared_select
  | insert into items q =>
    simp only [Node.children, List.forall_mem_cons, List.forall_mem_append,
      List.forall_mem_map] at hchildren
    obtain ⟨-, hitems, hq, -⟩ := hchildren
    refine (declares_items hitems).bind fun items _ hitems => ?_
    refine (hclosed.onQuery q hq).bind fun q _ hq => .pure ?_
    simp only [Node.declared_insert, List.count_append] at hq ⊢
    omega
  | update target items q =>
    simp only [Node.children, List.forall_mem_append, List.forall_mem_map,
      List.forall_mem_singleton] at hchildren
    obtain ⟨hitems, hq⟩ := hchildren
    refine (declares_items hitems).bind fun items _ hitems => ?_
    refine (hclosed.onQuery q hq).bind fun q _ hq => .pure ?_
    simp only [Node.declared_update, List.count_append] at hq ⊢
    omega
  | delete target q =>
    simp only [Node.children, List.forall_mem_singleton] at hchildren
    rw [Node.declared_delete]
    exact (hclosed.onQuery q hchildren).map (Node.declared_delete target)
  | merge target q on operations =>
    simp only [Node.children, List.forall_mem_cons, List.forall_mem_append, Node.forall_ofOption,
      List.forall_mem_map] at hchildren
    obtain ⟨htarget, hq, hon, hoperations⟩ := hchildren
    refine (hclosed.onSource target htarget).bind fun target _ htarget => ?_
    refine (hclosed.onQuery q hq).bind fun q _ hq => ?_
    refine (Tree.declares_optional fun e he => hclosed.onExpr e (hon e he)).bind fun on _ hon => ?_
    refine (Numbering.Declares.mapM fun o ho => declares_operation (hoperations o ho)).bind
      fun operations _ hoperations => .pure ?_
    simp only [Node.declared_merge, List.count_append] at htarget hq ⊢
    omega
  | createTable t => exact Numbering.Takes.pure (Nat.le_refl _)
  | dropTable t ifExists => exact Numbering.Takes.pure (Nat.le_refl _)

/-- The ids of the pages of a statement are distinct if no clause with queries is put in two
places. -/
theorem nodup_emulatePagination {s s' : Statement} (h : s.emulatePagination = .ok s')
    (honce : (Node.statement s).All (Node.IfQuery Query.BoundsOnce))
    (hnodup : (Node.statement s).declared.Nodup) (hids : s.LeavesIds) :
    (Node.statement s').declared.Nodup := by
  obtain ⟨σ, hrun⟩ := exists_run_emulatePagination h
  by_cases hskips : ∃ q ∈ (Node.statement s).queries, q.hasSkip = true
  · have hbelow := Ids.below_after (hids hskips)
    rw [List.nodup_iff_count_le_one] at hnodup ⊢
    intro i
    obtain ⟨d, hd, hcount⟩ := declares_emulatePagination i honce _ s' σ hrun
    beta_reduce at hcount
    have hgiven := i.given_le_one σ
    have hone := hnodup i
    -- An id of the statement is not taken again, and another one is taken at most once.
    by_cases hi : i ∈ (Node.statement s).declared
    · have := Ident.given_of_below (hbelow i hi)
      omega
    · have := List.count_eq_zero_of_not_mem hi
      omega
  · push Not at hskips
    have hunskipped := Node.forall_mem_queries.1 fun q hq => Bool.eq_false_iff.2 (hskips q hq)
    have haligned : Statement.Aligned _ _ _ s s' :=
      (Transform.declares_of_unskipped (.after (.statement s))).onStatement s _ s' σ
        (Ids.le_refl _) hrun |>.2
    rwa [← haligned.declares Ident.congruence_eq (fun _ _ h => h) (fun _ _ h => h)
      (fun _ _ h => h) hunskipped]

end Statement

end SqlTree

import SqlTree.Proofs.Pagination.Replacement
import SqlTree.Proofs.Semantics.Statement
import SqlTree.Proofs.Transform

/-! # Pagination by row numbers keeps the meaning

Main definitions:

* `Query.Pageable`: a query that skips rows has an order, by projected columns if its rows are to be
  distinct.
* `Numbering.Yields`: a run that succeeds, and what it yields.
* `Query.EmulatedBy`: a query that can take the place of another one and skips no rows.

Main statements:

* `Query.yields_emulatePagination`: the query that comes out yields the same rows.
* `Statement.result?_emulatePagination`: a selection returns the same rows in the same order.
-/

namespace SqlTree

/-- A query that skips rows has an order, by projected columns if its rows are to be distinct. -/
def Query.Pageable (q : Query) : Prop :=
  q.hasSkip = true → q.orderBy ≠ [] ∧
    (q.distinct = true → ∀ o ∈ q.orderBy, ∃ c ∈ q.columns, c.expr.same o.expr = true)

instance (q : Query) : Decidable q.Pageable :=
  inferInstanceAs (Decidable (q.hasSkip = true → q.orderBy ≠ [] ∧
    (q.distinct = true → ∀ o ∈ q.orderBy, ∃ c ∈ q.columns, c.expr.same o.expr = true)))

/-- The queries at and below a node. -/
def Node.queries (n : Node) : List Query := n.preorder.filterMap query?

theorem Node.forall_mem_queries {P : Query → Prop} {n : Node} :
    (∀ q ∈ n.queries, P q) ↔ n.All fun m => ∀ q, m = .query q → P q := by
  simp only [queries, List.mem_filterMap, All]
  constructor
  · rintro h _ hm q rfl
    exact h q ⟨_, hm, rfl⟩
  · rintro h q ⟨m, hm, hq⟩
    cases m <;> cases hq
    exact h _ hm _ rfl

/-- The run succeeds from all states past `ids` and stays past them. -/
def Numbering.Yields {α : Type} (ids : Ids) (P : α → Prop) (m : Numbering α) : Prop :=
  ∀ σ, ids ≤ σ → ∃ a σ', m.run σ = .ok (a, σ') ∧ ids ≤ σ' ∧ P a

namespace Numbering.Yields

variable {α β : Type} {ids : Ids} {P : α → Prop} {Q : β → Prop}

theorem pure {a : α} (h : P a) : Yields ids P (Pure.pure a) :=
  fun σ hσ => ⟨a, σ, rfl, hσ, h⟩

theorem bind {m : Numbering α} {f : α → Numbering β} (hm : Yields ids P m)
    (hf : ∀ a, P a → Yields ids Q (f a)) : Yields ids Q (m >>= f) := by
  intro σ hσ
  obtain ⟨a, σ', hrun, hσ', ha⟩ := hm σ hσ
  obtain ⟨b, σ'', hrun', hσ'', hb⟩ := hf a ha σ' hσ'
  refine ⟨b, σ'', ?_, hσ'', hb⟩
  rw [StateT.run_bind, hrun]
  exact hrun'

theorem mono {m : Numbering α} {P' : α → Prop} (hm : Yields ids P m) (h : ∀ a, P a → P' a) :
    Yields ids P' m := by
  intro σ hσ
  obtain ⟨a, σ', hrun, hσ', ha⟩ := hm σ hσ
  exact ⟨a, σ', hrun, hσ', h a ha⟩

theorem mapM {R : α → β → Prop} {f : α → Numbering β} {xs : List α}
    (h : ∀ x ∈ xs, Yields ids (R x) (f x)) : Yields ids (List.Forall₂ R xs) (xs.mapM f) := by
  induction xs with
  | nil => exact pure .nil
  | cons x xs ih =>
    rw [List.mapM_cons]
    refine (h x List.mem_cons_self).bind fun y hy => ?_
    refine (ih fun z hz => h z (List.mem_cons_of_mem x hz)).bind fun ys hys => ?_
    exact pure (.cons hy hys)

theorem drawQuery : Yields ids (fun id => ¬ (Ident.query id).Below ids)
    (modifyGet Ids.drawQuery) :=
  fun σ hσ => ⟨_, _, rfl, Ids.le_trans hσ (Ids.le_drawQuery σ), Nat.not_lt.2 hσ.1⟩

theorem drawSource : Yields ids (fun _ : SourceId => True) (modifyGet Ids.drawSource) :=
  fun σ hσ => ⟨_, _, rfl, Ids.le_trans hσ (Ids.le_drawSource σ), trivial⟩

end Numbering.Yields

variable {V : Type} [DecidableEq V] (db : Database V) (ids : Ids)

/-- The transformed expression matches. -/
def Expr.YieldsMatch (e : Expr) : Prop :=
  Numbering.Yields ids (e.Matches db (Frame.Extends ids)) (e.transform .emulatePagination)

/-- The transformed source matches. -/
def Source.YieldsMatch (s : Source) : Prop :=
  Numbering.Yields ids (s.Matches db (Frame.Extends ids)) (s.transform .emulatePagination)

/-- The second query matches the first one, has its id and as many columns, and skips no rows. -/
structure Query.EmulatedBy (q q' : Query) : Prop where
  toMatches : q.Matches db (Frame.Extends ids) q'
  id : q'.id = q.id
  width : q'.columns.length = q.columns.length
  hasSkip : q'.hasSkip = false

/-- The transformed query takes the place of the query. -/
def Query.YieldsMatch (q : Query) : Prop :=
  Numbering.Yields ids (q.EmulatedBy db ids) (q.transform .emulatePagination)

/-- The actions on the clauses of a query yield clauses that match. -/
structure QueryParts.YieldMatch (q : Query) (p : QueryParts Numbering) : Prop where
  columns : Numbering.Yields ids (List.Forall₂ (fun c c' => c.expr.Matches db (Frame.Extends ids)
    c'.expr) q.columns) p.columns
  skip : Numbering.Yields ids (Option.Rel (Expr.Matches db (Frame.Extends ids)) q.skip) p.skip
  take : Numbering.Yields ids (Option.Rel (Expr.Matches db (Frame.Extends ids)) q.take) p.take
  sources : Numbering.Yields ids (List.Forall₂ (Source.Matches db (Frame.Extends ids)) q.sources)
    p.sources
  filter : Numbering.Yields ids (Option.Rel (Expr.Matches db (Frame.Extends ids)) q.filter) p.filter
  groupBy : Numbering.Yields ids (List.Forall₂ (Expr.Matches db (Frame.Extends ids)) q.groupBy)
    p.groupBy
  having : Numbering.Yields ids (Option.Rel (Expr.Matches db (Frame.Extends ids)) q.having) p.having
  orderBy : Numbering.Yields ids (List.Forall₂ (fun o o' => o.expr.Matches db (Frame.Extends ids)
    o'.expr ∧ o'.desc = o.desc) q.orderBy) p.orderBy

variable {db ids}

/-! Lists and options. -/

theorem yields_transformOptional {o : Option Expr} (h : ∀ e ∈ o, e.YieldsMatch db ids) :
    Numbering.Yields ids (Option.Rel (Expr.Matches db (Frame.Extends ids)) o)
      (transformOptional .emulatePagination o) := by
  cases o with
  | none => exact .pure .none
  | some e => exact (h e rfl).bind fun e' he => .pure (.some he)

theorem yields_transformExprs {es : List Expr} (h : ∀ e ∈ es, e.YieldsMatch db ids) :
    Numbering.Yields ids (List.Forall₂ (Expr.Matches db (Frame.Extends ids)) es)
      (transformExprs .emulatePagination es) := by
  rw [transformExprs_eq_mapM]
  exact .mapM h

theorem yields_transformJoins {js : List Join} (hsources : ∀ j ∈ js, j.source.YieldsMatch db ids)
    (hconditions : ∀ j ∈ js, ∀ e ∈ j.condition, e.YieldsMatch db ids) :
    Numbering.Yields ids (List.Forall₂ (Join.Matches db (Frame.Extends ids)) js)
      (transformJoins .emulatePagination js) := by
  rw [transformJoins_eq_mapM]
  refine .mapM fun j hj => (hsources j hj).bind fun s hs => ?_
  exact (yields_transformOptional (hconditions j hj)).bind fun c hc => .pure ⟨rfl, hs, hc⟩

theorem Query.yieldMatch_parts {q : Query}
    (h : q.Each (Expr.YieldsMatch db ids) (Source.YieldsMatch db ids)) :
    QueryParts.YieldMatch db ids q
      { columns := transformColumns .emulatePagination q.columns
        skip := transformOptional .emulatePagination q.skip
        take := transformOptional .emulatePagination q.take
        sources := transformSources .emulatePagination q.sources
        filter := transformOptional .emulatePagination q.filter
        groupBy := transformExprs .emulatePagination q.groupBy
        having := transformOptional .emulatePagination q.having
        orderBy := transformOrder .emulatePagination q.orderBy } where
  columns := by
    rw [transformColumns_eq_mapM]
    exact .mapM fun c hc => (h.columns c hc).bind fun e he => .pure he
  skip := yields_transformOptional h.skip
  take := yields_transformOptional h.take
  sources := by
    rw [transformSources_eq_mapM]
    exact .mapM h.sources
  filter := yields_transformOptional h.filter
  groupBy := yields_transformExprs h.groupBy
  having := yields_transformOptional h.having
  orderBy := by
    rw [transformOrder_eq_mapM]
    exact .mapM fun o ho => (h.orderBy o ho).bind fun e he => .pure ⟨he, rfl⟩

/-! Queries. -/

namespace QueryParts.YieldMatch

variable {q : Query} {p : QueryParts Numbering} (h : p.YieldMatch db ids q)

include h

theorem rebuild : Numbering.Yields ids
    (fun q' => q.ClausesMatch db (Frame.Extends ids) q' ∧ q'.id = q.id) (p.rebuild q) := by
  refine h.columns.bind fun cs hcs => h.skip.bind fun sk hsk => h.take.bind fun tk htk => ?_
  refine h.sources.bind fun ss hss => h.filter.bind fun f hf => h.groupBy.bind fun g hg => ?_
  refine h.having.bind fun v hv => h.orderBy.bind fun os hos => .pure ⟨?_, rfl⟩
  exact ⟨hcs, hsk, htk, hss, hf, hg, hv, hos, rfl⟩

theorem rows (id : QueryId) : Numbering.Yields ids
    (fun q' => Query.ClausesMatch db (Frame.Extends ids)
      { q with skip := none, take := none, orderBy := [] } q' ∧ q'.id = id)
    (p.rows { q with id }) := by
  refine h.columns.bind fun cs hcs => h.sources.bind fun ss hss => h.filter.bind fun f hf => ?_
  refine h.groupBy.bind fun g hg => h.having.bind fun v hv => .pure ⟨?_, rfl⟩
  exact ⟨hcs, .none, .none, hss, hf, hg, hv, .nil, rfl⟩

theorem numberedRows (hdistinct : q.distinct = false) (id : QueryId) : Numbering.Yields ids
    (fun q' => ∃ (inner : Query) (order : List OrderItem), q' = inner.numbered order ∧
      inner.id = id ∧ inner.Plain ∧
        Query.ClausesMatch db (Frame.Extends ids) { q with skip := none, take := none }
          { inner with orderBy := order })
    (p.numberedRows { q with id }) := by
  refine h.columns.bind fun cs hcs => h.orderBy.bind fun os hos => h.sources.bind fun ss hss => ?_
  refine h.filter.bind fun f hf => h.groupBy.bind fun g hg => h.having.bind fun v hv => .pure ?_
  refine ⟨_, os, rfl, rfl, ⟨hdistinct, rfl, rfl, rfl⟩, ?_⟩
  exact ⟨hcs, .none, .none, hss, hf, hg, hv, hos, rfl⟩

theorem bounds (hskip : q.hasSkip = true) (number : Expr) :
    Numbering.Yields ids (q.BoundedBy db (Frame.Extends ids) number) (p.bounds q number) := by
  obtain ⟨skip, hq⟩ := Option.isSome_iff_exists.1 hskip
  have hp := h.skip
  rw [hq] at hp
  unfold QueryParts.bounds
  refine hp.bind fun sk hsk => ?_
  cases hsk with
  | some h₁ =>
    cases ht : q.take with
    | none => exact .pure (Query.boundedBy_skip hq ht h₁)
    | some take =>
      have htake := h.take
      rw [ht] at htake
      refine hp.bind fun sk' hsk' => htake.bind fun tk htk => ?_
      cases hsk' with
      | some h₂ =>
        cases htk with
        | some h₃ => exact .pure (Query.boundedBy_skip_take hq ht h₁ h₂ h₃)

end QueryParts.YieldMatch

theorem Query.exists_refOrder? {q : Query} (id : QueryId)
    (h : ∀ o ∈ q.orderBy, ∃ c ∈ q.columns, c.expr.same o.expr = true) :
    ∃ order, q.refOrder? id = some order := by
  have hitem : ∀ o ∈ q.orderBy, ∃ o', (do
      let index ← q.columns.findIdx? fun c => c.expr.same o.expr
      let column ← (q.refColumns id)[index]?
      return { o with expr := column.expr } : Option OrderItem) = some o' := by
    intro o ho
    obtain ⟨c, hc, hsame⟩ := h o ho
    cases hindex : q.columns.findIdx? fun c => c.expr.same o.expr with
    | none => exact absurd hsame (by simpa using List.findIdx?_eq_none_iff.1 hindex c hc)
    | some index =>
      obtain ⟨hlt, -⟩ := List.findIdx?_eq_some_iff_getElem.1 hindex
      simp [refColumns, hlt]
  choose! item hitem using hitem
  exact ⟨_, mapM_eq_some hitem⟩

theorem Query.EmulatedBy.page {q inner : Query} {innerId : QueryId} {source : SourceId}
    {bounds : List Expr} {number : Expr}
    (h : q.Matches db (Frame.Extends ids)
      (page q.id (q.refColumns innerId) inner source bounds number)) :
    q.EmulatedBy db ids (Query.page q.id (q.refColumns innerId) inner source bounds number) where
  toMatches := h
  id := by rw [page_eq]
  width := by
    rw [page_eq]
    simp [refColumns]
  hasSkip := by
    rw [page_eq]
    rfl

/-- The query by row numbers takes the place of the query that skips rows. -/
theorem Query.yields_emulatePagination {q : Query} {p : QueryParts Numbering}
    (hq : q.Pageable) (h : p.YieldMatch db ids q) :
    Numbering.Yields ids (q.EmulatedBy db ids) (q.emulatePagination p) := by
  unfold emulatePagination
  cases hskip : q.hasSkip with
  | false =>
    refine h.rebuild.mono fun q' hq' => ?_
    exact ⟨hq'.1.toMatches, hq'.2, hq'.1.columns.length_eq.symm,
      (rel_isSome hq'.1.skip).trans hskip⟩
  | true =>
    obtain ⟨horder, hrefs⟩ := hq hskip
    have hempty : q.orderBy.isEmpty = false := by simpa using horder
    simp only [Bool.not_true, Bool.false_eq_true, if_false, hempty]
    by_cases hdistinct : q.distinct = true
    case neg =>
      rw [if_neg hdistinct]
      have hdistinct : q.distinct = false := by simpa using hdistinct
      refine Numbering.Yields.drawQuery.bind fun innerId hid => ?_
      refine Numbering.Yields.drawSource.bind fun source _ => ?_
      refine (h.numberedRows hdistinct innerId).bind ?_
      rintro _ ⟨inner, order, rfl, rfl, hplain, hclauses⟩
      refine (h.bounds hskip _).bind fun bounds hbounds => .pure ?_
      exact .page (matches_page hskip horder hdistinct hplain hid hclauses hbounds)
    case pos =>
      rw [if_pos hdistinct]
      refine Numbering.Yields.drawQuery.bind fun rowsId _ => ?_
      obtain ⟨order, horders⟩ := q.exists_refOrder? rowsId (hrefs hdistinct)
      simp only [horders]
      refine Numbering.Yields.drawSource.bind fun rowsSource _ => ?_
      refine Numbering.Yields.drawQuery.bind fun innerId hid => ?_
      refine Numbering.Yields.drawSource.bind fun source _ => ?_
      refine (h.rows rowsId).bind ?_
      rintro rows ⟨hclauses, rfl⟩
      refine (h.bounds hskip _).bind fun bounds hbounds => .pure ?_
      exact .page (matches_distinctPage hskip horder hdistinct hid horders hclauses hbounds)

/-! Trees. -/

/-- The id that a node declares is in use, and a query can be expressed by row numbers. -/
structure Node.Ready (ids : Ids) (n : Node) : Prop where
  below : ∀ i ∈ n.declares?, i.Below ids
  pageable : ∀ q, n = .query q → q.Pageable

theorem Source.yieldsMatch {s : Source} (hs : (Node.source s).All (Node.Ready ids))
    (h : s.Each (Expr.YieldsMatch db ids) (Query.YieldsMatch db ids) (Source.YieldsMatch db ids)) :
    s.YieldsMatch db ids := by
  have hjoins := yields_transformJoins h.joins h.conditions
  rw [Source.YieldsMatch, Source.transform_eq]
  cases ho : s.origin with
  | table t =>
    refine Numbering.Yields.bind (P := fun o => o = .table t) (.pure rfl) ?_
    rintro _ rfl
    refine hjoins.bind fun js hjs => .pure ?_
    exact .ofTable ho rfl rfl (fun x hP => hP.bindSource (hs.self.below _ rfl) x) hjs
  | query q =>
    have hq := (hs.parts.origin q ho).self.below _ rfl
    refine Numbering.Yields.bind (P := fun o => ∃ q', o = .query q' ∧ q.EmulatedBy db ids q')
      ((h.origin q ho).bind fun q' hq' => .pure ⟨q', rfl, hq'⟩) ?_
    rintro _ ⟨q', rfl, hq'⟩
    refine hjoins.bind fun js hjs => .pure ?_
    exact .ofQuery ho rfl hq'.toMatches hq'.width (fun vs hP => hq'.id ▸ hP.bindDerived hq vs) hjs

theorem Tree.yieldsMatch_closed :
    Tree.Closed (fun e => (Node.expr e).All (Node.Ready ids) → e.YieldsMatch db ids)
      (fun q => (Node.query q).All (Node.Ready ids) → q.YieldsMatch db ids)
      (fun s => (Node.source s).All (Node.Ready ids) → s.YieldsMatch db ids) where
  value l t _ := .pure (.value l t)
  parameter p _ := .pure (.parameter p)
  field f _ := .pure (.field rfl fun x hP hx => (hP.source _ x hx).2)
  column c _ := .pure (.column rfl fun vs hP hvs => (hP.derived _ vs hvs).2)
  call name t args flags ih h := by
    refine (yields_transformExprs fun e he => ih e he (h.arg e he)).bind fun es hes => ?_
    exact .pure (.call name t flags hes)
  binary op l r p t n ihl ihr h := by
    refine (ihl h.left).bind fun l' hl => (ihr h.right).bind fun r' hr => ?_
    exact .pure (.binary op p t n hl hr)
  raw format p args t ih h := by
    refine (yields_transformExprs fun e he => ih e he (h.rawArg e he)).bind fun es hes => ?_
    exact .pure (.raw format p t hes)
  typeName t _ := .pure (.typeName t)
  subquery q ih h := (ih h.subquery).bind fun _ hq => .pure (.subquery hq.toMatches)
  existsRow q ih h := (ih h.existsRow).bind fun _ hq => .pure (.existsRow hq.toMatches)
  query q ih h := by
    rw [Query.YieldsMatch, Query.transform_eq]
    exact q.yields_emulatePagination (h.self.pageable q rfl)
      (Query.yieldMatch_parts (ih.mp h.clauses))
  source s ih h := s.yieldsMatch h (ih.mp h.parts)

variable (db) in
/-- Pagination by row numbers succeeds if the queries that skip rows have an order, by projected
columns where rows are to be distinct. It leaves a query that skips no rows, and that returns the
rows of the original one in their order. -/
theorem Statement.result?_emulatePagination {q : Query}
    (hids : (Statement.select q).HasFreeIds)
    (hpages : ∀ r ∈ (Node.query q).queries, r.Pageable) :
    ∃ q', (Statement.select q).emulatePagination = .ok (.select q') ∧ q'.hasSkip = false ∧
      ∀ rows, (Statement.select q).result? db = some rows →
        (Statement.select q').result? db = some rows := by
  have hbelow := Node.all_declares_iff.2 (Ids.below_after hids)
  have hready : (Node.query q).All (Node.Ready (.after (.statement (.select q)))) :=
    fun n hn => ⟨hbelow n (List.mem_cons_of_mem _ hn), fun r hr =>
      hpages r (List.mem_filterMap.2 ⟨n, hn, hr ▸ rfl⟩)⟩
  have hquery : q.YieldsMatch db _ := Tree.yieldsMatch_closed.onQuery q hready
  obtain ⟨q', σ, hrun, -, hq⟩ := hquery _ (Ids.le_refl _)
  refine ⟨q', ?_, hq.hasSkip, fun rows hrows => ?_⟩
  · rw [emulatePagination, Statement.transform, StateT.run'_eq, StateT.run_bind, hrun]
    rfl
  · obtain ⟨hcolumns, hrows⟩ := Option.ite_none_left_eq_some.1 hrows
    obtain ⟨rows', hrows', rfl⟩ := hq.toMatches.rows (Env.lift_extends_empty _) rows hrows
    have hcolumns' : ¬ q'.columns.isEmpty = true := by
      simpa [← List.length_eq_zero_iff, hq.width] using hcolumns
    rw [result?, if_neg hcolumns', hrows']

namespace Sample

def scores : Table where
  name := "scores"
  fields := [⟨"player", .int32, false, none⟩, ⟨"points", .int32, true, none⟩]

def score (player : Int) (points : Value) : Row Value :=
  .ofFields [("player", some player), ("points", points)]

def tournament (name : String) : Option (List (Row Value)) :=
  if name = "scores" then
    some [score 1 (some 5), score 2 (some 9), score 1 (some 5), score 3 none, score 4 (some 9)]
  else none

def player (id : Nat) : Expr := .field { source := ⟨id⟩, name := "player", dataType := .int32 }

def points (id : Nat) : Expr := .field { source := ⟨id⟩, name := "points", dataType := .int32 }

def aggregate (name : String) (e : Expr) : Expr :=
  .call name .int32 [e] { aggregate := true, pure := false }

/-- The least of all points. -/
def leastPoints : Query where
  id := ⟨2⟩
  columns := [{ expr := aggregate "MIN" (points 2) }]
  sources := [{ id := ⟨2⟩, origin := .table scores }]

/-- The scores with the points of the outer one, if there are several. -/
def equalScores : Query where
  id := ⟨3⟩
  columns := [{ expr := points 3 }]
  sources := [{
    id := ⟨3⟩
    origin := .table scores
    joins := [{
      kind := .right
      source := { id := ⟨4⟩, origin := .table scores }
      condition := some (.eq (player 3) (player 4)) }] }]
  filter := some (.eq (points 3) (points 1))
  groupBy := [points 3]
  having := some (.operation .greater (aggregate "COUNT" (player 3)) (.int 1) .boolean)

/-- The second and the third of the players by their points, apart from those whose points nobody
else has. -/
def runnersUp : Query where
  id := ⟨1⟩
  columns := [{ expr := player 1 }, { expr := points 1 }]
  distinct := true
  skip := some (.int 1)
  take := some (.int 2)
  sources := [{ id := ⟨1⟩, origin := .table scores }]
  filter := some (.and
    (.operation .greaterOrEqual (points 1) (.subquery leastPoints) .boolean)
    (.existsRow equalScores))
  orderBy := [{ expr := points 1, desc := true }, { expr := player 1 }]

theorem rows_runnersUp :
    (runnersUp.scan (.integers tournament)).rows Engine.integers .empty =
      some [[some 4, some 9], [some 1, some 5]] := by
  have hentries : ((runnersUp.scan (.integers tournament)).units .empty).bind
      (runnersUp.scan (.integers tournament)).entries =
        some [([some 1, some 5], [some 5, some 1]), ([some 2, some 9], [some 9, some 2]),
          ([some 1, some 5], [some 5, some 1]), ([some 4, some 9], [some 9, some 4])] := by
    decide +kernel
  have hbounds : (runnersUp.scan (.integers tournament)).bounds .empty = some (1, some 2) := by
    decide +kernel
  obtain ⟨bs, hbs, hes⟩ := Option.bind_eq_some_iff.1 hentries
  simp only [Scan.rows, hbs, hes, hbounds, Option.bind_eq_bind, Option.bind_some]
  simp [Scan.arrange, Query.scan_eq, runnersUp, distinctOn, page, List.mergeSort,
    List.MergeSort.Internal.splitInTwo, Engine.keysLe, Engine.integers, Value.le]

theorem result?_runnersUp :
    (Statement.select runnersUp).result? (.integers tournament) =
        some [[some 4, some 9], [some 1, some 5]] ∧
      ∃ q, (Statement.select runnersUp).emulatePagination = .ok (.select q) ∧ q.hasSkip = false ∧
        (Statement.select q).result? (.integers tournament) =
          some [[some 4, some 9], [some 1, some 5]] := by
  obtain ⟨q, hq, hskip, h⟩ := Statement.result?_emulatePagination (.integers tournament)
    (q := runnersUp) (by decide +kernel) (by decide +kernel)
  exact ⟨rows_runnersUp, q, hq, hskip, h _ rows_runnersUp⟩

end Sample

end SqlTree

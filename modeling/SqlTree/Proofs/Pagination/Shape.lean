import SqlTree.Proofs.Outcome
import SqlTree.Proofs.Pagination.Replacement

/-! # What pagination by row numbers makes of a query

What is shown of the queries that come out is shown from their shape: a query that skips no rows is
put together again from its clauses, and one that skips rows is a page over its numbered rows.

Main definitions:

* `Numbering.results`: the results of a run that takes ids past those in use.
* `Query.Bounded`: the conditions on a row number that bounds make.
* `Query.Emulated`: the shapes.

Main statements:

* `Query.holds_emulatePagination`: a query that comes out has one of the shapes.
* `Query.each_page`, `Query.each_numbered`, `Query.each_ofRows`, `Query.Bounded.forall_mem`:
  properties of the parts.
-/

namespace SqlTree

/-- The results of runs from ids past `ids`, if they succeed. -/
def Numbering.results (ids : Ids) : Outcome Numbering where
  Holds P x := ∀ σ a σ', ids ≤ σ → x.run σ = .ok (a, σ') → ids ≤ σ' ∧ P a
  pure h σ a σ' hσ hrun := by
    cases hrun
    exact ⟨hσ, h⟩
  bind {_ _ _ _ x f} h g σ b σ'' hσ hrun := by
    rw [StateT.run_bind] at hrun
    cases hx : x.run σ with
    | error e =>
      rw [hx] at hrun
      cases hrun
    | ok r =>
      obtain ⟨a, σ'⟩ := r
      rw [hx] at hrun
      obtain ⟨hσ', ha⟩ := h σ a σ' hσ hx
      exact g a ha σ' b σ'' hσ' hrun

namespace Numbering

variable {ids : Ids}

theorem holds_drawQuery :
    (results ids).Holds (fun id => ¬ (Ident.query id).Below ids) (modifyGet Ids.drawQuery) := by
  intro σ id σ' hσ hrun
  cases hrun
  exact ⟨Ids.le_trans hσ (Ids.le_drawQuery σ), Nat.not_lt.2 hσ.1⟩

theorem holds_drawSource :
    (results ids).Holds (fun id => ¬ (Ident.source id).Below ids) (modifyGet Ids.drawSource) := by
  intro σ id σ' hσ hrun
  cases hrun
  exact ⟨Ids.le_trans hσ (Ids.le_drawSource σ), Nat.not_lt.2 hσ.2⟩

theorem holds_throw {α : Type} (P : α → Prop) (e : Error) : (results ids).Holds P (throw e) := by
  intro σ a σ' _ hrun
  cases hrun

end Numbering

variable (RE : Expr → Expr → Prop) (RS : Source → Source → Prop)

/-- The conditions on a row number that the bounds of the query make. The number of rows to skip
comes up twice if the rows are also limited. -/
inductive Query.Bounded (q : Query) (number : Expr) : List Expr → Prop
  | skip {skip skip' : Expr} (hskip : q.skip = some skip) (htake : q.take = none)
      (h : RE skip skip') : Bounded q number [.operation .greater number skip' .boolean]
  | skipTake {skip skip₁ skip₂ take take' : Expr} (hskip : q.skip = some skip)
      (htake : q.take = some take) (h₁ : RE skip skip₁) (h₂ : RE skip skip₂) (h : RE take take') :
      Bounded q number [.operation .greater number skip₁ .boolean,
        .operation .lessOrEqual number (.operation .add skip₂ take' .int64) .boolean]

/-- The shapes of a query after pagination by row numbers. New ids are past `ids`. -/
inductive Query.Emulated (ids : Ids) (q : Query) : Query → Prop
  | rebuilt {q' : Query} (hskip : q.hasSkip = false) (h : q.Aligned RE RS q') : Emulated ids q q'
  | numbered {inner : Query} {order : List OrderItem} {source : SourceId} {bounds : List Expr}
      (hskip : q.hasSkip = true) (hdistinct : q.distinct = false)
      (hid : ¬ (Ident.query inner.id).Below ids) (hsource : ¬ (Ident.source source).Below ids)
      (hplain : inner.Plain)
      (hclauses : Query.Aligned RE RS { q with id := inner.id, skip := none, take := none }
        { inner with orderBy := order })
      (hbounds : q.Bounded RE (rowNumberRef inner.id q.columns.length) bounds) :
      Emulated ids q (page q.id (q.refColumns inner.id) (inner.numbered order) source bounds
        (rowNumberRef inner.id q.columns.length))
  | distinct {rows : Query} {order : List OrderItem} {innerId : QueryId}
      {rowsSource source : SourceId} {bounds : List Expr} (hskip : q.hasSkip = true)
      (hdistinct : q.distinct = true) (hrows : ¬ (Ident.query rows.id).Below ids)
      (hrowsSource : ¬ (Ident.source rowsSource).Below ids)
      (hid : ¬ (Ident.query innerId).Below ids) (hsource : ¬ (Ident.source source).Below ids)
      (horder : List.Forall₂ (q.RefersTo rows.id) q.orderBy order)
      (hclauses : Query.Aligned RE RS
        { q with id := rows.id, skip := none, take := none, orderBy := [] } rows)
      (hbounds : q.Bounded RE (rowNumberRef innerId q.columns.length) bounds) :
      Emulated ids q (page q.id (q.refColumns innerId)
        ((q.ofRows rows innerId rowsSource).numbered order) source bounds
        (rowNumberRef innerId q.columns.length))

variable {RE RS} {ids : Ids} {q : Query} {p : QueryParts Numbering}

namespace QueryParts.Yield

variable (h : p.Yield (Numbering.results ids) RE RS q)

include h

theorem rows (id : QueryId) : (Numbering.results ids).Holds
    (fun rows => rows.id = id ∧ Query.Aligned RE RS
      { q with id := rows.id, skip := none, take := none, orderBy := [] } rows)
    (p.rows { q with id }) := by
  let O := Numbering.results ids
  refine O.bind h.columns fun cs hcs => O.bind h.sources fun ss hss => ?_
  refine O.bind h.filter fun f hf => O.bind h.groupBy fun g hg => ?_
  refine O.bind h.having fun v hv => O.pure ⟨rfl, ?_⟩
  exact ⟨rfl, hcs, rfl, .none, .none, hss, hf, hg, hv, .nil⟩

theorem numberedRows (hdistinct : q.distinct = false) (id : QueryId) : (Numbering.results ids).Holds
    (fun q' => ∃ (inner : Query) (order : List OrderItem), q' = inner.numbered order ∧
      inner.id = id ∧ inner.Plain ∧ Query.Aligned RE RS
        { q with id := inner.id, skip := none, take := none } { inner with orderBy := order })
    (p.numberedRows { q with id }) := by
  let O := Numbering.results ids
  refine O.bind h.columns fun cs hcs => O.bind h.orderBy fun os hos => ?_
  refine O.bind h.sources fun ss hss => O.bind h.filter fun f hf => ?_
  refine O.bind h.groupBy fun g hg => O.bind h.having fun v hv => O.pure ?_
  refine ⟨_, os, rfl, rfl, ⟨hdistinct, rfl, rfl, rfl⟩, ?_⟩
  exact ⟨rfl, hcs, rfl, .none, .none, hss, hf, hg, hv, hos⟩

theorem bounds (hskip : q.hasSkip = true) (number : Expr) :
    (Numbering.results ids).Holds (q.Bounded RE number) (p.bounds q number) := by
  let O := Numbering.results ids
  obtain ⟨skip, hq⟩ := Option.isSome_iff_exists.1 hskip
  have hp := h.skip
  rw [hq] at hp
  unfold QueryParts.bounds
  refine O.bind hp fun sk hsk => ?_
  cases hsk with
  | some h₁ =>
    cases ht : q.take with
    | none => exact O.pure (.skip hq ht h₁)
    | some take =>
      have htake := h.take
      rw [ht] at htake
      refine O.bind hp fun sk' hsk' => O.bind htake fun tk htk => ?_
      cases hsk' with
      | some h₂ =>
        cases htk with
        | some h₃ => exact O.pure (.skipTake hq ht h₁ h₂ h₃)

end QueryParts.Yield

/-- A query after pagination by row numbers has one of the shapes. -/
theorem Query.holds_emulatePagination (h : p.Yield (Numbering.results ids) RE RS q) :
    (Numbering.results ids).Holds (q.Emulated RE RS ids) (q.emulatePagination p) := by
  let O := Numbering.results ids
  unfold emulatePagination
  cases hskip : q.hasSkip with
  | false => exact O.mono h.rebuild fun q' hq' => .rebuilt hskip hq'
  | true =>
    simp only [Bool.not_true, Bool.false_eq_true, if_false]
    by_cases horder : q.orderBy.isEmpty = true
    case pos =>
      simp only [if_pos horder]
      exact O.bind (P := fun _ => False) (Numbering.holds_throw _ _) fun _ hfalse => hfalse.elim
    case neg =>
      simp only [if_neg horder]
      by_cases hdistinct : q.distinct = true
      case neg =>
        rw [if_neg hdistinct]
        have hdistinct : q.distinct = false := by simpa using hdistinct
        refine O.bind Numbering.holds_drawQuery fun innerId hid => ?_
        refine O.bind Numbering.holds_drawSource fun source hsource => ?_
        refine O.bind (h.numberedRows hdistinct innerId) ?_
        rintro _ ⟨inner, order, rfl, rfl, hplain, hclauses⟩
        refine O.bind (h.bounds hskip _) fun bounds hbounds => O.pure ?_
        exact .numbered hskip hdistinct hid hsource hplain hclauses hbounds
      case pos =>
        rw [if_pos hdistinct]
        refine O.bind Numbering.holds_drawQuery fun rowsId hrowsId => ?_
        cases hrefs : q.refOrder? rowsId with
        | none => exact Numbering.holds_throw _ _
        | some order =>
          refine O.bind Numbering.holds_drawSource fun rowsSource hrowsSource => ?_
          refine O.bind Numbering.holds_drawQuery fun innerId hid => ?_
          refine O.bind Numbering.holds_drawSource fun source hsource => ?_
          refine O.bind (h.rows rowsId) ?_
          rintro rows ⟨rfl, hclauses⟩
          refine O.bind (h.bounds hskip _) fun bounds hbounds => O.pure ?_
          exact .distinct hskip hdistinct hrowsId hrowsSource hid hsource
            (refersTo_of_refOrder? hrefs) hclauses hbounds

/-! Properties of the parts. -/

namespace Query

variable {E : Expr → Prop} {S : Source → Prop}

theorem Bounded.forall_mem {number : Expr} {bounds : List Expr} (h : q.Bounded RE number bounds)
    (hoperation : ∀ op l r t, E l → E r → E (.operation op l r t)) (hnumber : E number)
    (hskip : ∀ e ∈ q.skip, ∀ e', RE e e' → E e') (htake : ∀ e ∈ q.take, ∀ e', RE e e' → E e') :
    ∀ e ∈ bounds, E e := by
  cases h with
  | skip hq _ h =>
    rw [List.forall_mem_singleton]
    exact hoperation _ _ _ _ hnumber (hskip _ hq _ h)
  | skipTake hq hq' h₁ h₂ h =>
    rw [List.forall_mem_cons, List.forall_mem_singleton]
    refine ⟨hoperation _ _ _ _ hnumber (hskip _ hq _ h₁), hoperation _ _ _ _ hnumber ?_⟩
    exact hoperation _ _ _ _ (hskip _ hq _ h₂) (htake _ hq' _ h)

theorem forall_mem_conjunction {bounds : List Expr} (hbounds : ∀ e ∈ bounds, E e)
    (hand : ∀ l r, E l → E r → E (.and l r)) : ∀ e ∈ bounds.foldl conjoin none, E e := by
  suffices h : ∀ o : Option Expr, (∀ e ∈ o, E e) → ∀ e ∈ bounds.foldl conjoin o, E e from
    h none (by simp)
  induction bounds with
  | nil => exact fun o ho => ho
  | cons b bounds ih =>
    obtain ⟨hb, hbounds⟩ := List.forall_mem_cons.1 hbounds
    refine fun o ho => ih hbounds (conjoin o b) ?_
    rintro _ ⟨⟩
    cases o with
    | none => exact hb
    | some e => exact hand e b (ho e rfl) hb

theorem each_page {id : QueryId} {columns : List Column} {inner : Query} {source : SourceId}
    {bounds : List Expr} {number : Expr} (hcolumns : ∀ c ∈ columns, E c.expr)
    (hsource : S { id := source, origin := .query inner, aliasName := some pagedAlias })
    (hbounds : ∀ e ∈ bounds, E e) (hand : ∀ l r, E l → E r → E (.and l r)) (hnumber : E number) :
    (page id columns inner source bounds number).Each E S := by
  rw [page_eq]
  exact {
    columns := hcolumns
    skip := by simp
    take := by simp
    sources := by simpa using hsource
    filter := forall_mem_conjunction hbounds hand
    groupBy := by simp
    having := by simp
    orderBy := by simpa using hnumber }

theorem each_numbered {order : List OrderItem} (hq : q.Each E S) (hnumber : E (rowNumber order)) :
    (q.numbered order).Each E S where
  columns := List.forall_mem_append.2 ⟨hq.columns, by simpa using hnumber⟩
  skip := hq.skip
  take := hq.take
  sources := hq.sources
  filter := hq.filter
  groupBy := hq.groupBy
  having := hq.having
  orderBy := hq.orderBy

theorem each_ofRows {rows : Query} {id : QueryId} {source : SourceId}
    (hcolumns : ∀ c ∈ q.refColumns rows.id, E c.expr)
    (hsource : S { id := source, origin := .query rows, aliasName := some distinctAlias }) :
    (q.ofRows rows id source).Each E S where
  columns := hcolumns
  skip := by simp [ofRows]
  take := by simp [ofRows]
  sources := by simpa [ofRows] using hsource
  filter := by simp [ofRows]
  groupBy := by simp [ofRows]
  having := by simp [ofRows]
  orderBy := by simp [ofRows]

theorem forall_mem_refColumns (q : Query) {id : QueryId}
    (h : ∀ c : ColumnRef, c.query = id → c.index < q.columns.length → E (.column c)) :
    ∀ c ∈ q.refColumns id, E c.expr := by
  intro c hc
  obtain ⟨index, hindex, rfl⟩ := List.mem_mapIdx.1 hc
  exact h _ rfl hindex

theorem forall_mem_refersTo {id : QueryId} {order : List OrderItem}
    (horder : List.Forall₂ (q.RefersTo id) q.orderBy order)
    (h : ∀ c : ColumnRef, c.query = id → c.index < q.columns.length → E (.column c)) :
    ∀ o ∈ order, E o.expr := by
  intro o ho
  obtain ⟨_, _, index, c, hc, -, rfl⟩ := exists_of_forall₂ horder ho
  exact h _ rfl (List.getElem?_eq_some_iff.1 hc).1

end Query

end SqlTree

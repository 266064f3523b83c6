import SqlTree.Proofs.Pagination.RowNumber
import SqlTree.Proofs.Semantics.Same

/-! # Selecting rows by their numbers

Main statements:

* `Query.rows_page`: the query that selects numbered rows has the rows of a page.
-/

namespace SqlTree

/-- The query that selects rows by their numbers, clause by clause. -/
theorem Query.page_eq (id : QueryId) (columns : List Column) (inner : Query) (source : SourceId)
    (bounds : List Expr) (number : Expr) :
    page id columns inner source bounds number = {
      id, columns
      sources := [{ id := source, origin := .query inner, aliasName := some pagedAlias }]
      filter := bounds.foldl conjoin none
      orderBy := [{ expr := number }] } := by
  rw [page, foldl_addFilter]

variable {V : Type} [DecidableEq V] {db : Database V}

/-- Conditions that have truth values, added to one that has one. -/
theorem evalCondition_foldl_conjoin {b : Env V} {es : List Expr} {cs : List Bool}
    (h : List.Forall₂ (fun e c => e.eval db b = some (db.engine.boolean c)) es cs) {e : Expr}
    {c : Bool} (he : e.eval db b = some (db.engine.boolean c)) :
    evalCondition db b (es.foldl conjoin (some e)) = some (c && cs.all id) := by
  induction h generalizing e c with
  | nil => simp [evalCondition, he, db.engine.isTrue_boolean]
  | @cons e' c' es cs he' _ ih =>
    have hand : (Expr.and e e').eval db b = some (db.engine.boolean (c && c')) := by
      simp [Expr.and, Expr.operation, Expr.eval, he, he', db.engine.and_boolean]
    rw [List.foldl_cons, List.all_cons, ← Bool.and_assoc]
    exact ih hand

/-- A conjunction of conditions that have truth values. -/
theorem evalCondition_conjunction {b : Env V} {es : List Expr} {cs : List Bool}
    (h : List.Forall₂ (fun e c => e.eval db b = some (db.engine.boolean c)) es cs) :
    evalCondition db b (es.foldl conjoin none) = some (cs.all id) := by
  cases h with
  | nil => rfl
  | cons he h => exact evalCondition_foldl_conjoin h he

theorem bindSources_derived (env : Env V) (id : SourceId) (q : Query) (a : Option String) :
    bindSources db env [⟨id, .query q, a, []⟩] =
      ((q.scan db).rows db.engine env).map fun rows => rows.map (env.bindDerived q.id) := by
  have hjoins : ∀ envs : List (Env V), (envs.flatMapM fun e => some [e]) = some envs :=
    fun envs => (flatMapM_eq_some fun _ _ => rfl).trans (by simp)
  cases h : (q.scan db).rows db.engine env <;>
    simp [bindSources, Source.side, Origin.side, joinSides, h, hjoins]

theorem length_of_evalColumns {peers : List (Env V)} {i : Nat} {b : Env V} {cs : List Column}
    {vs : List V} (h : evalColumns db peers i b cs = some vs) : vs.length = cs.length := by
  rw [evalColumns_eq_mapM] at h
  exact (forall₂_of_mapM h).length_eq.symm

/-- Columns that refer to those of a derived table have the values of its row. -/
theorem Query.evalColumns_refColumns {q : Query} {id : QueryId} {b : Env V} {vs ws : List V}
    (hb : b.derived id = some (vs ++ ws)) (hlength : vs.length = q.columns.length)
    (peers : List (Env V)) (i : Nat) :
    evalColumns db peers i b (q.refColumns id) = some vs := by
  have hvalues := mapM_getElem?_range vs ws
  rw [hlength, List.range_eq_range', ← List.zipIdx_map_snd, List.mapM_map] at hvalues
  rw [evalColumns_eq_mapM, refColumns, List.mapIdx_eq_zipIdx_map, List.mapM_map, ← hvalues]
  congr 1
  funext c
  simp [Column.eval, Expr.rowNumberKeys?, Expr.eval, hb]

theorem mapM_zipIdx_map {α β γ : Type} {f : α → β} {g : β × Nat → Option γ} {h : α → γ}
    {xs : List α} (hg : ∀ x ∈ xs, ∀ i, g (f x, i) = some (h x)) :
    (xs.map f).zipIdx.mapM g = some (xs.map h) := by
  rw [List.zipIdx_map, List.mapM_map]
  refine (mapM_eq_some (g := h ∘ Prod.fst) fun x hx => ?_).trans ?_
  · exact hg x.1 (List.fst_mem_of_mem_zipIdx hx) x.2
  · rw [← List.map_map, List.zipIdx_map_fst]

section Select

variable {α : Type} (q : Query) {inner : Query} (source : SourceId) {bounds : List Expr}
  {skip : Nat} {take : Option Nat} {env : Env V} {xs : List α} {row : α → List V} {place : α → Nat}

theorem Query.any_aggregates_refColumns (id : QueryId) :
    (q.refColumns id).any (·.expr.aggregates) = false := by
  rw [refColumns, List.mapIdx_eq_zipIdx_map, List.any_map]
  simp [Function.comp_def, Expr.aggregates]

/-- The query that selects rows by their numbers has no groups. -/
theorem Query.isGrouped_page (id : QueryId) (bounds : List Expr) (index : Nat) :
    isGrouped (page id (q.refColumns inner.id) inner source bounds
      (rowNumberRef inner.id index)) = false := by
  rw [page_eq]
  simp [isGrouped, any_aggregates_refColumns, rowNumberRef, Expr.aggregates]

/-- The environments with numbers between the bounds. -/
theorem Query.units_select
    (hrows : (inner.scan db).rows db.engine env =
      some (xs.map fun x => row x ++ [db.engine.number (place x + 1)]))
    (hbounds : ∀ x ∈ xs, evalCondition db
      (env.bindDerived inner.id (row x ++ [db.engine.number (place x + 1)]))
      (bounds.foldl conjoin none) = some (inPage skip take (place x))) :
    ((page q.id (q.refColumns inner.id) inner source bounds
        (rowNumberRef inner.id q.columns.length)).scan db).units env =
      some ((xs.filter fun x => inPage skip take (place x)).map fun x =>
        env.bindDerived inner.id (row x ++ [db.engine.number (place x + 1)])) := by
  rw [units_of_not_isGrouped db env (q.isGrouped_page source q.id bounds q.columns.length), page_eq,
    bindings_eq]
  simp only [bindSources_derived, hrows, Option.map_some, Option.bind_eq_bind, Option.bind_some]
  generalize hcondition : bounds.foldl conjoin none = condition at hbounds
  have hkeep : ∀ b ∈ (xs.map fun x => row x ++ [db.engine.number (place x + 1)]).map
      (env.bindDerived inner.id), evalCondition db b condition =
        some ((evalCondition db b condition).getD false) := by
    simp only [List.map_map, List.forall_mem_map]
    intro x hx
    simp [hbounds x hx]
  rw [flatMapM_keepIf hkeep, List.map_map, List.filter_map]
  congr 2
  refine List.filter_congr fun x hx => ?_
  simp [hbounds x hx]

/-- Selecting rows by their numbers and sorting them by these. -/
theorem Query.rows_select
    (hrows : (inner.scan db).rows db.engine env =
      some (xs.map fun x => row x ++ [db.engine.number (place x + 1)]))
    (hlength : ∀ x ∈ xs, (row x).length = q.columns.length)
    (hbounds : ∀ x ∈ xs, evalCondition db
      (env.bindDerived inner.id (row x ++ [db.engine.number (place x + 1)]))
      (bounds.foldl conjoin none) = some (inPage skip take (place x))) :
    ((page q.id (q.refColumns inner.id) inner source bounds
        (rowNumberRef inner.id q.columns.length)).scan db).rows db.engine env =
      some (((xs.filter fun x => inPage skip take (place x)).mergeSort fun a b =>
        decide (place a ≤ place b)).map row) := by
  have hunits := q.units_select source hrows hbounds
  generalize hkept : (xs.filter fun x => inPage skip take (place x)) = kept at hunits ⊢
  have hmem : ∀ x ∈ kept, x ∈ xs := fun x hx => List.mem_of_mem_filter (hkept ▸ hx)
  rw [page_eq] at hunits ⊢
  generalize hp : Query.mk q.id _ _ _ _ _ _ _ _ _ = p at hunits ⊢
  have hentries : (p.scan db).entries (kept.map fun x =>
      env.bindDerived inner.id (row x ++ [db.engine.number (place x + 1)])) =
      some (kept.map fun x => (row x, [db.engine.number (place x + 1)])) := by
    refine mapM_zipIdx_map fun x hx i => ?_
    have hrow : ∀ peers, evalColumns db peers i (env.bindDerived inner.id
        (row x ++ [db.engine.number (place x + 1)])) (q.refColumns inner.id) = some (row x) :=
      fun peers => evalColumns_refColumns (Env.derived_bindDerived_self ..)
        (hlength x (hmem x hx)) peers i
    simp [← hp, scan_eq, hrow, evalOrder, OrderItem.eval, rowNumberRef, Expr.eval,
      ← hlength x (hmem x hx)]
  have hnone : (p.scan db).bounds env = some (0, none) :=
    bounds_of_unbounded db env (by rw [← hp]) (by rw [← hp])
  have hsort : (p.scan db).arrange db.engine
      (kept.map fun x => (row x, [db.engine.number (place x + 1)])) =
      (kept.mergeSort fun a b => decide (place a ≤ place b)).map fun x =>
        (row x, [db.engine.number (place x + 1)]) := by
    have hle : ∀ a b, decide (place a ≤ place b) = db.engine.keysLe [false]
        [db.engine.number (place a + 1)] [db.engine.number (place b + 1)] := by
      intro a b
      simp [Engine.keysLe, db.engine.le_number]
    rw [List.map_mergeSort (s := fun a b => db.engine.keysLe [false] a.2 b.2)
      fun a _ b _ => hle a b]
    simp [← hp, scan_eq, Scan.arrange]
  simp only [Scan.rows, hunits, hentries, hnone, hsort, Option.bind_eq_bind, Option.bind_some,
    page_zero_none, List.map_map]
  rfl

end Select

/-- The page of a query over the numbered rows of another one. -/
theorem Query.rows_page (q : Query) {inner : Query} {order : List OrderItem} (source : SourceId)
    {bounds : List Expr} {skip : Nat} {take : Option Nat} {env : Env V} {bs : List (Env V)}
    {es : List (List V × List V)} (hinner : inner.Plain) (horder : order ≠ [])
    (hwidth : inner.columns.length = q.columns.length)
    (hbs : ({ inner with orderBy := order }.scan db).units env = some bs)
    (hes : ({ inner with orderBy := order }.scan db).entries bs = some es)
    (hbounds : ∀ place vs, vs.length = q.columns.length →
      evalCondition db (env.bindDerived inner.id (vs ++ [db.engine.number ((place : Nat) + 1)]))
        (bounds.foldl conjoin none) = some (inPage skip take place)) :
    ((page q.id (q.refColumns inner.id) (inner.numbered order) source bounds
        (rowNumberRef inner.id q.columns.length)).scan db).rows db.engine env =
      some ((SqlTree.page skip take (es.mergeSort fun a b =>
        db.engine.keysLe (order.map (·.desc)) a.2 b.2)).map (·.1)) := by
  have hrows := rows_numbered hinner horder hbs hes
  have hlength : ∀ x ∈ es.zipIdx, x.1.1.length = q.columns.length := by
    obtain ⟨row, key, rfl, hall⟩ := exists_entries hes
    intro x hx
    obtain ⟨b, hb, heq⟩ := List.mem_map.1 (List.fst_mem_of_mem_zipIdx hx)
    have hrow : evalColumns db bs b.2 b.1 inner.columns = some (row b) := by
      simpa [scan_eq] using (hall b hb).1
    rw [← heq, ← hwidth]
    exact length_of_evalColumns hrow
  have hselect := q.rows_select source hrows hlength fun x hx => hbounds _ _ (hlength x hx)
  rw [← db.engine.mergeSort_filter_rank, List.map_map]
  exact hselect

/-! Bounds as conditions. -/

/-- Where the number of a row has a value, the conditions hold if the bounds of the query leave the
row over. -/
def Query.BoundedBy (db : Database V) (P : Frame V → Frame V → Prop) (q : Query) (number : Expr)
    (conditions : List Expr) : Prop :=
  ∀ {env b : Env V} {skip take place}, env.Lift P b → (q.scan db).bounds env = some (skip, take) →
    number.eval db b = some (db.engine.number ((place : Nat) + 1)) →
    evalCondition db b (conditions.foldl conjoin none) = some (inPage skip take place)

section Bounds

variable {P : Frame V → Frame V → Prop} {q : Query} {number skip skip₁ : Expr}

theorem eval_greater {b : Env V} {place n : Nat} {v : V}
    (hnumber : number.eval db b = some (db.engine.number (place + 1)))
    (hskip : skip.eval db b = some v) (hv : db.engine.count? v = some n) :
    (Expr.operation .greater number skip .boolean).eval db b =
      some (db.engine.boolean (decide (n ≤ place))) := by
  rw [Expr.operation, Expr.eval, hnumber, hskip, db.engine.eq_number_of_count? hv]
  have hlt : (n : Int) < place + 1 ↔ n ≤ place := by omega
  simp [db.engine.greater_number, hlt]

theorem eval_lessOrEqual {take : Expr} {b : Env V} {place m n : Nat} {v w : V}
    (hnumber : number.eval db b = some (db.engine.number (place + 1)))
    (hskip : skip.eval db b = some v) (hv : db.engine.count? v = some m)
    (htake : take.eval db b = some w) (hw : db.engine.count? w = some n) :
    (Expr.operation .lessOrEqual number (.operation .add skip take .int64) .boolean).eval db b =
      some (db.engine.boolean (decide (place < m + n))) := by
  have hsum : (Expr.operation .add skip take .int64).eval db b =
      some (db.engine.number (m + n)) := by
    rw [Expr.operation, Expr.eval, hskip, htake, db.engine.eq_number_of_count? hv,
      db.engine.eq_number_of_count? hw]
    exact db.engine.add_number m n
  have hlt : (place : Int) + 1 ≤ m + n ↔ place < m + n := by omega
  rw [Expr.operation, Expr.eval, hnumber, hsum]
  simp [db.engine.lessOrEqual_number, hlt]

theorem Query.bounds_eq_some {env : Env V} {k : Nat} {n : Option Nat}
    (h : (q.scan db).bounds env = some (k, n)) :
    evalSkip db env q.skip = some k ∧ evalTake db env q.take = some n := by
  rw [scan_eq] at h
  obtain ⟨_, hskip, h⟩ := Option.bind_eq_some_iff.1 h
  obtain ⟨_, htake, h⟩ := Option.bind_eq_some_iff.1 h
  cases h
  exact ⟨hskip, htake⟩

/-- The lower bound alone. -/
theorem Query.boundedBy_skip (hskip : q.skip = some skip) (htake : q.take = none)
    (h₁ : skip.Matches db P skip₁) :
    q.BoundedBy db P number [.operation .greater number skip₁ .boolean] := by
  intro env b k n place henv hbounds hnumber
  obtain ⟨hk, hn⟩ := bounds_eq_some hbounds
  rw [hskip] at hk
  rw [htake] at hn
  cases hn
  obtain ⟨v, hv, hcount⟩ := Option.bind_eq_some_iff.1 hk
  have hlower := eval_greater hnumber ((h₁.eval henv).eq_some hv) hcount
  rw [evalCondition_conjunction (.cons hlower .nil)]
  simp [inPage]

/-- Both bounds, where the lower one occurs a second time. -/
theorem Query.boundedBy_skip_take {skip₂ take take₁ : Expr} (hskip : q.skip = some skip)
    (htake : q.take = some take) (h₁ : skip.Matches db P skip₁) (h₂ : skip.Matches db P skip₂)
    (h₃ : take.Matches db P take₁) :
    q.BoundedBy db P number [.operation .greater number skip₁ .boolean,
      .operation .lessOrEqual number (.operation .add skip₂ take₁ .int64) .boolean] := by
  intro env b k n place henv hbounds hnumber
  obtain ⟨hk, hn⟩ := bounds_eq_some hbounds
  rw [hskip] at hk
  rw [htake] at hn
  obtain ⟨v, hv, hcount⟩ := Option.bind_eq_some_iff.1 hk
  obtain ⟨w, hw, hn⟩ := Option.bind_eq_some_iff.1 hn
  obtain ⟨m, hm, hn⟩ := Option.bind_eq_some_iff.1 hn
  cases hn
  have hlower := eval_greater hnumber ((h₁.eval henv).eq_some hv) hcount
  have hupper := eval_lessOrEqual hnumber ((h₂.eval henv).eq_some hv) hcount
    ((h₃.eval henv).eq_some hw) hm
  rw [evalCondition_conjunction (.cons hlower (.cons hupper .nil))]
  simp [inPage]

end Bounds

/-! Queries in place of others. -/

/-- A query without bounds has as many rows as environments. -/
theorem Query.units_of_rows {q : Query} (hdistinct : q.distinct = false) (hskip : q.skip = none)
    (htake : q.take = none) {env : Env V} {rows : List (List V)}
    (h : (q.scan db).rows db.engine env = some rows) :
    ∃ bs, (q.scan db).units env = some bs ∧ bs.length = rows.length ∧
      ∀ b vs, bs = [b] → rows = [vs] → evalColumns db [b] 0 b q.columns = some vs := by
  obtain ⟨bs, hbs, h⟩ := Option.bind_eq_some_iff.1 h
  obtain ⟨es, hes, h⟩ := Option.bind_eq_some_iff.1 h
  have hbounds := bounds_of_unbounded db env hskip htake
  have hdistinct' : (q.scan db).distinct = false := by rw [scan_eq, hdistinct]
  simp only [hbounds, Scan.arrange, hdistinct', Bool.false_eq_true, if_false, page_zero_none,
    Option.bind_eq_bind, Option.bind_some, Option.pure_def, Option.some.injEq] at h
  have hlength : bs.length = es.length := by
    simpa using (forall₂_of_mapM hes).length_eq
  refine ⟨bs, hbs, by simp [← h, hlength], ?_⟩
  rintro b vs rfl rfl
  obtain ⟨row, key, rfl, hall⟩ := exists_entries hes
  have hrow : evalColumns db [b] 0 b q.columns = some (row (b, 0)) := by
    simpa [scan_eq] using (hall (b, 0) (by simp)).1
  simp only [List.zipIdx_singleton, List.map_cons, List.map_nil, List.mergeSort_singleton,
    List.cons.injEq, and_true] at h
  rw [hrow, h]

theorem evalFirst_of_evalColumns {cs : List Column} {b : Env V} {vs : List V}
    (h : evalColumns db [b] 0 b cs = some vs) : evalFirst db b cs = vs.head? := by
  cases cs with
  | nil =>
    cases h
    rfl
  | cons c cs =>
    obtain ⟨v, hv, h⟩ := Option.bind_eq_some_iff.1 h
    obtain ⟨ws, hws, h⟩ := Option.bind_eq_some_iff.1 h
    cases h
    exact hv

/-- A query with bounds is matched by one without that has the same rows. -/
theorem Query.Matches.of_rows {P : Frame V → Frame V → Prop} {q q' : Query}
    (hbounded : q.hasSkip = true) (hdistinct : q'.distinct = false) (hskip : q'.skip = none)
    (htake : q'.take = none)
    (h : ∀ {env env'}, env.Lift P env' →
      Refines Eq ((q.scan db).rows db.engine env) ((q'.scan db).rows db.engine env')) :
    q.Matches db P q' := by
  have hb : (q.scan db).bounded = true := by
    rw [scan_eq]
    simp only [Bool.or_eq_true]
    exact .inl hbounded
  have hb' : (q'.scan db).bounded = false := by simp [scan_eq, hskip, htake]
  have hd' : (q'.scan db).distinct = false := by rw [scan_eq, hdistinct]
  have hfirst : (q'.scan db).first = fun b => evalFirst db b q'.columns := by rw [scan_eq]
  refine ⟨h, fun henv v hv => ?_, fun henv v hv => ?_⟩
  · simp only [Scan.single?, hb, Bool.true_or, if_true] at hv
    obtain ⟨rows, hrows, hv⟩ := Option.bind_eq_some_iff.1 hv
    obtain ⟨bs, hbs, hlength, hcolumns⟩ :=
      units_of_rows hdistinct hskip htake ((h henv).eq_some hrows)
    simp only [Scan.single?, hb', hd', Bool.or_self, Bool.false_eq_true, if_false, hbs,
      Option.bind_eq_bind, Option.bind_some]
    rcases rows with _ | ⟨vs, _ | _⟩
    · obtain rfl := List.length_eq_zero_iff.1 hlength
      exact ⟨v, hv, rfl⟩
    · obtain ⟨b, rfl⟩ := List.length_eq_one_iff.1 hlength
      refine ⟨v, ?_, rfl⟩
      simp only [hfirst]
      rw [evalFirst_of_evalColumns (hcolumns b vs rfl rfl)]
      exact hv
    · cases hv
  · simp only [Scan.hasRow, hb, if_true] at hv
    obtain ⟨rows, hrows, rfl⟩ := Option.map_eq_some_iff.1 hv
    obtain ⟨bs, hbs, hlength, -⟩ := units_of_rows hdistinct hskip htake ((h henv).eq_some hrows)
    simp only [Scan.hasRow, hb', Bool.false_eq_true, if_false, hbs, Option.map_some]
    refine ⟨_, rfl, ?_⟩
    cases rows <;> cases bs <;> simp_all

end SqlTree

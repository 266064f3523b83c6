import SqlTree.Proofs.Ident
import SqlTree.Proofs.Pagination.Page

/-! # Queries by row numbers

A query with bounds matches the query that selects its rows by their numbers. The new queries have
ids that are not in use, so that they do not hide what is read from outside.

Main definitions:

* `Frame.Extends`: a frame that holds what another one holds, and more.

Main statements:

* `Query.matches_page`: a query without repeated rows to remove.
* `Query.matches_distinctPage`: a query whose rows are made distinct before they are numbered.
-/

namespace SqlTree

variable {V : Type}

/-- The second frame holds what the first one holds, all under ids in use. -/
structure Frame.Extends (ids : Ids) (f f' : Frame V) : Prop where
  source : ∀ id x, f.source id = some x → (Ident.source id).Below ids ∧ f'.source id = some x
  derived : ∀ id vs, f.derived id = some vs → (Ident.query id).Below ids ∧ f'.derived id = some vs

namespace Frame.Extends

variable {ids : Ids} {f f' : Frame V}

theorem bindSource (h : f.Extends ids f') {id : SourceId} (hid : (Ident.source id).Below ids)
    (x : Row V) : (f.bindSource id x).Extends ids (f'.bindSource id x) where
  source i y hy := by
    rw [source_bindSource] at hy ⊢
    split at hy
    · rename_i hi
      rw [if_pos hi]
      exact ⟨hi ▸ hid, hy⟩
    · rename_i hi
      rw [if_neg hi]
      exact h.source i y hy
  derived := h.derived

theorem bindDerived (h : f.Extends ids f') {id : QueryId} (hid : (Ident.query id).Below ids)
    (vs : List V) : (f.bindDerived id vs).Extends ids (f'.bindDerived id vs) where
  source := h.source
  derived i ws hws := by
    rw [derived_bindDerived] at hws ⊢
    split at hws
    · rename_i hi
      rw [if_pos hi]
      exact ⟨hi ▸ hid, hws⟩
    · rename_i hi
      rw [if_neg hi]
      exact h.derived i ws hws

/-- What is bound under a new id hides nothing. -/
theorem bindNew (h : f.Extends ids f') {id : QueryId} (hid : ¬ (Ident.query id).Below ids)
    (vs : List V) : f.Extends ids (f'.bindDerived id vs) where
  source := h.source
  derived i ws hws := by
    obtain ⟨hi, hderived⟩ := h.derived i ws hws
    have hne : i ≠ id := fun heq => hid (heq ▸ hi)
    rw [derived_bindDerived, if_neg hne]
    exact ⟨hi, hderived⟩

end Frame.Extends

theorem Env.lift_extends_empty (ids : Ids) :
    (Env.empty : Env V).Lift (Frame.Extends ids) Env.empty where
  frame :=
    { source := fun _ _ h => by simp at h
      derived := fun _ _ h => by simp at h }
  group := .none

variable [DecidableEq V] {db : Database V} {ids : Ids} {q inner : Query} {order : List OrderItem}
  {source : SourceId} {bounds : List Expr}

/-- A query matches the page over numbered rows if these are, up to repeated rows, its own rows with
the keys to order them by. -/
theorem Query.matches_page_of_entries (hskip : q.hasSkip = true) (hinner : inner.Plain)
    (hwidth : inner.columns.length = q.columns.length) (hid : ¬ (Ident.query inner.id).Below ids)
    (hbounds : q.BoundedBy db (Frame.Extends ids) (rowNumberRef inner.id q.columns.length) bounds)
    (horder : q.orderBy ≠ []) (hdesc : order.map (·.desc) = q.orderBy.map (·.desc))
    (hentries : ∀ {env env' bs es}, env.Lift (Frame.Extends ids) env' →
      (q.scan db).units env = some bs → (q.scan db).entries bs = some es →
      ∃ bs', ({ inner with orderBy := order }.scan db).units env' = some bs' ∧
        ({ inner with orderBy := order }.scan db).entries bs' =
          some (if q.distinct then distinctOn (·.1) es else es)) :
    q.Matches db (Frame.Extends ids)
      (page q.id (q.refColumns inner.id) (inner.numbered order) source bounds
        (rowNumberRef inner.id q.columns.length)) := by
  refine .of_rows hskip (by rw [page_eq]) (by rw [page_eq]) (by rw [page_eq]) ?_
  intro env env' henv rows hrows
  obtain ⟨bs, hbs, hrows⟩ := Option.bind_eq_some_iff.1 hrows
  obtain ⟨es, hes, hrows⟩ := Option.bind_eq_some_iff.1 hrows
  obtain ⟨⟨skip, take⟩, hb, hrows⟩ := Option.bind_eq_some_iff.1 hrows
  cases hrows
  obtain ⟨bs', hbs', hes'⟩ := hentries henv hbs hes
  have horder' : order ≠ [] := by
    rintro rfl
    exact horder (List.map_eq_nil_iff.1 hdesc.symm)
  have hpage := q.rows_page source hinner horder' hwidth hbs' hes' fun place vs hvs =>
    hbounds ⟨henv.frame.bindNew hid _, henv.group⟩ hb (by simp [rowNumberRef, Expr.eval, ← hvs])
  refine ⟨_, hpage, ?_⟩
  rw [hdesc, Scan.arrange, scan_eq]

/-- A query whose rows need not be distinct. -/
theorem Query.matches_page (hskip : q.hasSkip = true) (horder : q.orderBy ≠ [])
    (hdistinct : q.distinct = false) (hinner : inner.Plain)
    (hid : ¬ (Ident.query inner.id).Below ids)
    (hclauses : ClausesMatch db (Frame.Extends ids) { q with skip := none, take := none }
      { inner with orderBy := order })
    (hbounds : q.BoundedBy db (Frame.Extends ids) (rowNumberRef inner.id q.columns.length) bounds) :
    q.Matches db (Frame.Extends ids)
      (page q.id (q.refColumns inner.id) (inner.numbered order) source bounds
        (rowNumberRef inner.id q.columns.length)) := by
  refine matches_page_of_entries hskip hinner hclauses.columns.length_eq.symm hid hbounds horder
    (map_desc_eq (hclauses.orderBy.imp fun _ _ ho => ho.2)) fun {env env' bs es} henv hbs hes => ?_
  have hscan := hclauses.scan
  have hbs₀ : ({ q with skip := none, take := none }.scan db).units env = some bs := by
    rw [← hbs]
    exact units_congr db env rfl rfl rfl rfl rfl
  have hes₀ : ({ q with skip := none, take := none }.scan db).entries bs = some es := by
    rw [← hes, scan_eq, scan_eq]
    rfl
  obtain ⟨bs', hbs', hall⟩ := hscan.units henv bs hbs₀
  refine ⟨bs', hbs', ?_⟩
  rw [hdistinct]
  exact (hscan.entries hall).eq_some hes₀

/-! Distinct rows. -/

theorem mem_of_mem_distinctOn {α β : Type} [DecidableEq β] {f : α → β} {x : α} {xs : List α}
    (h : x ∈ distinctOn f xs) : x ∈ xs := by
  induction xs with
  | nil => cases h
  | cons y xs ih =>
    rcases List.mem_cons.1 h with rfl | h
    · exact List.mem_cons_self
    · exact List.mem_cons_of_mem y (ih (List.mem_of_mem_filter h))

/-- An order item that refers to a projected column. -/
def Query.RefersTo (q : Query) (id : QueryId) (o o' : OrderItem) : Prop :=
  ∃ index c, q.columns[index]? = some c ∧ c.expr.same o.expr = true ∧
    o' = { o with expr := .column { query := id, index, dataType := c.dataType } }

theorem Query.refersTo_of_refOrder? {id : QueryId} (h : q.refOrder? id = some order) :
    List.Forall₂ (q.RefersTo id) q.orderBy order := by
  refine (forall₂_of_mapM h).imp fun o o' ho => ?_
  obtain ⟨index, hindex, ho⟩ := Option.bind_eq_some_iff.1 ho
  obtain ⟨column, hcolumn, ho⟩ := Option.bind_eq_some_iff.1 ho
  cases ho
  obtain ⟨hlt, hsame, -⟩ := List.findIdx?_eq_some_iff_getElem.1 hindex
  rw [refColumns, List.getElem?_mapIdx, List.getElem?_eq_getElem hlt] at hcolumn
  cases hcolumn
  exact ⟨index, _, List.getElem?_eq_getElem hlt, hsame, rfl⟩

/-- What is projected has the aggregates of the expressions to order by. -/
theorem Query.isGrouped_of_refersTo {id : QueryId}
    (h : List.Forall₂ (q.RefersTo id) q.orderBy order) :
    isGrouped { q with skip := none, take := none, orderBy := [] } = q.isGrouped := by
  have hprojected : q.orderBy.any (·.expr.aggregates) = true →
      q.columns.any (·.expr.aggregates) = true := by
    simp only [List.any_eq_true]
    rintro ⟨o, ho, hagg⟩
    have hflip : List.Forall₂ (fun o' o => q.RefersTo id o o') order q.orderBy := h.flip
    obtain ⟨_, -, index, c, hc, hsame, -⟩ := exists_of_forall₂ hflip ho
    have hmatch : c.expr.Matches ⟨.integers, fun _ => none⟩ Eq o.expr := Expr.matches_of_same hsame
    exact ⟨c, List.mem_of_getElem? hc, hmatch.aggregates ▸ hagg⟩
  unfold isGrouped
  cases hcolumns : q.columns.any (·.expr.aggregates) with
  | true => simp
  | false =>
    have horderBy : q.orderBy.any (·.expr.aggregates) = false :=
      Bool.eq_false_iff.2 fun htrue => by simp [hprojected htrue] at hcolumns
    simp [horderBy]

/-- References have no aggregates. -/
theorem Query.any_aggregates_of_refersTo {id : QueryId}
    (h : List.Forall₂ (q.RefersTo id) q.orderBy order) :
    order.any (·.expr.aggregates) = false := by
  rw [List.any_eq_false]
  intro o ho
  obtain ⟨_, -, _, _, -, -, rfl⟩ := exists_of_forall₂ h ho
  simp [Expr.aggregates]

/-- References to projected columns have the values of the expressions to order by. -/
theorem Query.evalOrder_refersTo {id : QueryId} (h : List.Forall₂ (q.RefersTo id) q.orderBy order)
    {peers : List (Env V)} {i : Nat} {b b' : Env V} {vs ks : List V}
    (hvs : evalColumns db peers i b q.columns = some vs)
    (hks : evalOrder db b q.orderBy = some ks) (hb' : b'.derived id = some vs) :
    evalOrder db b' order = some ks := by
  rw [evalOrder_eq_mapM] at hks ⊢
  refine (Refines.mapM_eq h ?_).eq_some hks
  rintro o _ ⟨index, c, hc, hsame, rfl⟩ v hv
  rw [evalColumns_eq_mapM] at hvs
  obtain ⟨w, hw, hcw⟩ := getElem?_of_mapM hvs hc
  have hmatch : c.expr.Matches db Eq o.expr := Expr.matches_of_same hsame
  -- The column is no row number, for the expression to order by has a value.
  have hkeys : c.expr.rowNumberKeys? = none :=
    hmatch.keys.symm.trans (Expr.rowNumberKeys?_eq_none hv)
  rw [Column.eval_of_rowNumberKeys? db b hkeys] at hcw
  refine ⟨w, ?_, ?_⟩
  · simp [Expr.eval, hb', hw]
  · rw [(hmatch.eval (.refl (fun _ => rfl) b)).eq_some hcw] at hv
    exact (Option.some.inj hv).symm

/-- The columns of the query `rows` as a derived table, under the aliases of `q`. -/
def Query.ofRows (q rows : Query) (id : QueryId) (source : SourceId) : Query where
  id := id
  columns := q.refColumns rows.id
  sources := [{ id := source, origin := .query rows, aliasName := some distinctAlias }]

theorem Query.units_ofRows {rows : Query} {id : QueryId} {rowsSource : SourceId} {env : Env V}
    {vss : List (List V)} (h : (rows.scan db).rows db.engine env = some vss)
    (horder : order.any (·.expr.aggregates) = false) :
    ({ q.ofRows rows id rowsSource with orderBy := order }.scan db).units env =
      some (vss.map (env.bindDerived rows.id)) := by
  have hgrouped : isGrouped { q.ofRows rows id rowsSource with orderBy := order } = false := by
    simp [isGrouped, ofRows, q.any_aggregates_refColumns, horder]
  rw [units_of_not_isGrouped db env hgrouped, bindings_eq]
  simp only [ofRows, bindSources_derived, h, Option.map_some, Option.bind_eq_bind,
    Option.bind_some]
  have hall : ((vss.map (env.bindDerived rows.id)).flatMapM fun b =>
      b.keepIf (evalCondition db b none)) =
        some ((vss.map (env.bindDerived rows.id)).filter fun _ => true) :=
    flatMapM_keepIf fun _ _ => rfl
  rwa [List.filter_true] at hall

/-- The distinct rows of a query, by those of its clauses that make rows. -/
theorem Query.rows_distinct (hdistinct : q.distinct = true)
    (hgrouped : isGrouped { q with skip := none, take := none, orderBy := [] } = q.isGrouped)
    {env : Env V} {bs : List (Env V)} {es : List (List V × List V)}
    (hbs : (q.scan db).units env = some bs) (hes : (q.scan db).entries bs = some es) :
    ({ q with skip := none, take := none, orderBy := [] }.scan db).rows db.engine env =
      some ((distinctOn (·.1) es).map (·.1)) := by
  obtain ⟨row, key, rfl, hall⟩ := exists_entries hes
  have hbs' : ({ q with skip := none, take := none, orderBy := [] }.scan db).units env =
      some bs := by
    rw [← hbs]
    exact units_congr db env rfl rfl rfl rfl hgrouped
  have hrow : ∀ b ∈ bs.zipIdx, evalColumns db bs b.2 b.1 q.columns = some (row b) := by
    intro b hb
    simpa [scan_eq] using (hall b hb).1
  rw [rows_of_unordered rfl rfl rfl hbs' hrow, map_distinctOn Prod.fst fun vs => vs, List.map_map]
  simp [hdistinct, Function.comp_def]

/-- A query whose rows are made distinct in a derived table before they are numbered. -/
theorem Query.matches_distinctPage {rows : Query} {rowsSource : SourceId} {innerId : QueryId}
    (hskip : q.hasSkip = true) (horder : q.orderBy ≠ []) (hdistinct : q.distinct = true)
    (hid : ¬ (Ident.query innerId).Below ids) (hrefs : q.refOrder? rows.id = some order)
    (hclauses : ClausesMatch db (Frame.Extends ids)
      { q with skip := none, take := none, orderBy := [] } rows)
    (hbounds : q.BoundedBy db (Frame.Extends ids) (rowNumberRef innerId q.columns.length) bounds) :
    q.Matches db (Frame.Extends ids) (page q.id (q.refColumns innerId)
      ((q.ofRows rows innerId rowsSource).numbered order) source bounds
      (rowNumberRef innerId q.columns.length)) := by
  have hall := refersTo_of_refOrder? hrefs
  have hdesc : order.map (·.desc) = q.orderBy.map (·.desc) := by
    refine map_desc_eq (hall.imp ?_)
    rintro o _ ⟨_, _, _, _, rfl⟩
    rfl
  have hinner : (q.ofRows rows innerId rowsSource).Plain := ⟨rfl, rfl, rfl, rfl⟩
  refine matches_page_of_entries hskip hinner (by simp [ofRows, refColumns]) hid hbounds horder
    hdesc fun {env env' bs es} henv hbs hes => ?_
  have hrows := (hclauses.toMatches.rows henv).eq_some
    (rows_distinct hdistinct (isGrouped_of_refersTo hall) hbs hes)
  have hkeys : ∀ e ∈ distinctOn (·.1) es, evalOrder db (env'.bindDerived rows.id e.1) order =
      some e.2 ∧ e.1.length = q.columns.length := by
    obtain ⟨row, key, rfl, hentries⟩ := exists_entries hes
    intro e he
    obtain ⟨b, hb, rfl⟩ := List.mem_map.1 (mem_of_mem_distinctOn he)
    obtain ⟨hrow, hkey⟩ := hentries b hb
    simp only [scan_eq] at hrow hkey
    exact ⟨evalOrder_refersTo hall hrow hkey (Env.derived_bindDerived_self ..),
      length_of_evalColumns hrow⟩
  refine ⟨_, units_ofRows hrows (any_aggregates_of_refersTo hall), ?_⟩
  rw [hdistinct, if_pos rfl, List.map_map]
  refine (mapM_zipIdx_map (h := fun e => e) fun e he i => ?_).trans (by rw [List.map_id'])
  obtain ⟨hkey, hlength⟩ := hkeys e he
  have hb : (env'.bindDerived rows.id e.1).derived rows.id = some (e.1 ++ []) := by simp
  simp [scan_eq, ofRows, hkey, evalColumns_refColumns hb hlength]

end SqlTree

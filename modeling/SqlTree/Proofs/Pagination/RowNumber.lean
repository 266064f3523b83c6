import SqlTree.Lowering.RowNumber
import SqlTree.Proofs.Number.Digits
import SqlTree.Proofs.Pagination.Rank
import SqlTree.Proofs.Refinement

/-! # Row numbers

Main definitions:

* `Query.Plain`: a query over which rows are numbered.

Main statements:

* `Expr.rowNumberKeys?_rowNumber`: the text of a row number holds the places of its arguments and
  their directions.
* `Query.rows_numbered`: the rows of a query with their numbers.
-/

namespace SqlTree

/-! The text. -/

theorem toList_orderPlace (index : Nat) (o : OrderItem) :
    (orderPlace index o).toList =
      '\x7b' :: (Nat.toDigits 10 index ++
        if o.desc then "\x7d DESC".toList else "\x7d".toList) := by
  unfold orderPlace
  cases o.desc <;> simp [Decimal.toList_integer]

/-- The place of an argument is read as it was written. -/
theorem rowNumberKey?_orderPlace (index : Nat) (o : OrderItem) :
    rowNumberKey? (' ' :: (orderPlace index o).toList) = some (index, o.desc) := by
  have hdigit : ∀ c ∈ Nat.toDigits 10 index, c.isDigit = true :=
    fun c hc => Nat.isDigit_of_mem_toDigits (by decide) (by decide) hc
  rw [toList_orderPlace]
  cases o.desc <;>
    simp [rowNumberKey?, List.takeWhile_append_of_pos hdigit, List.dropWhile_append_of_pos hdigit,
      Decimal.natural?_toDigits]

theorem comma_notMem_orderPlace (index : Nat) (o : OrderItem) :
    ',' ∉ ' ' :: (orderPlace index o).toList := by
  have hdigit : ',' ∉ Nat.toDigits 10 index := fun hc => by
    have h := Nat.isDigit_of_mem_toDigits (by decide) (by decide) hc
    revert h
    decide
  rw [toList_orderPlace]
  cases o.desc <;> simp [hdigit]

theorem intercalate_map_cons (c d : Char) {ls : List (List Char)} (h : ls ≠ []) :
    d :: [c, d].intercalate ls = [c].intercalate (ls.map (d :: ·)) := by
  induction ls with
  | nil => exact absurd rfl h
  | cons l ls ih =>
    cases ls with
    | nil => simp
    | cons l' ls =>
      have hrest := ih (by simp)
      simp only [List.map_cons, List.intercalate_cons_cons] at hrest ⊢
      simp [← hrest]

theorem isPrefixOf?_append (l r : List Char) : l.isPrefixOf? (l ++ r) = some r := by
  induction l with
  | nil => cases r <;> rfl
  | cons c l ih => simp [List.isPrefixOf?, ih]

theorem isSuffixOf?_append (l r : List Char) : r.isSuffixOf? (l ++ r) = some l := by
  simp [List.isSuffixOf?, isPrefixOf?_append]

/-- The text of a row number holds the places of its arguments and their directions. -/
theorem Expr.rowNumberKeys?_rowNumber {order : List OrderItem} (h : order ≠ []) :
    (rowNumber order).rowNumberKeys? = some (order.mapIdx fun i o => (i, o.desc)) := by
  let places := order.zipIdx.map fun o => (orderPlace o.2 o.1).toList
  have hplaces : places ≠ [] := by simpa [places] using h
  have htext : ("ROW_NUMBER() OVER (ORDER BY " ++ ", ".intercalate (order.mapIdx orderPlace) ++
      ")").toList = "ROW_NUMBER() OVER (ORDER BY".toList ++
        ([','].intercalate (places.map (' ' :: ·)) ++ [')']) := by
    rw [← intercalate_map_cons ',' ' ' hplaces]
    simp [places, List.mapIdx_eq_zipIdx_map, Function.comp_def]
  have hcomma : ∀ l ∈ places.map (' ' :: ·), ',' ∉ l := by
    simp only [places, List.map_map, List.forall_mem_map]
    exact fun o _ => comma_notMem_orderPlace o.2 o.1
  simp only [rowNumber, Expr.rowNumberKeys?, SqlTree.rowNumberKeys?, htext, isPrefixOf?_append,
    isSuffixOf?_append, Option.bind_eq_bind, Option.bind_some]
  rw [List.splitOn_intercalate _ hcomma (by simpa using hplaces), List.mapIdx_eq_zipIdx_map,
    List.map_map]
  simp only [List.mapM_map]
  exact mapM_eq_some fun o _ => rowNumberKey?_orderPlace o.2 o.1

/-! The numbers. -/

theorem mapM_getElem?_range {α : Type} (xs ys : List α) :
    (List.range xs.length).mapM (fun i => (xs ++ ys)[i]?) = some xs := by
  induction xs with
  | nil => rfl
  | cons x xs ih =>
    rw [List.length_cons, List.range_succ_eq_map, List.mapM_cons, List.mapM_map]
    simp [Function.comp_def, ih]

theorem mergeSort_of_forall {α : Type} {le : α → α → Bool} (h : ∀ a b, le a b = true)
    (xs : List α) : xs.mergeSort le = xs :=
  List.mergeSort_of_pairwise (List.pairwise_of_forall fun a b => h a b)

theorem zipIdx_zipIdx {α : Type} (xs : List α) (n : Nat) :
    (xs.zipIdx n).zipIdx n = (xs.zipIdx n).map fun x => (x, x.2) := by
  induction xs generalizing n with
  | nil => rfl
  | cons x xs ih => simp [ih]

variable {V : Type} [DecidableEq V] {db : Database V}

theorem evalArgs_rowNumber (order : List OrderItem) (b : Env V) :
    (rowNumber order).evalArgs db b = evalOrder db b order := by
  rw [rowNumber, Expr.evalArgs, evalExprs_eq_mapM, evalOrder_eq_mapM, List.mapM_map]
  rfl

/-- The number of a row is its rank among all rows. -/
theorem Column.eval_numbered {order : List OrderItem} (h : order ≠ []) (a : Option String)
    {bs : List (Env V)} {keys : List (List V)} (hkeys : bs.mapM (evalOrder db · order) = some keys)
    (i : Nat) (b : Env V) :
    Column.eval db bs i b ⟨rowNumber order, a⟩ =
      some (db.engine.number (db.engine.rank (order.map (·.desc)) keys i + 1)) := by
  have hplaces : ((order.mapIdx fun i o => (i, o.desc)).map (·.1)) = List.range order.length := by
    rw [List.mapIdx_eq_zipIdx_map, List.map_map, List.range_eq_range', ← List.zipIdx_map_snd]
    rfl
  have hdesc : ((order.mapIdx fun i o => (i, o.desc)).map (·.2)) = order.map (·.desc) := by
    rw [List.mapIdx_eq_zipIdx_map, List.map_map]
    nth_rewrite 2 [← List.zipIdx_map_fst 0 order]
    rw [List.map_map]
    rfl
  -- The places of the arguments run through all of them.
  have hargs : ∀ b, ((rowNumber order).evalArgs db b >>= fun args =>
      (order.mapIdx fun i o => (i, o.desc)).mapM fun k => args[k.1]?) = evalOrder db b order := by
    intro b
    rw [evalArgs_rowNumber]
    cases hb : evalOrder db b order with
    | none => rfl
    | some args =>
      have hlength : args.length = order.length := by
        rw [evalOrder_eq_mapM] at hb
        exact (forall₂_of_mapM hb).length_eq.symm
      have hall := mapM_getElem?_range args []
      rw [hlength, ← hplaces, List.append_nil, List.mapM_map] at hall
      exact hall
  rw [Column.eval_rowNumber db b (Expr.rowNumberKeys?_rowNumber h)]
  simp only [hargs, hkeys, hdesc, Option.map_some]

/-! The rows of queries without bounds. -/

theorem map_distinctOn {α β γ : Type} [DecidableEq γ] (f : α → β) (g : β → γ) (xs : List α) :
    (distinctOn (fun x => g (f x)) xs).map f = distinctOn g (xs.map f) := by
  induction xs with
  | nil => rfl
  | cons x xs ih => simp [distinctOn, ← ih, List.filter_map, Function.comp_def]

/-- A query without bounds and without an order returns its rows as they come. -/
theorem Query.rows_of_unordered {q : Query} (hskip : q.skip = none) (htake : q.take = none)
    (horderBy : q.orderBy = []) {env : Env V} {bs : List (Env V)}
    (hbs : (q.scan db).units env = some bs) {row : Env V × Nat → List V}
    (hrow : ∀ b ∈ bs.zipIdx, evalColumns db bs b.2 b.1 q.columns = some (row b)) :
    (q.scan db).rows db.engine env =
      some (if q.distinct then distinctOn (fun vs => vs) (bs.zipIdx.map row)
        else bs.zipIdx.map row) := by
  have hentries : (q.scan db).entries bs = some (bs.zipIdx.map fun b => (row b, [])) :=
    mapM_eq_some fun b hb => by simp [scan_eq, horderBy, evalOrder, hrow b hb]
  have hbounds := bounds_of_unbounded db env hskip htake
  have hsort : ∀ es : List (List V × List V), (es.mergeSort fun a b =>
      db.engine.keysLe (q.scan db).descending a.2 b.2) = es := by
    refine mergeSort_of_forall fun a b => ?_
    simp [scan_eq, horderBy, Engine.keysLe]
  have hdistinct : (q.scan db).distinct = q.distinct := by rw [scan_eq]
  simp only [Scan.rows, hbs, hentries, hbounds, Scan.arrange, hsort, hdistinct, page_zero_none,
    Option.bind_eq_bind, Option.bind_some, Option.pure_def]
  split
  · rw [map_distinctOn Prod.fst fun vs => vs, List.map_map]
    rfl
  · rw [List.map_map]
    rfl

omit [DecidableEq V] in
/-- Entries, as a function of the environments. -/
theorem exists_entries {c : Scan V} {bs : List (Env V)} {es : List (List V × List V)}
    (h : c.entries bs = some es) :
    ∃ row key : Env V × Nat → List V, es = bs.zipIdx.map (fun b => (row b, key b)) ∧
      ∀ b ∈ bs.zipIdx, c.project bs b.2 b.1 = some (row b) ∧ c.keys b.1 = some (key b) := by
  have hall : ∀ b ∈ bs.zipIdx, c.project bs b.2 b.1 = some ((c.project bs b.2 b.1).getD []) ∧
      c.keys b.1 = some ((c.keys b.1).getD []) := by
    intro b hb
    obtain ⟨x, hx⟩ := exists_of_mapM h hb
    obtain ⟨vs, hvs, hx⟩ := Option.bind_eq_some_iff.1 hx
    obtain ⟨ks, hks, -⟩ := Option.bind_eq_some_iff.1 hx
    simp [hvs, hks]
  refine ⟨_, _, ?_, hall⟩
  refine Option.some.inj (h.symm.trans (mapM_eq_some fun b hb => ?_))
  rw [(hall b hb).1, (hall b hb).2]
  rfl

/-- A query without bounds, order and duplicates to remove, over which rows are numbered. -/
structure Query.Plain (q : Query) : Prop where
  distinct : q.distinct = false
  skip : q.skip = none
  take : q.take = none
  orderBy : q.orderBy = []

/-- A row number has the aggregates of the expressions to order by. -/
theorem Query.isGrouped_numbered {q : Query} (hq : q.Plain) (order : List OrderItem) :
    (q.numbered order).isGrouped = isGrouped { q with orderBy := order } := by
  have hnumber : (rowNumber order).aggregates = order.any (·.expr.aggregates) := by
    simp [rowNumber, Expr.aggregates, anyAggregates_eq_any, List.any_map, Function.comp_def]
  simp [isGrouped, numbered, hq.orderBy, hnumber, Bool.or_assoc]

/-- The rows of a query with their numbers. -/
theorem Query.rows_numbered {q : Query} (hq : q.Plain) {order : List OrderItem}
    (horder : order ≠ []) {env : Env V} {bs : List (Env V)}
    (hbs : ({ q with orderBy := order }.scan db).units env = some bs) {es : List (List V × List V)}
    (hes : ({ q with orderBy := order }.scan db).entries bs = some es) :
    ((q.numbered order).scan db).rows db.engine env =
      some (es.zipIdx.map fun x => x.1.1 ++ [db.engine.number
        (db.engine.rank (order.map (·.desc)) (es.map (·.2)) x.2 + 1)]) := by
  obtain ⟨row, key, rfl, hall⟩ := exists_entries hes
  have hkeys : bs.mapM (evalOrder db · order) = some (bs.zipIdx.map key) := by
    nth_rewrite 1 [← List.zipIdx_map_fst 0 bs]
    rw [List.mapM_map]
    refine mapM_eq_some fun b hb => ?_
    simpa [scan_eq] using (hall b hb).2
  have hrows : ∀ b ∈ bs.zipIdx, evalColumns db bs b.2 b.1 (q.numbered order).columns =
      some (row b ++ [db.engine.number
        (db.engine.rank (order.map (·.desc)) (bs.zipIdx.map key) b.2 + 1)]) := by
    intro b hb
    have hcolumns : evalColumns db bs b.2 b.1 q.columns = some (row b) := by
      simpa [scan_eq] using (hall b hb).1
    rw [evalColumns_eq_mapM] at hcolumns ⊢
    simp only [numbered, List.mapM_append, hcolumns, List.mapM_cons, List.mapM_nil,
      Column.eval_numbered horder _ hkeys]
    rfl
  have hbs' : ((q.numbered order).scan db).units env = some bs := by
    rw [← hbs]
    exact units_congr db env rfl rfl rfl rfl (isGrouped_numbered hq order)
  rw [rows_of_unordered (q := q.numbered order) hq.skip hq.take hq.orderBy hbs' hrows]
  have hplaces : (bs.zipIdx.map fun b => (row b, key b)).zipIdx =
      bs.zipIdx.map fun b => ((row b, key b), b.2) := by
    rw [List.zipIdx_map, zipIdx_zipIdx, List.map_map]
    rfl
  rw [hplaces]
  simp [numbered, hq.distinct, Function.comp_def]

end SqlTree

import SqlTree.Transform.Basic

/-! # Transformations without lists

A transformation of a list runs through its elements.

Main statements:

* `Query.transform_eq`, `Source.transform_eq`: the walk, in terms of the parts of a query and of a
  source.
-/

namespace SqlTree

variable {m : Type → Type} [Monad m] [LawfulMonad m] (t : Transform m)

/-- A run through a list without effects. -/
theorem mapM_eq_pure_map {α β : Type} {k : α → m β} {g : α → β} {xs : List α}
    (h : ∀ x ∈ xs, k x = pure (g x)) : xs.mapM k = pure (xs.map g) := by
  induction xs with
  | nil => simp
  | cons x xs ih =>
    rw [List.mapM_cons, h x List.mem_cons_self, ih fun y hy => h y (List.mem_cons_of_mem x hy)]
    simp

theorem transformExprs_eq_mapM (es : List Expr) :
    transformExprs t es = es.mapM (Expr.transform t) := by
  induction es with
  | nil => simp [transformExprs]
  | cons e es ih => simp [transformExprs, ih]

theorem transformColumns_eq_mapM (cs : List Column) :
    transformColumns t cs =
      cs.mapM fun c => c.expr.transform t >>= fun e => pure { c with expr := e } := by
  induction cs with
  | nil => simp [transformColumns]
  | cons c cs ih =>
    cases c
    simp [transformColumns, Column.transform, ih]

theorem transformSources_eq_mapM (ss : List Source) :
    transformSources t ss = ss.mapM (Source.transform t) := by
  induction ss with
  | nil => simp [transformSources]
  | cons s ss ih => simp [transformSources, ih]

theorem transformJoins_eq_mapM (js : List Join) :
    transformJoins t js =
      js.mapM fun j => j.source.transform t >>= fun s =>
        transformOptional t j.condition >>= fun c => pure ⟨j.kind, s, c⟩ := by
  induction js with
  | nil => simp [transformJoins]
  | cons j js ih =>
    cases j
    simp [transformJoins, Join.transform, ih]

theorem transformOrder_eq_mapM (os : List OrderItem) :
    transformOrder t os =
      os.mapM fun o => o.expr.transform t >>= fun e => pure { o with expr := e } := by
  induction os with
  | nil => simp [transformOrder]
  | cons o os ih =>
    cases o
    simp [transformOrder, OrderItem.transform, ih]

omit [LawfulMonad m] in
theorem Query.transform_eq (q : Query) :
    q.transform t = t.query q
      { columns := transformColumns t q.columns
        skip := transformOptional t q.skip
        take := transformOptional t q.take
        sources := transformSources t q.sources
        filter := transformOptional t q.filter
        groupBy := transformExprs t q.groupBy
        having := transformOptional t q.having
        orderBy := transformOrder t q.orderBy } := by
  cases q
  rfl

omit [LawfulMonad m] in
theorem Source.transform_eq (s : Source) :
    s.transform t = s.origin.transform t >>= fun origin =>
      transformJoins t s.joins >>= fun joins => pure { s with origin, joins } := by
  cases s
  rfl

end SqlTree

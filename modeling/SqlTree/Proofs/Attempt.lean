import SqlTree.Proofs.Invariant
import SqlTree.Proofs.MapUp

/-! # Transformations that may give up

A transformation that applies a function to expressions, children first, and gives up at some of
them has the result of the function, unless it comes to an expression where it gives up. Whether it
does is seen from the tree: the parts of an expression are transformed when it comes to it.

Main definitions:

* `Attempts`: a computation with one result and one error.
* `Expr.mapBelow`: an expression with a function applied to everything below it.
* `Transform.Attempts`: a transformation that applies a function or gives up.

Main statements:

* `Transform.Attempts.closed`, `Transform.Attempts.onStatement`: what becomes of trees.
-/

namespace SqlTree

/-- The computation returns `a` if `ok` holds and fails with `err` otherwise. -/
structure Attempts {ε α : Type} (err : ε) (ok : Prop) (a : α) (x : Except ε α) : Prop where
  succeeds : ok → x = .ok a
  fails : ¬ ok → x = .error err

namespace Attempts

variable {ε α β : Type} {err : ε} {ok ok' : Prop} {a : α} {b : β} {x : Except ε α}

theorem of_iff (h : Attempts err ok a x) (hiff : ok' ↔ ok) : Attempts err ok' a x :=
  ⟨fun hok => h.succeeds (hiff.1 hok), fun hok => h.fails fun hok' => hok (hiff.2 hok')⟩

theorem pure (a : α) : Attempts err True a (Pure.pure a) :=
  ⟨fun _ => rfl, fun h => absurd trivial h⟩

theorem bind {f : α → Except ε β} (hx : Attempts err ok a x) (hf : Attempts err ok' b (f a)) :
    Attempts err (ok ∧ ok') b (x >>= f) := by
  refine ⟨fun h => ?_, fun h => ?_⟩
  · rw [hx.succeeds h.1]
    exact hf.succeeds h.2
  · by_cases hok : ok
    · rw [hx.succeeds hok]
      exact hf.fails fun hok' => h ⟨hok, hok'⟩
    · rw [hx.fails hok]
      rfl

theorem map (f : α → β) (hx : Attempts err ok a x) :
    Attempts err ok (f a) (x >>= fun a => Pure.pure (f a)) :=
  (hx.bind (pure (f a))).of_iff (and_iff_left trivial).symm

theorem mapM {ok : α → Prop} {f : α → Except ε β} {g : α → β} {xs : List α}
    (h : ∀ x ∈ xs, Attempts err (ok x) (g x) (f x)) :
    Attempts err (∀ x ∈ xs, ok x) (xs.map g) (xs.mapM f) := by
  induction xs with
  | nil => exact (pure []).of_iff (by simp)
  | cons x xs ih =>
    rw [List.forall_mem_cons] at h
    rw [List.mapM_cons]
    exact (h.1.bind ((ih h.2).map _)).of_iff List.forall_mem_cons

theorem eq_ok_iff (h : Attempts err ok a x) {a' : α} : x = .ok a' ↔ ok ∧ a' = a := by
  by_cases hok : ok
  · rw [h.succeeds hok]
    simp [hok, eq_comm]
  · rw [h.fails hok]
    simp [hok]

theorem eq_error_iff (h : Attempts err ok a x) {err' : ε} :
    x = .error err' ↔ ¬ ok ∧ err' = err := by
  by_cases hok : ok
  · rw [h.succeeds hok]
    simp [hok]
  · rw [h.fails hok]
    simp [hok, eq_comm]

end Attempts

/-- The expression with a function applied to all expressions below it, children first. -/
def Expr.mapBelow (f : Expr → Expr) : Expr → Expr
  | .call name t args flags => .call name t (args.map (mapUp f)) flags
  | .binary op l r p t n => .binary op (l.mapUp f) (r.mapUp f) p t n
  | .raw format p args t => .raw format p (args.map (mapUp f)) t
  | .subquery q => .subquery (q.mapUp f)
  | .existsRow q => .existsRow (q.mapUp f)
  | e => e

/-- The transformation applies a function to expressions that are `ok` and gives up at others. -/
structure Transform.Attempts {ε : Type} (t : Transform (Except ε)) (err : ε) (ok : Expr → Prop)
    (f : Expr → Expr) : Prop where
  expr : ∀ e, SqlTree.Attempts err (ok e) (f e) (t.expr e)
  query : t.query = QueryParts.rebuild

namespace Transform.Attempts

variable {ε : Type} {t : Transform (Except ε)} {err : ε} {ok : Expr → Prop} {f : Expr → Expr}

theorem optional {P : Expr → Prop} {o : Option Expr}
    (h : ∀ e ∈ o, SqlTree.Attempts err (P e) (e.mapUp f) (e.transform t)) :
    SqlTree.Attempts err (∀ e ∈ o, P e) (o.map (Expr.mapUp f)) (transformOptional t o) := by
  cases o with
  | none => exact (SqlTree.Attempts.pure none).of_iff (by simp)
  | some e => exact ((h e rfl).map some).of_iff (by simp)

theorem exprs {P : Expr → Prop} {es : List Expr}
    (h : ∀ e ∈ es, SqlTree.Attempts err (P e) (e.mapUp f) (e.transform t)) :
    SqlTree.Attempts err (∀ e ∈ es, P e) (es.map (Expr.mapUp f)) (transformExprs t es) := by
  rw [transformExprs_eq_mapM]
  exact SqlTree.Attempts.mapM h

theorem query_of_each (h : t.Attempts err ok f) {q : Query}
    (ih : q.Each
      (fun e => SqlTree.Attempts err (e.EachExpr fun x => ok (x.mapBelow f)) (e.mapUp f)
        (e.transform t))
      (fun s => SqlTree.Attempts err ((Node.source s).All (Node.IfExpr fun x => ok (x.mapBelow f)))
        (s.mapUp f) (s.transform t))) :
    SqlTree.Attempts err ((Node.query q).All (Node.IfExpr fun x => ok (x.mapBelow f))) (q.mapUp f)
      (q.transform t) := by
  have hcolumns := SqlTree.Attempts.mapM fun c hc =>
    (ih.columns c hc).map fun e => ({ c with expr := e } : Column)
  have hsources := SqlTree.Attempts.mapM ih.sources
  have horder := SqlTree.Attempts.mapM fun o ho =>
    (ih.orderBy o ho).map fun e => ({ o with expr := e } : OrderItem)
  rw [← transformColumns_eq_mapM] at hcolumns
  rw [← transformSources_eq_mapM] at hsources
  rw [← transformOrder_eq_mapM] at horder
  rw [Query.transform_eq, h.query, QueryParts.rebuild, Query.mapUp_eq]
  refine (hcolumns.bind <| (optional ih.skip).bind <| (optional ih.take).bind <|
    hsources.bind <| (optional ih.filter).bind <| (exprs ih.groupBy).bind <|
    (optional ih.having).bind <| horder.map _).of_iff ?_
  rw [Node.all_query (Node.IfExpr.ofTrees _)]
  constructor
  · rintro ⟨-, h⟩
    exact ⟨h.columns, h.skip, h.take, h.sources, h.filter, h.groupBy, h.having, h.orderBy⟩
  · rintro ⟨hcolumns, hskip, htake, hsources, hfilter, hgroupBy, hhaving, horderBy⟩
    exact ⟨by simp [Node.IfExpr], hcolumns, hskip, htake, hsources, hfilter, hgroupBy, hhaving,
      horderBy⟩

theorem source_of_each {s : Source}
    (ih : s.Each
      (fun e => SqlTree.Attempts err (e.EachExpr fun x => ok (x.mapBelow f)) (e.mapUp f)
        (e.transform t))
      (fun q => SqlTree.Attempts err ((Node.query q).All (Node.IfExpr fun x => ok (x.mapBelow f)))
        (q.mapUp f) (q.transform t))
      (fun s => SqlTree.Attempts err ((Node.source s).All (Node.IfExpr fun x => ok (x.mapBelow f)))
        (s.mapUp f) (s.transform t))) :
    SqlTree.Attempts err ((Node.source s).All (Node.IfExpr fun x => ok (x.mapBelow f))) (s.mapUp f)
      (s.transform t) := by
  have horigin : SqlTree.Attempts err
      (∀ q, s.origin = .query q → (Node.query q).All (Node.IfExpr fun x => ok (x.mapBelow f)))
      (s.mapUp f).origin (s.origin.transform t) := by
    rw [Source.mapUp_eq]
    cases ho : s.origin with
    | table table => exact (SqlTree.Attempts.pure _).of_iff (by simp)
    | query q => exact ((ih.origin q ho).map Origin.query).of_iff (by simp)
  have hjoins : SqlTree.Attempts err
      (∀ j ∈ s.joins, (Node.source j.source).All (Node.IfExpr fun x => ok (x.mapBelow f)) ∧
        ∀ e ∈ j.condition, e.EachExpr fun x => ok (x.mapBelow f))
      (s.mapUp f).joins (transformJoins t s.joins) := by
    rw [Source.mapUp_eq, transformJoins_eq_mapM]
    exact SqlTree.Attempts.mapM fun j hj =>
      (ih.joins j hj).bind ((optional (ih.conditions j hj)).map (Join.mk j.kind _))
  have hwhole : Source.mk s.id (s.mapUp f).origin s.aliasName (s.mapUp f).joins = s.mapUp f := by
    rw [Source.mapUp_eq]
  have hrest := hjoins.map (Source.mk s.id (s.mapUp f).origin s.aliasName)
  rw [hwhole] at hrest
  rw [Source.transform_eq]
  refine (horigin.bind hrest).of_iff ?_
  rw [Node.all_source (Node.IfExpr.ofTrees _)]
  exact ⟨fun h => ⟨h.origin, fun j hj => ⟨h.joins j hj, h.conditions j hj⟩⟩,
    fun h => ⟨h.1, fun j hj => (h.2 j hj).1, fun j hj => (h.2 j hj).2⟩⟩

/-- The transformation gives up in a tree exactly if some expression, with what is below it
transformed, is not `ok`. -/
theorem closed (h : t.Attempts err ok f) :
    Tree.Closed
      (fun e => SqlTree.Attempts err (e.EachExpr fun x => ok (x.mapBelow f)) (e.mapUp f)
        (e.transform t))
      (fun q => SqlTree.Attempts err ((Node.query q).All (Node.IfExpr fun x => ok (x.mapBelow f)))
        (q.mapUp f) (q.transform t))
      (fun s => SqlTree.Attempts err ((Node.source s).All (Node.IfExpr fun x => ok (x.mapBelow f)))
        (s.mapUp f) (s.transform t)) where
  value l ty := (h.expr _).of_iff (by simp [Expr.eachExpr_iff, Node.children, Expr.mapBelow])
  parameter p := (h.expr _).of_iff (by simp [Expr.eachExpr_iff, Node.children, Expr.mapBelow])
  field r := (h.expr _).of_iff (by simp [Expr.eachExpr_iff, Node.children, Expr.mapBelow])
  column c := (h.expr _).of_iff (by simp [Expr.eachExpr_iff, Node.children, Expr.mapBelow])
  call name ty args flags ih := by
    rw [Expr.transform, Expr.mapUp_call]
    exact ((exprs ih).bind (h.expr _)).of_iff (Expr.eachExpr_call.trans and_comm)
  binary op l r p ty n hl hr := by
    rw [Expr.transform, Expr.mapUp_binary]
    have hright := hr.bind (f := fun r' => t.expr (.binary op (l.mapUp f) r' p ty n)) (h.expr _)
    refine (hl.bind hright).of_iff ?_
    rw [Expr.eachExpr_binary, and_comm, and_assoc]
    rfl
  raw format p args ty ih := by
    rw [Expr.transform, Expr.mapUp_raw]
    exact ((exprs ih).bind (h.expr _)).of_iff (Expr.eachExpr_raw.trans and_comm)
  typeName ty := (h.expr _).of_iff (by simp [Expr.eachExpr_iff, Node.children, Expr.mapBelow])
  subquery q ih := by
    rw [Expr.transform, Expr.mapUp_subquery]
    exact (ih.bind (h.expr _)).of_iff
      (by simp [Expr.eachExpr_iff, Node.children, Expr.mapBelow, and_comm])
  existsRow q ih := by
    rw [Expr.transform, Expr.mapUp_existsRow]
    exact (ih.bind (h.expr _)).of_iff
      (by simp [Expr.eachExpr_iff, Node.children, Expr.mapBelow, and_comm])
  query _ ih := h.query_of_each ih
  source _ ih := source_of_each ih

theorem onExpr (h : t.Attempts err ok f) (e : Expr) :
    SqlTree.Attempts err (e.EachExpr fun x => ok (x.mapBelow f)) (e.mapUp f) (e.transform t) :=
  h.closed.onExpr e

theorem setItems (h : t.Attempts err ok f) (items : List SetItem) :
    SqlTree.Attempts err (∀ i ∈ items, i.expr.EachExpr fun x => ok (x.mapBelow f))
      (items.map (SetItem.mapExpr (Expr.mapUp f))) (items.mapM (SetItem.transform t)) :=
  SqlTree.Attempts.mapM fun i _ => (h.onExpr i.expr).map fun e => { i with expr := e }

theorem mergeOperations (h : t.Attempts err ok f) (operations : List MergeOperation) :
    SqlTree.Attempts err
      (∀ o ∈ operations, (Node.mergeOperation o).All (Node.IfExpr fun x => ok (x.mapBelow f)))
      (operations.map (MergeOperation.mapExpr (Expr.mapUp f)))
      (operations.mapM (MergeOperation.transform t)) := by
  refine SqlTree.Attempts.mapM fun o _ => ?_
  have hitems := (h.setItems o.items).map fun items : List SetItem =>
    { o with condition := o.condition.map (Expr.mapUp f), items }
  exact ((optional fun e _ => h.onExpr e).bind hitems).of_iff
    (Node.all_mergeOperation (Node.IfExpr.ofTrees _) o)

theorem onStatement (h : t.Attempts err ok f) (s : Statement) :
    SqlTree.Attempts err
      ((Node.statement s).All (Node.IfExpr fun x => ok (x.mapBelow f))) (s.mapUp f)
      (s.transform t) := by
  have hP := Node.IfExpr.ofTrees fun x => ok (x.mapBelow f)
  have hquery := h.closed.onQuery
  have hchildren := (Node.all_iff (.statement s)).trans (and_iff_right (hP.statement s))
  rw [Statement.mapUp_eq]
  cases s with
  | select q =>
    refine ((hquery q).map Statement.select).of_iff (hchildren.trans ?_)
    simp [Node.children]
  | insert into items q =>
    refine ((h.setItems items).bind ((hquery q).map (Statement.insert into _))).of_iff
      (hchildren.trans ?_)
    simp [Node.children, or_imp, forall_and, Node.all_setItem hP, Node.all_table hP]
  | update target items q =>
    exact ((h.setItems items).bind ((hquery q).map (Statement.update target _))).of_iff
      (Node.all_update hP)
  | delete target q =>
    exact ((hquery q).map (Statement.delete target)).of_iff (Node.all_delete hP)
  | merge target q on operations =>
    refine ((h.closed.onSource target).bind <| (hquery q).bind <|
      (optional fun e _ => h.onExpr e).bind <|
      (h.mergeOperations operations).map (Statement.merge _ _ _)).of_iff (hchildren.trans ?_)
    simp only [Node.children, List.forall_mem_cons, List.forall_mem_append, Node.forall_ofOption,
      List.forall_mem_map]
  | createTable table =>
    refine (SqlTree.Attempts.pure _).of_iff (hchildren.trans ?_)
    simp [Node.children, Node.all_table hP]
  | dropTable table ifExists =>
    refine (SqlTree.Attempts.pure _).of_iff (hchildren.trans ?_)
    simp [Node.children, Node.all_table hP]

end Transform.Attempts

end SqlTree

import SqlTree.Proofs.Transform
import SqlTree.Proofs.Tree

/-! # Transformations with nothing to do

A transformation that puts back every expression and every query of a tree returns the tree.

Main definitions:

* `Transform.Settles`: the transformation puts a node back.

Main statements:

* `Transform.settled_closed`, `Statement.transform_of_settled`: then it returns the tree.
-/

namespace SqlTree

variable {m : Type → Type} [Monad m]

/-- The transformation puts the node back: an expression as it stands, and a query with each clause
in its place. -/
structure Transform.Settles (t : Transform m) (n : Node) : Prop where
  expr : ∀ e, n = .expr e → t.expr e = pure e
  query : ∀ q, n = .query q → t.query q = QueryParts.rebuild q

namespace Transform

variable {t : Transform m}

/-- Of a transformation by a function on expressions, only expressions matter. -/
theorem settles_ofFun {f : Expr → Expr} {n : Node} :
    (Transform.ofFun f).Settles n ↔ ∀ e, n = .expr e → f e = e :=
  ⟨fun h e he => h.expr e he, fun h => ⟨fun e he => congrArg pure (h e he), fun _ _ => rfl⟩⟩

variable [LawfulMonad m]

theorem mapM_of_settled {α : Type} {f : α → m α} {xs : List α} (h : ∀ x ∈ xs, f x = pure x) :
    xs.mapM f = pure xs := by
  simpa using mapM_eq_pure_map (g := id) h

theorem exprs_of_settled {es : List Expr} (h : ∀ e ∈ es, e.transform t = pure e) :
    transformExprs t es = pure es := by
  rw [transformExprs_eq_mapM]
  exact mapM_of_settled h

theorem optional_of_settled {o : Option Expr} (h : ∀ e ∈ o, e.transform t = pure e) :
    transformOptional t o = pure o := by
  cases o with
  | none => rfl
  | some e => simp [transformOptional, h e rfl]

theorem query_of_settled {q : Query} (hq : t.query q = QueryParts.rebuild q)
    (h : q.Each (fun e => e.transform t = pure e) fun s => s.transform t = pure s) :
    q.transform t = pure q := by
  have hcolumns : transformColumns t q.columns = pure q.columns := by
    rw [transformColumns_eq_mapM]
    refine mapM_of_settled fun c hc => ?_
    rw [h.columns c hc, pure_bind]
    cases c
    rfl
  have hsources : transformSources t q.sources = pure q.sources := by
    rw [transformSources_eq_mapM]
    exact mapM_of_settled h.sources
  have horder : transformOrder t q.orderBy = pure q.orderBy := by
    rw [transformOrder_eq_mapM]
    refine mapM_of_settled fun o ho => ?_
    rw [h.orderBy o ho, pure_bind]
    cases o
    rfl
  rw [Query.transform_eq, hq, QueryParts.rebuild]
  simp only [hcolumns, hsources, horder, optional_of_settled h.skip, optional_of_settled h.take,
    optional_of_settled h.filter, exprs_of_settled h.groupBy, optional_of_settled h.having,
    pure_bind]
  cases q
  rfl

theorem source_of_settled {s : Source}
    (h : s.Each (fun e => e.transform t = pure e) (fun q => q.transform t = pure q)
      fun s => s.transform t = pure s) : s.transform t = pure s := by
  have horigin : s.origin.transform t = pure s.origin := by
    cases ho : s.origin with
    | table table => rfl
    | query q => simp [Origin.transform, h.origin q ho]
  have hjoins : transformJoins t s.joins = pure s.joins := by
    rw [transformJoins_eq_mapM]
    refine mapM_of_settled fun j hj => ?_
    rw [h.joins j hj, optional_of_settled (h.conditions j hj), pure_bind, pure_bind]
    cases j
    rfl
  rw [Source.transform_eq, horigin, hjoins, pure_bind, pure_bind]
  cases s
  rfl

/-- The transformation returns every tree in which it puts all nodes back. -/
theorem settled_closed (t : Transform m) :
    Tree.Closed (fun e => (Node.expr e).All t.Settles → e.transform t = pure e)
      (fun q => (Node.query q).All t.Settles → q.transform t = pure q)
      (fun s => (Node.source s).All t.Settles → s.transform t = pure s) where
  value l ty h := h.self.expr _ rfl
  parameter p h := h.self.expr _ rfl
  field f h := h.self.expr _ rfl
  column c h := h.self.expr _ rfl
  call name ty args flags ih h := by
    rw [Expr.transform, exprs_of_settled fun e he => ih e he (h.arg e he), pure_bind]
    exact h.self.expr _ rfl
  binary op l r p ty n hl hr h := by
    rw [Expr.transform, hl h.left, pure_bind, hr h.right, pure_bind]
    exact h.self.expr _ rfl
  raw format p args ty ih h := by
    rw [Expr.transform, exprs_of_settled fun e he => ih e he (h.rawArg e he), pure_bind]
    exact h.self.expr _ rfl
  typeName ty h := h.self.expr _ rfl
  subquery q ih h := by
    rw [Expr.transform, ih h.subquery, pure_bind]
    exact h.self.expr _ rfl
  existsRow q ih h := by
    rw [Expr.transform, ih h.existsRow, pure_bind]
    exact h.self.expr _ rfl
  query q ih h := query_of_settled (h.self.query q rfl) (ih.mp h.clauses)
  source s ih h := source_of_settled (ih.mp h.parts)

end Transform

variable [LawfulMonad m] {t : Transform m}

theorem SetItem.transform_of_settled {i : SetItem} (h : (Node.setItem i).All t.Settles) :
    i.transform t = pure i := by
  have hexpr := t.settled_closed.onExpr i.expr (h.child (by simp [Node.children]))
  simp [SetItem.transform, hexpr]

theorem MergeOperation.transform_of_settled {o : MergeOperation}
    (h : (Node.mergeOperation o).All t.Settles) : o.transform t = pure o := by
  have hcondition : transformOptional t o.condition = pure o.condition :=
    Transform.optional_of_settled fun e he => t.settled_closed.onExpr e
      (h.child (by simp [Node.children, Node.ofOption, Option.mem_def.1 he]))
  have hitems : o.items.mapM (SetItem.transform t) = pure o.items :=
    Transform.mapM_of_settled fun i hi => SetItem.transform_of_settled
      (h.child (by simp [Node.children, hi]))
  simp [MergeOperation.transform, hcondition, hitems]

/-- The transformation returns every statement in which it puts all nodes back. -/
theorem Statement.transform_of_settled {s : Statement} (h : (Node.statement s).All t.Settles) :
    s.transform t = pure s := by
  have hitems : ∀ items : List SetItem, (∀ i ∈ items, .setItem i ∈ (Node.statement s).children) →
      items.mapM (SetItem.transform t) = pure items := fun items hitems =>
    Transform.mapM_of_settled fun i hi => SetItem.transform_of_settled (h.child (hitems i hi))
  have hquery : ∀ q, .query q ∈ (Node.statement s).children → q.transform t = pure q :=
    fun q hq => t.settled_closed.onQuery q (h.child hq)
  cases s with
  | select q => simp [Statement.transform, hquery q (by simp [Node.children])]
  | insert into items q =>
    simp [Statement.transform, hquery q (by simp [Node.children]),
      hitems items (by simp +contextual [Node.children])]
  | update target items q =>
    simp [Statement.transform, hquery q (by simp [Node.children]),
      hitems items (by simp +contextual [Node.children])]
  | delete target q => simp [Statement.transform, hquery q (by simp [Node.children])]
  | merge target q on operations =>
    have htarget : target.transform t = pure target :=
      t.settled_closed.onSource target (h.child (by simp [Node.children]))
    have hon : transformOptional t on = pure on :=
      Transform.optional_of_settled fun e he => t.settled_closed.onExpr e
        (h.child (by simp [Node.children, Node.ofOption, Option.mem_def.1 he]))
    have hoperations : operations.mapM (MergeOperation.transform t) = pure operations :=
      Transform.mapM_of_settled fun o ho => MergeOperation.transform_of_settled
        (h.child (by simp [Node.children, ho]))
    simp [Statement.transform, htarget, hquery q (by simp [Node.children]), hon, hoperations]
  | createTable table => rfl
  | dropTable table ifExists => rfl

end SqlTree

import SqlTree.Proofs.Rename

/-! # Functions on all expressions of a tree

A transformation without effects that leaves queries in their places is a function on expressions,
applied to all of them, children first.

Main definitions:

* `Statement.mapParts`: functions on the parts of a statement.

Main statements:

* `Expr.mapUp_call` and the lemmas around it: one lemma for each kind of expression.
* `Statement.transform_eq_pure`, `Statement.mapUp_eq`: statements.
* `Query.each_of_mapUp_eq_self`, `Source.each_of_mapUp_eq_self`: a function that returns a tree
  returns its parts.
-/

namespace SqlTree

namespace Expr

variable (f : Expr → Expr)

@[simp] theorem mapUp_value (l : Literal) (t : DataType) : (value l t).mapUp f = f (value l t) := rfl

@[simp] theorem mapUp_parameter (p : Parameter) : (parameter p).mapUp f = f (parameter p) := rfl

@[simp] theorem mapUp_field (r : FieldRef) : (field r).mapUp f = f (field r) := rfl

@[simp] theorem mapUp_column (c : ColumnRef) : (column c).mapUp f = f (column c) := rfl

@[simp] theorem mapUp_typeName (t : DataType) : (typeName t).mapUp f = f (typeName t) := rfl

@[simp] theorem mapUp_call (name : String) (t : DataType) (args : List Expr) (flags : CallFlags) :
    (call name t args flags).mapUp f = f (call name t (args.map (mapUp f)) flags) := by
  rw [← transformExprs_ofFun]
  rfl

@[simp] theorem mapUp_binary (op : Operator) (l r : Expr) (p : Int) (t : DataType) (n : Bool) :
    (binary op l r p t n).mapUp f = f (binary op (l.mapUp f) (r.mapUp f) p t n) := rfl

@[simp] theorem mapUp_raw (format : String) (p : Int) (args : List Expr) (t : DataType) :
    (raw format p args t).mapUp f = f (raw format p (args.map (mapUp f)) t) := by
  rw [← transformExprs_ofFun]
  rfl

@[simp] theorem mapUp_subquery (q : Query) : (subquery q).mapUp f = f (subquery (q.mapUp f)) := rfl

@[simp] theorem mapUp_existsRow (q : Query) :
    (existsRow q).mapUp f = f (existsRow (q.mapUp f)) := rfl

end Expr

/-! Trees that a function returns. -/

section Fixed

variable {f : Expr → Expr}

theorem forall_mem_of_map_eq_self {α : Type} {g : α → α} {xs : List α} (h : xs.map g = xs) :
    ∀ x ∈ xs, g x = x := by
  have h : xs.map g = xs.map id := by rw [h, List.map_id]
  exact List.map_eq_map_iff.1 h

theorem forall_mem_of_optionMap_eq_self {α : Type} {g : α → α} {o : Option α} (h : o.map g = o) :
    ∀ x ∈ o, g x = x := by
  rintro x rfl
  exact Option.some.inj h

theorem Query.each_of_mapUp_eq_self {q : Query} (h : q.mapUp f = q) :
    q.Each (fun e => e.mapUp f = e) (fun s => s.mapUp f = s) := by
  rw [Query.mapUp_eq] at h
  cases q with
  | mk id columns distinct skip take sources filter groupBy having orderBy =>
    simp only [Query.mk.injEq, true_and] at h
    obtain ⟨hcolumns, hskip, htake, hsources, hfilter, hgroupBy, hhaving, horderBy⟩ := h
    exact {
      columns := fun c hc => congrArg Column.expr (forall_mem_of_map_eq_self hcolumns c hc)
      skip := forall_mem_of_optionMap_eq_self hskip
      take := forall_mem_of_optionMap_eq_self htake
      sources := forall_mem_of_map_eq_self hsources
      filter := forall_mem_of_optionMap_eq_self hfilter
      groupBy := forall_mem_of_map_eq_self hgroupBy
      having := forall_mem_of_optionMap_eq_self hhaving
      orderBy := fun o ho => congrArg OrderItem.expr (forall_mem_of_map_eq_self horderBy o ho) }

theorem Source.each_of_mapUp_eq_self {s : Source} (h : s.mapUp f = s) :
    s.Each (fun e => e.mapUp f = e) (fun q => q.mapUp f = q) (fun s => s.mapUp f = s) := by
  rw [Source.mapUp_eq] at h
  cases s with
  | mk id origin aliasName joins =>
    simp only [Source.mk.injEq, true_and] at h
    obtain ⟨horigin, hjoins⟩ := h
    have hjoin := forall_mem_of_map_eq_self hjoins
    refine ⟨?_, fun j hj => congrArg Join.source (hjoin j hj), fun j hj =>
      forall_mem_of_optionMap_eq_self (congrArg Join.condition (hjoin j hj))⟩
    rintro q rfl
    exact Origin.query.inj horigin

end Fixed

/-! Statements. -/

def SetItem.mapExpr (E : Expr → Expr) (i : SetItem) : SetItem := { i with expr := E i.expr }

def MergeOperation.mapExpr (E : Expr → Expr) (o : MergeOperation) : MergeOperation :=
  { o with condition := o.condition.map E, items := o.items.map (SetItem.mapExpr E) }

/-- The statement with functions applied to the expressions, queries and sources directly below
it. -/
def Statement.mapParts (E : Expr → Expr) (Q : Query → Query) (S : Source → Source) :
    Statement → Statement
  | .select q => .select (Q q)
  | .insert into items q => .insert into (items.map (SetItem.mapExpr E)) (Q q)
  | .update target items q => .update target (items.map (SetItem.mapExpr E)) (Q q)
  | .delete target q => .delete target (Q q)
  | .merge target q on operations =>
    .merge (S target) (Q q) (on.map E) (operations.map (MergeOperation.mapExpr E))
  | .createTable table => .createTable table
  | .dropTable table ifExists => .dropTable table ifExists

namespace Statement

variable {E : Expr → Expr} {Q : Query → Query} {S : Source → Source}

section Transform

variable {m : Type → Type} [Monad m] [LawfulMonad m] {t : Transform m}

theorem transform_eq_pure (hE : ∀ e, e.transform t = pure (E e))
    (hQ : ∀ q, q.transform t = pure (Q q)) (hS : ∀ s, s.transform t = pure (S s))
    (s : Statement) : s.transform t = pure (s.mapParts E Q S) := by
  have hoptional : ∀ o, transformOptional t o = pure (o.map E) := by
    intro o
    cases o <;> simp [transformOptional, hE]
  have hitems : ∀ items : List SetItem,
      items.mapM (SetItem.transform t) = pure (items.map (SetItem.mapExpr E)) := fun items =>
    mapM_eq_pure_map fun i _ => by simp [SetItem.transform, SetItem.mapExpr, hE]
  have hoperations : ∀ operations : List MergeOperation,
      operations.mapM (MergeOperation.transform t) =
        pure (operations.map (MergeOperation.mapExpr E)) := fun operations =>
    mapM_eq_pure_map fun o _ => by
      simp [MergeOperation.transform, MergeOperation.mapExpr, hoptional, hitems]
  cases s <;> simp [Statement.transform, mapParts, hQ, hS, hoptional, hitems, hoperations]

end Transform

theorem mapUp_eq (f : Expr → Expr) (s : Statement) :
    s.mapUp f = s.mapParts (Expr.mapUp f) (Query.mapUp f) (Source.mapUp f) :=
  congrArg Id.run (transform_eq_pure (t := .ofFun f) (fun _ => rfl) (fun _ => rfl) (fun _ => rfl) s)

end Statement

end SqlTree

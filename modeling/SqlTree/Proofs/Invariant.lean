import SqlTree.Proofs.Outcome
import SqlTree.Proofs.Refinement
import SqlTree.Proofs.Scope

/-! # Properties of all nodes under transformations

A property of expressions and queries is shown of all nodes of a transformed tree one node at a
time: the parts of a node have it when the node is made.

Main definitions:

* `Node.OfTrees`: a property that asks nothing but of expressions and queries.
* `Node.Selective`: a property that asks nothing but of queries and parameters.
* `Node.IfExpr`, `Node.IfQuery`: a property of expressions or of queries as one of nodes.
* `Expr.EachQuery`, `Query.EachQuery`, `Source.EachQuery`: a property of all queries of a tree.
* `Expr.EachExpr`: a property of all expressions of a tree.
* `Node.Leads`: one property of all nodes of a tree leads to another one of all nodes of a second
  tree.

Main statements:

* `Node.all_query`, `Node.all_source`: a property of all nodes, in terms of the parts.
* `Expr.Aligned.leads`, `Query.Aligned.leads`, `Source.Aligned.leads`, `Statement.Aligned.leads`,
  `Expr.Aligned.leads_of_selective`: from the parts to the whole.
* `Transform.establishes`: a property of all nodes that a transformation makes.
-/

namespace SqlTree

/-- The property asks nothing of nodes that are neither expressions nor queries. -/
structure Node.OfTrees (P : Node → Prop) : Prop where
  statement : ∀ s, P (.statement s)
  column : ∀ c, P (.column c)
  source : ∀ s, P (.source s)
  join : ∀ j, P (.join j)
  table : ∀ t, P (.table t)
  order : ∀ o, P (.order o)
  setItem : ∀ i, P (.setItem i)
  mergeOperation : ∀ o, P (.mergeOperation o)

/-- The property asks nothing but of queries and parameters. -/
structure Node.Selective (P : Node → Prop) : Prop extends Node.OfTrees P where
  expr : ∀ e : Expr, (∀ x, e ≠ .parameter x) → P (.expr e)

/-- The property of a node that is a query. -/
abbrev Node.IfQuery (P : Query → Prop) (n : Node) : Prop := ∀ q, n = .query q → P q

theorem Node.IfQuery.ofTrees (P : Query → Prop) : OfTrees (IfQuery P) :=
  ⟨nofun, nofun, nofun, nofun, nofun, nofun, nofun, nofun⟩

theorem Node.ifQuery_query {P : Query → Prop} {q : Query} : IfQuery P (.query q) ↔ P q := by
  simp [IfQuery]

theorem Node.IfQuery.selective (P : Query → Prop) : Selective (IfQuery P) :=
  ⟨IfQuery.ofTrees P, fun _ _ => nofun⟩

/-- The property of a node that is an expression. -/
abbrev Node.IfExpr (P : Expr → Prop) (n : Node) : Prop := ∀ e, n = .expr e → P e

theorem Node.IfExpr.ofTrees (P : Expr → Prop) : OfTrees (IfExpr P) :=
  ⟨nofun, nofun, nofun, nofun, nofun, nofun, nofun, nofun⟩

/-- If all nodes of the first tree meet `C`, all nodes of the second one meet `P`. -/
def Node.Leads (C P : Node → Prop) (n n' : Node) : Prop := n.All C → n'.All P

namespace Node

variable {P : Node → Prop} (hP : OfTrees P)

include hP

theorem all_column (c : Column) : (Node.column c).All P ↔ (Node.expr c.expr).All P := by
  simp [all_iff (.column c), children, hP.column]

theorem all_order (o : OrderItem) : (Node.order o).All P ↔ (Node.expr o.expr).All P := by
  simp [all_iff (.order o), children, hP.order]

theorem all_setItem (i : SetItem) : (Node.setItem i).All P ↔ (Node.expr i.expr).All P := by
  simp [all_iff (.setItem i), children, hP.setItem]

theorem all_table (t : Table) : (Node.table t).All P := by
  simp [all_iff (.table t), children, hP.table]

theorem all_join (j : Join) :
    (Node.join j).All P ↔
      (Node.source j.source).All P ∧ ∀ e ∈ j.condition, (Node.expr e).All P := by
  rw [all_iff]
  simp only [children, List.forall_mem_cons, forall_ofOption, hP.join, true_and]

theorem forall_children_query (q : Query) :
    (∀ c ∈ (Node.query q).children, c.All P) ↔
      q.Each (fun e => (Node.expr e).All P) (fun s => (Node.source s).All P) := by
  refine ⟨All.clauses_of_children, fun h => ?_⟩
  simp only [children, List.mem_append, or_imp, forall_and, forall_ofOption, List.forall_mem_map,
    all_column hP, all_order hP]
  exact ⟨⟨⟨⟨⟨⟨⟨h.columns, h.skip⟩, h.take⟩, h.sources⟩, h.filter⟩, h.groupBy⟩, h.having⟩, h.orderBy⟩

theorem all_query (q : Query) :
    (Node.query q).All P ↔ P (.query q) ∧
      q.Each (fun e => (Node.expr e).All P) (fun s => (Node.source s).All P) := by
  rw [all_iff, forall_children_query hP]

theorem all_source (s : Source) :
    (Node.source s).All P ↔ s.Each (fun e => (Node.expr e).All P) (fun q => (Node.query q).All P)
      (fun s => (Node.source s).All P) := by
  refine ⟨All.parts, fun h => (all_iff _).2 ⟨hP.source s, ?_⟩⟩
  simp only [children, List.forall_mem_cons, List.forall_mem_map, all_join hP]
  refine ⟨?_, fun j hj => ⟨h.joins j hj, h.conditions j hj⟩⟩
  cases ho : s.origin with
  | table t => exact all_table hP t
  | query q => exact h.origin q ho

theorem all_mergeOperation (o : MergeOperation) :
    (Node.mergeOperation o).All P ↔ (∀ e ∈ o.condition, (Node.expr e).All P) ∧
      ∀ i ∈ o.items, (Node.expr i.expr).All P := by
  rw [all_iff]
  simp only [children, List.mem_append, or_imp, forall_and, forall_ofOption, List.forall_mem_map,
    all_setItem hP, hP.mergeOperation, true_and]

theorem all_delete {target : Option SourceId} {q : Query} :
    (Node.statement (.delete target q)).All P ↔ (Node.query q).All P := by
  rw [all_iff]
  simp only [children, List.mem_singleton, forall_eq, hP.statement, true_and]

theorem all_update {target : Option SourceId} {items : List SetItem} {q : Query} :
    (Node.statement (.update target items q)).All P ↔
      (∀ i ∈ items, (Node.expr i.expr).All P) ∧ (Node.query q).All P := by
  rw [all_iff]
  simp only [children, List.mem_append, List.mem_singleton, or_imp, forall_and,
    List.forall_mem_map, forall_eq, all_setItem hP, hP.statement, true_and]

end Node

theorem Node.all_parameter {P : Node → Prop} {x : Parameter} :
    (Node.expr (.parameter x)).All P ↔ P (.expr (.parameter x)) := by
  simp [all_iff (.expr _), children]

namespace Node.Selective

variable {P : Node → Prop} (hP : Selective P)

include hP

/-- Of an expression that is no parameter, the property is one of its children. -/
theorem all_iff_children {e : Expr} (he : ∀ x, e ≠ .parameter x) :
    (Node.expr e).All P ↔ ∀ c ∈ (Node.expr e).children, c.All P := by
  rw [Node.all_iff]
  exact and_iff_right (hP.expr e he)

theorem all_value (l : Literal) (t : DataType) : (Node.expr (.value l t)).All P :=
  (hP.all_iff_children (by simp)).2 (by simp [Node.children])

theorem all_field (f : FieldRef) : (Node.expr (.field f)).All P :=
  (hP.all_iff_children (by simp)).2 (by simp [Node.children])

theorem all_columnRef (c : ColumnRef) : (Node.expr (.column c)).All P :=
  (hP.all_iff_children (by simp)).2 (by simp [Node.children])

theorem all_typeName (t : DataType) : (Node.expr (.typeName t)).All P :=
  (hP.all_iff_children (by simp)).2 (by simp [Node.children])

theorem all_call {name : String} {t : DataType} {args : List Expr} {flags : CallFlags} :
    (Node.expr (.call name t args flags)).All P ↔ ∀ e ∈ args, (Node.expr e).All P := by
  rw [hP.all_iff_children (by simp)]
  simp [Node.children]

theorem all_binary {op : Operator} {l r : Expr} {p : Int} {t : DataType} {n : Bool} :
    (Node.expr (.binary op l r p t n)).All P ↔ (Node.expr l).All P ∧ (Node.expr r).All P := by
  rw [hP.all_iff_children (by simp)]
  simp [Node.children]

theorem all_raw {format : String} {p : Int} {args : List Expr} {t : DataType} :
    (Node.expr (.raw format p args t)).All P ↔ ∀ e ∈ args, (Node.expr e).All P := by
  rw [hP.all_iff_children (by simp)]
  simp [Node.children]

theorem all_subquery {q : Query} : (Node.expr (.subquery q)).All P ↔ (Node.query q).All P := by
  rw [hP.all_iff_children (by simp)]
  simp [Node.children]

theorem all_existsRow {q : Query} : (Node.expr (.existsRow q)).All P ↔ (Node.query q).All P := by
  rw [hP.all_iff_children (by simp)]
  simp [Node.children]

theorem all_derived {id : SourceId} {q : Query} {a : Option String} :
    (Node.source { id, origin := .query q, aliasName := a }).All P ↔ (Node.query q).All P := by
  rw [all_source hP.toOfTrees]
  refine ⟨fun h => h.origin q rfl, fun h => ⟨?_, by simp, by simp⟩⟩
  rintro _ ⟨⟩
  exact h

end Node.Selective

/-! Properties of all queries. -/

/-- The property of all queries at and below an expression. -/
abbrev Expr.EachQuery (P : Query → Prop) (e : Expr) : Prop := (Node.expr e).All (Node.IfQuery P)

abbrev Source.EachQuery (P : Query → Prop) (s : Source) : Prop :=
  (Node.source s).All (Node.IfQuery P)

abbrev Query.EachQuery (P : Query → Prop) (q : Query) : Prop := (Node.query q).All (Node.IfQuery P)

variable {P : Query → Prop}

theorem Expr.eachQuery_iff (e : Expr) :
    e.EachQuery P ↔ ∀ c ∈ (Node.expr e).children, c.All (Node.IfQuery P) := by
  rw [EachQuery, Node.all_iff]
  exact and_iff_right nofun

theorem Query.eachQuery_iff (q : Query) :
    q.EachQuery P ↔ P q ∧ q.Each (Expr.EachQuery P) (Source.EachQuery P) := by
  rw [EachQuery, Node.all_query (Node.IfQuery.ofTrees P), Node.ifQuery_query]

theorem Source.eachQuery_iff (s : Source) :
    s.EachQuery P ↔ s.Each (Expr.EachQuery P) (Query.EachQuery P) (Source.EachQuery P) :=
  Node.all_source (Node.IfQuery.ofTrees P) s

@[simp] theorem Expr.eachQuery_value (l : Literal) (t : DataType) : (value l t).EachQuery P :=
  (Node.IfQuery.selective P).all_value l t

@[simp] theorem Expr.eachQuery_parameter (p : Parameter) : (parameter p).EachQuery P := by
  simp [eachQuery_iff, Node.children]

@[simp] theorem Expr.eachQuery_field (f : FieldRef) : (field f).EachQuery P :=
  (Node.IfQuery.selective P).all_field f

@[simp] theorem Expr.eachQuery_column (c : ColumnRef) : (column c).EachQuery P :=
  (Node.IfQuery.selective P).all_columnRef c

@[simp] theorem Expr.eachQuery_typeName (t : DataType) : (typeName t).EachQuery P :=
  (Node.IfQuery.selective P).all_typeName t

@[simp] theorem Expr.eachQuery_call (name : String) (t : DataType) (args : List Expr)
    (flags : CallFlags) : (call name t args flags).EachQuery P ↔ ∀ e ∈ args, e.EachQuery P :=
  (Node.IfQuery.selective P).all_call

@[simp] theorem Expr.eachQuery_binary (op : Operator) (l r : Expr) (p : Int) (t : DataType)
    (n : Bool) : (binary op l r p t n).EachQuery P ↔ l.EachQuery P ∧ r.EachQuery P :=
  (Node.IfQuery.selective P).all_binary

@[simp] theorem Expr.eachQuery_raw (format : String) (p : Int) (args : List Expr) (t : DataType) :
    (raw format p args t).EachQuery P ↔ ∀ e ∈ args, e.EachQuery P :=
  (Node.IfQuery.selective P).all_raw

@[simp] theorem Expr.eachQuery_subquery (q : Query) : (subquery q).EachQuery P ↔ q.EachQuery P :=
  (Node.IfQuery.selective P).all_subquery

@[simp] theorem Expr.eachQuery_existsRow (q : Query) :
    (existsRow q).EachQuery P ↔ q.EachQuery P :=
  (Node.IfQuery.selective P).all_existsRow

@[simp] theorem Expr.eachQuery_operation (op : Operator) (l r : Expr) (t : DataType) :
    (operation op l r t).EachQuery P ↔ l.EachQuery P ∧ r.EachQuery P :=
  eachQuery_binary ..

/-! Properties of all expressions. -/

/-- The property of all expressions at and below an expression. -/
abbrev Expr.EachExpr (P : Expr → Prop) (e : Expr) : Prop := (Node.expr e).All (Node.IfExpr P)

theorem Expr.eachExpr_iff {P : Expr → Prop} (e : Expr) :
    e.EachExpr P ↔ P e ∧ ∀ c ∈ (Node.expr e).children, c.All (Node.IfExpr P) := by
  rw [EachExpr, Node.all_iff]
  refine and_congr_left fun _ => ⟨fun h => h e rfl, ?_⟩
  rintro h _ ⟨⟩
  exact h

section EachExpr

variable {P : Expr → Prop}

theorem Expr.eachExpr_call {name : String} {t : DataType} {args : List Expr} {flags : CallFlags} :
    (call name t args flags).EachExpr P ↔
      P (call name t args flags) ∧ ∀ e ∈ args, e.EachExpr P := by
  rw [eachExpr_iff]
  simp [Node.children]

theorem Expr.eachExpr_binary {op : Operator} {l r : Expr} {p : Int} {t : DataType} {n : Bool} :
    (binary op l r p t n).EachExpr P ↔
      P (binary op l r p t n) ∧ l.EachExpr P ∧ r.EachExpr P := by
  rw [eachExpr_iff]
  simp [Node.children]

theorem Expr.eachExpr_raw {format : String} {p : Int} {args : List Expr} {t : DataType} :
    (raw format p args t).EachExpr P ↔ P (raw format p args t) ∧ ∀ e ∈ args, e.EachExpr P := by
  rw [eachExpr_iff]
  simp [Node.children]

end EachExpr

/-! From the parts to the whole. -/

theorem forall_mem_of_forall₂ {α β : Type} {R : α → β → Prop} {A : α → Prop} {B : β → Prop}
    {xs : List α} {ys : List β} (h : List.Forall₂ R xs ys) (hA : ∀ x ∈ xs, A x)
    (hR : ∀ x y, R x y → A x → B y) : ∀ y ∈ ys, B y := by
  intro y hy
  obtain ⟨x, hx, hxy⟩ := exists_of_forall₂ h hy
  exact hR x y hxy (hA x hx)

theorem forall_mem_of_rel {α β : Type} {R : α → β → Prop} {A : α → Prop} {B : β → Prop}
    {o : Option α} {o' : Option β} (h : Option.Rel R o o') (hA : ∀ x ∈ o, A x)
    (hR : ∀ x y, R x y → A x → B y) : ∀ y ∈ o', B y := by
  cases h with
  | none => simp
  | some h =>
    rintro y ⟨⟩
    exact hR _ _ h (hA _ rfl)

section Leads

variable {C P : Node → Prop} {RE : Expr → Expr → Prop} {RQ : Query → Query → Prop}
  {RS : Source → Source → Prop} (hE : ∀ e e', RE e e' → Node.Leads C P (.expr e) (.expr e'))
  (hQ : ∀ q q', RQ q q' → Node.Leads C P (.query q) (.query q'))
  (hS : ∀ s s', RS s s' → Node.Leads C P (.source s) (.source s'))

include hE

theorem Expr.Aligned.leads (hQ : ∀ q q', RQ q q' → Node.Leads C P (.query q) (.query q'))
    {e e' : Expr} (h : e.Aligned RE RQ e') (hC : (Node.expr e).All C) :
    ∀ c ∈ (Node.expr e').children, c.All P := by
  cases h with
  | call name t flags hargs =>
    simpa [Node.children] using forall_mem_of_forall₂ hargs hC.arg hE
  | binary op p t n hl hr =>
    simpa [Node.children] using ⟨hE _ _ hl hC.left, hE _ _ hr hC.right⟩
  | raw format p t hargs =>
    simpa [Node.children] using forall_mem_of_forall₂ hargs hC.rawArg hE
  | subquery hq => simpa [Node.children] using hQ _ _ hq hC.subquery
  | existsRow hq => simpa [Node.children] using hQ _ _ hq hC.existsRow
  | _ => simp [Node.children]

include hS

theorem Query.Aligned.leads {q q' : Query} (h : q.Aligned RE RS q')
    (hC : q.Each (fun e => (Node.expr e).All C) (fun s => (Node.source s).All C)) :
    q'.Each (fun e => (Node.expr e).All P) (fun s => (Node.source s).All P) where
  columns := forall_mem_of_forall₂ h.columns hC.columns fun _ _ hc => hE _ _ hc.1
  skip := forall_mem_of_rel h.skip hC.skip hE
  take := forall_mem_of_rel h.take hC.take hE
  sources := forall_mem_of_forall₂ h.sources hC.sources hS
  filter := forall_mem_of_rel h.filter hC.filter hE
  groupBy := forall_mem_of_forall₂ h.groupBy hC.groupBy hE
  having := forall_mem_of_rel h.having hC.having hE
  orderBy := forall_mem_of_forall₂ h.orderBy hC.orderBy fun _ _ ho => hE _ _ ho.1

include hQ

theorem Source.Aligned.leads (hP : Node.OfTrees P) {s s' : Source} (h : s.Aligned RE RQ RS s') :
    Node.Leads C P (.source s) (.source s') := by
  intro hC
  refine (Node.all_source hP s').2 ⟨fun q' hq' => ?_, ?_, ?_⟩
  · have horigin := h.origin
    rw [hq'] at horigin
    cases ho : s.origin with
    | table t =>
      rw [ho] at horigin
      cases horigin
    | query q =>
      rw [ho] at horigin
      cases horigin with
      | query hq => exact hQ _ _ hq (hC.parts.origin q ho)
  · exact forall_mem_of_forall₂ h.joins hC.parts.joins fun _ _ hj => hS _ _ hj.source
  · exact forall_mem_of_forall₂ h.joins hC.parts.conditions fun _ _ hj hconditions =>
      forall_mem_of_rel hj.condition hconditions hE

theorem Statement.Aligned.leads (hP : Node.OfTrees P) {s s' : Statement}
    (h : s.Aligned RE RQ RS s') : Node.Leads C P (.statement s) (.statement s') := by
  intro hC
  have hitems : ∀ {items items' : List SetItem}, List.Forall₂ (SetItem.Aligned RE) items items' →
      (∀ i ∈ items, (Node.setItem i).All C) → ∀ i ∈ items', (Node.setItem i).All P :=
    fun hall h => forall_mem_of_forall₂ hall h fun i i' hi hiC =>
      (Node.all_setItem hP i').2 (hE _ _ hi.expr (hiC.child (by simp [Node.children])))
  obtain ⟨-, hC⟩ := (Node.all_iff _).1 hC
  refine (Node.all_iff _).2 ⟨hP.statement s', ?_⟩
  cases h with
  | select hq => simpa [Node.children] using hQ _ _ hq (hC _ (by simp [Node.children]))
  | insert into hall hq =>
    simp only [Node.children, List.mem_cons, List.mem_append, List.mem_map] at hC ⊢
    rintro c (rfl | ⟨i, hi, rfl⟩ | rfl | ⟨⟨⟩⟩)
    · exact Node.all_table hP into
    · exact hitems hall (fun i hi => hC _ (.inr (.inl ⟨i, hi, rfl⟩))) i hi
    · exact hQ _ _ hq (hC _ (by simp))
  | update target hall hq =>
    simp only [Node.children, List.mem_append, List.mem_map, List.mem_singleton] at hC ⊢
    rintro c (⟨i, hi, rfl⟩ | rfl)
    · exact hitems hall (fun i hi => hC _ (.inl ⟨i, hi, rfl⟩)) i hi
    · exact hQ _ _ hq (hC _ (by simp))
  | delete target hq => simpa [Node.children] using hQ _ _ hq (hC _ (by simp [Node.children]))
  | merge htarget hq hon hoperations =>
    simp only [Node.children, List.forall_mem_cons, List.mem_append, or_imp, forall_and,
      Node.forall_ofOption, List.forall_mem_map] at hC ⊢
    obtain ⟨htargetC, hqC, honC, hoperationsC⟩ := hC
    refine ⟨hS _ _ htarget htargetC, hQ _ _ hq hqC, forall_mem_of_rel hon honC hE, ?_⟩
    refine forall_mem_of_forall₂ hoperations hoperationsC fun o o' ho hoC => ?_
    obtain ⟨-, hoC⟩ := (Node.all_iff _).1 hoC
    simp only [Node.children, List.mem_append, or_imp, forall_and, Node.forall_ofOption,
      List.forall_mem_map] at hoC
    refine (Node.all_mergeOperation hP o').2 ⟨forall_mem_of_rel ho.condition hoC.1 hE, ?_⟩
    exact fun i hi => (Node.all_setItem hP i).1 (hitems ho.items hoC.2 i hi)
  | createTable t => simpa [Node.children] using Node.all_table hP t
  | dropTable t ifExists => simpa [Node.children] using Node.all_table hP t

end Leads

/-- What is asked only of queries and parameters passes to an expression from its children. -/
theorem Expr.Aligned.leads_of_selective {P : Node → Prop} (hP : Node.Selective P)
    {RE : Expr → Expr → Prop} {RQ : Query → Query → Prop}
    (hE : ∀ e e', RE e e' → Node.Leads P P (.expr e) (.expr e'))
    (hQ : ∀ q q', RQ q q' → Node.Leads P P (.query q) (.query q')) {e e' : Expr}
    (h : e.Aligned RE RQ e') : Node.Leads P P (.expr e) (.expr e') := by
  intro he
  refine (Node.all_iff _).2 ⟨?_, h.leads hE hQ he⟩
  cases h with
  | parameter x => exact he.self
  | _ => exact hP.expr _ (by simp)

/-! Properties that a transformation establishes, whatever the tree was. -/

section Establish

variable {P : Node → Prop}

theorem Query.Aligned.each_all {q q' : Query}
    (h : q.Aligned (fun _ e => (Node.expr e).All P) (fun _ s => (Node.source s).All P) q') :
    q'.Each (fun e => (Node.expr e).All P) (fun s => (Node.source s).All P) :=
  h.leads (C := fun _ => True) (fun _ _ he _ => he) (fun _ _ hs _ => hs)
    (Node.All.clauses fun _ _ => trivial)

theorem Statement.Aligned.all (hP : Node.OfTrees P) {s s' : Statement}
    (h : s.Aligned (fun _ e => (Node.expr e).All P) (fun _ q => (Node.query q).All P)
      (fun _ s => (Node.source s).All P) s') : (Node.statement s').All P :=
  h.leads (C := fun _ => True) (fun _ _ he _ => he) (fun _ _ hq _ => hq) (fun _ _ hs _ => hs) hP
    fun _ _ => trivial

/-- A property that expressions and queries have when they are made from parts that have it. -/
theorem Transform.establishes {m : Type → Type} [Monad m] [LawfulMonad m] {O : Outcome m}
    {t : Transform m} (hP : Node.OfTrees P)
    (hexpr : ∀ e, (∀ c ∈ (Node.expr e).children, c.All P) →
      O.Holds (fun e' => (Node.expr e').All P) (t.expr e))
    (hquery : ∀ {q : Query} {p : QueryParts m},
      p.Yield O (fun _ e => (Node.expr e).All P) (fun _ s => (Node.source s).All P) q →
        O.Holds (fun q' => (Node.query q').All P) (t.query q p)) :
    t.Yields O (fun _ e => (Node.expr e).All P) (fun _ q => (Node.query q).All P)
      (fun _ s => (Node.source s).All P) where
  expr {_ e'} h := hexpr e' (h.leads (C := fun _ => True) (fun _ _ he _ => he)
    (fun _ _ hq _ => hq) fun _ _ => trivial)
  query := hquery
  source h := h.leads (C := fun _ => True) (fun _ _ he _ => he) (fun _ _ hq _ => hq)
    (fun _ _ hs _ => hs) hP fun _ _ => trivial

end Establish

end SqlTree

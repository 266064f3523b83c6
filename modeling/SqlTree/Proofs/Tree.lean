import SqlTree.Node
import Mathlib.Data.List.Flatten

/-! # Induction on trees

Expressions, queries and sources are one family of types, with lists and options in between. What is
shown here for the family once is an induction in which lists and options do not appear: there is
one case for each kind of expression, one for queries and one for sources.

Main definitions:

* `Query.Each`, `Source.Each`: a property of all parts directly below a query or source.
* `Tree.Closed`: properties that pass from the parts to the whole.
* `Node.All`: a property of all nodes at and below a node.

Main statements:

* `Tree.Closed.onExpr`, `Tree.Closed.onQuery`, `Tree.Closed.onSource`: the induction.
-/

namespace SqlTree

/-- The expressions in the clauses of a query meet `E`, and its sources meet `S`. -/
structure Query.Each (E : Expr → Prop) (S : Source → Prop) (q : Query) : Prop where
  columns : ∀ c ∈ q.columns, E c.expr
  skip : ∀ e ∈ q.skip, E e
  take : ∀ e ∈ q.take, E e
  sources : ∀ s ∈ q.sources, S s
  filter : ∀ e ∈ q.filter, E e
  groupBy : ∀ e ∈ q.groupBy, E e
  having : ∀ e ∈ q.having, E e
  orderBy : ∀ o ∈ q.orderBy, E o.expr

/-- The derived table of a source meets `Q`, the sources joined to it directly meet `S` and the
conditions of the joins meet `E`. -/
structure Source.Each (E : Expr → Prop) (Q : Query → Prop) (S : Source → Prop) (s : Source) :
    Prop where
  origin : ∀ q, s.origin = .query q → Q q
  joins : ∀ j ∈ s.joins, S j.source
  conditions : ∀ j ∈ s.joins, ∀ e ∈ j.condition, E e

theorem Query.Each.mp {E E' : Expr → Prop} {S S' : Source → Prop} {q : Query}
    (h : q.Each (fun e => E e → E' e) (fun s => S s → S' s)) (hq : q.Each E S) : q.Each E' S' where
  columns c hc := h.columns c hc (hq.columns c hc)
  skip e he := h.skip e he (hq.skip e he)
  take e he := h.take e he (hq.take e he)
  sources s hs := h.sources s hs (hq.sources s hs)
  filter e he := h.filter e he (hq.filter e he)
  groupBy e he := h.groupBy e he (hq.groupBy e he)
  having e he := h.having e he (hq.having e he)
  orderBy o ho := h.orderBy o ho (hq.orderBy o ho)

theorem Query.Each.imp {E E' : Expr → Prop} {S S' : Source → Prop} {q : Query} (h : q.Each E S)
    (hE : ∀ e, E e → E' e) (hS : ∀ s, S s → S' s) : q.Each E' S' :=
  mp ⟨fun _ _ => hE _, fun _ _ => hE _, fun _ _ => hE _, fun _ _ => hS _, fun _ _ => hE _,
    fun _ _ => hE _, fun _ _ => hE _, fun _ _ => hE _⟩ h

theorem Source.Each.mp {E E' : Expr → Prop} {Q Q' : Query → Prop} {S S' : Source → Prop}
    {s : Source} (h : s.Each (fun e => E e → E' e) (fun q => Q q → Q' q) (fun s => S s → S' s))
    (hs : s.Each E Q S) : s.Each E' Q' S' where
  origin q hq := h.origin q hq (hs.origin q hq)
  joins j hj := h.joins j hj (hs.joins j hj)
  conditions j hj e he := h.conditions j hj e he (hs.conditions j hj e he)

theorem Source.Each.imp {E E' : Expr → Prop} {Q Q' : Query → Prop} {S S' : Source → Prop}
    {s : Source} (h : s.Each E Q S) (hE : ∀ e, E e → E' e) (hQ : ∀ q, Q q → Q' q)
    (hS : ∀ s, S s → S' s) : s.Each E' Q' S' :=
  mp ⟨fun _ _ => hQ _, fun _ _ => hS _, fun _ _ _ _ => hE _⟩ h

theorem Query.Each.of_forall {E : Expr → Prop} {S : Source → Prop} (hE : ∀ e, E e) (hS : ∀ s, S s)
    (q : Query) : q.Each E S :=
  ⟨fun _ _ => hE _, fun _ _ => hE _, fun _ _ => hE _, fun _ _ => hS _, fun _ _ => hE _,
    fun _ _ => hE _, fun _ _ => hE _, fun _ _ => hE _⟩

theorem Source.Each.of_forall {E : Expr → Prop} {Q : Query → Prop} {S : Source → Prop}
    (hE : ∀ e, E e) (hQ : ∀ q, Q q) (hS : ∀ s, S s) (s : Source) : s.Each E Q S :=
  ⟨fun _ _ => hQ _, fun _ _ => hS _, fun _ _ _ _ => hE _⟩

/-- Properties of expressions, queries and sources that hold of a whole if they hold of its
parts. -/
structure Tree.Closed (E : Expr → Prop) (Q : Query → Prop) (S : Source → Prop) : Prop where
  value : ∀ l t, E (.value l t)
  parameter : ∀ p, E (.parameter p)
  field : ∀ f, E (.field f)
  column : ∀ c, E (.column c)
  call : ∀ name t args flags, (∀ e ∈ args, E e) → E (.call name t args flags)
  binary : ∀ op l r p t n, E l → E r → E (.binary op l r p t n)
  raw : ∀ format p args t, (∀ e ∈ args, E e) → E (.raw format p args t)
  typeName : ∀ t, E (.typeName t)
  subquery : ∀ q, Q q → E (.subquery q)
  existsRow : ∀ q, Q q → E (.existsRow q)
  query : ∀ q, q.Each E S → Q q
  source : ∀ s, s.Each E Q S → S s

namespace Tree.Closed

variable {E : Expr → Prop} {Q : Query → Prop} {S : Source → Prop}

mutual

theorem onExpr (h : Tree.Closed E Q S) : ∀ e, E e
  | .value l t => h.value l t
  | .parameter p => h.parameter p
  | .field f => h.field f
  | .column c => h.column c
  | .call name t args flags => h.call name t args flags (h.onExprs args)
  | .binary op l r p t n => h.binary op l r p t n (h.onExpr l) (h.onExpr r)
  | .raw format p args t => h.raw format p args t (h.onExprs args)
  | .typeName t => h.typeName t
  | .subquery q => h.subquery q (h.onQuery q)
  | .existsRow q => h.existsRow q (h.onQuery q)

theorem onExprs (h : Tree.Closed E Q S) : ∀ es : List Expr, ∀ e ∈ es, E e
  | [], _, hm => absurd hm List.not_mem_nil
  | e :: es, x, hm =>
    match List.mem_cons.1 hm with
    | .inl heq => heq ▸ h.onExpr e
    | .inr hm => h.onExprs es x hm

theorem onOptional (h : Tree.Closed E Q S) : ∀ o : Option Expr, ∀ e ∈ o, E e
  | none, _, hm => absurd hm (by simp)
  | some e, x, hm => (Option.mem_some_iff.1 hm : e = x) ▸ h.onExpr e

theorem onQuery (h : Tree.Closed E Q S) : ∀ q, Q q
  | ⟨id, columns, distinct, skip, take, sources, filter, groupBy, having, orderBy⟩ =>
    h.query ⟨id, columns, distinct, skip, take, sources, filter, groupBy, having, orderBy⟩
      { columns := h.onColumns columns
        skip := h.onOptional skip
        take := h.onOptional take
        sources := h.onSources sources
        filter := h.onOptional filter
        groupBy := h.onExprs groupBy
        having := h.onOptional having
        orderBy := h.onOrder orderBy }

theorem onColumn (h : Tree.Closed E Q S) : ∀ c : Column, E c.expr
  | ⟨e, _⟩ => h.onExpr e

theorem onColumns (h : Tree.Closed E Q S) : ∀ cs : List Column, ∀ c ∈ cs, E c.expr
  | [], _, hm => absurd hm List.not_mem_nil
  | c :: cs, x, hm =>
    match List.mem_cons.1 hm with
    | .inl heq => heq ▸ h.onColumn c
    | .inr hm => h.onColumns cs x hm

theorem onSource (h : Tree.Closed E Q S) : ∀ s, S s
  | ⟨id, origin, aliasName, joins⟩ =>
    h.source ⟨id, origin, aliasName, joins⟩
      { origin := h.onOrigin origin
        joins := fun j hj => (h.onJoins joins j hj).1
        conditions := fun j hj => (h.onJoins joins j hj).2 }

theorem onSources (h : Tree.Closed E Q S) : ∀ ss : List Source, ∀ s ∈ ss, S s
  | [], _, hm => absurd hm List.not_mem_nil
  | s :: ss, x, hm =>
    match List.mem_cons.1 hm with
    | .inl heq => heq ▸ h.onSource s
    | .inr hm => h.onSources ss x hm

theorem onOrigin (h : Tree.Closed E Q S) : ∀ (o : Origin) (q : Query), o = .query q → Q q
  | .table _, _, heq => nomatch heq
  | .query q, _, heq => Origin.query.inj heq ▸ h.onQuery q

theorem onJoin (h : Tree.Closed E Q S) : ∀ j : Join, S j.source ∧ ∀ e ∈ j.condition, E e
  | ⟨_, source, condition⟩ => ⟨h.onSource source, h.onOptional condition⟩

theorem onJoins (h : Tree.Closed E Q S) :
    ∀ js : List Join, ∀ j ∈ js, S j.source ∧ ∀ e ∈ j.condition, E e
  | [], _, hm => absurd hm List.not_mem_nil
  | j :: js, x, hm =>
    match List.mem_cons.1 hm with
    | .inl heq => heq ▸ h.onJoin j
    | .inr hm => h.onJoins js x hm

theorem onOrderItem (h : Tree.Closed E Q S) : ∀ o : OrderItem, E o.expr
  | ⟨e, _⟩ => h.onExpr e

theorem onOrder (h : Tree.Closed E Q S) : ∀ os : List OrderItem, ∀ o ∈ os, E o.expr
  | [], _, hm => absurd hm List.not_mem_nil
  | o :: os, x, hm =>
    match List.mem_cons.1 hm with
    | .inl heq => heq ▸ h.onOrderItem o
    | .inr hm => h.onOrder os x hm

end

end Tree.Closed

/-- Induction on the joins of a source. -/
theorem Source.joinInduction {S : Source → Prop} (h : ∀ s, (∀ j ∈ s.joins, S j.source) → S s) :
    ∀ s, S s :=
  Tree.Closed.onSource (E := fun _ => True) (Q := fun _ => True)
    { value := fun _ _ => trivial
      parameter := fun _ => trivial
      field := fun _ => trivial
      column := fun _ => trivial
      call := fun _ _ _ _ _ => trivial
      binary := fun _ _ _ _ _ _ _ _ => trivial
      raw := fun _ _ _ _ _ => trivial
      typeName := fun _ => trivial
      subquery := fun _ _ => trivial
      existsRow := fun _ _ => trivial
      query := fun _ _ => trivial
      source := fun s hs => h s hs.joins }

theorem Source.withJoined_eq (s : Source) :
    s.withJoined = s :: s.joins.flatMap fun j => j.source.withJoined := by
  cases s with
  | mk id origin aliasName joins =>
    simp only [Source.withJoined, List.cons.injEq, true_and]
    induction joins with
    | nil => rfl
    | cons j joins ih =>
      cases j
      simp [joinedSources, ih]

theorem Source.mem_withJoined_self (s : Source) : s ∈ s.withJoined := by
  simp [withJoined_eq s]

namespace Node

theorem weight_lt_of_mem_children {n c : Node} (hc : c ∈ n.children) : c.weight < n.weight := by
  have hsub := List.sublist_flatten_of_mem (List.mem_map_of_mem (f := preorder) hc)
  rw [weight, weight, preorder_eq n]
  exact Nat.lt_succ_of_le hsub.length_le

theorem forall_ofOption {P : Node → Prop} {o : Option Expr} :
    (∀ n ∈ ofOption o, P n) ↔ ∀ e ∈ o, P (.expr e) := by
  simp [ofOption]

/-! Properties of all nodes. -/

/-- All nodes at and below a node meet `P`. -/
def All (P : Node → Prop) (n : Node) : Prop := ∀ m ∈ n.preorder, P m

theorem all_iff {P : Node → Prop} (n : Node) :
    n.All P ↔ P n ∧ ∀ c ∈ n.children, c.All P := by
  unfold All
  rw [preorder_eq]
  simp only [List.mem_cons, List.mem_flatMap, forall_eq_or_imp]
  refine and_congr_right fun _ => ⟨fun h c hc m hm => h m ⟨c, hc, hm⟩, ?_⟩
  rintro h m ⟨c, hc, hm⟩
  exact h c hc m hm

namespace All

variable {P : Node → Prop}

theorem self {n : Node} (h : n.All P) : P n := ((all_iff n).1 h).1

theorem child {n c : Node} (h : n.All P) (hc : c ∈ n.children) : c.All P :=
  ((all_iff n).1 h).2 c hc

theorem columnExpr {c : Column} (h : (Node.column c).All P) : (Node.expr c.expr).All P :=
  h.child (by simp [children])

theorem orderExpr {o : OrderItem} (h : (Node.order o).All P) : (Node.expr o.expr).All P :=
  h.child (by simp [children])

theorem clauses_of_children {q : Query} (h : ∀ c ∈ (Node.query q).children, c.All P) :
    q.Each (fun e => (Node.expr e).All P) (fun s => (Node.source s).All P) where
  columns c hc := columnExpr (h _ (by simp [children, hc]))
  skip e he := h _ (by simp [children, ofOption, Option.mem_def.1 he])
  take e he := h _ (by simp [children, ofOption, Option.mem_def.1 he])
  sources s hs := h _ (by simp [children, hs])
  filter e he := h _ (by simp [children, ofOption, Option.mem_def.1 he])
  groupBy e he := h _ (by simp [children, he])
  having e he := h _ (by simp [children, ofOption, Option.mem_def.1 he])
  orderBy o ho := orderExpr (h _ (by simp [children, ho]))

theorem clauses {q : Query} (h : (Node.query q).All P) :
    q.Each (fun e => (Node.expr e).All P) (fun s => (Node.source s).All P) :=
  clauses_of_children fun _ => h.child

theorem parts {s : Source} (h : (Node.source s).All P) :
    s.Each (fun e => (Node.expr e).All P) (fun q => (Node.query q).All P)
      (fun s => (Node.source s).All P) where
  origin q hq := h.child (by simp [children, hq])
  joins j hj :=
    (h.child (c := .join j) (by simp [children, hj])).child (by simp [children])
  conditions j hj e he :=
    (h.child (c := .join j) (by simp [children, hj])).child
      (by simp [children, ofOption, Option.mem_def.1 he])

theorem arg {name : String} {t : DataType} {args : List Expr} {flags : CallFlags}
    (h : (Node.expr (.call name t args flags)).All P) : ∀ e ∈ args, (Node.expr e).All P :=
  fun _ he => h.child (by simp [children, he])

theorem left {op : Operator} {l r : Expr} {p : Int} {t : DataType} {n : Bool}
    (h : (Node.expr (.binary op l r p t n)).All P) : (Node.expr l).All P :=
  h.child (by simp [children])

theorem right {op : Operator} {l r : Expr} {p : Int} {t : DataType} {n : Bool}
    (h : (Node.expr (.binary op l r p t n)).All P) : (Node.expr r).All P :=
  h.child (by simp [children])

theorem rawArg {format : String} {p : Int} {args : List Expr} {t : DataType}
    (h : (Node.expr (.raw format p args t)).All P) : ∀ e ∈ args, (Node.expr e).All P :=
  fun _ he => h.child (by simp [children, he])

theorem subquery {q : Query} (h : (Node.expr (.subquery q)).All P) : (Node.query q).All P :=
  h.child (by simp [children])

theorem existsRow {q : Query} (h : (Node.expr (.existsRow q)).All P) : (Node.query q).All P :=
  h.child (by simp [children])

end All

end Node

end SqlTree

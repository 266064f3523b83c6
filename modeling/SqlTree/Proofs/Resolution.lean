import SqlTree.Proofs.Scope

/-! # References and what they refer to

A reference is resolved in the innermost scope that knows its id. A reference to a column of a
derived table has to be one of the columns that the derived table has there.

A bound of a query can be moved out of the query if it reads nothing of the query itself. That is
why the scopes that a lowering keeps are those in which bounds are also resolved outside of their
queries.

Main definitions:

* `Scope`: what is in scope, with the numbers of columns.
* `Node.Resolved`: all references at and below a node are resolved.
* `Node.Reads`: an id is read at or below a node and refers to something outside of it.
* `Node.Scoped`: references are resolved, and those of bounds also outside of their queries.

Main statements:

* `Node.Resolved.of_reads`: only what is read has to be in scope.
* `Node.Resolved.scoped`: bounds that read nothing of their queries are resolved outside.
* `Node.Scoped.mono`: a scope that knows more resolves more.
-/

namespace SqlTree

/-- What is in scope, the innermost first. A derived table is known with the number of its columns,
a source, whose fields go by name, with 0. -/
abbrev Scope := List (Ident × Nat)

def Source.binds (s : Source) : Scope :=
  (.source s.id, 0) ::
    match s.origin with
    | .table _ => []
    | .query q => [(.query q.id, q.columns.length)]

/-- What a query brings into scope. -/
def Query.binds (q : Query) : Scope := q.allSources.flatMap Source.binds

def Node.binds : Node → Scope
  | .query q => q.binds
  | .statement (.update _ _ q) => q.binds
  | .statement (.insert _ _ q) => q.binds
  | _ => []

/-- The reference at the node, if it is one, is known to the scope. -/
def Node.Finds (scope : Scope) : Node → Prop
  | .expr (.field f) => (scope.lookup (.source f.source)).isSome = true
  | .expr (.column c) => ∃ width, scope.lookup (.query c.query) = some width ∧ c.index < width
  | _ => True

/-- All references at and below a node are resolved, where `scope` is in scope around it. -/
inductive Node.Resolved : Scope → Node → Prop
  | mk {scope : Scope} {n : Node} (finds : n.Finds scope)
      (children : ∀ c ∈ n.children, Resolved (n.binds ++ scope) c) : Resolved scope n

/-- A reference at or below the node has the id, and nothing in between brings the id into
scope. -/
inductive Node.Reads (i : Ident) : Node → Prop
  | here {n : Node} (h : n.refersTo? = some i) : Reads i n
  | within {n c : Node} (hc : c ∈ n.children) (hi : i ∉ n.opens) (h : Reads i c) : Reads i n

/-- The expressions that bound the rows of a query. -/
def Query.bounds (q : Query) : List Expr := q.skip.toList ++ q.take.toList

/-- No bound of the query reads a source of the query. -/
def Query.BoundsApart (q : Query) : Prop := ∀ e ∈ q.bounds, ∀ i ∈ q.opens, ¬ (Node.expr e).Reads i

def Node.bounds : Node → List Expr
  | .query q => q.bounds
  | _ => []

/-- All references at and below a node are resolved, those of bounds also outside of their queries.
All nodes meet `C`. -/
inductive Node.Scoped (C : Node → Prop) : Scope → Node → Prop
  | mk {scope : Scope} {n : Node} (meets : C n) (finds : n.Finds scope)
      (children : ∀ c ∈ n.children, Scoped C (n.binds ++ scope) c)
      (bounds : ∀ e ∈ n.bounds, Scoped C scope (.expr e)) : Scoped C scope n

/-! What comes into scope. -/

theorem Source.map_fst_binds (s : Source) : s.binds.map Prod.fst = s.opens := by
  unfold binds opens
  cases s.origin <;> rfl

theorem Query.map_fst_binds (q : Query) : q.binds.map Prod.fst = q.opens := by
  rw [binds, opens, List.map_flatMap]
  simp only [Source.map_fst_binds]

theorem Node.map_fst_binds (n : Node) : n.binds.map Prod.fst = n.opens := by
  unfold binds opens
  split <;> simp [Query.map_fst_binds]

/-! Scopes that know more. -/

namespace Scope

/-- The second scope knows `i` with no fewer columns, if the first one knows it. -/
def LeAt (i : Ident) (a b : Scope) : Prop :=
  ∀ width, a.lookup i = some width → ∃ width', width ≤ width' ∧ b.lookup i = some width'

/-- The second scope knows all that the first one knows. -/
def Le (a b : Scope) : Prop := ∀ i, LeAt i a b

/-- The same ids in the same order, with no fewer columns. -/
def Widens (a b : Scope) : Prop := List.Forall₂ (fun x y => y.1 = x.1 ∧ x.2 ≤ y.2) a b

variable {i : Ident} {a a' b b' : Scope}

theorem leAt_refl : LeAt i a a := fun width h => ⟨width, Nat.le_refl _, h⟩

theorem le_refl : Le a a := fun _ => leAt_refl

theorem lookup_eq_none_iff : a.lookup i = none ↔ i ∉ a.map Prod.fst := by
  rw [List.lookup_eq_none_iff]
  grind

theorem isSome_lookup_iff : (a.lookup i).isSome = true ↔ i ∈ a.map Prod.fst := by
  rw [← not_iff_not, ← lookup_eq_none_iff, Bool.not_eq_true, Option.isSome_eq_false_iff,
    Option.isNone_iff_eq_none]

/-- In front of a scope, the same ids hide the same. -/
theorem LeAt.append (h : i ∉ a.map Prod.fst → LeAt i b b') : LeAt i (a ++ b) (a ++ b') := by
  intro width hwidth
  rw [List.lookup_append] at hwidth ⊢
  cases ha : a.lookup i with
  | some w =>
    rw [ha] at hwidth
    exact ⟨width, Nat.le_refl _, hwidth⟩
  | none =>
    rw [ha] at hwidth
    exact h (lookup_eq_none_iff.1 ha) width hwidth

theorem Widens.lookup (h : Widens a a') :
    (a.lookup i = none ∧ a'.lookup i = none) ∨
      ∃ width width', a.lookup i = some width ∧ a'.lookup i = some width' ∧ width ≤ width' := by
  induction h with
  | nil => exact .inl ⟨rfl, rfl⟩
  | @cons x y xs ys hxy _ ih =>
    obtain ⟨hid, hle⟩ := hxy
    rw [List.lookup_cons, List.lookup_cons, hid]
    cases i == x.1 with
    | true => exact .inr ⟨_, _, rfl, rfl, hle⟩
    | false => exact ih

theorem Widens.le (h : Widens a a') (hb : Le b b') : Le (a ++ b) (a' ++ b') := by
  intro i width hwidth
  rw [List.lookup_append] at hwidth ⊢
  rcases h.lookup (i := i) with ⟨ha, ha'⟩ | ⟨w, w', ha, ha', hle⟩
  · rw [ha] at hwidth
    rw [ha']
    exact hb i width hwidth
  · rw [ha] at hwidth
    cases hwidth
    exact ⟨w', hle, by rw [ha']; rfl⟩

theorem Widens.append (h : Widens a a') (h' : Widens b b') : Widens (a ++ b) (a' ++ b') :=
  List.rel_append h h'

/-- Ids that the first scope does not know hide nothing of it. -/
theorem Le.append_of_notMem (hle : Le b b') (h : ∀ x ∈ a, x.1 ∉ b.map Prod.fst) :
    Le b (a ++ b') := by
  intro i width hwidth
  have hi : i ∈ b.map Prod.fst := isSome_lookup_iff.1 (by rw [hwidth]; rfl)
  have hnone : a.lookup i = none := by
    rw [lookup_eq_none_iff, List.mem_map]
    rintro ⟨x, hx, rfl⟩
    exact h x hx hi
  rw [List.lookup_append, hnone]
  exact hle i width hwidth

end Scope

namespace Node

variable {scope scope' : Scope} {C C' : Node → Prop}

theorem Finds.of_refersTo {n : Node} (h : n.Finds scope)
    (hle : ∀ i, n.refersTo? = some i → Scope.LeAt i scope scope') : n.Finds scope' := by
  unfold Finds at h ⊢
  split
  · obtain ⟨width, hwidth⟩ := Option.isSome_iff_exists.1 h
    obtain ⟨width', -, hwidth'⟩ := hle _ rfl width hwidth
    rw [hwidth']
    rfl
  · obtain ⟨width, hwidth, hlt⟩ := h
    obtain ⟨width', hle', hwidth'⟩ := hle _ rfl width hwidth
    exact ⟨width', hwidth', Nat.lt_of_lt_of_le hlt hle'⟩
  · trivial

theorem Reads.mem_references {i : Ident} {n : Node} (h : n.Reads i) : i ∈ n.references := by
  induction h with
  | here h =>
    rw [references_eq, h]
    exact List.mem_append_left _ List.mem_cons_self
  | within hc _ _ ih =>
    rw [references_eq]
    exact List.mem_append_right _ (List.mem_flatMap.2 ⟨_, hc, ih⟩)

/-- Of what is in scope, only that matters which is read. -/
theorem Resolved.of_reads {n : Node} (h : n.Resolved scope)
    (hle : ∀ i, n.Reads i → Scope.LeAt i scope scope') : n.Resolved scope' := by
  induction h generalizing scope' with
  | @mk scope n finds _ ih =>
    refine .mk (finds.of_refersTo fun i hi => hle i (.here hi)) fun c hc => ih c hc fun i hi => ?_
    refine .append fun hnot => hle i (.within hc ?_ hi)
    rwa [n.map_fst_binds] at hnot

/-- What holds of all nodes of a tree holds of all nodes of the trees in it. -/
theorem All.subtrees (n : Node) (h : n.All C) : n.All fun m => m.All C := by
  refine (all_iff n).2 ⟨h, fun c hc => ?_⟩
  have hlt := weight_lt_of_mem_children hc
  exact All.subtrees c (h.child hc)
termination_by n.weight

theorem mem_children_of_mem_bounds {n : Node} {e : Expr} (he : e ∈ n.bounds) :
    .expr e ∈ n.children := by
  unfold bounds at he
  split at he
  · simp only [Query.bounds, List.mem_append] at he
    simp only [children, ofOption, List.mem_append, List.mem_map]
    grind
  · simp at he

/-- Bounds that read nothing of their queries are resolved outside of them. -/
theorem Resolved.scoped (n : Node) {scope : Scope} (h : n.Resolved scope)
    (hbounds : n.All fun m => ∀ q, m = .query q → q.BoundsApart) :
    n.Scoped (fun _ => True) scope := by
  obtain ⟨finds, children⟩ := h
  refine .mk trivial finds (fun c hc => ?_) fun e he => ?_
  · have hlt := weight_lt_of_mem_children hc
    exact (children c hc).scoped c (hbounds.child hc)
  · have hc := mem_children_of_mem_bounds he
    have hlt := weight_lt_of_mem_children hc
    refine Resolved.scoped (.expr e) ?_ (hbounds.child hc)
    refine (children _ hc).of_reads fun i hi => ?_
    have hnot : i ∉ n.opens := by
      unfold bounds at he
      split at he
      · exact fun hopens => hbounds.self _ rfl e he i hopens hi
      · simp at he
    intro width hwidth
    rw [← n.map_fst_binds, ← Scope.lookup_eq_none_iff] at hnot
    rw [List.lookup_append, hnot] at hwidth
    exact ⟨width, Nat.le_refl _, hwidth⟩
termination_by n.weight

theorem Scoped.resolved {n : Node} (h : n.Scoped C scope) : n.Resolved scope := by
  induction h with
  | mk _ finds _ _ ih _ => exact .mk finds ih

theorem Scoped.meets {n : Node} (h : n.Scoped C scope) : C n := by
  obtain ⟨meets, -, -, -⟩ := h
  exact meets

theorem Scoped.bounds {q : Query} (h : (Node.query q).Scoped C scope) :
    ∀ e ∈ q.bounds, (Node.expr e).Scoped C scope := by
  obtain ⟨-, -, -, bounds⟩ := h
  exact bounds

theorem Scoped.of_all {n : Node} (h : n.Scoped C scope) (hC : n.All C') : n.Scoped C' scope := by
  induction h with
  | mk _ finds _ _ ih ihBounds =>
    exact .mk hC.self finds (fun c hc => ih c hc (hC.child hc)) fun e he =>
      ihBounds e he (hC.child (mem_children_of_mem_bounds he))

theorem Scoped.mono {n : Node} (h : n.Scoped C scope) (hle : scope.Le scope') :
    n.Scoped C scope' := by
  induction h generalizing scope' with
  | mk meets finds _ _ ih ihBounds =>
    refine .mk meets (finds.of_refersTo fun i _ => hle i) (fun c hc => ih c hc fun i => ?_)
      fun e he => ihBounds e he hle
    exact .append fun _ => hle i

/-! Scopes in terms of the parts. -/

theorem scoped_iff (n : Node) :
    n.Scoped C scope ↔ C n ∧ n.Finds scope ∧ (∀ c ∈ n.children, c.Scoped C (n.binds ++ scope)) ∧
      ∀ e ∈ n.bounds, (Node.expr e).Scoped C scope := by
  constructor
  · rintro ⟨meets, finds, children, bounds⟩
    exact ⟨meets, finds, children, bounds⟩
  · rintro ⟨meets, finds, children, bounds⟩
    exact .mk meets finds children bounds

theorem scoped_expr (e : Expr) :
    (Node.expr e).Scoped C scope ↔ C (.expr e) ∧ (Node.expr e).Finds scope ∧
      ∀ c ∈ (Node.expr e).children, c.Scoped C scope := by
  simp [scoped_iff (.expr e), binds, bounds]

theorem Scoped.columnExpr {c : Column} (h : (Node.column c).Scoped C scope) :
    (Node.expr c.expr).Scoped C scope := by
  obtain ⟨-, -, children, -⟩ := h
  exact children _ (by simp [Node.children])

theorem Scoped.orderExpr {o : OrderItem} (h : (Node.order o).Scoped C scope) :
    (Node.expr o.expr).Scoped C scope := by
  obtain ⟨-, -, children, -⟩ := h
  exact children _ (by simp [Node.children])

theorem Scoped.clauses {q : Query} (h : (Node.query q).Scoped C scope) :
    q.Each (fun e => (Node.expr e).Scoped C (q.binds ++ scope))
      (fun s => (Node.source s).Scoped C (q.binds ++ scope)) := by
  obtain ⟨-, -, children, -⟩ := h
  simp only [Node.children, binds, List.mem_append, or_imp, forall_and, forall_ofOption,
    List.forall_mem_map] at children
  obtain ⟨⟨⟨⟨⟨⟨⟨columns, skip⟩, take⟩, sources⟩, filter⟩, groupBy⟩, having⟩, orderBy⟩ := children
  exact ⟨fun c hc => (columns c hc).columnExpr, skip, take, sources, filter, groupBy, having,
    fun o ho => (orderBy o ho).orderExpr⟩

theorem Scoped.parts {s : Source} (h : (Node.source s).Scoped C scope) :
    s.Each (fun e => (Node.expr e).Scoped C scope) (fun q => (Node.query q).Scoped C scope)
      (fun s => (Node.source s).Scoped C scope) := by
  obtain ⟨-, -, children, -⟩ := h
  simp only [Node.children, binds, List.nil_append, List.forall_mem_cons, List.forall_mem_map]
    at children
  obtain ⟨origin, joins⟩ := children
  have hjoin : ∀ j ∈ s.joins, (Node.source j.source).Scoped C scope ∧
      ∀ e ∈ j.condition, (Node.expr e).Scoped C scope := by
    intro j hj
    obtain ⟨-, -, children, -⟩ := joins j hj
    simpa [Node.children, binds, forall_ofOption] using children
  refine ⟨fun q hq => ?_, fun j hj => (hjoin j hj).1, fun j hj => (hjoin j hj).2⟩
  rwa [hq] at origin

/-! Trees of which nothing but the references matters. -/

@[simp] theorem scoped_value (l : Literal) (t : DataType) :
    (Node.expr (.value l t)).Scoped (fun _ => True) scope := by
  simp [scoped_expr, Finds, children]

@[simp] theorem scoped_columnRef (c : ColumnRef) :
    (Node.expr (.column c)).Scoped (fun _ => True) scope ↔
      ∃ width, scope.lookup (.query c.query) = some width ∧ c.index < width := by
  simp [scoped_expr, Finds, children]

@[simp] theorem scoped_field (f : FieldRef) :
    (Node.expr (.field f)).Scoped (fun _ => True) scope ↔
      .source f.source ∈ scope.map Prod.fst := by
  rw [← Scope.isSome_lookup_iff]
  simp [scoped_expr, Finds, children]

@[simp] theorem scoped_binary (op : Operator) (l r : Expr) (p : Int) (t : DataType) (n : Bool) :
    (Node.expr (.binary op l r p t n)).Scoped (fun _ => True) scope ↔
      (Node.expr l).Scoped (fun _ => True) scope ∧ (Node.expr r).Scoped (fun _ => True) scope := by
  simp [scoped_expr (.binary ..), Finds, children]

@[simp] theorem scoped_raw (format : String) (p : Int) (args : List Expr) (t : DataType) :
    (Node.expr (.raw format p args t)).Scoped (fun _ => True) scope ↔
      ∀ e ∈ args, (Node.expr e).Scoped (fun _ => True) scope := by
  simp [scoped_expr (.raw ..), Finds, children]

theorem scoped_query (q : Query) :
    (Node.query q).Scoped (fun _ => True) scope ↔
      q.Each (fun e => (Node.expr e).Scoped (fun _ => True) (q.binds ++ scope))
        (fun s => (Node.source s).Scoped (fun _ => True) (q.binds ++ scope)) ∧
      ∀ e ∈ q.bounds, (Node.expr e).Scoped (fun _ => True) scope := by
  have hcolumn : ∀ (scope : Scope) (c : Column), (Node.column c).Scoped (fun _ => True) scope ↔
      (Node.expr c.expr).Scoped (fun _ => True) scope := by
    intro scope c
    simp [scoped_iff (.column c), Finds, children, binds, bounds]
  have horder : ∀ (scope : Scope) (o : OrderItem), (Node.order o).Scoped (fun _ => True) scope ↔
      (Node.expr o.expr).Scoped (fun _ => True) scope := by
    intro scope o
    simp [scoped_iff (.order o), Finds, children, binds, bounds]
  refine ⟨fun h => ⟨h.clauses, h.bounds⟩, ?_⟩
  rintro ⟨h, hbounds⟩
  refine .mk trivial trivial ?_ hbounds
  simp only [children, binds, List.mem_append, or_imp, forall_and, forall_ofOption,
    List.forall_mem_map, hcolumn, horder]
  exact ⟨⟨⟨⟨⟨⟨⟨h.columns, h.skip⟩, h.take⟩, h.sources⟩, h.filter⟩, h.groupBy⟩, h.having⟩, h.orderBy⟩

theorem scoped_source (s : Source) :
    (Node.source s).Scoped (fun _ => True) scope ↔
      s.Each (fun e => (Node.expr e).Scoped (fun _ => True) scope)
        (fun q => (Node.query q).Scoped (fun _ => True) scope)
        (fun s => (Node.source s).Scoped (fun _ => True) scope) := by
  have hjoin : ∀ j : Join, (Node.join j).Scoped (fun _ => True) scope ↔
      (Node.source j.source).Scoped (fun _ => True) scope ∧
        ∀ e ∈ j.condition, (Node.expr e).Scoped (fun _ => True) scope := by
    intro j
    simp [scoped_iff (.join j), Finds, children, binds, bounds, forall_ofOption]
  have htable : ∀ t : Table, (Node.table t).Scoped (fun _ => True) scope := by
    intro t
    simp [scoped_iff (.table t), Finds, children, binds, bounds]
  refine ⟨Scoped.parts, fun h => .mk trivial trivial ?_ (by simp [bounds])⟩
  simp only [children, binds, List.nil_append, List.forall_mem_cons, List.forall_mem_map, hjoin]
  refine ⟨?_, fun j hj => ⟨h.joins j hj, h.conditions j hj⟩⟩
  cases ho : s.origin with
  | table t => exact htable t
  | query q => exact h.origin q ho

end Node

end SqlTree

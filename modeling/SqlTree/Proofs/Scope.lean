import SqlTree.Proofs.Ident

/-! # Scopes

A query opens a scope for all that is below it: its sources, and the queries that are derived tables
of it. A field refers to a source and a column to a derived table that is in scope.

Main definitions:

* `Query.opens`: the ids that a query brings into scope.
* `Node.InScope`: all references at and below a node are in scope.
* `Statement.WellFormed`: distinct ids and references in scope.

Main statements:

* `Query.opens_sublist_declared`: what comes into scope is declared.
* `Node.inScope_query`, `Node.inScope_source`: scopes in terms of the parts.
* `Node.InScope.of_references`: only what is referred to has to be in scope.
-/

namespace SqlTree

/-- The ids that a source brings into scope: its own and that of its derived table. -/
def Source.opens (s : Source) : List Ident :=
  .source s.id ::
    match s.origin with
    | .table _ => []
    | .query q => [.query q.id]

def Query.opens (q : Query) : List Ident := q.allSources.flatMap Source.opens

/-- The ids that come into scope below a node. Values that are set are read in the scope of the
query of the statement. -/
def Node.opens : Node → List Ident
  | .query q => q.opens
  | .statement (.update _ _ q) => q.opens
  | .statement (.insert _ _ q) => q.opens
  | _ => []

/-- All references at and below a node are in scope, where `scope` is in scope around it. -/
inductive Node.InScope : List Ident → Node → Prop
  | mk {scope : List Ident} {n : Node} (refersTo : ∀ i ∈ n.refersTo?, i ∈ scope)
      (children : ∀ c ∈ n.children, InScope (n.opens ++ scope) c) : InScope scope n

/-- No id is declared twice, and all references are in scope. -/
structure Statement.WellFormed (s : Statement) : Prop where
  queryIds : (Node.statement s).queryIds.Nodup
  sourceIds : (Node.statement s).sourceIds.Nodup
  inScope : (Node.statement s).InScope []

theorem Statement.wellFormed_iff (s : Statement) :
    s.WellFormed ↔ (Node.statement s).declared.Nodup ∧ (Node.statement s).InScope [] := by
  rw [Node.declared_nodup_iff]
  exact ⟨fun h => ⟨⟨h.queryIds, h.sourceIds⟩, h.inScope⟩, fun h => ⟨h.1.1, h.1.2, h.2⟩⟩

/-! What comes into scope. -/

theorem Source.source_mem_opens {s : Source} {id : SourceId} :
    .source id ∈ s.opens ↔ id = s.id := by
  unfold opens
  cases s.origin <;> simp

theorem Source.query_mem_opens {s : Source} {id : QueryId} :
    .query id ∈ s.opens ↔ ∃ q, s.origin = .query q ∧ q.id = id := by
  unfold opens
  cases s.origin <;> simp [eq_comm]

theorem Source.opens_sublist_declared :
    ∀ s : Source, (s.withJoined.flatMap opens).Sublist (Node.source s).declared := by
  refine Source.joinInduction fun s ih => ?_
  have hjoins : (s.joins.flatMap fun j => j.source.withJoined.flatMap opens).Sublist
      (s.joins.flatMap fun j => (Node.source j.source).declared ++ Node.declaredIn j.condition) :=
    .flatMap_right _ fun j hj => List.sublist_append_of_sublist_left (ih j hj)
  rw [withJoined_eq, Node.declared_source, List.flatMap_cons, List.flatMap_assoc]
  unfold opens
  refine (List.Sublist.cons_cons _ ?_).append hjoins
  cases s.origin with
  | table t => exact List.nil_sublist _
  | query q =>
    rw [Node.declaredBy, Node.declared_query]
    exact (List.nil_sublist _).cons_cons _

theorem Query.opens_sublist_declared (q : Query) : q.opens.Sublist (Node.query q).declared := by
  have hsources : q.opens.Sublist (q.sources.flatMap fun s => (Node.source s).declared) := by
    rw [opens, allSources, List.flatMap_assoc]
    exact .flatMap_right _ fun s _ => s.opens_sublist_declared
  refine hsources.trans ?_
  rw [Node.declared_query]
  refine .cons _ (List.sublist_append_of_sublist_right (List.sublist_append_of_sublist_right
    (List.sublist_append_of_sublist_right ?_)))
  exact List.sublist_append_left _ _

/-! References in scope. -/

namespace Node

variable {scope scope' : List Ident}

theorem inScope_iff (n : Node) :
    n.InScope scope ↔
      (∀ i ∈ n.refersTo?, i ∈ scope) ∧ ∀ c ∈ n.children, c.InScope (n.opens ++ scope) := by
  constructor
  · rintro ⟨href, hchildren⟩
    exact ⟨href, hchildren⟩
  · rintro ⟨href, hchildren⟩
    exact .mk href hchildren

/-- Of what is in scope, only that matters which is referred to. -/
theorem InScope.of_references {n : Node} (h : n.InScope scope)
    (hsub : ∀ i ∈ n.references, i ∈ scope → i ∈ scope') : n.InScope scope' := by
  induction h generalizing scope' with
  | @mk scope n href _ ih =>
    rw [references_eq] at hsub
    refine .mk (fun i hi => hsub i ?_ (href i hi)) fun c hc => ih c hc fun i hi hmem => ?_
    · exact List.mem_append_left _ (by simpa using hi)
    · rcases List.mem_append.1 hmem with hmem | hmem
      · exact List.mem_append_left _ hmem
      · refine List.mem_append_right _ (hsub i ?_ hmem)
        exact List.mem_append_right _ (List.mem_flatMap.2 ⟨c, hc, hi⟩)

theorem InScope.mono {n : Node} (h : n.InScope scope) (hsub : scope ⊆ scope') :
    n.InScope scope' :=
  h.of_references fun _ _ hi => hsub hi

/-- References are in scope wherever they stand if all of them are in scope around the tree. -/
theorem inScope_of_references (n : Node) (scope : List Ident) (h : ∀ i ∈ n.references, i ∈ scope) :
    n.InScope scope := by
  rw [references_eq] at h
  refine .mk (fun i hi => h i (List.mem_append_left _ (by simpa using hi))) fun c hc => ?_
  have hlt := weight_lt_of_mem_children hc
  refine inScope_of_references c _ fun i hi => List.mem_append_right _ (h i ?_)
  exact List.mem_append_right _ (List.mem_flatMap.2 ⟨c, hc, hi⟩)
termination_by n.weight

/-- The same, where the tree itself opens the scope. -/
theorem inScope_of_opens {n : Node} (hn : n.refersTo? = none)
    (h : ∀ i ∈ n.references, i ∈ n.opens ++ scope) : n.InScope scope := by
  refine .mk (by simp [hn]) fun c hc => inScope_of_references c _ fun i hi => h i ?_
  rw [references_eq n]
  exact List.mem_append_right _ (List.mem_flatMap.2 ⟨c, hc, hi⟩)

section

attribute [local simp] refersTo? children opens

@[simp] theorem inScope_field (f : FieldRef) :
    (Node.expr (.field f)).InScope scope ↔ .source f.source ∈ scope := by
  simp [inScope_iff (.expr (.field f))]

@[simp] theorem inScope_columnRef (c : ColumnRef) :
    (Node.expr (.column c)).InScope scope ↔ .query c.query ∈ scope := by
  simp [inScope_iff (.expr (.column c))]

@[simp] theorem inScope_value (l : Literal) (t : DataType) :
    (Node.expr (.value l t)).InScope scope := by
  simp [inScope_iff (.expr (.value l t))]

@[simp] theorem inScope_parameter (p : Parameter) : (Node.expr (.parameter p)).InScope scope := by
  simp [inScope_iff (.expr (.parameter p))]

@[simp] theorem inScope_typeName (t : DataType) : (Node.expr (.typeName t)).InScope scope := by
  simp [inScope_iff (.expr (.typeName t))]

@[simp] theorem inScope_call (name : String) (t : DataType) (args : List Expr) (flags : CallFlags) :
    (Node.expr (.call name t args flags)).InScope scope ↔
      ∀ e ∈ args, (Node.expr e).InScope scope := by
  simp [inScope_iff (.expr (.call ..))]

@[simp] theorem inScope_binary (op : Operator) (l r : Expr) (p : Int) (t : DataType) (n : Bool) :
    (Node.expr (.binary op l r p t n)).InScope scope ↔
      (Node.expr l).InScope scope ∧ (Node.expr r).InScope scope := by
  simp [inScope_iff (.expr (.binary ..))]

@[simp] theorem inScope_raw (format : String) (p : Int) (args : List Expr) (t : DataType) :
    (Node.expr (.raw format p args t)).InScope scope ↔
      ∀ e ∈ args, (Node.expr e).InScope scope := by
  simp [inScope_iff (.expr (.raw ..))]

@[simp] theorem inScope_subquery (q : Query) :
    (Node.expr (.subquery q)).InScope scope ↔ (Node.query q).InScope scope := by
  simp [inScope_iff (.expr (.subquery q))]

@[simp] theorem inScope_existsRow (q : Query) :
    (Node.expr (.existsRow q)).InScope scope ↔ (Node.query q).InScope scope := by
  simp [inScope_iff (.expr (.existsRow q))]

@[simp] theorem inScope_column (c : Column) :
    (Node.column c).InScope scope ↔ (Node.expr c.expr).InScope scope := by
  simp [inScope_iff (.column c)]

@[simp] theorem inScope_order (o : OrderItem) :
    (Node.order o).InScope scope ↔ (Node.expr o.expr).InScope scope := by
  simp [inScope_iff (.order o)]

@[simp] theorem inScope_setItem (i : SetItem) :
    (Node.setItem i).InScope scope ↔ (Node.expr i.expr).InScope scope := by
  simp [inScope_iff (.setItem i)]

@[simp] theorem inScope_table (t : Table) : (Node.table t).InScope scope := by
  simp [inScope_iff (.table t)]

end

theorem inScope_query (q : Query) :
    (Node.query q).InScope scope ↔
      q.Each (fun e => (Node.expr e).InScope (q.opens ++ scope))
        (fun s => (Node.source s).InScope (q.opens ++ scope)) := by
  rw [inScope_iff]
  simp only [refersTo?, children, opens, List.mem_append, or_imp, forall_and, forall_ofOption,
    List.forall_mem_map, inScope_column, inScope_order]
  constructor
  · rintro ⟨-, ⟨⟨⟨⟨⟨⟨hcolumns, hskip⟩, htake⟩, hsources⟩, hfilter⟩, hgroupBy⟩, hhaving⟩, horderBy⟩
    exact ⟨hcolumns, hskip, htake, hsources, hfilter, hgroupBy, hhaving, horderBy⟩
  · intro h
    exact ⟨by simp, ⟨⟨⟨⟨⟨⟨h.columns, h.skip⟩, h.take⟩, h.sources⟩, h.filter⟩, h.groupBy⟩, h.having⟩,
      h.orderBy⟩

theorem inScope_source (s : Source) :
    (Node.source s).InScope scope ↔
      s.Each (fun e => (Node.expr e).InScope scope) (fun q => (Node.query q).InScope scope)
        (fun s => (Node.source s).InScope scope) := by
  have hjoin : ∀ j : Join, (Node.join j).InScope scope ↔
      (Node.source j.source).InScope scope ∧
        ∀ e ∈ j.condition, (Node.expr e).InScope scope := by
    intro j
    rw [inScope_iff]
    simp only [refersTo?, children, opens, List.nil_append, List.forall_mem_cons, forall_ofOption]
    simp
  rw [inScope_iff]
  simp only [refersTo?, children, opens, List.nil_append, List.forall_mem_cons,
    List.forall_mem_map, hjoin]
  constructor
  · rintro ⟨-, horigin, hjoins⟩
    refine ⟨fun q hq => ?_, fun j hj => (hjoins j hj).1, fun j hj => (hjoins j hj).2⟩
    rwa [hq] at horigin
  · intro h
    refine ⟨by simp, ?_, fun j hj => ⟨h.joins j hj, h.conditions j hj⟩⟩
    cases ho : s.origin with
    | table t => exact inScope_table t
    | query q => exact h.origin q ho

@[simp] theorem inScope_delete (target : Option SourceId) (q : Query) :
    (Node.statement (.delete target q)).InScope scope ↔ (Node.query q).InScope scope := by
  simp [inScope_iff (.statement (.delete ..)), refersTo?, children, opens]

theorem inScope_update (target : Option SourceId) (items : List SetItem) (q : Query) :
    (Node.statement (.update target items q)).InScope scope ↔
      (∀ i ∈ items, (Node.expr i.expr).InScope (q.opens ++ scope)) ∧
        (Node.query q).InScope scope := by
  -- The query itself has its own scope around it.
  have hquery : (Node.query q).InScope (q.opens ++ scope) ↔ (Node.query q).InScope scope := by
    have hopens : ∀ {n : Node},
        n.InScope (q.opens ++ (q.opens ++ scope)) ↔ n.InScope (q.opens ++ scope) :=
      ⟨fun h => h.mono (by simp), fun h => h.mono (by simp)⟩
    simp only [inScope_query, hopens]
  rw [inScope_iff]
  simp only [refersTo?, children, opens, List.mem_append, or_imp, forall_and, List.forall_mem_map,
    inScope_setItem, List.mem_singleton, forall_eq, hquery]
  simp

end Node

end SqlTree

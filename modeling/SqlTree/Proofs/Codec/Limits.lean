import SqlTree.Codec.Tree
import SqlTree.Proofs.Codec.Literal
import SqlTree.Proofs.Refinement
import SqlTree.Proofs.Tree

/-! # Limits of trees in JSON

Ids and positions in a tree are numbers of any size. In JSON an id has 32 bits, the position of a
column 64, a position in a key 16 and a precedence 32 with its sign, and nothing beyond these limits
is read.

Main definitions:

* `Json.Yields`: what all values of a reader have in common.
* `Node.Limited`: the limits of one node.

Main statements:

* `ReadsLimited.step`: one step down into a JSON value keeps to the limits.
* `Statement.allLimited_of_ofJson?`: all nodes of a statement that is read are within them.
-/

namespace SqlTree

/-! Readers. -/

namespace Json

variable {α : Type} {read : Json → Option α} {P : α → Prop}

/-- All values that the reader gives meet `P`. -/
def Yields (read : Json → Option α) (P : α → Prop) : Prop := ∀ ⦃j a⦄, read j = some a → P a

namespace Yields

theorem required (h : Yields read P) {fields : Fields} {name : String} {a : α}
    (ha : required read fields name = some a) : P a := by
  obtain ⟨j, -, hj⟩ := Option.bind_eq_some_iff.1 ha
  exact h hj

theorem defaulted (h : Yields read P) {absent : α} (habsent : P absent) {fields : Fields}
    {name : String} {a : α} (ha : defaulted read absent fields name = some a) : P a := by
  unfold Json.defaulted at ha
  split at ha
  · cases ha
    exact habsent
  · exact h ha

theorem optional (h : Yields read P) {fields : Fields} {name : String} {o : Option α}
    (ho : optional read fields name = some o) : ∀ a ∈ o, P a := by
  unfold Json.optional at ho
  split at ho
  · cases ho
    simp
  · cases ho
    simp
  · obtain ⟨a, ha, rfl⟩ := Option.map_eq_some_iff.1 ho
    simpa using h ha

theorem list (h : Yields read P) : Yields (list? read) fun as => ∀ a ∈ as, P a := by
  intro j as has a ha
  unfold list? at has
  split at has
  · obtain ⟨i, -, hi⟩ := (mem_mapM has).1 ha
    exact h hi
  · cases has

end Yields

end Json

/-! Limits. -/

def QueryId.Limited (id : QueryId) : Prop := id.val ≤ maxId

def SourceId.Limited (id : SourceId) : Prop := id.val ≤ maxId

/-- A precedence has 32 bits with its sign. -/
def Precedence.Limited (p : Int) : Prop := Int32.minValue.toInt ≤ p ∧ p ≤ Int32.maxValue.toInt

/-- Positions in a key have 16 bits. -/
def Field.Limited (f : Field) : Prop := ∀ n ∈ f.keyOrdinal, n ≤ 65535

def Table.Limited (t : Table) : Prop := ∀ f ∈ t.fields, f.Limited

structure ColumnRef.Limited (c : ColumnRef) : Prop where
  query : c.query.Limited
  index : c.index ≤ UInt64.size - 1

/-- The limits of an expression apart from its children. -/
def Expr.Limited : Expr → Prop
  | .value l _ => l.Limited
  | .parameter p => p.value.Limited
  | .field f => f.source.Limited
  | .column c => c.Limited
  | .binary _ _ _ p _ _ => Precedence.Limited p
  | .raw _ p _ _ => Precedence.Limited p
  | _ => True

instance : DecidablePred Expr.Limited
  | .value l _ => inferInstanceAs (Decidable l.Limited)
  | .parameter p => inferInstanceAs (Decidable p.value.Limited)
  | .field f => inferInstanceAs (Decidable (f.source.val ≤ maxId))
  | .column c =>
    decidable_of_iff (c.query.val ≤ maxId ∧ c.index ≤ UInt64.size - 1)
      ⟨fun h => ⟨h.1, h.2⟩, fun h => ⟨h.1, h.2⟩⟩
  | .binary _ _ _ p _ _ | .raw _ p _ _ =>
    inferInstanceAs (Decidable (Int32.minValue.toInt ≤ p ∧ p ≤ Int32.maxValue.toInt))
  | .call .. | .typeName _ | .subquery _ | .existsRow _ => .isTrue trivial

/-- The limits of a statement apart from its children. -/
def Statement.Limited : Statement → Prop
  | .update target _ _ => ∀ id ∈ target, id.Limited
  | .delete target _ => ∀ id ∈ target, id.Limited
  | _ => True

instance : DecidablePred Statement.Limited
  | .update target _ _ | .delete target _ =>
    inferInstanceAs (Decidable (∀ id ∈ target, id.val ≤ maxId))
  | .select _ | .insert .. | .merge .. | .createTable _ | .dropTable .. => .isTrue trivial

namespace Node

/-- The limits of a node in JSON. -/
def Limited : Node → Prop
  | .statement s => s.Limited
  | .query q => q.id.Limited
  | .source s => s.id.Limited
  | .table t => t.Limited
  | .expr e => e.Limited
  | _ => True

instance : DecidablePred Limited
  | .statement s => inferInstanceAs (Decidable s.Limited)
  | .query q => inferInstanceAs (Decidable (q.id.val ≤ maxId))
  | .source s => inferInstanceAs (Decidable (s.id.val ≤ maxId))
  | .table t => inferInstanceAs (Decidable (∀ f ∈ t.fields, ∀ n ∈ f.keyOrdinal, n ≤ 65535))
  | .expr e => inferInstanceAs (Decidable e.Limited)
  | .column _ | .join _ | .order _ | .setItem _ | .mergeOperation _ => .isTrue trivial

/-- The node that a source draws its rows from. -/
def ofSourceOrigin : Origin → Node
  | .table t => .table t
  | .query q => .query q

theorem children_source (s : Source) :
    (Node.source s).children = ofSourceOrigin s.origin :: s.joins.map .join := by
  cases s with
  | mk id origin aliasName joins => cases origin <;> rfl

/-- All nodes at and below a node are within the limits. -/
abbrev AllLimited (n : Node) : Prop := n.All Limited

theorem allLimited_of {n : Node} (hn : n.Limited) (hchildren : ∀ c ∈ n.children, c.AllLimited) :
    n.AllLimited :=
  (all_iff n).2 ⟨hn, hchildren⟩

end Node

theorem Table.allLimited {t : Table} (ht : t.Limited) : (Node.table t).AllLimited :=
  Node.allLimited_of ht (by simp [Node.children])

/-! Reading leaves. -/

theorem QueryId.yields : Json.Yields ofJson? QueryId.Limited := by
  intro j id h
  obtain ⟨n, hn, rfl⟩ := Option.map_eq_some_iff.1 h
  exact Json.natural?_le hn

theorem SourceId.yields : Json.Yields ofJson? SourceId.Limited := by
  intro j id h
  obtain ⟨n, hn, rfl⟩ := Option.map_eq_some_iff.1 h
  exact Json.natural?_le hn

theorem Precedence.yields : Json.Yields precedenceOfJson? Precedence.Limited :=
  fun _ _ => Json.bounded?_eq_some

theorem Field.yields : Json.Yields ofJson? Field.Limited := by
  intro j f h
  simp only [ofJson?, Option.bind_eq_bind, Option.bind_eq_some_iff] at h
  obtain ⟨r, -, name, -, t, -, nullable, -, ordinal, hordinal, h⟩ := h
  cases h
  have hnatural : Json.Yields (Json.natural? 65535) (· ≤ 65535) := fun _ _ => Json.natural?_le
  exact hnatural.optional hordinal

theorem Table.yields : Json.Yields ofJson? Table.Limited := by
  intro j t h
  simp only [ofJson?, Option.bind_eq_bind, Option.bind_eq_some_iff] at h
  obtain ⟨r, -, name, -, schema, -, database, -, server, -, temporary, -, fields, hfields, h⟩ := h
  cases h
  exact Field.yields.list.defaulted (by simp) hfields

theorem Literal.yields : Json.Yields ofJson? Literal.Limited := fun _ _ => limited_of_ofJson?

theorem Parameter.yields : Json.Yields ofJson? fun p => p.value.Limited := by
  intro j p h
  simp only [ofJson?, Option.bind_eq_bind, Option.bind_eq_some_iff] at h
  obtain ⟨r, -, name, -, value, hvalue, t, -, isBound, -, h⟩ := h
  cases h
  exact Literal.yields.required hvalue

theorem FieldRef.yields : Json.Yields ofJson? fun f => f.source.Limited := by
  intro j f h
  simp only [ofJson?, Option.bind_eq_bind, Option.bind_eq_some_iff] at h
  obtain ⟨r, -, source, hsource, name, -, t, -, nullable, -, h⟩ := h
  cases h
  exact SourceId.yields.required hsource

theorem ColumnRef.yields : Json.Yields ofJson? ColumnRef.Limited := by
  intro j c h
  simp only [ofJson?, Option.bind_eq_bind, Option.bind_eq_some_iff] at h
  obtain ⟨r, -, query, hquery, index, hindex, t, -, h⟩ := h
  cases h
  have hnatural : Json.Yields (Json.natural? (UInt64.size - 1)) (· ≤ UInt64.size - 1) :=
    fun _ _ => Json.natural?_le
  exact ⟨QueryId.yields.required hquery, hnatural.required hindex⟩

/-! Reading trees. -/

/-- The bounds and columns of a query are within the limits. -/
structure SelectPart.Limited (s : SelectPart) : Prop where
  columns : ∀ c ∈ s.columns, (Node.column c).AllLimited
  skip : ∀ e ∈ s.skip, (Node.expr e).AllLimited
  take : ∀ e ∈ s.take, (Node.expr e).AllLimited

/-- What is read with so much fuel is within the limits. -/
structure ReadsLimited (fuel : Nat) : Prop where
  expr : Json.Yields (exprOfJson? fuel) fun e => (Node.expr e).AllLimited
  query : Json.Yields (queryOfJson? fuel) fun q => (Node.query q).AllLimited
  select : Json.Yields (selectOfJson? fuel) SelectPart.Limited
  column : Json.Yields (columnOfJson? fuel) fun c => (Node.column c).AllLimited
  order : Json.Yields (orderOfJson? fuel) fun o => (Node.order o).AllLimited
  source : Json.Yields (sourceOfJson? fuel) fun s => (Node.source s).AllLimited
  origin : Json.Yields (originOfJson? fuel) fun o => (Node.ofSourceOrigin o).AllLimited
  join : Json.Yields (joinOfJson? fuel) fun j => (Node.join j).AllLimited

namespace ReadsLimited

theorem zero : ReadsLimited 0 where
  expr _ _ h := by simp [exprOfJson?] at h
  query _ _ h := by simp [queryOfJson?] at h
  select _ _ h := by simp [selectOfJson?] at h
  column _ _ h := by simp [columnOfJson?] at h
  order _ _ h := by simp [orderOfJson?] at h
  source _ _ h := by simp [sourceOfJson?] at h
  origin _ _ h := by simp [originOfJson?] at h
  join _ _ h := by simp [joinOfJson?] at h

variable {fuel : Nat} (ih : ReadsLimited fuel)

include ih

theorem expr_succ : Json.Yields (exprOfJson? (fuel + 1)) fun e => (Node.expr e).AllLimited := by
  intro j e h
  unfold exprOfJson? at h
  split at h
  · rename_i n tag body hfuel
    cases hfuel
    split at h
    · simp only [Option.bind_eq_bind, Option.bind_eq_some_iff] at h
      obtain ⟨r, -, l, hl, t, -, h⟩ := h
      cases h
      exact Node.allLimited_of (Literal.yields.required hl) (by simp [Node.children])
    · obtain ⟨p, hp, rfl⟩ := Option.map_eq_some_iff.1 h
      exact Node.allLimited_of (Parameter.yields hp) (by simp [Node.children])
    · obtain ⟨f, hf, rfl⟩ := Option.map_eq_some_iff.1 h
      exact Node.allLimited_of (FieldRef.yields hf) (by simp [Node.children])
    · obtain ⟨c, hc, rfl⟩ := Option.map_eq_some_iff.1 h
      exact Node.allLimited_of (ColumnRef.yields hc) (by simp [Node.children])
    · simp only [Option.bind_eq_bind, Option.bind_eq_some_iff] at h
      obtain ⟨r, -, name, -, t, -, args, hargs, flags, -, h⟩ := h
      cases h
      exact Node.allLimited_of trivial (by simpa [Node.children] using ih.expr.list.required hargs)
    · simp only [Option.bind_eq_bind, Option.bind_eq_some_iff] at h
      obtain ⟨r, -, op, -, left, hleft, right, hright, p, hp, t, -, nullable, -, h⟩ := h
      cases h
      exact Node.allLimited_of (Precedence.yields.required hp)
        (by simpa [Node.children] using ⟨ih.expr.required hleft, ih.expr.required hright⟩)
    · simp only [Option.bind_eq_bind, Option.bind_eq_some_iff] at h
      obtain ⟨r, -, format, -, p, hp, args, hargs, t, -, h⟩ := h
      cases h
      exact Node.allLimited_of (Precedence.yields.required hp)
        (by simpa [Node.children] using ih.expr.list.required hargs)
    · obtain ⟨t, -, rfl⟩ := Option.map_eq_some_iff.1 h
      exact Node.allLimited_of trivial (by simp [Node.children])
    · obtain ⟨q, hq, rfl⟩ := Option.map_eq_some_iff.1 h
      exact Node.allLimited_of trivial (by simpa [Node.children] using ih.query hq)
    · obtain ⟨q, hq, rfl⟩ := Option.map_eq_some_iff.1 h
      exact Node.allLimited_of trivial (by simpa [Node.children] using ih.query hq)
    · cases h
  · cases h

theorem query_succ : Json.Yields (queryOfJson? (fuel + 1)) fun q => (Node.query q).AllLimited := by
  intro j q h
  simp only [queryOfJson?, Option.bind_eq_bind, Option.bind_eq_some_iff] at h
  obtain ⟨r, -, select, hselect, id, hid, sources, hsources, filter, hfilter, groupBy, hgroupBy,
    having, hhaving, orderBy, horderBy, h⟩ := h
  cases h
  have hselect := ih.select.defaulted ⟨by simp, by simp, by simp⟩ hselect
  refine Node.allLimited_of (QueryId.yields.required hid) ?_
  simp only [Node.children, List.mem_append, or_imp, forall_and, Node.forall_ofOption,
    List.forall_mem_map]
  exact ⟨⟨⟨⟨⟨⟨⟨hselect.columns, hselect.skip⟩, hselect.take⟩,
    ih.source.list.defaulted (by simp) hsources⟩, ih.expr.optional hfilter⟩,
    ih.expr.list.defaulted (by simp) hgroupBy⟩, ih.expr.optional hhaving⟩,
    ih.order.list.defaulted (by simp) horderBy⟩

theorem select_succ : Json.Yields (selectOfJson? (fuel + 1)) SelectPart.Limited := by
  intro j s h
  simp only [selectOfJson?, Option.bind_eq_bind, Option.bind_eq_some_iff] at h
  obtain ⟨r, -, columns, hcolumns, distinct, -, skip, hskip, take, htake, h⟩ := h
  cases h
  exact ⟨ih.column.list.defaulted (by simp) hcolumns, ih.expr.optional hskip,
    ih.expr.optional htake⟩

theorem column_succ :
    Json.Yields (columnOfJson? (fuel + 1)) fun c => (Node.column c).AllLimited := by
  intro j c h
  simp only [columnOfJson?, Option.bind_eq_bind, Option.bind_eq_some_iff] at h
  obtain ⟨r, -, e, he, aliasName, -, h⟩ := h
  cases h
  exact Node.allLimited_of trivial (by simpa [Node.children] using ih.expr.required he)

theorem order_succ : Json.Yields (orderOfJson? (fuel + 1)) fun o => (Node.order o).AllLimited := by
  intro j o h
  simp only [orderOfJson?, Option.bind_eq_bind, Option.bind_eq_some_iff] at h
  obtain ⟨r, -, e, he, desc, -, h⟩ := h
  cases h
  exact Node.allLimited_of trivial (by simpa [Node.children] using ih.expr.required he)

theorem source_succ :
    Json.Yields (sourceOfJson? (fuel + 1)) fun s => (Node.source s).AllLimited := by
  intro j s h
  simp only [sourceOfJson?, Option.bind_eq_bind, Option.bind_eq_some_iff] at h
  obtain ⟨r, -, id, hid, origin, horigin, aliasName, -, joins, hjoins, h⟩ := h
  cases h
  refine Node.allLimited_of (SourceId.yields.required hid) ?_
  rw [Node.children_source, List.forall_mem_cons, List.forall_mem_map]
  exact ⟨ih.origin.required horigin, ih.join.list.defaulted (by simp) hjoins⟩

theorem origin_succ :
    Json.Yields (originOfJson? (fuel + 1)) fun o => (Node.ofSourceOrigin o).AllLimited := by
  intro j o h
  unfold originOfJson? at h
  split at h
  · rename_i n tag body hfuel
    cases hfuel
    split at h
    · obtain ⟨t, ht, rfl⟩ := Option.map_eq_some_iff.1 h
      exact Table.allLimited (Table.yields ht)
    · obtain ⟨q, hq, rfl⟩ := Option.map_eq_some_iff.1 h
      exact ih.query hq
    · cases h
  · cases h

theorem join_succ : Json.Yields (joinOfJson? (fuel + 1)) fun j => (Node.join j).AllLimited := by
  intro j join h
  simp only [joinOfJson?, Option.bind_eq_bind, Option.bind_eq_some_iff] at h
  obtain ⟨r, -, kind, -, source, hsource, condition, hcondition, h⟩ := h
  cases h
  refine Node.allLimited_of trivial ?_
  simp only [Node.children, List.forall_mem_cons, Node.forall_ofOption]
  exact ⟨ih.source.required hsource, ih.expr.optional hcondition⟩

/-- One step down into a JSON value keeps to the limits. -/
theorem step : ReadsLimited (fuel + 1) :=
  ⟨ih.expr_succ, ih.query_succ, ih.select_succ, ih.column_succ, ih.order_succ, ih.source_succ,
    ih.origin_succ, ih.join_succ⟩

end ReadsLimited

theorem readsLimited (fuel : Nat) : ReadsLimited fuel := by
  induction fuel with
  | zero => exact .zero
  | succ fuel ih => exact ih.step

theorem Expr.yields : Json.Yields ofJson? fun e => (Node.expr e).AllLimited :=
  fun _ _ h => (readsLimited _).expr h

theorem Query.yields : Json.Yields ofJson? fun q => (Node.query q).AllLimited :=
  fun _ _ h => (readsLimited _).query h

theorem Source.yields : Json.Yields ofJson? fun s => (Node.source s).AllLimited :=
  fun _ _ h => (readsLimited _).source h

/-! Reading statements. -/

theorem SetItem.yields : Json.Yields ofJson? fun i => (Node.setItem i).AllLimited := by
  intro j i h
  simp only [ofJson?, Option.bind_eq_bind, Option.bind_eq_some_iff] at h
  obtain ⟨r, -, column, -, e, he, h⟩ := h
  cases h
  exact Node.allLimited_of trivial (by simpa [Node.children] using Expr.yields.required he)

theorem MergeOperation.yields : Json.Yields ofJson? fun o => (Node.mergeOperation o).AllLimited := by
  intro j o h
  simp only [ofJson?, Option.bind_eq_bind, Option.bind_eq_some_iff] at h
  obtain ⟨r, -, kind, -, condition, hcondition, items, hitems, h⟩ := h
  cases h
  refine Node.allLimited_of trivial ?_
  simp only [Node.children, List.mem_append, or_imp, forall_and, Node.forall_ofOption,
    List.forall_mem_map]
  exact ⟨Expr.yields.optional hcondition, SetItem.yields.list.defaulted (by simp) hitems⟩

/-- All nodes of a statement that is read are within the limits. -/
theorem Statement.allLimited_of_ofJson? :
    Json.Yields ofJson? fun s => (Node.statement s).AllLimited := by
  intro j s h
  unfold ofJson? at h
  split at h
  · split at h
    · simp only [Option.bind_eq_bind, Option.bind_eq_some_iff] at h
      obtain ⟨r, -, q, hq, h⟩ := h
      cases h
      exact Node.allLimited_of trivial (by simpa [Node.children] using Query.yields.required hq)
    · simp only [Option.bind_eq_bind, Option.bind_eq_some_iff] at h
      obtain ⟨r, -, into, hinto, items, hitems, q, hq, h⟩ := h
      cases h
      refine Node.allLimited_of trivial ?_
      simp only [Node.children, List.forall_mem_cons, List.forall_mem_append, List.forall_mem_map]
      exact ⟨Table.allLimited (Table.yields.required hinto),
        SetItem.yields.list.defaulted (by simp) hitems, Query.yields.required hq, by simp⟩
    · simp only [Option.bind_eq_bind, Option.bind_eq_some_iff] at h
      obtain ⟨r, -, target, htarget, items, hitems, q, hq, h⟩ := h
      cases h
      refine Node.allLimited_of (SourceId.yields.optional htarget) ?_
      simp only [Node.children, List.forall_mem_cons, List.forall_mem_append, List.forall_mem_map]
      exact ⟨SetItem.yields.list.required hitems, Query.yields.required hq, by simp⟩
    · simp only [Option.bind_eq_bind, Option.bind_eq_some_iff] at h
      obtain ⟨r, -, target, htarget, q, hq, h⟩ := h
      cases h
      exact Node.allLimited_of (SourceId.yields.optional htarget)
        (by simpa [Node.children] using Query.yields.required hq)
    · simp only [Option.bind_eq_bind, Option.bind_eq_some_iff] at h
      obtain ⟨r, -, target, htarget, q, hq, on, hon, operations, hoperations, h⟩ := h
      cases h
      refine Node.allLimited_of trivial ?_
      simp only [Node.children, List.forall_mem_cons, List.forall_mem_append, List.forall_mem_map,
        Node.forall_ofOption]
      exact ⟨Source.yields.required htarget, Query.yields.required hq, Expr.yields.optional hon,
        MergeOperation.yields.list.required hoperations⟩
    · simp only [Option.bind_eq_bind, Option.bind_eq_some_iff] at h
      obtain ⟨r, -, t, ht, h⟩ := h
      cases h
      exact Node.allLimited_of trivial
        (by simpa [Node.children] using Table.allLimited (Table.yields.required ht))
    · simp only [Option.bind_eq_bind, Option.bind_eq_some_iff] at h
      obtain ⟨r, -, t, ht, ifExists, -, h⟩ := h
      cases h
      exact Node.allLimited_of trivial
        (by simpa [Node.children] using Table.allLimited (Table.yields.required ht))
    · cases h
  · cases h

end SqlTree

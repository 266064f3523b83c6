import SqlTree.Proofs.SingleTable.Correlation

/-! # Deletions keep their meaning

A deletion over joined sources removes the rows of its target that occur in an environment of its
query. The deletion over the target alone removes the same rows.

Main statements:

* `Statement.removed?_toSingleTable`: the same rows are removed.
-/

namespace SqlTree

variable {tables : String → Option (List (Row Value))}

/-- The tables of all sources of the scope have the declared fields. -/
def Query.Fits (tables : String → Option (List (Row Value))) (q : Query) : Prop :=
  ∀ s ∈ q.allSources, ∀ t, s.origin = .table t → (Database.integers tables).Fits t

/-- The tables of all sources of the scope are as they are declared. -/
def Query.Conforms (tables : String → Option (List (Row Value))) (q : Query) : Prop :=
  ∀ s ∈ q.allSources, ∀ t, s.origin = .table t → (Database.integers tables).Conforms t

theorem Query.exists_targetTable {q : Query} {t : Target} (ht : q.HasTarget t)
    (hdb : q.Fits tables) (hnodup : (Node.query q).declared.Nodup) :
    ∃ rows, q.TargetTable tables t rows := by
  obtain ⟨s, hs, hid, horigin⟩ := ht.source
  obtain ⟨rows, hrows, hfits⟩ := hdb s hs t.table horigin
  exact ⟨rows, ht, hrows, hfits, hnodup.sublist q.offered_sublist_declared⟩

theorem Query.exists_targetRows {q : Query} {t : Target} (ht : q.HasTarget t)
    (hdb : q.Conforms tables) (hinner : q.InnerJoined)
    (hnodup : (Node.query q).declared.Nodup) : ∃ rows, q.TargetRows tables t rows := by
  obtain ⟨s, hs, hid, horigin⟩ := ht.source
  obtain ⟨rows, hrows, hconforms⟩ := hdb s hs t.table horigin
  have htable : q.TargetTable tables t rows :=
    ⟨ht, hrows, hconforms.toFits, hnodup.sublist q.offered_sublist_declared⟩
  exact ⟨rows, htable, hconforms, hinner⟩

namespace Statement

theorem toSingleTable_delete (target : Option SourceId) (q : Query) :
    (Statement.delete target q).toSingleTable =
      match q.target? target with
      | none => .delete target q
      | some t =>
        let ids := Ids.after (.statement (.delete target q))
        .delete (some ids.drawSource.1)
          (q.overTarget t ids.drawSource.1 (syntheticAlias (.delete target q))
            ids.drawSource.2.drawQuery.1) := by
  simp only [toSingleTable, singleTable]
  cases q.target? target <;> rfl

theorem removed?_of_selected? {q : Query} {outer : SourceId} {found : List (Row Value)}
    (h : q.selected? (.integers tables) = some (found.map (Env.empty.bindSource outer))) :
    (Statement.delete (some outer) q).removed? (.integers tables) = some found := by
  have hrows : found.mapM (fun x => (Env.empty.bindSource outer x).source outer) = some found := by
    simpa using mapM_eq_some (g := id) fun x (_ : x ∈ found) =>
      Env.source_bindSource_self .empty outer x
  simpa [removed?, Query.targetId?, h, Function.comp_def] using hrows

/-- The deletion from the target alone, whatever source and query ids it gets. -/
theorem removed?_overTarget {target : Option SourceId} {q : Query} {t : Target} {outer : SourceId}
    {targetRows rows : List (Row Value)} (hid : q.targetId? target = some t.id)
    (htr : q.TargetRows tables t targetRows) (hskip : q.skip = none) (htake : q.take = none)
    (hfresh : ∀ i ∈ (Node.query q).declared, i ≠ .source outer)
    (h : (Statement.delete target q).removed? (.integers tables) = some rows) (aliasName : String)
    (queryId : QueryId) :
    ∃ rows', (Statement.delete (some outer) (q.overTarget t outer aliasName queryId)).removed?
        (.integers tables) = some rows' ∧ ∀ x, x ∈ rows' ↔ x ∈ rows := by
  obtain ⟨targetId, htargetId, h⟩ := Option.bind_eq_some_iff.1 h
  obtain ⟨bs, hbs, h⟩ := Option.bind_eq_some_iff.1 h
  obtain rfl : t.id = targetId := by simpa [hid] using htargetId
  rw [Query.selected?_of_unbounded _ hskip htake] at hbs
  obtain ⟨hgroups, hbs⟩ := Option.ite_none_left_eq_some.1 hbs
  obtain ⟨found, hfound, hmem⟩ := Query.exists_selected?_overTarget htr (by simpa using hgroups)
    hskip htake hfresh hbs
  exact ⟨found, removed?_of_selected? (hfound _ _), fun x => (hmem x).trans (mem_mapM h).symm⟩

open Classical in
/-- A deletion over its target alone removes the rows of the target whose key the query finds,
unless the bound of the query leaves no room for a row. -/
theorem removed?_toSingleTable_of_bindings {target : Option SourceId} {q : Query} {t : Target}
    (hfree : (Statement.delete target q).HasFreeIds) (ht : q.target? target = some t)
    {stored : List (Row Value)} (htable : q.TargetTable tables t stored)
    (hgroups : q.groupsRows = false) (hskip : q.skip = none)
    {n : Option Nat} (htake : evalTake (.integers tables) .empty q.take = some n)
    {bs : List (Env Value)} (hbs : (q.scan (.integers tables)).bindings .empty = some bs)
    (hkeys : q.take.isSome → ∀ b ∈ bs, (evalOrder (.integers tables) b q.orderBy).isSome) :
    (Statement.delete target q).toSingleTable.removed? (.integers tables) =
      some (stored.filter fun x => decide (n ≠ some 0 ∧ ∃ b ∈ bs, t.AtKey x b)) := by
  rw [toSingleTable_delete, ht]
  refine removed?_of_selected?
    (Query.selected?_overTarget_of_bindings htable hgroups hskip htake (fun i hi => ?_) hbs hkeys _
      _)
  exact Ids.ne_drawSource (Ids.below_after hfree i (by simpa using hi))

/-- A deletion removes the same rows when it is put over its target alone. -/
theorem removed?_toSingleTable {target : Option SourceId} {q : Query}
    (hids : (Statement.delete target q).Numbered) (hfree : (Statement.delete target q).HasFreeIds)
    (hinner : q.InnerJoined) (hskip : q.skip = none) (htake : q.take = none)
    (hdb : q.Conforms tables) {rows : List (Row Value)}
    (h : (Statement.delete target q).removed? (.integers tables) = some rows) :
    ∃ rows', (Statement.delete target q).toSingleTable.removed? (.integers tables) = some rows' ∧
      ∀ x, x ∈ rows' ↔ x ∈ rows := by
  rw [toSingleTable_delete]
  cases ht : q.target? target with
  | none => exact ⟨rows, h, fun _ => Iff.rfl⟩
  | some t =>
    obtain ⟨hid, htarget⟩ := Query.target?_eq_some ht
    have hnodup : (Node.query q).declared.Nodup := by simpa using hids.declared_nodup
    obtain ⟨targetRows, htr⟩ := q.exists_targetRows htarget hdb hinner hnodup
    refine removed?_overTarget hid htr hskip htake (fun i hi => ?_) h _ _
    exact Ids.ne_drawSource (Ids.below_after hfree i (by simpa using hi))

end Statement

/-! Orders of customers, some of which have no id. -/

namespace Sample

def orders : Table where
  name := "orders"
  fields := [⟨"id", .int32, false, some 0⟩, ⟨"customer", .int32, true, none⟩]

def customers : Table where
  name := "customers"
  fields := [⟨"id", .int32, true, none⟩, ⟨"blocked", .int32, true, none⟩]

def order (id : Int) (customer : Value) : Row Value :=
  .ofFields [("id", some id), ("customer", customer)]

def customer (id blocked : Value) : Row Value := .ofFields [("id", id), ("blocked", blocked)]

def shop (name : String) : Option (List (Row Value)) :=
  if name = "orders" then some [order 1 (some 7), order 2 none, order 3 (some 8)]
  else if name = "customers" then
    some [customer (some 7) (some 1), customer none (some 1), customer (some 8) none]
  else none

/-- The orders of customers that are blocked. -/
def blockedOrders : Query where
  id := ⟨1⟩
  sources := [{
    id := ⟨1⟩
    origin := .table orders
    joins := [{
      kind := .inner
      source := { id := ⟨2⟩, origin := .table customers }
      condition := some (.eq (orders.fieldRef ⟨1⟩ "customer") (customers.fieldRef ⟨2⟩ "id")) }] }]
  filter := some (.eq (customers.fieldRef ⟨2⟩ "blocked") (.int 1))

theorem conforms_orders (rows : List (Int × Value)) (h : (rows.map (·.1)).Nodup) :
    orders.Conforms none (rows.map fun r => order r.1 r.2) := by
  refine ⟨⟨List.forall_mem_map.2 ?_, List.forall_mem_map.2 ?_⟩, ?_⟩
  · simp [order, orders, Row.ofFields]
  · simp [order, orders, Row.ofFields]
  rintro - _ hx _ hy hkey
  obtain ⟨r, hr, rfl⟩ := List.mem_map.1 hx
  obtain ⟨s, hs, rfl⟩ := List.mem_map.1 hy
  have hid : r.1 = s.1 := by simpa [orders, order, Row.ofFields] using hkey
  rw [List.inj_on_of_nodup_map h hr hs hid]

/-- Customers have no key to be told apart by. -/
theorem conforms_customers (rows : List (Value × Value)) :
    customers.Conforms none (rows.map fun r => customer r.1 r.2) := by
  refine ⟨⟨List.forall_mem_map.2 ?_, by simp [customers]⟩, by simp [customers]⟩
  simp [customer, customers, Row.ofFields]

theorem conforms_orders_shop : (Database.integers shop).Conforms orders :=
  ⟨_, rfl, conforms_orders [(1, some 7), (2, none), (3, some 8)] (by decide)⟩

theorem conforms_customers_shop : (Database.integers shop).Conforms customers :=
  ⟨_, rfl, conforms_customers [(some 7, some 1), (none, some 1), (some 8, none)]⟩

theorem conforms_blockedOrders : blockedOrders.Conforms shop := by
  intro s hs t ht
  simp [blockedOrders, Query.allSources, Source.withJoined, joinedSources] at hs
  rcases hs with rfl | rfl <;> cases ht
  · exact conforms_orders_shop
  · exact conforms_customers_shop

theorem numbered_blockedOrders : (Statement.delete none blockedOrders).Numbered :=
  .of_declared (by decide)

theorem removed?_blockedOrders :
    (Statement.delete none blockedOrders).removed? (.integers shop) = some [order 1 (some 7)] ∧
      ∃ rows, (Statement.delete none blockedOrders).toSingleTable.removed? (.integers shop) =
        some rows ∧ ∀ x, x ∈ rows ↔ x ∈ [order 1 (some 7)] :=
  ⟨rfl, Statement.removed?_toSingleTable numbered_blockedOrders (by decide)
    (by unfold Query.InnerJoined; decide) rfl rfl conforms_blockedOrders rfl⟩

end Sample

end SqlTree

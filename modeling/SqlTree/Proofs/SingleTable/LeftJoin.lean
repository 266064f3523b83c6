import SqlTree.Proofs.SingleTable.Deletion

/-! # Deletions over outer joins

An outer join leaves NULLs in place of a row of the target. Put over the target alone, a deletion
compares the key of each stored row with these NULLs too, and a comparison that is null-safe holds
if all key fields of the row are NULL. Such rows are removed although no environment holds them.

Main definitions:

* `Table.NullKey`: a row that is NULL in all key fields.
* `Target.Finds`: a stored row is found under the key of a row.
* `Target.Accounts`: every removed row is found under its key.

Main statements:

* `Statement.removed?_toSingleTable_of_leftJoined`: which rows are removed, and when all of them are
  found by the query.
-/

namespace SqlTree

variable {tables : String → Option (List (Row Value))}

/-- The row is NULL in all key fields. -/
def Table.NullKey (t : Table) (x : Row Value) : Prop := ∀ f ∈ t.keyFields, x f.name = some none

/-- A stored row of the target is found that agrees with the row in the key fields. -/
def Target.Finds (t : Target) (stored found : List (Row Value)) (x : Row Value) : Prop :=
  ∃ y ∈ stored, y ∈ found ∧ ∀ f ∈ t.table.keyFields, y f.name = x f.name

/-- Every removed row agrees in the key fields with a stored row of the target that is found. -/
def Target.Accounts (t : Target) (stored found removed : List (Row Value)) : Prop :=
  ∀ x ∈ removed, t.Finds stored found x

namespace Query.TargetTable

variable {q : Query} {t : Target} {stored rows : List (Row Value)} {bs : List (Env Value)}
  {x : Row Value}

/-- The key of a stored row is found with a row or, if it is NULL, with the NULLs that stand for a
missing row. -/
theorem exists_atKey_iff (h : q.TargetTable tables t stored)
    (hbs : (q.scan (.integers tables)).bindings .empty = some bs)
    (hrows : bs.mapM (fun b => b.source t.id) = some rows) :
    (∃ b ∈ bs, t.AtKey x b) ↔
      t.Finds stored rows x ∨ Row.nulls none ∈ rows ∧ t.table.NullKey x := by
  simp only [Target.Finds, mem_mapM hrows]
  constructor
  · rintro ⟨b, hb, y, hby, hkeys⟩
    obtain ⟨cs, hcs, hbcs⟩ := q.mem_bindSources_of_mem_bindings hbs hb
    obtain ⟨z, hbz, hz⟩ := h.exists_row_or_nulls hcs hbcs
    obtain rfl : y = z := by simpa [hby] using hbz
    rcases hz with hy | ⟨rfl, -⟩
    · exact .inl ⟨y, hy, ⟨b, hb, hby⟩, hkeys⟩
    · exact .inr ⟨⟨b, hb, hby⟩, fun f hf => (hkeys f hf).symm⟩
  · rintro (⟨y, -, ⟨b, hb, hby⟩, hkeys⟩ | ⟨⟨b, hb, hbn⟩, hnull⟩)
    · exact ⟨b, hb, y, hby, hkeys⟩
    · exact ⟨b, hb, _, hbn, fun f hf => (hnull f hf).symm⟩

/-- Where no join can extend rows for the target, NULLs are found only as a row of it. -/
theorem nulls_mem_stored (h : q.TargetTable tables t stored) (hextends : ¬ q.Extends t.id)
    (hbs : (q.scan (.integers tables)).bindings .empty = some bs)
    (hrows : bs.mapM (fun b => b.source t.id) = some rows) (hnulls : Row.nulls none ∈ rows) :
    Row.nulls none ∈ stored := by
  obtain ⟨b, hb, hbn⟩ := (mem_mapM hrows).1 hnulls
  obtain ⟨cs, hcs, hbcs⟩ := q.mem_bindSources_of_mem_bindings hbs hb
  obtain ⟨y, hby, hy | ⟨-, hext⟩⟩ := h.exists_row_or_nulls hcs hbcs
  · obtain rfl : y = .nulls none := by simpa [hby] using hbn
    exact hy
  · exact absurd hext hextends

end Query.TargetTable

namespace Target

variable {t : Target} {stored rows removed : List (Row Value)}

/-- If the removed rows are those with a found key and, next to NULLs, those with a NULL key, then
all are found if and only if NULLs come with the key of every stored row that has a NULL key. -/
theorem accounts_iff
    (hremoved : ∀ x, x ∈ removed ↔
      x ∈ stored ∧ (t.Finds stored rows x ∨ Row.nulls none ∈ rows ∧ t.table.NullKey x)) :
    t.Accounts stored rows removed ↔
      (Row.nulls none ∈ rows → ∀ x ∈ stored, t.table.NullKey x → t.Finds stored rows x) := by
  constructor
  · intro hall hnulls x hx hnull
    exact hall x ((hremoved x).2 ⟨hx, .inr ⟨hnulls, hnull⟩⟩)
  · intro hall x hx
    obtain ⟨hstored, hfound | ⟨hnulls, hnull⟩⟩ := (hremoved x).1 hx
    · exact hfound
    · exact hall hnulls x hstored hnull

/-- A key that tells rows apart is found with the row itself. -/
theorem finds_iff_mem (h : t.table.Conforms none stored) {x : Row Value} (hx : x ∈ stored) :
    t.Finds stored rows x ↔ x ∈ rows := by
  constructor
  · rintro ⟨y, hy, hfound, hkeys⟩
    rwa [← h.eq_of_keyFields hy hx hkeys]
  · exact fun hfound => ⟨x, hx, hfound, fun _ _ => rfl⟩

/-- No stored row has a NULL key if one of the key fields excludes NULL. -/
theorem not_nullKey (h : t.table.Fits none stored) {f : Field} (hf : f ∈ t.table.keyFields)
    (hnullable : f.nullable = false) {x : Row Value} (hx : x ∈ stored) : ¬ t.table.NullKey x :=
  fun hnull => h.notNull x hx f (Table.mem_keyFields.1 hf).1 hnullable (hnull f hf)

end Target

namespace Statement

/-- A deletion over its target alone removes the stored rows whose key the query finds with a stored
row and, if the query finds NULLs in place of a row, the stored rows with a NULL key. No row is
removed whose key is not found if and only if, next to such NULLs, the query finds the keys of all
rows with a NULL key; so it is where no join extends rows for the target, and where a key field
excludes NULL. Where the key tells the stored rows apart, a row is found under its key if it is
found itself. -/
theorem removed?_toSingleTable_of_leftJoined {target : Option SourceId} {q : Query}
    (hids : (Statement.delete target q).Numbered) (hfree : (Statement.delete target q).HasFreeIds)
    (hskip : q.skip = none) (htake : q.take = none) (hdb : q.Fits tables) {rows : List (Row Value)}
    (h : (Statement.delete target q).removed? (.integers tables) = some rows) :
    ∃ rows', (Statement.delete target q).toSingleTable.removed? (.integers tables) = some rows' ∧
      (q.target? target = none → rows' = rows) ∧
      ∀ t, q.target? target = some t → ∃ stored, tables t.table.name = some stored ∧
        (∀ x, x ∈ rows' ↔
          x ∈ stored ∧ (t.Finds stored rows x ∨ Row.nulls none ∈ rows ∧ t.table.NullKey x)) ∧
        (t.Accounts stored rows rows' ↔
          (Row.nulls none ∈ rows → ∀ x ∈ stored, t.table.NullKey x → t.Finds stored rows x)) ∧
        (¬ q.Extends t.id ∨ (∃ f ∈ t.table.keyFields, f.nullable = false) →
          t.Accounts stored rows rows') ∧
        (t.table.Conforms none stored → ∀ x ∈ stored, t.Finds stored rows x ↔ x ∈ rows) := by
  classical
  cases ht : q.target? target with
  | none =>
    refine ⟨rows, ?_, fun _ => rfl, fun t ht' => by cases ht'⟩
    rw [toSingleTable_delete, ht]
    exact h
  | some t =>
    obtain ⟨hid, htarget⟩ := Query.target?_eq_some ht
    have hnodup : (Node.query q).declared.Nodup := by simpa using hids.declared_nodup
    obtain ⟨stored, htable⟩ := q.exists_targetTable htarget hdb hnodup
    obtain ⟨targetId, htargetId, h⟩ := Option.bind_eq_some_iff.1 h
    obtain ⟨bs, hbs, h⟩ := Option.bind_eq_some_iff.1 h
    obtain rfl : t.id = targetId := by simpa [hid] using htargetId
    rw [Query.selected?_of_unbounded _ hskip htake] at hbs
    obtain ⟨hgroups, hbs⟩ := Option.ite_none_left_eq_some.1 hbs
    have hremoved := removed?_toSingleTable_of_bindings hfree ht htable (by simpa using hgroups)
      hskip (by rw [htake]; rfl) hbs (by simp [htake])
    refine ⟨_, hremoved, fun ht' => (by cases ht'), fun t' ht' => ?_⟩
    cases ht'
    have hmem : ∀ x, x ∈ stored.filter (fun x => decide
        ((none : Option Nat) ≠ some 0 ∧ ∃ b ∈ bs, t.AtKey x b)) ↔
          x ∈ stored ∧ (t.Finds stored rows x ∨ Row.nulls none ∈ rows ∧ t.table.NullKey x) := by
      intro x
      rw [List.mem_filter, decide_eq_true_iff, ← htable.exists_atKey_iff hbs h]
      simp
    have haccounts := Target.accounts_iff hmem
    refine ⟨stored, htable.tables_eq, hmem, haccounts, fun hsafe => haccounts.2 ?_,
      fun hconforms x hx => Target.finds_iff_mem hconforms hx⟩
    intro hnulls x hx hnull
    rcases hsafe with hextends | ⟨f, hf, hnullable⟩
    · -- The NULLs are a row of the table then, which has the key of `x`.
      have hstored := htable.nulls_mem_stored hextends hbs h hnulls
      exact ⟨_, hstored, hnulls, fun f hf => (hnull f hf).symm⟩
    · exact absurd hnull (Target.not_nullKey htable.fits hf hnullable hx)

end Statement

/-! The customers of the orders, some of which have none. -/

namespace Sample

def customersOfOrders : Query where
  id := ⟨1⟩
  sources := [{
    id := ⟨1⟩
    origin := .table orders
    joins := [{
      kind := .left
      source := { id := ⟨2⟩, origin := .table customers }
      condition := some (.eq (orders.fieldRef ⟨1⟩ "customer") (customers.fieldRef ⟨2⟩ "id")) }] }]

theorem numbered_customersOfOrders : (Statement.delete (some ⟨2⟩) customersOfOrders).Numbered :=
  .of_declared (by decide)

theorem hasFreeIds_customersOfOrders :
    (Statement.delete (some ⟨2⟩) customersOfOrders).HasFreeIds := by
  decide

theorem fits_customersOfOrders : customersOfOrders.Fits shop := by
  intro s hs t ht
  simp [customersOfOrders, Query.allSources, Source.withJoined, joinedSources] at hs
  rcases hs with rfl | rfl <;> cases ht
  · exact conforms_orders_shop.fits
  · exact conforms_customers_shop.fits

theorem removed?_customersOfOrders :
    (Statement.delete (some ⟨2⟩) customersOfOrders).removed? (.integers shop) =
        some [customer (some 7) (some 1), .nulls none, customer (some 8) none] ∧
      ∃ rows stored, (Statement.delete (some ⟨2⟩) customersOfOrders).toSingleTable.removed?
          (.integers shop) = some rows ∧ shop "customers" = some stored ∧
        Target.Accounts ⟨⟨2⟩, customers⟩ stored
          [customer (some 7) (some 1), .nulls none, customer (some 8) none] rows := by
  have hfound : (Statement.delete (some ⟨2⟩) customersOfOrders).removed? (.integers shop) =
      some [customer (some 7) (some 1), .nulls none, customer (some 8) none] := rfl
  obtain ⟨rows, hrows, -, hall⟩ := Statement.removed?_toSingleTable_of_leftJoined
    numbered_customersOfOrders hasFreeIds_customersOfOrders rfl rfl fits_customersOfOrders hfound
  obtain ⟨stored, hstored, -, haccounts, -⟩ := hall ⟨⟨2⟩, customers⟩ rfl
  refine ⟨hfound, rows, stored, hrows, hstored, haccounts.2 fun _ x hx hnull => ?_⟩
  -- None of the customers is NULL in both fields.
  have hid : x "id" = some none := hnull ⟨"id", .int32, true, none⟩ List.mem_cons_self
  have hblocked : x "blocked" = some none :=
    hnull ⟨"blocked", .int32, true, none⟩ (List.mem_cons_of_mem _ List.mem_cons_self)
  cases hstored
  simp only [List.mem_cons, List.not_mem_nil, or_false] at hx
  rcases hx with rfl | rfl | rfl
  · cases hid
  · cases hblocked
  · cases hid

/-- A shop with a customer of whom nothing is known. -/
def strayShop (name : String) : Option (List (Row Value)) :=
  if name = "orders" then some [order 1 none]
  else if name = "customers" then some [customer none none]
  else none

theorem fits_strayShop : customersOfOrders.Fits strayShop := by
  intro s hs t ht
  simp [customersOfOrders, Query.allSources, Source.withJoined, joinedSources] at hs
  rcases hs with rfl | rfl <;> cases ht
  · exact ⟨_, rfl, (conforms_orders [(1, none)] (by decide)).toFits⟩
  · exact ⟨_, rfl, (conforms_customers [(none, none)]).toFits⟩

/-- The only order has no customer, but the customer of whom nothing is known is removed. -/
theorem removed?_strayCustomer :
    (Statement.delete (some ⟨2⟩) customersOfOrders).removed? (.integers strayShop) =
        some [.nulls none] ∧
      (Statement.delete (some ⟨2⟩) customersOfOrders).toSingleTable.removed?
        (.integers strayShop) = some [customer none none] ∧
      ¬ Target.Accounts ⟨⟨2⟩, customers⟩ [customer none none] [.nulls none]
        [customer none none] := by
  classical
  have htarget : customersOfOrders.target? (some ⟨2⟩) = some ⟨⟨2⟩, customers⟩ := rfl
  have hnodup : (Node.query customersOfOrders).declared.Nodup := by
    simpa using numbered_customersOfOrders.declared_nodup
  obtain ⟨stored, htable⟩ := customersOfOrders.exists_targetTable
    (Query.target?_eq_some htarget).2 fits_strayShop hnodup
  obtain rfl : [customer none none] = stored := Option.some.inj htable.tables_eq
  have hbs : (customersOfOrders.scan (.integers strayShop)).bindings .empty =
      some [(Env.empty.bindSource ⟨1⟩ (order 1 none)).bindSource ⟨2⟩ (.nulls none)] := rfl
  refine ⟨rfl, ?_, fun h => ?_⟩
  · rw [Statement.removed?_toSingleTable_of_bindings hasFreeIds_customersOfOrders htarget htable rfl
      rfl rfl hbs nofun, List.filter_cons_of_pos, List.filter_nil]
    rw [decide_eq_true_iff]
    refine ⟨nofun, _, List.mem_cons_self, _, Env.source_bindSource_self .., ?_⟩
    decide
  · obtain ⟨y, hy, hnulls, -⟩ := h _ List.mem_cons_self
    have heq : customer none none = .nulls none :=
      (List.mem_singleton.1 hy).symm.trans (List.mem_singleton.1 hnulls)
    cases congrFun heq "name"

end Sample

end SqlTree

import SqlTree.Proofs.SingleTable.Deletion

/-! # Deletions with a bound

A bounded deletion removes the first rows that its query finds. Put over its target alone, the
deletion tests each row of the target by the query with its bound, which then holds for each row by
itself: a bound of zero removes nothing, and any other bound has no effect.

Main statements:

* `Query.exists_bindings_of_selected?`: a bounded query selects some of its environments.
* `Statement.removed?_toSingleTable_of_limited`: which rows are removed, and when the bound is kept.
-/

namespace SqlTree

variable {tables : String → Option (List (Row Value))}

theorem Query.bounded_of_evalTake {V : Type} [DecidableEq V] {db : Database V} (q : Query)
    {env : Env V} {n : Nat} (h : evalTake db env q.take = some (some n)) :
    (q.scan db).bounded = true := by
  cases hq : q.take with
  | none => simp [hq, evalTake] at h
  | some e => simp [scan_eq, hq]

/-- A bounded query selects at most as many of its environments as its bound says, none of which is
one of a group. The keys of its order have values in all of them. -/
theorem Query.exists_bindings_of_selected? {V : Type} [DecidableEq V] {db : Database V} {q : Query}
    (hskip : q.skip = none) {n : Nat} (htake : evalTake db .empty q.take = some (some n))
    {envs : List (Env V)} (h : q.selected? db = some envs) :
    q.groupsRows = false ∧ ∃ bs, (q.scan db).bindings .empty = some bs ∧
      (∀ b ∈ bs, (evalOrder db b q.orderBy).isSome) ∧ envs.length ≤ n ∧ ∀ b ∈ envs, b ∈ bs := by
  have hbounded := q.bounded_of_evalTake htake
  have hbounds : (q.scan db).bounds .empty = some (0, some n) := by
    simp [scan_eq, evalSkip, hskip, htake]
  obtain ⟨hgroups, h⟩ := Option.ite_none_left_eq_some.1 h
  obtain ⟨bs, hbs, h⟩ := Option.bind_eq_some_iff.1 h
  rw [if_pos hbounded] at h
  obtain ⟨keyed, hkeyed, h⟩ := Option.bind_eq_some_iff.1 h
  rw [hbounds] at h
  obtain rfl := Option.some.inj h
  have hmem : ∀ b, (∃ ks, (b, ks) ∈ keyed) → b ∈ bs := by
    rintro b ⟨ks, hks⟩
    obtain ⟨c, hc, heq⟩ := (mem_mapM hkeyed).1 hks
    obtain ⟨ks', -, heq⟩ := Option.bind_eq_some_iff.1 heq
    cases heq
    exact hc
  refine ⟨by simpa using hgroups, bs, hbs, fun b hb => ?_, ?_, fun b hb => hmem b ?_⟩
  · obtain ⟨k, hk⟩ := exists_of_mapM hkeyed hb
    obtain ⟨ks, hks, -⟩ := Option.bind_eq_some_iff.1 hk
    rw [scan_eq] at hks
    exact Option.isSome_iff_exists.2 ⟨ks, hks⟩
  · rw [List.length_map]
    exact List.length_take_le n _
  · obtain ⟨⟨c, ks⟩, hck, rfl⟩ := List.mem_map.1 hb
    exact ⟨ks, List.mem_mergeSort.1 (List.mem_of_mem_take hck)⟩

/-- Environments whose keys are in order already are cut to the bound as they stand. -/
theorem Query.selected?_of_sorted {V : Type} [DecidableEq V] {db : Database V} {q : Query}
    (hgroups : q.groupsRows = false) (hskip : q.skip = none) {n : Nat}
    (htake : evalTake db .empty q.take = some (some n))
    {bs : List (Env V)} (hbs : (q.scan db).bindings .empty = some bs) {k : Env V → List V}
    (hkeys : ∀ b ∈ bs, evalOrder db b q.orderBy = some (k b))
    (hsorted : bs.Pairwise fun a b => db.engine.keysLe (q.orderBy.map (·.desc)) (k a) (k b)) :
    q.selected? db = some (bs.take n) := by
  have hbounded := q.bounded_of_evalTake htake
  have hbounds : (q.scan db).bounds .empty = some (0, some n) := by
    simp [scan_eq, evalSkip, hskip, htake]
  have hkeyed : (bs.mapM fun b => ((q.scan db).keys b).bind fun ks => some (b, ks)) =
      some (bs.map fun b => (b, k b)) := by
    refine mapM_eq_some fun b hb => ?_
    simp [scan_eq, hkeys b hb]
  have hsorted' : (bs.map fun b => (b, k b)).mergeSort
      (fun a b => db.engine.keysLe (q.scan db).descending a.2 b.2) = bs.map fun b => (b, k b) := by
    refine List.mergeSort_of_pairwise (List.pairwise_map.2 ?_)
    rw [scan_eq]
    exact hsorted
  simp only [selected?, hgroups, hbs, hbounded, hkeyed, hsorted', hbounds, Option.bind_eq_bind,
    Option.bind_some, Bool.false_eq_true, if_false, if_true, Option.pure_def]
  simp [SqlTree.page, ← List.map_take, Function.comp_def]

namespace Statement

/-- Without its bound, a deletion removes the rows of the target in all environments. -/
theorem exists_removed?_unlimited {target : Option SourceId} {q : Query} {t : Target}
    (hid : q.targetId? target = some t.id) {stored : List (Row Value)}
    (h : q.TargetRows tables t stored) (hgroups : q.groupsRows = false) (hskip : q.skip = none)
    {bs : List (Env Value)} (hbs : (q.scan (.integers tables)).bindings .empty = some bs) :
    ∃ all, (Statement.delete target { q with take := none }).removed? (.integers tables) =
      some all ∧ bs.mapM (fun b => b.source t.id) = some all := by
  have hrow : ∀ b ∈ bs, ∃ y, b.source t.id = some y := by
    intro b hb
    obtain ⟨cs, hcs, hbcs⟩ := q.mem_bindSources_of_mem_bindings hbs hb
    obtain ⟨y, -, hby⟩ := h.exists_row hcs hbcs
    exact ⟨y, hby⟩
  choose! row hrow using hrow
  refine ⟨bs.map row, ?_, mapM_eq_some hrow⟩
  have hid' : Query.targetId? { q with take := none } target = some t.id := hid
  have hselected : Query.selected? (.integers tables) { q with take := none } = some bs := by
    have hcongr : (Query.scan (.integers tables) { q with take := none }).bindings .empty =
        (q.scan (.integers tables)).bindings .empty :=
      Query.bindings_congr _ _ rfl rfl
    have hgroups' : Query.groupsRows { q with take := none } = false := hgroups
    rw [Query.selected?_of_unbounded _ (by exact hskip) rfl, hgroups', hcongr, hbs]
    rfl
  simp [removed?, hid', hselected, mapM_eq_some hrow]

open Classical in
/-- A bounded deletion removes at most as many rows as its bound says. Over its target alone it
removes every row of the target that the query finds without the bound, unless the bound is zero. So
the bound is kept if and only if it is zero or there are no more rows to remove. -/
theorem removed?_toSingleTable_of_limited {target : Option SourceId} {q : Query} {n : Nat}
    (hids : (Statement.delete target q).Numbered) (hfree : (Statement.delete target q).HasFreeIds)
    (hinner : q.InnerJoined) (hskip : q.skip = none)
    (htake : evalTake (.integers tables) .empty q.take = some (some n)) (hdb : q.Conforms tables)
    {rows : List (Row Value)}
    (h : (Statement.delete target q).removed? (.integers tables) = some rows) :
    rows.length ≤ n ∧
      ∃ rows', (Statement.delete target q).toSingleTable.removed? (.integers tables) =
          some rows' ∧
        (q.target? target = none → rows' = rows) ∧
        ∀ t, q.target? target = some t → ∃ stored all, tables t.table.name = some stored ∧
          (Statement.delete target { q with take := none }).removed? (.integers tables) =
            some all ∧
          (∀ x ∈ rows, x ∈ all) ∧
          rows' = (if n = 0 then [] else stored.filter fun x => decide (x ∈ all)) ∧
          (rows'.length ≤ n ↔ n = 0 ∨ (stored.filter fun x => decide (x ∈ all)).length ≤ n) := by
  have hsame := h
  obtain ⟨targetId, htargetId, h⟩ := Option.bind_eq_some_iff.1 h
  obtain ⟨envs, henvs, h⟩ := Option.bind_eq_some_iff.1 h
  obtain ⟨hgroups, bs, hbs, hkeys, hlength, hsub⟩ :=
    Query.exists_bindings_of_selected? hskip htake henvs
  refine ⟨by rwa [← (forall₂_of_mapM h).length_eq], ?_⟩
  cases ht : q.target? target with
  | none =>
    refine ⟨rows, ?_, fun _ => rfl, fun t ht' => by cases ht'⟩
    rw [toSingleTable_delete, ht]
    exact hsame
  | some t =>
    obtain ⟨hid, htarget⟩ := Query.target?_eq_some ht
    obtain rfl : t.id = targetId := by simpa [hid] using htargetId
    have hnodup : (Node.query q).declared.Nodup := by simpa using hids.declared_nodup
    obtain ⟨stored, htr⟩ := q.exists_targetRows htarget hdb hinner hnodup
    obtain ⟨all, hall, hrows⟩ := exists_removed?_unlimited hid htr hgroups hskip hbs
    have hremoved := removed?_toSingleTable_of_bindings hfree ht htr.toTargetTable hgroups hskip
      htake hbs fun _ => hkeys
    have hfound : ∀ x ∈ stored, (∃ b ∈ bs, t.AtKey x b) ↔ x ∈ all := by
      intro x hx
      rw [mem_mapM hrows]
      refine exists_congr fun b => and_congr_right fun hb => ?_
      obtain ⟨cs, hcs, hbcs⟩ := q.mem_bindSources_of_mem_bindings hbs hb
      exact htr.atKey_iff hcs hbcs hx
    have heq : stored.filter (fun x => decide (some n ≠ some 0 ∧ ∃ b ∈ bs, t.AtKey x b)) =
        if n = 0 then [] else stored.filter fun x => decide (x ∈ all) := by
      split
      · rename_i hn
        simp [hn]
      · rename_i hn
        refine List.filter_congr fun x hx => ?_
        rw [decide_eq_decide, hfound x hx]
        simp [hn]
    refine ⟨_, hremoved, fun ht' => (by cases ht'), fun t' ht' => ?_⟩
    cases ht'
    refine ⟨stored, all, htr.tables_eq, hall, fun x hx => ?_, heq, ?_⟩
    · obtain ⟨b, hb, hbx⟩ := (mem_mapM h).1 hx
      exact (mem_mapM hrows).2 ⟨b, hsub b hb, hbx⟩
    · rw [heq]
      split <;> simp [*]

end Statement

namespace Sample

/-- The first of the orders of customers that are blocked. -/
def firstBlockedOrder : Query :=
  { blockedOrders with take := some (.int 1), orderBy := [{ expr := orders.fieldRef ⟨1⟩ "id" }] }

theorem numbered_firstBlockedOrder : (Statement.delete none firstBlockedOrder).Numbered :=
  .of_declared (by decide)

theorem hasFreeIds_firstBlockedOrder : (Statement.delete none firstBlockedOrder).HasFreeIds := by
  decide

theorem evalTake_firstBlockedOrder (tables : String → Option (List (Row Value))) :
    evalTake (.integers tables) .empty firstBlockedOrder.take = some (some 1) := rfl

/-- The environment at an order and the customer who placed it. -/
def placedBy (o c : Row Value) : Env Value := (Env.empty.bindSource ⟨1⟩ o).bindSource ⟨2⟩ c

theorem evalOrder_firstBlockedOrder (tables : String → Option (List (Row Value))) (id : Int)
    (v : Value) (c : Row Value) :
    evalOrder (.integers tables) (placedBy (order id v) c) firstBlockedOrder.orderBy =
      some [some id] := rfl

theorem removed?_firstBlockedOrder :
    (Statement.delete none firstBlockedOrder).removed? (.integers shop) =
        some [order 1 (some 7)] ∧
      ∃ rows, (Statement.delete none firstBlockedOrder).toSingleTable.removed? (.integers shop) =
        some rows ∧ rows.length ≤ 1 := by
  have hbs : (firstBlockedOrder.scan (.integers shop)).bindings .empty =
      some [placedBy (order 1 (some 7)) (customer (some 7) (some 1))] := rfl
  have hfirst : (Statement.delete none firstBlockedOrder).removed? (.integers shop) =
      some [order 1 (some 7)] := by
    have hselected := Query.selected?_of_sorted rfl rfl (evalTake_firstBlockedOrder shop) hbs
      (k := fun _ => [some 1]) (by simp [evalOrder_firstBlockedOrder]) (by simp)
    exact congrArg (Option.bind · fun bs => bs.mapM fun b => b.source ⟨1⟩) hselected
  obtain ⟨-, rows, hrows, -, hall⟩ := Statement.removed?_toSingleTable_of_limited
    numbered_firstBlockedOrder hasFreeIds_firstBlockedOrder (by unfold Query.InnerJoined; decide)
    rfl (evalTake_firstBlockedOrder shop) conforms_blockedOrders hfirst
  obtain ⟨stored, all, hstored, hunlimited, -, -, hlength⟩ := hall ⟨⟨1⟩, orders⟩ rfl
  refine ⟨hfirst, rows, hrows, hlength.2 (.inr ?_)⟩
  cases hstored
  cases hunlimited
  have hsecond : order 2 none ≠ order 1 (some 7) := fun h => by cases congrFun h "id"
  have hthird : order 3 (some 8) ≠ order 1 (some 7) := fun h => by cases congrFun h "id"
  simp [hsecond, hthird]

/-- A shop with two orders of a customer that is blocked. -/
def busyShop (name : String) : Option (List (Row Value)) :=
  if name = "orders" then some [order 1 (some 7), order 2 (some 7)]
  else if name = "customers" then some [customer (some 7) (some 1)]
  else none

theorem fits_busyShop : firstBlockedOrder.Fits busyShop := by
  intro s hs t ht
  simp [firstBlockedOrder, blockedOrders, Query.allSources, Source.withJoined,
    joinedSources] at hs
  rcases hs with rfl | rfl <;> cases ht
  · exact ⟨_, rfl, (conforms_orders [(1, some 7), (2, some 7)] (by decide)).toFits⟩
  · exact ⟨_, rfl, (conforms_customers [(some 7, some 1)]).toFits⟩

/-- One order is to be removed, but both are. -/
theorem removed?_bothBlockedOrders :
    evalTake (.integers busyShop) .empty firstBlockedOrder.take = some (some 1) ∧
      (Statement.delete none firstBlockedOrder).removed? (.integers busyShop) =
        some [order 1 (some 7)] ∧
      (Statement.delete none firstBlockedOrder).toSingleTable.removed? (.integers busyShop) =
        some [order 1 (some 7), order 2 (some 7)] := by
  classical
  have hbs : (firstBlockedOrder.scan (.integers busyShop)).bindings .empty =
      some [placedBy (order 1 (some 7)) (customer (some 7) (some 1)),
        placedBy (order 2 (some 7)) (customer (some 7) (some 1))] := rfl
  refine ⟨evalTake_firstBlockedOrder busyShop, ?_, ?_⟩
  · have hselected := Query.selected?_of_sorted rfl rfl (evalTake_firstBlockedOrder busyShop) hbs
      (k := fun b => [((b.source ⟨1⟩).bind fun o => o "id").join])
      (by simp [evalOrder_firstBlockedOrder]; exact ⟨rfl, rfl⟩) (by simp; rfl)
    exact congrArg (Option.bind · fun bs => bs.mapM fun b => b.source ⟨1⟩) hselected
  · have htarget : firstBlockedOrder.target? none = some ⟨⟨1⟩, orders⟩ := rfl
    have hnodup : (Node.query firstBlockedOrder).declared.Nodup := by
      simpa using numbered_firstBlockedOrder.declared_nodup
    obtain ⟨stored, htable⟩ := firstBlockedOrder.exists_targetTable
      (Query.target?_eq_some htarget).2 fits_busyShop hnodup
    obtain rfl : [order 1 (some 7), order 2 (some 7)] = stored :=
      Option.some.inj htable.tables_eq
    rw [Statement.removed?_toSingleTable_of_bindings hasFreeIds_firstBlockedOrder htarget htable rfl
      rfl (evalTake_firstBlockedOrder busyShop) hbs fun _ => by simp [evalOrder_firstBlockedOrder],
      List.filter_eq_self.2]
    intro x hx
    rw [decide_eq_true_iff]
    refine ⟨by simp, placedBy x (customer (some 7) (some 1)), ?_, x, rfl, fun _ _ => rfl⟩
    rcases List.mem_pair.1 hx with rfl | rfl <;> simp

end Sample

end SqlTree

import SqlTree.Proofs.Lowering.Ordering
import SqlTree.Proofs.SingleTable.WellFormed

/-! # Row bounds of lowered statements

A lowering for a built-in dialect leaves no query that skips rows in no stated order, with one
exception: on an engine that updates one table at a time, a value that is read in a copy of the
query of the update takes over the bounds of the query without its ordering.

Main definitions:

* `Statement.CopiesBounds`: an update with a value that is read in a copy of a query that skips
  rows.

Main statements:

* `Query.ordered_setValue`, `Query.unordered_setValue`: the queries of a value that is set.
* `Statement.ordered_toSingleTable`, `Statement.setsUnordered_toSingleTable`: the queries of a
  statement over a single table.
* `DialectKind.ordered_lower_iff`: when all queries of a lowered statement are ordered.
-/

namespace SqlTree

/-- A value of the update is read in a copy of the query of the update, which skips rows. -/
def Statement.CopiesBounds : Statement → Prop
  | .update target items q =>
    q.hasSkip = true ∧ ∃ t, q.target? target = some t ∧
      ∃ i ∈ items, q.readsOnly t.id i.expr = false
  | _ => False

/-! Copies of queries. -/

theorem Renaming.keepsOrder_reference (r : Renaming) (e : Expr) : e.KeepsOrder (r.reference e) := by
  cases e with
  | field f => exact .of_ne (fun _ => by simp [reference]) (by simp)
  | column c => exact .of_ne (fun _ => by simp [reference]) (by simp)
  | _ => exact .refl _

theorem Transform.keepsOrder_reference (r : Renaming) :
    (Transform.ofFun r.reference).Yields .result Expr.KeepsOrder Query.KeepsOrder
      Source.KeepsOrder :=
  Transform.keepsOrder rfl r.keepsOrder_reference

theorem forall₂_numberJoins (js : List Join) (n : Nat) :
    List.Forall₂
      (fun j j' => j'.condition = j.condition ∧ ∃ k, j'.source = j.source.numberFrom k)
      js (numberJoins n js) := by
  induction js generalizing n with
  | nil => exact .nil
  | cons j js ih =>
    cases j
    exact .cons ⟨rfl, n, rfl⟩ (ih _)

/-- A relation of sources that does not look at ids holds between a source and the one with new
ids. -/
theorem Source.rel_numberFrom {R : Source → Source → Prop}
    (hR : ∀ s s' : Source, s'.origin = s.origin → s'.aliasName = s.aliasName →
      List.Forall₂ (fun j j' => j'.condition = j.condition ∧ R j.source j'.source) s.joins
        s'.joins → R s s') : ∀ (s : Source) (n : Nat), R s (s.numberFrom n) := by
  refine Source.joinInduction fun s ih n => ?_
  cases s with
  | mk id origin a joins =>
  refine hR _ _ rfl rfl (forall₂_imp_of_mem (forall₂_numberJoins joins (n + 1)) fun j hj j' h => ?_)
  obtain ⟨hcondition, k, hsource⟩ := h
  exact ⟨hcondition, hsource ▸ ih j hj k⟩

theorem forall₂_numberSources {R : Source → Source → Prop}
    (hR : ∀ (s : Source) (n : Nat), R s (s.numberFrom n)) (ss : List Source) (n : Nat) :
    List.Forall₂ R ss (numberSources n ss) := by
  induction ss generalizing n with
  | nil => exact .nil
  | cons s ss ih => exact .cons (hR s n) (ih _)

theorem Source.keepsOrder_numberFrom : ∀ (s : Source) (n : Nat), s.KeepsOrder (s.numberFrom n) := by
  refine Source.rel_numberFrom fun s s' horigin _ hjoins => ⟨fun hs => ?_⟩
  have heach := (eachQuery_iff _).1 hs
  refine (eachQuery_iff _).2 ⟨horigin ▸ heach.origin, ?_, ?_⟩
  · exact forall_mem_of_forall₂ hjoins heach.joins fun _ _ hj => hj.2.ordered
  · exact forall_mem_of_forall₂ hjoins heach.conditions fun _ _ hj hc => hj.1 ▸ hc

theorem Query.keepsOrder_numberSources (q : Query) (id : QueryId) (n : Nat) :
    q.KeepsOrder { q with id, sources := numberSources n q.sources } where
  ordered hq := by
    obtain ⟨hself, heach⟩ := (eachQuery_iff q).1 hq
    refine (eachQuery_iff _).2 ⟨hself, { heach with sources := ?_ }⟩
    exact forall_mem_of_forall₂ (forall₂_numberSources Source.keepsOrder_numberFrom q.sources n)
      heach.sources fun _ _ h => h.ordered
  lacksOrdering := rfl
  hasSkip := rfl

theorem Transform.keepsOrder_renumber :
    Transform.renumber.Yields (.fromEach Renumbering) Expr.KeepsOrder Query.KeepsOrder
      Source.KeepsOrder where
  expr h := (Outcome.fromEach Renumbering).pure h.keepsOrder
  query h := by
    let O := Outcome.fromEach Renumbering
    refine O.bind (P := fun _ => True) (fun _ => trivial) fun id _ => ?_
    refine O.bind (P := fun _ => True) (fun _ => trivial) fun base _ => ?_
    refine O.bind h.rebuild fun copy hcopy => O.pure ?_
    exact hcopy.keepsOrder.trans (copy.keepsOrder_numberSources id base)
  source h := h.keepsOrder

/-- The copy of a query that a value is read in. -/
theorem Query.exists_correlatedValue {RE : Expr → Expr → Prop} {RQ : Query → Query → Prop}
    {RS : Source → Source → Prop}
    (hrenumber : Transform.renumber.Yields (.fromEach Renumbering) RE RQ RS)
    (hreference : ∀ r : Renaming, (Transform.ofFun r.reference).Yields .result RE RQ RS)
    (q : Query) (value : Expr) (t : Target) (outer : SourceId) (ids : Ids) :
    ∃ (r copy : Query) (value' : Expr) (inner : SourceId), RQ q r ∧ RQ r copy ∧ RE value value' ∧
      ((q.correlatedValue value t outer).run ids).1 =
        .subquery (({ copy with columns := [{ expr := value' }], orderBy := [] }).addFilter?
          (t.table.keyEquality inner outer)) := by
  let names := (q.renumber ids).2.names
  exact ⟨(q.renumber ids).1, (q.renumber ids).1.mapUp names.reference, value.mapUp names.reference,
    names.source t.id, hrenumber.onQuery q { ids }, (hreference names).onQuery _,
    (hreference names).onExpr value, rfl⟩

theorem Table.all_keyEquality {P : Node → Prop} (hP : Node.Selective P) (t : Table)
    (inner outer : SourceId) : ∀ e ∈ t.keyEquality inner outer, (Node.expr e).All P :=
  Table.keyEquality_induction (P := fun e => (Node.expr e).All P) (fun f _ => hP.all_field f)
    (fun _ _ _ _ hl hr => hP.all_binary.2 ⟨hl, hr⟩)
    (fun e he => hP.all_raw.2 (by simpa using he))

theorem Query.eachQuery_addKey {P : Query → Prop} {q : Query} (t : Table) (inner outer : SourceId)
    (hself : ∀ filter, P { q with filter })
    (hq : q.Each (Expr.EachQuery P) (Source.EachQuery P)) :
    (q.addFilter? (t.keyEquality inner outer)).EachQuery P := by
  have hkey := t.all_keyEquality (Node.IfQuery.selective P) inner outer
  rw [addFilter?_eq]
  refine (eachQuery_iff _).2 ⟨hself _, { hq with filter := ?_ }⟩
  cases hkeys : t.keyEquality inner outer with
  | none => exact hq.filter
  | some key =>
    have hkey := hkey key hkeys
    rintro _ ⟨⟩
    cases hfilter : q.filter with
    | none => exact hkey
    | some e => exact (Expr.eachQuery_operation ..).2 ⟨hq.filter e hfilter, hkey⟩

section SetValue

variable {q : Query} {t : Target} {value : Expr} (outer : SourceId) (ids : Ids)

theorem Query.ordered_setValue (hq : q.EachQuery Query.Ordered)
    (hvalue : value.EachQuery Query.Ordered)
    (h : q.hasSkip = true → q.readsOnly t.id value = true) :
    ((q.setValue t outer value).run ids).1.EachQuery Query.Ordered := by
  by_cases hreads : q.readsOnly t.id value = true
  · rw [Query.setValue, if_pos hreads]
    exact ((Transform.keepsOrder_reference _).onExpr value).ordered hvalue
  · rw [setValue_of_not_readsOnly hreads]
    obtain ⟨r, copy, value', inner, hr, hrcopy, hvalue', heq⟩ := exists_correlatedValue
      Transform.keepsOrder_renumber Transform.keepsOrder_reference q value t outer ids
    have hcopy := hr.trans hrcopy
    have heach := ((eachQuery_iff copy).1 (hcopy.ordered hq)).2
    -- The copy is not ordered any more, so it must not skip rows.
    have hskip : copy.hasSkip = false := by
      rw [hcopy.hasSkip, ← Bool.not_eq_true]
      exact fun hskip => hreads (h hskip)
    rw [heq, Expr.eachQuery_subquery]
    refine eachQuery_addKey _ _ _ (fun filter => ?_)
      { heach with columns := ?_, orderBy := by simp }
    · exact Bool.and_eq_false_imp.2 fun hskip' => absurd hskip' (by simpa [hasSkip] using hskip)
    · simpa using hvalue'.ordered hvalue

/-- A copy of a query that skips rows does so in no stated order. -/
theorem Query.unordered_setValue (hskip : q.hasSkip = true) (h : q.readsOnly t.id value = false) :
    ∃ r, ((q.setValue t outer value).run ids).1 = .subquery r ∧ r.lacksOrdering = true := by
  rw [setValue_of_not_readsOnly (by simp [h])]
  obtain ⟨r, copy, value', inner, hr, hcopy, -, heq⟩ := exists_correlatedValue
    Transform.keepsOrder_renumber Transform.keepsOrder_reference q value t outer ids
  refine ⟨_, heq, ?_⟩
  rw [addFilter?_eq]
  exact Bool.and_eq_true_iff.2 ⟨(hr.trans hcopy).hasSkip.trans hskip, rfl⟩

end SetValue

theorem Query.eachQuery_correlatedFilter {P : Query → Prop} {q : Query} (t : Target)
    (outer : SourceId) (htest : ∀ columns filter, P { q with columns, filter })
    (hq : q.EachQuery P) : (q.correlatedFilter t outer).EachQuery P := by
  obtain ⟨-, heach⟩ := (eachQuery_iff q).1 hq
  exact eachQuery_addKey _ _ _ (fun filter => htest _ filter)
    { heach with columns := by simp [Expr.int] }

theorem Query.eachQuery_overTarget {P : Query → Prop} {q : Query} {t : Target} {outer : SourceId}
    {aliasName : String} {id : QueryId} (hover : P (q.overTarget t outer aliasName id))
    (htest : ∀ columns filter, P { q with columns, filter }) (hq : q.EachQuery P) :
    (q.overTarget t outer aliasName id).EachQuery P := by
  have hfilter := eachQuery_correlatedFilter t outer htest hq
  refine (eachQuery_iff _).2 ⟨hover, ?_⟩
  constructor
  all_goals simp [overTarget, hfilter]
  exact (Source.eachQuery_iff _).2 ⟨by simp, by simp, by simp⟩

theorem Query.eachQuery_setItems {P : Query → Prop} {q : Query} {t : Target} {outer : SourceId}
    {items : List SetItem}
    (hset : ∀ i ∈ items, ∀ ids, ((q.setValue t outer i.expr).run ids).1.EachQuery P) (ids : Ids) :
    ∀ i ∈ ((items.mapM (q.setItem t outer)).run ids).1, i.expr.EachQuery P := by
  have hvalues := (Outcome.fromEach Ids).mapM (R := fun _ i => i.expr.EachQuery P)
    (f := q.setItem t outer) hset
  exact forall_mem_of_forall₂ (hvalues ids) (fun _ _ => trivial) fun _ _ hi _ => hi

/-! Deletions and updates over a single table. -/

namespace Statement

/-- A property of the queries of a statement that does not depend on their columns and conditions,
and that the values which an update sets have too. -/
theorem eachQuery_toSingleTable {P : Query → Prop} {s : Statement}
    (hs : (Node.statement s).All (Node.IfQuery P))
    (hover : ∀ (q : Query) t outer aliasName id, P (q.overTarget t outer aliasName id))
    (htest : ∀ (q : Query) columns filter, P q → P { q with columns, filter })
    (hset : ∀ target items q t, s = .update target items q → q.target? target = some t →
      ∀ i ∈ items, ∀ outer ids, ((q.setValue t outer i.expr).run ids).1.EachQuery P) :
    (Node.statement s.toSingleTable).All (Node.IfQuery P) := by
  have hP := Node.IfQuery.ofTrees P
  cases s with
  | delete target q =>
    rw [toSingleTable_delete]
    cases q.target? target with
    | none => exact hs
    | some t =>
      have hq := (Node.all_delete hP).1 hs
      refine (Node.all_delete hP).2 (Query.eachQuery_overTarget (hover _ _ _ _ _) ?_ hq)
      exact fun columns filter => htest q columns filter (hq.self q rfl)
  | update target items q =>
    rw [toSingleTable_update]
    cases ht : q.target? target with
    | none => exact hs
    | some t =>
      obtain ⟨-, hq⟩ := (Node.all_update hP).1 hs
      refine (Node.all_update hP).2 ⟨?_, Query.eachQuery_overTarget (hover _ _ _ _ _) ?_ hq⟩
      · exact Query.eachQuery_setItems (fun i hi => hset target items q t rfl ht i hi _) _
      · exact fun columns filter => htest q columns filter (hq.self q rfl)
  | _ => exact hs

/-- All queries stay ordered, unless a copy takes over bounds. -/
theorem ordered_toSingleTable {s : Statement} (hs : s.Ordered) (h : ¬ s.CopiesBounds) :
    s.toSingleTable.Ordered := by
  refine eachQuery_toSingleTable hs (fun _ _ _ _ _ => rfl) (fun _ _ _ hq => hq) ?_
  rintro target items q t rfl ht i hi outer ids
  obtain ⟨hitems, hq⟩ := (Node.all_update (Node.IfQuery.ofTrees _)).1 hs
  refine Query.ordered_setValue outer ids hq (hitems i hi) fun hskip => ?_
  by_contra hreads
  exact h ⟨hskip, t, ht, i, hi, by simpa using hreads⟩

theorem setsUnordered_toSingleTable {s : Statement} (h : s.CopiesBounds) :
    s.toSingleTable.SetsUnordered := by
  cases s with
  | update target items q =>
    obtain ⟨hskip, t, ht, i, hi, hreads⟩ := h
    rw [toSingleTable_update, ht]
    have hset := (Outcome.fromEach Ids).mapM
      (R := fun i i' => q.readsOnly t.id i.expr = false →
        ∃ r, i'.expr = .subquery r ∧ r.lacksOrdering = true)
      (f := q.setItem t (Ids.after (.statement (.update target items q))).drawSource.1)
      fun i (_ : i ∈ items) ids hreads => Query.unordered_setValue _ ids hskip hreads
    obtain ⟨i', hi', hcopy⟩ := exists_of_forall₂ (hset _).flip hi
    exact ⟨i', hi', hcopy hreads⟩
  | _ => exact h.elim

/-- An update of one value that is read in a copy of the query. -/
theorem singleTable_update_of_reads {aliasName : String} {target : Option SourceId} {t : Target}
    {i : SetItem} {q : Query} (ht : q.target? target = some t)
    (hreads : q.readsOnly t.id i.expr = false) :
    (Statement.update target [i] q).singleTable aliasName = do
      let outer ← modifyGet Ids.drawSource
      let value ← q.correlatedValue i.expr t outer
      let id ← modifyGet Ids.drawQuery
      return .update (some outer) [{ i with expr := value }]
        (q.overTarget t outer aliasName id) := by
  simp [singleTable, ht, Query.setValue, hreads]

theorem SetsUnordered.exists_mem_queries {s : Statement} (h : s.SetsUnordered) :
    ∃ q ∈ (Node.statement s).queries, q.lacksOrdering = true := by
  by_contra hnone
  have hall : s.Ordered := Node.forall_mem_queries.1 fun q hq => by
    simpa using fun hlacks => hnone ⟨q, hq, hlacks⟩
  cases s with
  | update target items q =>
    obtain ⟨i, hi, r, hexpr, hlacks⟩ := h
    have hr := ((Node.all_update (Node.IfQuery.ofTrees _)).1 hall).1 i hi
    rw [hexpr] at hr
    simp [hr.subquery.self r rfl] at hlacks
  | _ => exact h

end Statement

/-! The lowering. -/

namespace DialectKind

variable (k : DialectKind) (config : Config) (ctx : Context) {s s₁ s' : Statement}

/-- From the pass for single tables on, a lowering for a built-in dialect keeps which queries are
ordered. -/
theorem keepsOrder_lower (h₁ : s.correctPagination = .ok s₁)
    (h : k.dialect.lower config ctx s = .ok s') : (k.dialect.single s₁).KeepsOrder s' := by
  obtain ⟨s₁', s₂, h₁', h₂, h₃⟩ := k.dialect.exists_of_lower config ctx k.edits_dialect h
  cases h₁.symm.trans h₁'
  have hpaged : ∀ s, k.dialect.paged s = .ok s := by cases k <;> exact fun _ => rfl
  cases (hpaged _).symm.trans h₂
  exact (Statement.keepsOrder_fixEmptyProjection _).trans
    ((k.dialect.keepsOrder_inlined config _).trans
      ((Dialect.Standard.builtIn k).keepsOrder_convert h₃))

theorem ordered_of_lower (h₁ : s.correctPagination = .ok s₁)
    (h : k.dialect.lower config ctx s = .ok s') (hcopies : ¬ (k = .sqlCe ∧ s₁.CopiesBounds)) :
    s'.Ordered := by
  have hordered := Statement.ordered_correctPagination h₁
  refine (k.keepsOrder_lower config ctx h₁ h).ordered ?_
  cases k with
  | generic => exact hordered
  | sqlCe => exact Statement.ordered_toSingleTable hordered fun hs₁ => hcopies ⟨rfl, hs₁⟩

theorem exists_unordered_of_lower (h₁ : s.correctPagination = .ok s₁) (hcopies : s₁.CopiesBounds)
    (h : sqlCe.dialect.lower config ctx s = .ok s') :
    ∃ q ∈ (Node.statement s').queries, q.hasSkip = true ∧ q.orderBy = [] := by
  have hkeeps := sqlCe.keepsOrder_lower config ctx h₁ h
  obtain ⟨q, hq, hlacks⟩ :=
    (hkeeps.unordered (Statement.setsUnordered_toSingleTable hcopies)).exists_mem_queries
  exact ⟨q, hq, by simpa [Query.lacksOrdering] using hlacks⟩

/-- Every query of a lowered statement that skips rows is ordered, unless the engine updates one
table at a time and the update reads a value in a copy of a query that skips rows. -/
theorem ordered_lower_iff (h : k.dialect.lower config ctx s = .ok s') :
    ∃ s₁, s.correctPagination = .ok s₁ ∧
      ((∀ q ∈ (Node.statement s').queries, q.hasSkip = true → q.orderBy ≠ []) ↔
        ¬ (k = .sqlCe ∧ s₁.CopiesBounds)) := by
  obtain ⟨s₁, -, h₁, -⟩ := k.dialect.exists_of_lower config ctx k.edits_dialect h
  refine ⟨s₁, h₁, ?_, fun hcopies q hq hskip => ?_⟩
  · rintro hall ⟨rfl, hcopies⟩
    obtain ⟨q, hq, hskip, horder⟩ := exists_unordered_of_lower config ctx h₁ hcopies h
    exact hall q hq hskip horder
  · have hordered := Node.forall_mem_queries.2 (k.ordered_of_lower config ctx h₁ h hcopies) q hq
    simpa [Query.Ordered, Query.lacksOrdering, hskip] using hordered

end DialectKind

namespace Sample

/-- Marks the orders of blocked customers but for the first one. -/
def markLater : Statement :=
  .update none [⟨"customer", customers.fieldRef ⟨2⟩ "blocked"⟩]
    { blockedOrders with
      skip := some (.int 1)
      orderBy := [{ expr := orders.fieldRef ⟨1⟩ "id" }] }

theorem copiesBounds_markLater : markLater.CopiesBounds := by
  refine ⟨rfl, ⟨⟨1⟩, orders⟩, rfl, _, List.mem_singleton_self _, ?_⟩
  rw [Query.readsOnly, Expr.contains, Node.contains, Node.walk_eq_preorder]
  rfl

theorem isSum_toSingleTable_markLater :
    ∀ n ∈ (Node.statement markLater.toSingleTable.fixEmptyProjection).preorder,
      n.isSum = false := by
  have hafter : Ids.after (.statement markLater) = ⟨2, 3⟩ := by
    rw [Ids.after, Ids.reserve, Node.walk_eq_preorder]
    decide +kernel
  have halias : syntheticAlias markLater = "$" := by
    rw [syntheticAlias, Node.aliases, Node.walk_eq_preorder]
    decide +kernel
  have hsingle : markLater.singleTable "$" = _ := Statement.singleTable_update_of_reads rfl <| by
    rw [Query.readsOnly, Expr.contains, Node.contains, Node.walk_eq_preorder]
    rfl
  rw [Statement.toSingleTable, hafter, halias, hsingle]
  decide +kernel

/-- A lowering of the update for a built-in dialect succeeds. -/
theorem exists_lower_markLater (k : DialectKind) :
    ∃ s', k.dialect.lower {} {} markLater = .ok s' := by
  have hprepared : k.dialect.prepared {} markLater =
      .ok (k.dialect.inlined {} (k.dialect.single markLater).fixEmptyProjection) := by
    cases k <;> rfl
  have hconverts : ¬ k.dialect.GivesUp {}
      (k.dialect.inlined {} (k.dialect.single markLater).fixEmptyProjection) := by
    rintro ⟨hgeneric, hfails⟩
    cases k with
    | generic => exact hgeneric rfl
    | sqlCe => exact hfails (Node.convertible_of_isSum isSum_toSingleTable_markLater)
  obtain ⟨s', hs', -⟩ := (Dialect.Standard.builtIn k).exists_lower hprepared hconverts
  exact ⟨s', hs'⟩

/-- An engine that updates joined sources runs the query of the update itself. -/
theorem ordered_lower_markLater :
    ∃ s', DialectKind.generic.dialect.lower {} {} markLater = .ok s' ∧
      ∀ q ∈ (Node.statement s').queries, q.hasSkip = true → q.orderBy ≠ [] := by
  obtain ⟨s', hs'⟩ := exists_lower_markLater .generic
  obtain ⟨s₁, -, hiff⟩ := DialectKind.generic.ordered_lower_iff {} {} hs'
  exact ⟨s', hs', hiff.2 (by simp)⟩

theorem unordered_lower_markLater :
    ∃ s', DialectKind.sqlCe.dialect.lower {} {} markLater = .ok s' ∧
      ∃ q ∈ (Node.statement s').queries, q.hasSkip = true ∧ q.orderBy = [] := by
  have h₁ : markLater.correctPagination = .ok markLater := rfl
  obtain ⟨s', hs'⟩ := exists_lower_markLater .sqlCe
  exact ⟨s', hs', DialectKind.exists_unordered_of_lower {} {} h₁ copiesBounds_markLater hs'⟩

end Sample

end SqlTree

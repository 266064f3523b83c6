import SqlTree.Proofs.Lowering.Completion
import SqlTree.Proofs.Lowering.Preservation
import SqlTree.Proofs.Pagination.Emulation

/-! # Queries that skip rows

The first pass gives every query that skips rows an ordering. The passes that rewrite expressions
where they stand keep it.

Main definitions:

* `Query.Ordered`: a query that is ordered if it skips rows.
* `Expr.KeepsOrder`, `Query.KeepsOrder`, `Source.KeepsOrder`, `Statement.KeepsOrder`: what these
  passes keep.

Main statements:

* `Statement.ordered_correctPagination`: all queries are ordered after the first pass.
* `Statement.keepsOrder_fixEmptyProjection`, `Dialect.keepsOrder_inlined`,
  `Dialect.Standard.keepsOrder_convert`: they stay so.
-/

namespace SqlTree

/-- The query has an ordering if it skips rows. -/
abbrev Query.Ordered (q : Query) : Prop := q.lacksOrdering = false

abbrev Statement.Ordered (s : Statement) : Prop :=
  (Node.statement s).All (Node.IfQuery Query.Ordered)

/-- A value of the statement is a subquery that skips rows in no stated order. -/
def Statement.SetsUnordered : Statement → Prop
  | .update _ items _ => ∃ i ∈ items, ∃ q, i.expr = .subquery q ∧ q.lacksOrdering = true
  | _ => False

/-! What the passes keep. -/

/-- If the queries of the first expression are ordered, those of the second one are. A subquery
stays one and is ordered only if it was. -/
structure Expr.KeepsOrder (e e' : Expr) : Prop where
  ordered : e.EachQuery Query.Ordered → e'.EachQuery Query.Ordered
  subquery : ∀ q, e = .subquery q → ∃ q', e' = .subquery q' ∧ q'.lacksOrdering = q.lacksOrdering

structure Query.KeepsOrder (q q' : Query) : Prop where
  ordered : q.EachQuery Query.Ordered → q'.EachQuery Query.Ordered
  lacksOrdering : q'.lacksOrdering = q.lacksOrdering
  hasSkip : q'.hasSkip = q.hasSkip

structure Source.KeepsOrder (s s' : Source) : Prop where
  ordered : s.EachQuery Query.Ordered → s'.EachQuery Query.Ordered

structure Statement.KeepsOrder (s s' : Statement) : Prop where
  ordered : s.Ordered → s'.Ordered
  unordered : s.SetsUnordered → s'.SetsUnordered

theorem Expr.KeepsOrder.refl (e : Expr) : e.KeepsOrder e := ⟨id, fun q hq => ⟨q, hq, rfl⟩⟩

theorem Expr.KeepsOrder.trans {a b c : Expr} (h : a.KeepsOrder b) (g : b.KeepsOrder c) :
    a.KeepsOrder c where
  ordered ha := g.ordered (h.ordered ha)
  subquery q hq := by
    obtain ⟨q', hq', heq⟩ := h.subquery q hq
    obtain ⟨q'', hq'', heq'⟩ := g.subquery q' hq'
    exact ⟨q'', hq'', heq'.trans heq⟩

theorem Expr.KeepsOrder.of_ne {e e' : Expr}
    (h : e.EachQuery Query.Ordered → e'.EachQuery Query.Ordered)
    (hne : ∀ q, e ≠ .subquery q) : e.KeepsOrder e' := ⟨h, fun q hq => absurd hq (hne q)⟩

theorem Query.KeepsOrder.trans {a b c : Query} (h : a.KeepsOrder b) (g : b.KeepsOrder c) :
    a.KeepsOrder c :=
  ⟨fun ha => g.ordered (h.ordered ha), g.lacksOrdering.trans h.lacksOrdering,
    g.hasSkip.trans h.hasSkip⟩

theorem Statement.KeepsOrder.refl (s : Statement) : s.KeepsOrder s := ⟨id, id⟩

theorem Statement.KeepsOrder.trans {a b c : Statement} (h : a.KeepsOrder b) (g : b.KeepsOrder c) :
    a.KeepsOrder c := ⟨fun ha => g.ordered (h.ordered ha), fun ha => g.unordered (h.unordered ha)⟩

/-! From the parts to the whole. -/

theorem Expr.Aligned.keepsOrder {e e' : Expr} (h : e.Aligned Expr.KeepsOrder Query.KeepsOrder e') :
    e.KeepsOrder e' where
  ordered he := (Expr.eachQuery_iff e').2
    (h.leads (fun _ _ h => h.ordered) (fun _ _ h => h.ordered) he)
  subquery q hq := by
    subst hq
    cases h with
    | subquery hq => exact ⟨_, rfl, hq.lacksOrdering⟩

theorem Query.Aligned.lacksOrdering {RE : Expr → Expr → Prop} {RS : Source → Source → Prop}
    {q q' : Query} (h : q.Aligned RE RS q') : q'.lacksOrdering = q.lacksOrdering := by
  rw [Query.lacksOrdering, Query.lacksOrdering, hasSkip, hasSkip, rel_isSome h.skip,
    isEmpty_of_forall₂ h.orderBy]

theorem Query.Aligned.keepsOrder {q q' : Query}
    (h : q.Aligned Expr.KeepsOrder Source.KeepsOrder q') : q.KeepsOrder q' where
  ordered hq := by
    obtain ⟨hself, heach⟩ := (Query.eachQuery_iff q).1 hq
    exact (Query.eachQuery_iff q').2 ⟨h.lacksOrdering.trans hself,
      h.leads (fun _ _ h => h.ordered) (fun _ _ h => h.ordered) heach⟩
  lacksOrdering := h.lacksOrdering
  hasSkip := rel_isSome h.skip

theorem Source.Aligned.keepsOrder {s s' : Source}
    (h : s.Aligned Expr.KeepsOrder Query.KeepsOrder Source.KeepsOrder s') : s.KeepsOrder s' :=
  ⟨h.leads (fun _ _ h => h.ordered) (fun _ _ h => h.ordered) (fun _ _ h => h.ordered)
    (Node.IfQuery.ofTrees _)⟩

theorem Statement.Aligned.keepsOrder {s s' : Statement}
    (h : s.Aligned Expr.KeepsOrder Query.KeepsOrder Source.KeepsOrder s') : s.KeepsOrder s' where
  ordered := h.leads (fun _ _ h => h.ordered) (fun _ _ h => h.ordered) (fun _ _ h => h.ordered)
    (Node.IfQuery.ofTrees _)
  unordered hs := by
    cases h with
    | update target hitems hq =>
      obtain ⟨i, hi, q, hexpr, hlacks⟩ := hs
      obtain ⟨i', hi', hitem⟩ := exists_of_forall₂ (R := flip (SetItem.Aligned _)) hitems.flip hi
      obtain ⟨q', hexpr', heq⟩ := hitem.expr.subquery q hexpr
      exact ⟨i', hi', q', hexpr', heq.trans hlacks⟩
    | _ => exact hs.elim

section Rebuild

variable {m : Type → Type} [Monad m] [LawfulMonad m] {O : Outcome m} {t : Transform m}

/-- A transformation that acts on expressions only. -/
theorem Transform.keepsOrder (hquery : t.query = QueryParts.rebuild)
    (hexpr : ∀ e, O.Holds (Expr.KeepsOrder e) (t.expr e)) :
    t.Yields O Expr.KeepsOrder Query.KeepsOrder Source.KeepsOrder where
  expr h := O.mono (hexpr _) fun _ he => h.keepsOrder.trans he
  query h := by
    rw [hquery]
    exact O.mono h.rebuild fun _ hq => hq.keepsOrder
  source h := h.keepsOrder

end Rebuild

/-! The first pass. -/

theorem Source.reference_of_mem_keyExprs (s : Source) :
    ∀ e ∈ s.keyExprs, (Node.expr e).isColumnReference = true := by
  unfold keyExprs
  cases s.origin with
  | table t => simp [fieldOf, Node.isColumnReference]
  | query q =>
    intro e he
    obtain ⟨index, hindex, rfl⟩ := List.mem_mapIdx.1 he
    rfl

theorem Query.reference_of_mem_orderKeys (q : Query) :
    ∀ e ∈ q.orderKeys, (Node.expr e).isColumnReference = true := by
  unfold orderKeys
  split
  · cases q.sources with
    | nil => simp
    | cons s _ => exact s.reference_of_mem_keyExprs
  · simp

theorem Query.all_orderKeys {P : Node → Prop} (hP : Node.Selective P) (q : Query) :
    ∀ e ∈ q.orderKeys, (Node.expr e).All P := by
  intro e he
  have href := q.reference_of_mem_orderKeys e he
  cases e with
  | field f => exact hP.all_field f
  | column c => exact hP.all_columnRef c
  | _ => cases href

theorem Query.each_orderByColumns {E : Expr → Prop} {S : Source → Prop} {q : Query}
    (hq : q.Each E S) {keys : List Expr} (hkeys : ∀ e ∈ keys, E e) :
    (q.orderByColumns keys).Each E S := by
  have hall : ∀ c ∈ q.columns ++ keys.map fun e => ({ expr := e } : Column), E c.expr :=
    List.forall_mem_append.2 ⟨hq.columns, List.forall_mem_map.2 hkeys⟩
  exact { hq with columns := hall, orderBy := List.forall_mem_map.2 hall }

theorem Query.eachQuery_orderByColumns {P : Query → Prop} {q : Query} {keys : List Expr}
    (hself : P (q.orderByColumns keys)) (hkeys : ∀ e ∈ keys, e.EachQuery P)
    (hq : q.Each (Expr.EachQuery P) (Source.EachQuery P)) :
    (q.orderByColumns keys).EachQuery P :=
  (eachQuery_iff _).2 ⟨hself, each_orderByColumns hq hkeys⟩

theorem Transform.ordered_correctPagination :
    Transform.correctPagination.Yields (.success Error) (fun _ e => e.EachQuery Query.Ordered)
      (fun _ q => q.EachQuery Query.Ordered) (fun _ s => s.EachQuery Query.Ordered) := by
  let O := Outcome.success Error
  refine Transform.establishes (Node.IfQuery.ofTrees _)
    (fun e he => O.pure ((Expr.eachQuery_iff e).2 he)) fun {q p} h => ?_
  refine O.mono (Query.holds_correctPagination h) fun q' hq' => ?_
  cases hq' with
  | rebuilt hlacks h =>
    exact (Query.eachQuery_iff q').2 ⟨h.lacksOrdering.trans hlacks, h.each_all⟩
  | @byColumns r _ hkeys h =>
    refine Query.eachQuery_orderByColumns ?_ (q.all_orderKeys (Node.IfQuery.selective _)) h.each_all
    have hcolumns := isEmpty_of_forall₂ h.columns
    have hne : (r.orderByColumns q.orderKeys).orderBy ≠ [] := by
      suffices r.columns = [] → q.orderKeys ≠ [] by simpa [Query.orderByColumns]
      grind
    simp [Query.Ordered, Query.lacksOrdering, hne]

/-- The first pass leaves all queries ordered. -/
theorem Statement.ordered_correctPagination {s s' : Statement} (h : s.correctPagination = .ok s') :
    s'.Ordered :=
  (Transform.ordered_correctPagination.onStatement s s' h).all (Node.IfQuery.ofTrees _)

/-! The passes that keep queries. -/

theorem Transform.keepsOrder_fixEmptyProjection :
    Transform.fixEmptyProjection.Yields .result Expr.KeepsOrder Query.KeepsOrder
      Source.KeepsOrder where
  expr h := Outcome.result.pure h.keepsOrder
  query {q p} h := by
    have hq := Query.holds_fixEmptyProjection h
    change q.KeepsOrder (q.fixEmptyProjection p)
    generalize q.fixEmptyProjection p = q' at hq
    cases hq with
    | rebuilt _ h => exact h.keepsOrder
    | constant _ h =>
      refine ⟨fun hall => ?_, h.keepsOrder.lacksOrdering, h.keepsOrder.hasSkip⟩
      obtain ⟨hself, heach⟩ := (Query.eachQuery_iff _).1 (h.keepsOrder.ordered hall)
      refine (Query.eachQuery_iff _).2 ⟨hself, { heach with columns := ?_ }⟩
      exact List.forall_mem_append.2 ⟨heach.columns, by simp [Expr.int]⟩
  source h := h.keepsOrder

theorem Statement.keepsOrder_fixEmptyProjection (s : Statement) :
    s.KeepsOrder s.fixEmptyProjection :=
  (Transform.keepsOrder_fixEmptyProjection.onStatement s).keepsOrder

theorem Statement.keepsOrder_mapUp {f : Expr → Expr} (hf : ∀ e : Expr, e.KeepsOrder (f e))
    (s : Statement) :
    s.KeepsOrder (s.mapUp f) :=
  ((Transform.keepsOrder (O := .result) (t := .ofFun f) rfl hf).onStatement s).keepsOrder

/-- Whether a query is ordered depends on its form only. -/
theorem Query.kept_ordered : Node.Kept (Node.IfQuery Query.Ordered) :=
  Node.IfQuery.kept fun h hq => h.lacksOrdering.trans hq

theorem Expr.keepsOrder_unbind (e : Expr) : e.KeepsOrder e.unbind where
  ordered := Query.kept_ordered.leads_unbind e
  subquery q hq := ⟨q, by subst hq; rfl, rfl⟩

theorem Expr.keepsOrder_unbindArgs (e : Expr) : e.KeepsOrder e.unbindArgs where
  ordered := Query.kept_ordered.leads_unbindArgs e
  subquery q hq := ⟨q, by subst hq; rfl, rfl⟩

theorem Query.keepsOrder_unbindColumns (q : Query) : q.KeepsOrder q.unbindColumns where
  ordered := kept_ordered.unbindColumns q
  lacksOrdering := rfl
  hasSkip := rfl

theorem Statement.keepsOrder_debindInsertParameters (s : Statement) :
    s.KeepsOrder s.debindInsertParameters := by
  cases s with
  | insert into items q =>
    refine Statement.Aligned.keepsOrder (.insert into ?_ q.keepsOrder_unbindColumns)
    rw [List.forall₂_map_right_iff, List.forall₂_same]
    exact fun i _ => ⟨rfl, i.expr.keepsOrder_unbind⟩
  | _ => exact .refl _

/-- The passes that write parameters into the text. -/
theorem Dialect.keepsOrder_inlined (d : Dialect) (config : Config) (s : Statement) :
    s.KeepsOrder (d.inlined config s) := by
  refine d.inlined_induction config (.refl s) (fun s' h => ?_) (fun s' h => ?_) fun s' h => ?_
  · exact h.trans s'.keepsOrder_debindInsertParameters
  · exact h.trans (s'.keepsOrder_mapUp Expr.keepsOrder_unbindArgs)
  · exact h.trans (s'.keepsOrder_mapUp Expr.keepsOrder_unbind)

/-! The conversion. -/

theorem SqlCe.Converted.keepsOrder {e e' : Expr} (h : Converted e e') : e.KeepsOrder e' where
  ordered := h.leads Query.kept_ordered
  subquery q hq := by
    subst hq
    cases h
    exact ⟨q, rfl, rfl⟩

theorem Dialect.Standard.keepsOrder_convert {d : Dialect} (hd : d.Standard) {ctx : Context}
    {s s' : Statement} (h : d.convertStatement ctx s = .ok s') : s.KeepsOrder s' := by
  have hyields : (d.conversion ctx).Yields (.success Error) Expr.KeepsOrder
      Query.KeepsOrder Source.KeepsOrder :=
    Transform.keepsOrder rfl fun e e' he => (hd.converted he).keepsOrder
  exact (hyields.onStatement s s' h).keepsOrder

end SqlTree

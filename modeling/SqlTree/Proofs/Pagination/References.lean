import SqlTree.Proofs.Invariant
import SqlTree.Proofs.Lowering.Completion
import SqlTree.Proofs.Pagination.Shape
import SqlTree.Proofs.Resolution

/-! # References under pagination

The passes that give a query an ordering, a column or row numbers keep references resolved. The
numbered rows are a derived table inside the query that selects them, so what was in scope around
the query is two levels further out for its clauses. New ids hide none of it.

Main definitions:

* `Expr.KeepsScope`, `Query.KeepsScope`, `Source.KeepsScope`: a second tree that is resolved where
  the first one is.

Main statements:

* `Query.Aligned.keepsScope`: a query put together from parts that are resolved.
* `Query.keepsScope_orderByColumns`: a query ordered by its columns or its keys.
* `Query.Emulated.keepsScope`: a query by row numbers.
-/

namespace SqlTree

section Scope

variable (M : Ident → Prop) (C : Node → Prop)

/-- Where a scope knows ids in `M` only, the second tree is resolved if the first one is. -/
def Node.KeepsScope (n n' : Node) : Prop :=
  ∀ scope : Scope, (∀ b ∈ scope, M b.1) → n.Scoped C scope → n'.Scoped (fun _ => True) scope

def Expr.KeepsScope (e e' : Expr) : Prop := Node.KeepsScope M C (.expr e) (.expr e')

/-- The second query is resolved where the first one is, and takes its place as a derived table. -/
structure Query.KeepsScope (q q' : Query) : Prop where
  keeps : Node.KeepsScope M C (.query q) (.query q')
  id : q'.id = q.id
  width : q.columns.length ≤ q'.columns.length

/-- The second source is resolved where the first one is, and brings the same into scope. -/
structure Source.KeepsScope (s s' : Source) : Prop where
  keeps : Node.KeepsScope M C (.source s) (.source s')
  binds : Scope.Widens (s.withJoined.flatMap Source.binds) (s'.withJoined.flatMap Source.binds)

end Scope

/-! What comes into scope. -/

theorem Query.binds_eq (q : Query) :
    q.binds = q.sources.flatMap fun s => s.withJoined.flatMap Source.binds := by
  rw [binds, allSources, List.flatMap_assoc]

theorem Query.binds_derived {q inner : Query} {source : SourceId} {a : Option String}
    (h : q.sources = [{ id := source, origin := .query inner, aliasName := a }]) :
    q.binds = [(.source source, 0), (.query inner.id, inner.columns.length)] := by
  rw [binds_eq, h, List.flatMap_singleton, Source.withJoined_eq]
  rfl

theorem Scope.lookup_derived (source : SourceId) (id : QueryId) (width : Nat) (scope : Scope) :
    (([(.source source, 0), (.query id, width)] : Scope) ++ scope).lookup (.query id) =
      some width := by
  have hne : (Ident.query id == Ident.source source) = false := beq_false_of_ne (by simp)
  simp [List.lookup_cons, hne]

theorem Node.scoped_derivedRef {source : SourceId} {id : QueryId} {width : Nat} {scope : Scope}
    {c : ColumnRef} (hid : c.query = id) (hindex : c.index < width) :
    (Node.expr (.column c)).Scoped (fun _ => True)
      ([(.source source, 0), (.query id, width)] ++ scope) := by
  subst hid
  exact (scoped_columnRef c).2 ⟨width, Scope.lookup_derived source c.query width scope, hindex⟩

theorem Query.forall_mem_bounds {P : Expr → Prop} {q : Query} :
    (∀ e ∈ q.bounds, P e) ↔ (∀ e ∈ q.skip, P e) ∧ ∀ e ∈ q.take, P e := by
  simp [bounds, or_imp, forall_and]

variable {M : Ident → Prop} {C : Node → Prop} {scope scope' : Scope}

/-! Parts that are put together again. -/

theorem Expr.Aligned.keepsScope {e e' : Expr}
    (h : e.Aligned (Expr.KeepsScope M C) (Query.KeepsScope M C) e') : e.KeepsScope M C e' := by
  intro scope hscope hs
  obtain ⟨-, hfinds, hchildren⟩ := (Node.scoped_expr e).1 hs
  refine (Node.scoped_expr e').2 ⟨trivial, ?_⟩
  cases h with
  | call name t flags hargs =>
    simp only [Node.children, List.forall_mem_map] at hchildren ⊢
    exact ⟨trivial, forall_mem_of_forall₂ hargs hchildren fun _ _ h => h scope hscope⟩
  | binary op p t n hl hr =>
    simp only [Node.children, List.forall_mem_cons] at hchildren ⊢
    exact ⟨trivial, hl scope hscope hchildren.1, hr scope hscope hchildren.2.1, by simp⟩
  | raw format p t hargs =>
    simp only [Node.children, List.forall_mem_map] at hchildren ⊢
    exact ⟨trivial, forall_mem_of_forall₂ hargs hchildren fun _ _ h => h scope hscope⟩
  | subquery hq =>
    simp only [Node.children, List.forall_mem_singleton] at hchildren ⊢
    exact ⟨trivial, hq.keeps scope hscope hchildren⟩
  | existsRow hq =>
    simp only [Node.children, List.forall_mem_singleton] at hchildren ⊢
    exact ⟨trivial, hq.keeps scope hscope hchildren⟩
  | _ => exact ⟨hfinds, by simp [Node.children]⟩

theorem Source.Aligned.keepsScope {s s' : Source}
    (h : s.Aligned (Expr.KeepsScope M C) (Query.KeepsScope M C) (Source.KeepsScope M C) s') :
    s.KeepsScope M C s' where
  keeps scope hscope hs := by
    refine (Node.scoped_source s').2 ⟨fun q' hq' => ?_, ?_, ?_⟩
    · have horigin := h.origin
      rw [hq'] at horigin
      generalize ho : s.origin = origin at horigin
      cases horigin with
      | query hq => exact hq.keeps scope hscope (hs.parts.origin _ ho)
    · exact forall_mem_of_forall₂ h.joins hs.parts.joins fun _ _ hj =>
        hj.source.keeps scope hscope
    · exact forall_mem_of_forall₂ h.joins hs.parts.conditions fun _ _ hj hconditions =>
        forall_mem_of_rel hj.condition hconditions fun _ _ h => h scope hscope
  binds := by
    have horigin : Scope.Widens s.binds s'.binds := by
      refine .cons ⟨by rw [h.id], Nat.le_refl _⟩ ?_
      have horigin := h.origin
      generalize s.origin = origin, s'.origin = origin' at horigin
      cases horigin with
      | table t => exact .nil
      | query hq => exact .cons ⟨by rw [hq.id], hq.width⟩ .nil
    rw [withJoined_eq s, withJoined_eq s', List.flatMap_cons, List.flatMap_cons,
      List.flatMap_assoc, List.flatMap_assoc]
    exact horigin.append (List.rel_flatMap h.joins fun _ _ hj => hj.source.binds)

namespace Query

variable {q q' : Query}

theorem Aligned.widens (h : q.Aligned (Expr.KeepsScope M C) (Source.KeepsScope M C) q') :
    q.binds.Widens q'.binds := by
  rw [binds_eq, binds_eq]
  exact List.rel_flatMap h.sources fun _ _ hs => hs.binds

/-- The clauses are resolved in a scope that knows more. -/
theorem Aligned.each (h : q.Aligned (Expr.KeepsScope M C) (Source.KeepsScope M C) q')
    (hscope : ∀ b ∈ scope, M b.1)
    (hq : q.Each (fun e => (Node.expr e).Scoped C scope) (fun s => (Node.source s).Scoped C scope))
    (hle : scope.Le scope') :
    q'.Each (fun e => (Node.expr e).Scoped (fun _ => True) scope')
      (fun s => (Node.source s).Scoped (fun _ => True) scope') := by
  have hexpr : ∀ e e', Expr.KeepsScope M C e e' → (Node.expr e).Scoped C scope →
      (Node.expr e').Scoped (fun _ => True) scope' :=
    fun e e' h he => (h scope hscope he).mono hle
  exact {
    columns := forall_mem_of_forall₂ h.columns hq.columns fun _ _ hc => hexpr _ _ hc.1
    skip := forall_mem_of_rel h.skip hq.skip hexpr
    take := forall_mem_of_rel h.take hq.take hexpr
    sources := forall_mem_of_forall₂ h.sources hq.sources fun _ _ hs hscoped =>
      (hs.keeps scope hscope hscoped).mono hle
    filter := forall_mem_of_rel h.filter hq.filter hexpr
    groupBy := forall_mem_of_forall₂ h.groupBy hq.groupBy hexpr
    having := forall_mem_of_rel h.having hq.having hexpr
    orderBy := forall_mem_of_forall₂ h.orderBy hq.orderBy fun _ _ ho => hexpr _ _ ho.1 }

variable (hC : ∀ q, C (.query q) → ∀ i ∈ q.opens, M i)

include hC

theorem scope_of_scoped (hscope : ∀ b ∈ scope, M b.1) (hq : (Node.query q).Scoped C scope) :
    ∀ b ∈ q.binds ++ scope, M b.1 := by
  intro b hb
  rcases List.mem_append.1 hb with hb | hb
  · exact hC q hq.meets b.1 (q.map_fst_binds ▸ List.mem_map_of_mem hb)
  · exact hscope b hb

/-- A query that is put together again from its clauses. -/
theorem Aligned.keepsScope (h : q.Aligned (Expr.KeepsScope M C) (Source.KeepsScope M C) q') :
    q.KeepsScope M C q' where
  keeps scope hscope hq := by
    have hall := scope_of_scoped hC hscope hq
    refine (Node.scoped_query q').2
      ⟨h.each hall hq.clauses (h.widens.le Scope.le_refl), forall_mem_bounds.2 ?_⟩
    obtain ⟨hskip, htake⟩ := forall_mem_bounds.1 hq.bounds
    exact ⟨forall_mem_of_rel h.skip hskip fun _ _ h => h scope hscope,
      forall_mem_of_rel h.take htake fun _ _ h => h scope hscope⟩
  id := h.id
  width := Nat.le_of_eq h.columns.length_eq

end Query

/-! An ordering and a column. -/

/-- What identifies the rows of a source can be read where the source is in scope. -/
theorem Source.scoped_keyExprs (s : Source) (scope : Scope) :
    ∀ e ∈ s.keyExprs, (Node.expr e).Scoped (fun _ => True) (s.binds ++ scope) := by
  unfold keyExprs binds
  cases s.origin with
  | table t =>
    simp only [List.forall_mem_map]
    intro f _
    simp [fieldOf]
  | query q =>
    intro e he
    obtain ⟨index, hindex, rfl⟩ := List.mem_mapIdx.1 he
    exact Node.scoped_derivedRef rfl hindex

theorem Query.scoped_orderKeys (q : Query) (scope : Scope) :
    ∀ e ∈ q.orderKeys, (Node.expr e).Scoped (fun _ => True) (q.binds ++ scope) := by
  intro e he
  unfold orderKeys at he
  split at he
  · cases hs : q.sources with
    | nil => simp [hs] at he
    | cons s sources =>
      have he : e ∈ s.keyExprs := by simpa [hs] using he
      rw [binds_eq, hs, List.flatMap_cons, Source.withJoined_eq, List.flatMap_cons]
      simp only [List.append_assoc]
      exact s.scoped_keyExprs _ e he
  · simp at he

namespace Query

variable {q q' q'' : Query}

/-- More columns and another ordering, all resolved in the query. -/
theorem KeepsScope.with (h : q.KeepsScope M C q') {columns : List Column} {order : List OrderItem}
    (hwidth : q'.columns.length ≤ columns.length)
    (hcolumns : ∀ scope, (∀ b ∈ scope, M b.1) → (Node.query q).Scoped C scope →
      (∀ c ∈ columns, (Node.expr c.expr).Scoped (fun _ => True) (q'.binds ++ scope)) ∧
        ∀ o ∈ order, (Node.expr o.expr).Scoped (fun _ => True) (q'.binds ++ scope)) :
    q.KeepsScope M C { q' with columns, orderBy := order } where
  keeps scope hscope hq := by
    obtain ⟨heach, hbounds⟩ := (Node.scoped_query q').1 (h.keeps scope hscope hq)
    obtain ⟨hcolumns, horder⟩ := hcolumns scope hscope hq
    refine (Node.scoped_query _).2 ⟨?_, hbounds⟩
    exact { heach with columns := hcolumns, orderBy := horder }
  id := h.id
  width := Nat.le_trans h.width hwidth

variable (hC : ∀ q, C (.query q) → ∀ i ∈ q.opens, M i)

include hC

theorem keepsScope_orderByColumns
    (h : q.Aligned (Expr.KeepsScope M C) (Source.KeepsScope M C) q') :
    q.KeepsScope M C (q'.orderByColumns q.orderKeys) := by
  refine (h.keepsScope hC).with (by simp) fun scope hscope hq => ?_
  have hcolumns := ((Node.scoped_query q').1 ((h.keepsScope hC).keeps scope hscope hq)).1.columns
  have hkeys : ∀ e ∈ q.orderKeys, (Node.expr e).Scoped (fun _ => True) (q'.binds ++ scope) :=
    fun e he => (q.scoped_orderKeys scope e he).mono (h.widens.le Scope.le_refl)
  have hall : ∀ c ∈ q'.columns ++ q.orderKeys.map fun e => ({ expr := e } : Column),
      (Node.expr c.expr).Scoped (fun _ => True) (q'.binds ++ scope) := by
    intro c hc
    rcases List.mem_append.1 hc with hc | hc
    · exact hcolumns c hc
    · obtain ⟨e, he, rfl⟩ := List.mem_map.1 hc
      exact hkeys e he
  exact ⟨hall, List.forall_mem_map.2 hall⟩

theorem keepsScope_addColumn (h : q.Aligned (Expr.KeepsScope M C) (Source.KeepsScope M C) q')
    (l : Literal) (t : DataType) : q.KeepsScope M C (q'.addColumn (.value l t)) := by
  refine (h.keepsScope hC).with (by simp) fun scope hscope hq => ?_
  have heach := ((Node.scoped_query q').1 ((h.keepsScope hC).keeps scope hscope hq)).1
  refine ⟨fun c hc => ?_, heach.orderBy⟩
  rcases List.mem_append.1 hc with hc | hc
  · exact heach.columns c hc
  · obtain rfl := List.mem_singleton.1 hc
    exact Node.scoped_value l t

end Query

/-! Row numbers. -/

/-- New ids hide nothing of a scope. -/
theorem Scope.Le.derived {ids : Ids} (hle : scope.Le scope') (hscope : ∀ b ∈ scope, b.1.Below ids)
    {source : SourceId} {id : QueryId} (hsource : ¬ (Ident.source source).Below ids)
    (hid : ¬ (Ident.query id).Below ids) (width : Nat) :
    scope.Le ([(.source source, 0), (.query id, width)] ++ scope') := by
  refine hle.append_of_notMem fun x hx hmem => ?_
  obtain ⟨b, hb, heq⟩ := List.mem_map.1 hmem
  have hbelow : x.1.Below ids := heq ▸ hscope b hb
  simp only [List.mem_cons, List.not_mem_nil, or_false] at hx
  rcases hx with rfl | rfl
  · exact hsource hbelow
  · exact hid hbelow

theorem Query.KeepsScope.page {q inner : Query} {innerId : QueryId} {source : SourceId}
    {bounds : List Expr} {number : Expr}
    (h : Node.KeepsScope M C (.query q)
      (.query (page q.id (q.refColumns innerId) inner source bounds number))) :
    q.KeepsScope M C (page q.id (q.refColumns innerId) inner source bounds number) where
  keeps := h
  id := by rw [page_eq]
  width := by
    rw [page_eq]
    simp [refColumns]

namespace Query

variable {ids : Ids} {q q' inner rows : Query} {source rowsSource : SourceId} {bounds : List Expr}

theorem scoped_page {innerId : QueryId} (hinnerId : inner.id = innerId)
    (hscope : ∀ b ∈ scope, M b.1) (hbelow : ∀ b ∈ scope, b.1.Below ids)
    (hid : ¬ (Ident.query innerId).Below ids) (hsource : ¬ (Ident.source source).Below ids)
    (hwidth : inner.columns.length = q.columns.length + 1)
    (hinner : ∀ scope', scope.Le scope' → (Node.query inner).Scoped (fun _ => True) scope')
    (hq : ∀ e ∈ q.bounds, (Node.expr e).Scoped C scope)
    (hbounds : q.Bounded (Expr.KeepsScope M C) (rowNumberRef innerId q.columns.length) bounds) :
    (Node.query (page q.id (q.refColumns innerId) inner source bounds
      (rowNumberRef innerId q.columns.length))).Scoped (fun _ => True) scope := by
  subst hinnerId
  have hle := Scope.le_refl.derived hbelow hsource hid inner.columns.length
  let E : Expr → Prop := fun e => (Node.expr e).Scoped (fun _ => True)
    ([(.source source, 0), (.query inner.id, inner.columns.length)] ++ scope)
  have hnumber : E (rowNumberRef inner.id q.columns.length) :=
    Node.scoped_derivedRef rfl (by simp [hwidth])
  have hcolumns : ∀ c ∈ q.refColumns inner.id, E c.expr :=
    q.forall_mem_refColumns fun c hid hindex => Node.scoped_derivedRef hid (by omega)
  have hoperation : ∀ op l r t, E l → E r → E (.operation op l r t) :=
    fun _ _ _ _ hl hr => (Node.scoped_binary ..).2 ⟨hl, hr⟩
  have hbound : ∀ e ∈ q.bounds, ∀ e', Expr.KeepsScope M C e e' → E e' :=
    fun e he e' h => (h scope hscope (hq e he)).mono hle
  obtain ⟨hskip, htake⟩ := forall_mem_bounds.1 hbound
  refine (Node.scoped_query _).2 ⟨?_, by simp [page_eq, Query.bounds]⟩
  rw [binds_derived (by rw [page_eq])]
  refine each_page hcolumns ?_ (hbounds.forall_mem hoperation hnumber hskip htake)
    (fun l r => hoperation .and l r .boolean) hnumber
  refine (Node.scoped_source _).2 ⟨?_, by simp, by simp⟩
  rintro _ ⟨⟩
  exact hinner _ hle

theorem scoped_numbered {order : List OrderItem}
    (hq : q.Each (fun e => (Node.expr e).Scoped (fun _ => True) (q.binds ++ scope))
      (fun s => (Node.source s).Scoped (fun _ => True) (q.binds ++ scope)))
    (horder : ∀ o ∈ order, (Node.expr o.expr).Scoped (fun _ => True) (q.binds ++ scope))
    (hskip : q.skip = none) (htake : q.take = none) :
    (Node.query (q.numbered order)).Scoped (fun _ => True) scope := by
  refine (Node.scoped_query _).2 ⟨each_numbered hq ?_, ?_⟩
  · exact (Node.scoped_raw ..).2 (List.forall_mem_map.2 horder)
  · simp [numbered, Query.bounds, hskip, htake]

/-- The distinct rows of a query as a derived table, numbered. -/
theorem scoped_ofRows {order : List OrderItem} {innerId : QueryId}
    (hwidth : rows.columns.length = q.columns.length)
    (horder : List.Forall₂ (q.RefersTo rows.id) q.orderBy order)
    (hrows : (Node.query rows).Scoped (fun _ => True)
      ([(.source rowsSource, 0), (.query rows.id, rows.columns.length)] ++ scope)) :
    (Node.query ((q.ofRows rows innerId rowsSource).numbered order)).Scoped (fun _ => True)
      scope := by
  let E : Expr → Prop := fun e => (Node.expr e).Scoped (fun _ => True)
    ([(.source rowsSource, 0), (.query rows.id, rows.columns.length)] ++ scope)
  have href : ∀ c : ColumnRef, c.query = rows.id → c.index < q.columns.length → E (.column c) :=
    fun c hid hindex => Node.scoped_derivedRef hid (by omega)
  refine scoped_numbered ?_ ?_ rfl rfl
  all_goals rw [binds_derived rfl]
  · refine each_ofRows (q.forall_mem_refColumns (E := E) href) ?_
    refine (Node.scoped_source _).2 ⟨?_, by simp, by simp⟩
    rintro _ ⟨⟩
    exact hrows
  · exact forall_mem_refersTo (E := E) horder href

variable (hC : ∀ q, C (.query q) → ∀ i ∈ q.opens, M i)
  (hids : ∀ q, C (.query q) → q.hasSkip = true → ∀ i, M i → i.Below ids)

include hC hids

/-- A query by row numbers is resolved where the query is. -/
theorem Emulated.keepsScope
    (h : q.Emulated (Expr.KeepsScope M C) (Source.KeepsScope M C) ids q') :
    q.KeepsScope M C q' := by
  cases h with
  | rebuilt _ h => exact h.keepsScope hC
  | @numbered inner order source bounds hskip _ hid hsource hplain hclauses hbounds =>
    refine .page fun scope hscope hq => ?_
    have hbelow : ∀ b ∈ scope, b.1.Below ids :=
      fun b hb => hids q hq.meets hskip b.1 (hscope b hb)
    have hwidth : inner.columns.length = q.columns.length := hclauses.columns.length_eq.symm
    refine scoped_page rfl hscope hbelow hid hsource ?_ (fun scope' hle => ?_) hq.bounds
      hbounds
    · simp [Query.numbered, hwidth]
    · have heach := hclauses.each (scope_of_scoped hC hscope hq)
        { hq.clauses with skip := by simp, take := by simp } (hclauses.widens.le hle)
      refine scoped_numbered { heach with orderBy := ?_ } heach.orderBy hplain.skip hplain.take
      simp [hplain.orderBy]
  | @distinct rows order innerId rowsSource source bounds hskip _ hrows hrowsSource hid hsource
      horder hclauses hbounds =>
    refine .page fun scope hscope hq => ?_
    have hbelow : ∀ b ∈ scope, b.1.Below ids :=
      fun b hb => hids q hq.meets hskip b.1 (hscope b hb)
    have hwidth : rows.columns.length = q.columns.length := hclauses.columns.length_eq.symm
    refine scoped_page rfl hscope hbelow hid hsource ?_ (fun scope' hle => ?_) hq.bounds
      hbounds
    · simp [Query.numbered, ofRows, refColumns]
    · have hle := hle.derived hbelow hrowsSource hrows rows.columns.length
      have heach := hclauses.each (scope_of_scoped hC hscope hq)
        { hq.clauses with skip := by simp, take := by simp, orderBy := by simp }
        (hclauses.widens.le hle)
      refine scoped_ofRows hwidth horder ((Node.scoped_query rows).2 ⟨heach, ?_⟩)
      have hnone : ∀ {o : Option Expr}, Option.Rel (Expr.KeepsScope M C) none o → o = none := by
        rintro _ ⟨⟩
        rfl
      simp [Query.bounds, hnone hclauses.skip, hnone hclauses.take]

end Query

/-! The passes. -/

section Passes

variable (hC : ∀ q, C (.query q) → ∀ i ∈ q.opens, M i)

include hC

theorem Transform.keepsScope_correctPagination :
    Transform.correctPagination.Yields (.success Error) (Expr.KeepsScope M C)
      (Query.KeepsScope M C) (Source.KeepsScope M C) where
  expr h := (Outcome.success Error).pure h.keepsScope
  query {q p} h := by
    refine (Outcome.success Error).mono (Query.holds_correctPagination h) fun q' hq' => ?_
    cases hq' with
    | rebuilt _ h => exact h.keepsScope hC
    | byColumns _ _ h => exact Query.keepsScope_orderByColumns hC h
  source h := h.keepsScope

theorem Transform.keepsScope_fixEmptyProjection :
    Transform.fixEmptyProjection.Yields .result (Expr.KeepsScope M C) (Query.KeepsScope M C)
      (Source.KeepsScope M C) where
  expr h := Outcome.result.pure h.keepsScope
  query {q p} h := by
    have hq := Query.holds_fixEmptyProjection h
    change q.KeepsScope M C (q.fixEmptyProjection p)
    generalize q.fixEmptyProjection p = q' at hq
    cases hq with
    | rebuilt _ h => exact h.keepsScope hC
    | constant _ h => exact Query.keepsScope_addColumn hC h _ _
  source h := h.keepsScope

theorem Transform.keepsScope_emulatePagination {ids : Ids}
    (hids : ∀ q, C (.query q) → q.hasSkip = true → ∀ i, M i → i.Below ids) :
    Transform.emulatePagination.Yields (Numbering.results ids) (Expr.KeepsScope M C)
      (Query.KeepsScope M C) (Source.KeepsScope M C) where
  expr h := (Numbering.results ids).pure h.keepsScope
  query h := (Numbering.results ids).mono (Query.holds_emulatePagination h) fun _ hq' =>
    hq'.keepsScope hC hids
  source h := h.keepsScope

end Passes

end SqlTree

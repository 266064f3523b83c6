import SqlTree.Proofs.Rename
import SqlTree.Proofs.Semantics.Matching

/-! # The meaning of renamed trees

A renamed tree yields what the tree yields, at frames that hold under the new ids what is held under
the old ones. Which frames these are is left to the caller: a relation of frames only has to be kept
when a row is bound on both sides, and to hold the rows that are read.

Main definitions:

* `Node.Within`: bounds on the ids that a node declares and refers to.
* `Simulation`: the relations of frames along which a renaming keeps the meaning.
* `Frame.Carries`: a frame at a row of one more source, which holds what another one holds.

Main statements:

* `Simulation.expr`, `Simulation.query`: renaming keeps the meaning.
* `Frame.Carries.simulation`: the relation for an injective renaming.
-/

namespace SqlTree

/-- The ids that the node declares meet `M` and those that it refers to meet `N`. -/
structure Node.Within (M N : Ident → Prop) (n : Node) : Prop where
  declares : ∀ i ∈ n.declares?, M i
  refersTo : ∀ i ∈ n.refersTo?, N i

theorem Node.all_within {M N : Ident → Prop} {n : Node} (hd : ∀ i ∈ n.declared, M i)
    (hr : ∀ i ∈ n.references, N i) : n.All (Within M N) :=
  fun m hm => ⟨fun i hi => hd i (List.mem_filterMap.2 ⟨m, hm, hi⟩),
    fun i hi => hr i (List.mem_filterMap.2 ⟨m, hm, hi⟩)⟩

variable {V : Type} [DecidableEq V] {db : Database V} {d r : Renaming} {M N : Ident → Prop}
  {P : Frame V → Frame V → Prop}

/-- A relation of frames that holds what is read under the new references, and that is kept when a
row is bound under a declared id and its new name. -/
structure Simulation (d r : Renaming) (M N : Ident → Prop) (P : Frame V → Frame V → Prop) :
    Prop where
  source : ∀ {f f' id x}, P f f' → N (.source id) → f.source id = some x →
    f'.source (r.source id) = some x
  derived : ∀ {f f' id vs}, P f f' → N (.query id) → f.derived id = some vs →
    f'.derived (r.query id) = some vs
  bindSource : ∀ {f f' id} x, P f f' → M (.source id) →
    P (f.bindSource id x) (f'.bindSource (d.source id) x)
  bindDerived : ∀ {f f' id} vs, P f f' → M (.query id) →
    P (f.bindDerived id vs) (f'.bindDerived (d.query id) vs)

namespace Simulation

theorem closed (h : Simulation d r M N P) :
    Tree.Closed
      (fun e => (Node.expr e).All (Node.Within M N) → e.Matches db P (e.rename d r))
      (fun q => (Node.query q).All (Node.Within M N) → Query.ClausesMatch db P q (q.rename d r))
      (fun s => (Node.source s).All (Node.Within M N) → s.Matches db P (s.rename d r)) where
  value l t _ := .value l t
  parameter p _ := .parameter p
  field f hw := .field rfl fun x hP => h.source hP (hw.self.refersTo _ rfl)
  column c hw := .column rfl fun vs hP => h.derived hP (hw.self.refersTo _ rfl)
  call name t args flags ih hw := by
    rw [Expr.rename, renameExprs_eq_map]
    exact .call name t flags (forall₂_map_right fun e he => ih e he (hw.arg e he))
  binary op left right p t n hl hr hw := .binary op p t n (hl hw.left) (hr hw.right)
  raw format p args t ih hw := by
    rw [Expr.rename, renameExprs_eq_map]
    exact .raw format p t (forall₂_map_right fun e he => ih e he (hw.rawArg e he))
  typeName t _ := .typeName t
  subquery q ih hw := .subquery (ih hw.subquery).toMatches
  existsRow q ih hw := .existsRow (ih hw.existsRow).toMatches
  query q ih hw := by
    have hc := ih.mp hw.clauses
    rw [Query.rename_eq]
    exact
      { columns := forall₂_map_right hc.columns
        skip := rel_map_right hc.skip
        take := rel_map_right hc.take
        sources := forall₂_map_right hc.sources
        filter := rel_map_right hc.filter
        orderBy := forall₂_map_right fun o ho => ⟨hc.orderBy o ho, rfl⟩
        groupBy := forall₂_map_right hc.groupBy
        having := rel_map_right hc.having
        distinct := rfl }
  source s ih hw := by
    have hp := ih.mp hw.parts
    have hjoins : List.Forall₂ (Join.Matches db P) s.joins (s.rename d r).joins := by
      rw [Source.rename_eq]
      exact forall₂_map_right fun j hj => ⟨rfl, hp.joins j hj, rel_map_right (hp.conditions j hj)⟩
    cases ho : s.origin with
    | table t =>
      have ho' : (s.rename d r).origin = .table t := by rw [Source.rename_eq, ho, Origin.rename]
      refine .ofTable ho ho' rfl ?_ hjoins
      intro f f' x hP
      rw [Source.id_rename]
      exact h.bindSource x hP (hw.self.declares _ rfl)
    | query q =>
      have ho' : (s.rename d r).origin = .query (q.rename d r) := by
        rw [Source.rename_eq, ho, Origin.rename]
      have hlength : (q.rename d r).columns.length = q.columns.length := by simp [Query.rename_eq]
      refine .ofQuery ho ho' (hp.origin q ho).toMatches hlength ?_ hjoins
      intro f f' vs hP
      rw [Query.id_rename]
      exact h.bindDerived vs hP ((hw.parts.origin q ho).self.declares _ rfl)

/-- A renamed expression has the value of the expression. -/
theorem expr (h : Simulation d r M N P) {e : Expr} (hw : (Node.expr e).All (Node.Within M N)) :
    e.Matches db P (e.rename d r) :=
  h.closed.onExpr e hw

/-- The clauses of a renamed query yield what those of the query yield. -/
theorem query (h : Simulation d r M N P) {q : Query} (hw : (Node.query q).All (Node.Within M N)) :
    Query.ClausesMatch db P q (q.rename d r) :=
  h.closed.onQuery q hw

end Simulation

/-! Frames at a row. -/

/-- The second frame is at the row `x` of the source `outer`. Of the ids that meet `N`, it holds
under the new names what the first one holds, which are ids that meet `K`. -/
structure Frame.Carries (r : Renaming) (K N : Ident → Prop) (outer : SourceId) (x : Row V)
    (f f' : Frame V) : Prop where
  outer : f'.source outer = some x
  source : ∀ id y, N (.source id) → f.source id = some y →
    K (.source id) ∧ f'.source (r.source id) = some y
  derived : ∀ id vs, N (.query id) → f.derived id = some vs →
    K (.query id) ∧ f'.derived (r.query id) = some vs

omit [DecidableEq V] in
theorem Env.lift_carries_empty (r : Renaming) (K N : Ident → Prop) (outer : SourceId) (x : Row V) :
    Env.empty.Lift (Frame.Carries r K N outer x) (Env.empty.bindSource outer x) where
  frame :=
    { outer := Env.source_bindSource_self ..
      source := fun _ _ _ h => by simp at h
      derived := fun _ _ _ h => by simp at h }
  group := .none

omit [DecidableEq V] in
/-- A renaming that takes no two ids for one keeps the meaning, as long as no id is renamed to that
of the source at hand. -/
theorem Frame.Carries.simulation {K : Ident → Prop} {outer : SourceId} {x : Row V}
    (hK : ∀ i, M i → K i) (hd : ∀ i, M i → d.ident i = r.ident i)
    (hinj : ∀ i j, K i → K j → r.ident i = r.ident j → i = j)
    (hout : ∀ i, M i → d.ident i ≠ .source outer) :
    Simulation d r M N (Frame.Carries (V := V) r K N outer x) where
  source hP hN hx := (hP.source _ _ hN hx).2
  derived hP hN hvs := (hP.derived _ _ hN hvs).2
  bindSource {f f' id} y hP hM := by
    have hdr : d.source id = r.source id := Ident.source.inj (hd _ hM)
    have hne : outer ≠ d.source id := fun h => hout _ hM (congrArg Ident.source h.symm)
    refine ⟨?_, fun i z hN hz => ?_, hP.derived⟩
    · rw [Frame.source_bindSource, if_neg hne]
      exact hP.outer
    · rw [Frame.source_bindSource] at hz
      rw [Frame.source_bindSource, hdr]
      split at hz
      · rename_i hi
        rw [hi, if_pos rfl]
        exact ⟨hK _ hM, hz⟩
      · rename_i hi
        obtain ⟨hKi, hsource⟩ := hP.source i z hN hz
        have hr : r.source i ≠ r.source id := fun h =>
          hi (Ident.source.inj (hinj _ _ hKi (hK _ hM) (congrArg Ident.source h)))
        exact ⟨hKi, by rw [if_neg hr, hsource]⟩
  bindDerived {f f' id} ws hP hM := by
    have hdr : d.query id = r.query id := Ident.query.inj (hd _ hM)
    refine ⟨hP.outer, hP.source, fun i vs hN hvs => ?_⟩
    rw [Frame.derived_bindDerived] at hvs
    rw [Frame.derived_bindDerived, hdr]
    split at hvs
    · rename_i hi
      rw [hi, if_pos rfl]
      exact ⟨hK _ hM, hvs⟩
    · rename_i hi
      obtain ⟨hKi, hderived⟩ := hP.derived i vs hN hvs
      have hr : r.query i ≠ r.query id := fun h =>
        hi (Ident.query.inj (hinj _ _ hKi (hK _ hM) (congrArg Ident.query h)))
      exact ⟨hKi, by rw [if_neg hr, hderived]⟩

end SqlTree

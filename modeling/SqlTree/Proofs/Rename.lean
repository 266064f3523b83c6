import SqlTree.Lowering.SingleTable
import SqlTree.Proofs.Scope
import SqlTree.Proofs.Transform
import Mathlib.Data.Option.Basic

/-! # Renaming

The ids that a tree declares and the ids that it refers to are renamed each by a renaming of its
own. Changing the references alone, as a copy does after it was numbered anew, is one case.

Main definitions:

* `Expr.rename`, `Query.rename`, `Source.rename`: a tree with other ids.

Main statements:

* `Tree.declared_rename_closed`: the ids that a renamed tree declares.
* `Expr.inScope_rename`, `Query.inScope_rename`: renamed references stay in scope.
* `Expr.mapUp_reference`: renaming the references alone.
* `Query.mapUp_reference_rename`: renaming the declared ids and then the references.
-/

namespace SqlTree

def Renaming.ident (r : Renaming) : Ident → Ident
  | .source id => .source (r.source id)
  | .query id => .query (r.query id)

@[simp] theorem Renaming.ident_empty (i : Ident) : ({} : Renaming).ident i = i := by
  cases i <;> rfl

theorem Renaming.map_ident_empty (l : List Ident) : l.map ({} : Renaming).ident = l :=
  (List.map_congr_left fun i _ => ident_empty i).trans (List.map_id l)

mutual

def Expr.rename (d r : Renaming) : Expr → Expr
  | .value l t => .value l t
  | .parameter p => .parameter p
  | .field f => .field { f with source := r.source f.source }
  | .column c => .column { c with query := r.query c.query }
  | .call name t args flags => .call name t (renameExprs d r args) flags
  | .binary op left right p t nullable =>
    .binary op (left.rename d r) (right.rename d r) p t nullable
  | .raw format p args t => .raw format p (renameExprs d r args) t
  | .typeName t => .typeName t
  | .subquery q => .subquery (q.rename d r)
  | .existsRow q => .existsRow (q.rename d r)

def renameExprs (d r : Renaming) : List Expr → List Expr
  | [] => []
  | e :: es => e.rename d r :: renameExprs d r es

def renameOptional (d r : Renaming) : Option Expr → Option Expr
  | none => none
  | some e => some (e.rename d r)

/-- The query with the declared ids renamed by `d` and the references by `r`. -/
def Query.rename (d r : Renaming) : Query → Query
  | ⟨id, columns, distinct, skip, take, sources, filter, groupBy, having, orderBy⟩ =>
    ⟨d.query id, renameColumns d r columns, distinct, renameOptional d r skip,
      renameOptional d r take, renameSources d r sources, renameOptional d r filter,
      renameExprs d r groupBy, renameOptional d r having, renameOrder d r orderBy⟩

def Column.rename (d r : Renaming) : Column → Column
  | ⟨expr, aliasName⟩ => ⟨expr.rename d r, aliasName⟩

def renameColumns (d r : Renaming) : List Column → List Column
  | [] => []
  | c :: cs => c.rename d r :: renameColumns d r cs

def Source.rename (d r : Renaming) : Source → Source
  | ⟨id, origin, aliasName, joins⟩ =>
    ⟨d.source id, origin.rename d r, aliasName, renameJoins d r joins⟩

def renameSources (d r : Renaming) : List Source → List Source
  | [] => []
  | s :: ss => s.rename d r :: renameSources d r ss

def Origin.rename (d r : Renaming) : Origin → Origin
  | .table t => .table t
  | .query q => .query (q.rename d r)

def Join.rename (d r : Renaming) : Join → Join
  | ⟨kind, source, condition⟩ => ⟨kind, source.rename d r, renameOptional d r condition⟩

def renameJoins (d r : Renaming) : List Join → List Join
  | [] => []
  | j :: js => j.rename d r :: renameJoins d r js

def OrderItem.rename (d r : Renaming) : OrderItem → OrderItem
  | ⟨expr, desc⟩ => ⟨expr.rename d r, desc⟩

def renameOrder (d r : Renaming) : List OrderItem → List OrderItem
  | [] => []
  | o :: os => o.rename d r :: renameOrder d r os

end

section Lists

variable (d r : Renaming)

@[simp] theorem renameExprs_eq_map (es : List Expr) :
    renameExprs d r es = es.map (Expr.rename d r) := by
  induction es with
  | nil => rfl
  | cons e es ih => simp [renameExprs, ih]

@[simp] theorem renameOptional_eq_map (o : Option Expr) :
    renameOptional d r o = o.map (Expr.rename d r) := by
  cases o <;> rfl

@[simp] theorem renameColumns_eq_map (cs : List Column) :
    renameColumns d r cs = cs.map (Column.rename d r) := by
  induction cs with
  | nil => rfl
  | cons c cs ih => simp [renameColumns, ih]

@[simp] theorem renameSources_eq_map (ss : List Source) :
    renameSources d r ss = ss.map (Source.rename d r) := by
  induction ss with
  | nil => rfl
  | cons s ss ih => simp [renameSources, ih]

@[simp] theorem renameJoins_eq_map (js : List Join) :
    renameJoins d r js = js.map (Join.rename d r) := by
  induction js with
  | nil => rfl
  | cons j js ih => simp [renameJoins, ih]

@[simp] theorem renameOrder_eq_map (os : List OrderItem) :
    renameOrder d r os = os.map (OrderItem.rename d r) := by
  induction os with
  | nil => rfl
  | cons o os ih => simp [renameOrder, ih]

theorem Column.rename_eq (c : Column) :
    c.rename d r = { c with expr := c.expr.rename d r } := by
  cases c
  rfl

theorem OrderItem.rename_eq (o : OrderItem) :
    o.rename d r = { o with expr := o.expr.rename d r } := by
  cases o
  rfl

theorem Join.rename_eq (j : Join) :
    j.rename d r = ⟨j.kind, j.source.rename d r, j.condition.map (Expr.rename d r)⟩ := by
  cases j
  simp [Join.rename]

theorem Query.rename_eq (q : Query) :
    q.rename d r = {
      id := d.query q.id
      columns := q.columns.map fun c => { c with expr := c.expr.rename d r }
      distinct := q.distinct
      skip := q.skip.map (Expr.rename d r)
      take := q.take.map (Expr.rename d r)
      sources := q.sources.map (Source.rename d r)
      filter := q.filter.map (Expr.rename d r)
      groupBy := q.groupBy.map (Expr.rename d r)
      having := q.having.map (Expr.rename d r)
      orderBy := q.orderBy.map fun o => { o with expr := o.expr.rename d r } } := by
  cases q
  simp [Query.rename, ← Column.rename_eq, ← OrderItem.rename_eq]

theorem Source.rename_eq (s : Source) :
    s.rename d r = {
      id := d.source s.id
      origin := s.origin.rename d r
      aliasName := s.aliasName
      joins := s.joins.map fun j =>
        ⟨j.kind, j.source.rename d r, j.condition.map (Expr.rename d r)⟩ } := by
  cases s
  simp [Source.rename, ← Join.rename_eq]

@[simp] theorem Source.id_rename (s : Source) : (s.rename d r).id = d.source s.id := by
  rw [rename_eq]

@[simp] theorem Query.id_rename (q : Query) : (q.rename d r).id = d.query q.id := by
  rw [rename_eq]

variable {d r} in
theorem Query.Each.rename {E : Expr → Prop} {S : Source → Prop} {q : Query}
    (h : q.Each (fun e => E (e.rename d r)) (fun s => S (s.rename d r))) :
    (q.rename d r).Each E S := by
  rw [rename_eq]
  exact
    { columns := List.forall_mem_map.2 h.columns
      skip := Option.forall_mem_map.2 h.skip
      take := Option.forall_mem_map.2 h.take
      sources := List.forall_mem_map.2 h.sources
      filter := Option.forall_mem_map.2 h.filter
      groupBy := List.forall_mem_map.2 h.groupBy
      having := Option.forall_mem_map.2 h.having
      orderBy := List.forall_mem_map.2 h.orderBy }

variable {d r} in
theorem Source.Each.rename {E : Expr → Prop} {Q : Query → Prop} {S : Source → Prop} {s : Source}
    (h : s.Each (fun e => E (e.rename d r)) (fun q => Q (q.rename d r))
      (fun s => S (s.rename d r))) : (s.rename d r).Each E Q S := by
  rw [rename_eq]
  refine ⟨fun q' hq' => ?_, List.forall_mem_map.2 h.joins,
    List.forall_mem_map.2 fun j hj => Option.forall_mem_map.2 (h.conditions j hj)⟩
  cases ho : s.origin with
  | table t => simp [ho, Origin.rename] at hq'
  | query q =>
    simp only [ho, Origin.rename, Origin.query.injEq] at hq'
    exact hq' ▸ h.origin q ho

theorem Source.withJoined_rename :
    ∀ s : Source, (s.rename d r).withJoined = s.withJoined.map (Source.rename d r) := by
  refine Source.joinInduction fun s ih => ?_
  rw [withJoined_eq, withJoined_eq s, List.map_cons, List.map_flatMap]
  congr 1
  rw [rename_eq, List.flatMap_map]
  exact List.flatMap_congr fun j hj => ih j hj

theorem Query.allSources_rename (q : Query) :
    (q.rename d r).allSources = q.allSources.map (Source.rename d r) := by
  rw [rename_eq]
  simp [allSources, List.flatMap_map, List.map_flatMap, Source.withJoined_rename]

theorem Query.opens_rename (q : Query) : (q.rename d r).opens = q.opens.map d.ident := by
  have hsource : ∀ s : Source, (s.rename d r).opens = s.opens.map d.ident := by
    intro s
    rw [Source.rename_eq]
    cases ho : s.origin <;> simp [Source.opens, Origin.rename, Renaming.ident, ho]
  simp [opens, allSources_rename, List.flatMap_map, List.map_flatMap, hsource]

end Lists

section Ids

variable (d r : Renaming)

variable {d r} in
theorem declaredIn_rename {o : Option Expr} (h : ∀ e ∈ o, (Node.expr (e.rename d r)).declared =
    (Node.expr e).declared.map d.ident) :
    Node.declaredIn (o.map (Expr.rename d r)) = (Node.declaredIn o).map d.ident := by
  cases o with
  | none => rfl
  | some e => simpa using h e rfl

/-- The ids that a renamed tree declares. -/
theorem Tree.declared_rename_closed :
    Tree.Closed (fun e => (Node.expr (e.rename d r)).declared = (Node.expr e).declared.map d.ident)
      (fun q => (Node.query (q.rename d r)).declared = (Node.query q).declared.map d.ident)
      (fun s => (Node.source (s.rename d r)).declared = (Node.source s).declared.map d.ident) where
  value _ _ := rfl
  parameter _ := rfl
  field _ := rfl
  column _ := rfl
  call name t args flags ih := by
    simpa [Expr.rename, List.flatMap_map, List.map_flatMap] using List.flatMap_congr ih
  binary op left right p t nullable hl hr := by simp [Expr.rename, hl, hr]
  raw format p args t ih := by
    simpa [Expr.rename, List.flatMap_map, List.map_flatMap] using List.flatMap_congr ih
  typeName _ := rfl
  subquery q ih := by simpa [Expr.rename] using ih
  existsRow q ih := by simpa [Expr.rename] using ih
  query q ih := by
    rw [Query.rename_eq, Node.declared_query, Node.declared_query]
    simp only [List.map_cons, List.map_append, List.flatMap_map, List.map_flatMap,
      declaredIn_rename ih.skip, declaredIn_rename ih.take, declaredIn_rename ih.filter,
      declaredIn_rename ih.having]
    rw [List.flatMap_congr ih.columns, List.flatMap_congr ih.sources, List.flatMap_congr ih.groupBy,
      List.flatMap_congr ih.orderBy]
    rfl
  source s ih := by
    have horigin : Node.declaredBy (s.origin.rename d r) =
        (Node.declaredBy s.origin).map d.ident := by
      cases ho : s.origin with
      | table t => rfl
      | query q => exact ih.origin q ho
    rw [Source.rename_eq, Node.declared_source, Node.declared_source]
    simp only [List.map_cons, List.map_append, List.flatMap_map, List.map_flatMap, horigin]
    rw [List.flatMap_congr fun j hj =>
      congrArg₂ (· ++ ·) (ih.joins j hj) (declaredIn_rename (ih.conditions j hj))]
    rfl

/-- The new names of the ids that a node declares are those of the references to them. -/
def Node.NamesAgree (n : Node) : Prop := ∀ i ∈ n.declares?, d.ident i = r.ident i

theorem Tree.inScope_rename_closed :
    Tree.Closed
      (fun e => (Node.expr e).All (Node.NamesAgree d r) → ∀ scope, (Node.expr e).InScope scope →
        (Node.expr (e.rename d r)).InScope (scope.map r.ident))
      (fun q => (Node.query q).All (Node.NamesAgree d r) → ∀ scope, (Node.query q).InScope scope →
        (Node.query (q.rename d r)).InScope (scope.map r.ident))
      (fun s => (Node.source s).All (Node.NamesAgree d r) → ∀ scope,
        (Node.source s).InScope scope →
          (Node.source (s.rename d r)).InScope (scope.map r.ident)) where
  value l t _ _ _ := Node.inScope_value l t
  parameter p _ _ _ := Node.inScope_parameter p
  field f _ scope h := by
    rw [Node.inScope_field] at h
    exact (Node.inScope_field _).2 (List.mem_map.2 ⟨_, h, rfl⟩)
  column c _ scope h := by
    rw [Node.inScope_columnRef] at h
    exact (Node.inScope_columnRef _).2 (List.mem_map.2 ⟨_, h, rfl⟩)
  call name t args flags ih hd scope h := by
    rw [Node.inScope_call] at h
    rw [Expr.rename, renameExprs_eq_map, Node.inScope_call, List.forall_mem_map]
    exact fun e he => ih e he (hd.arg e he) scope (h e he)
  binary op left right p t nullable hl hr hd scope h := by
    rw [Node.inScope_binary] at h
    exact (Node.inScope_binary ..).2 ⟨hl hd.left scope h.1, hr hd.right scope h.2⟩
  raw format p args t ih hd scope h := by
    rw [Node.inScope_raw] at h
    rw [Expr.rename, renameExprs_eq_map, Node.inScope_raw, List.forall_mem_map]
    exact fun e he => ih e he (hd.rawArg e he) scope (h e he)
  typeName t _ _ _ := Node.inScope_typeName t
  subquery q ih hd scope h :=
    (Node.inScope_subquery _).2 (ih hd.subquery scope ((Node.inScope_subquery q).1 h))
  existsRow q ih hd scope h :=
    (Node.inScope_existsRow _).2 (ih hd.existsRow scope ((Node.inScope_existsRow q).1 h))
  query q ih hd scope h := by
    -- The scope of the new query is the renamed one, by either renaming.
    have hopens : (q.rename d r).opens ++ scope.map r.ident =
        (q.opens ++ scope).map r.ident := by
      rw [q.opens_rename, List.map_append]
      congr 1
      exact List.map_congr_left fun i hi =>
        Node.all_declares_iff.1 hd i (q.opens_sublist_declared.subset hi)
    rw [Node.inScope_query] at h
    rw [Node.inScope_query, hopens]
    have hparts := (ih.mp hd.clauses).imp (fun e he => he (q.opens ++ scope))
      fun s hs => hs (q.opens ++ scope)
    exact (hparts.mp h).rename
  source s ih hd scope h := by
    rw [Node.inScope_source] at h
    rw [Node.inScope_source]
    have hparts := (ih.mp hd.parts).imp (fun e he => he scope) (fun q hq => hq scope)
      fun s hs => hs scope
    exact (hparts.mp h).rename

variable {d r}

/-- References stay in scope if the declared ids get the same names as the references to them. -/
theorem Expr.inScope_rename {e : Expr} (hd : ∀ i ∈ (Node.expr e).declared, d.ident i = r.ident i)
    {scope : List Ident} (h : (Node.expr e).InScope scope) :
    (Node.expr (e.rename d r)).InScope (scope.map r.ident) :=
  (Tree.inScope_rename_closed d r).onExpr e (Node.all_declares_iff.2 hd) scope h

theorem Query.inScope_rename {q : Query} {scope : List Ident} (h : (Node.query q).InScope scope) :
    (Node.query (q.rename r r)).InScope (scope.map r.ident) :=
  (Tree.inScope_rename_closed r r).onQuery q (Node.all_declares_iff.2 fun _ _ => rfl) scope h

end Ids

/-! References alone. -/

/-- The source with a function applied to all of its expressions, children first. -/
def Source.mapUp (f : Expr → Expr) (s : Source) : Source := (s.transform (.ofFun f)).run

section MapUp

variable (f : Expr → Expr)

theorem transformExprs_ofFun (es : List Expr) :
    (transformExprs (.ofFun f) es).run = es.map (Expr.mapUp f) := by
  rw [transformExprs_eq_mapM, List.idRun_mapM]
  rfl

theorem transformOptional_ofFun (o : Option Expr) :
    (transformOptional (.ofFun f) o).run = o.map (Expr.mapUp f) := by
  cases o <;> rfl

theorem transformColumns_ofFun (cs : List Column) :
    (transformColumns (.ofFun f) cs).run =
      cs.map fun c => { c with expr := c.expr.mapUp f } := by
  rw [transformColumns_eq_mapM, List.idRun_mapM]
  rfl

theorem transformSources_ofFun (ss : List Source) :
    (transformSources (.ofFun f) ss).run = ss.map (Source.mapUp f) := by
  rw [transformSources_eq_mapM, List.idRun_mapM]
  rfl

theorem transformOrder_ofFun (os : List OrderItem) :
    (transformOrder (.ofFun f) os).run = os.map fun o => { o with expr := o.expr.mapUp f } := by
  rw [transformOrder_eq_mapM, List.idRun_mapM]
  rfl

theorem transformJoins_ofFun (js : List Join) :
    (transformJoins (.ofFun f) js).run =
      js.map fun j => ⟨j.kind, j.source.mapUp f, j.condition.map (Expr.mapUp f)⟩ := by
  rw [transformJoins_eq_mapM, List.idRun_mapM]
  simp only [← transformOptional_ofFun]
  rfl

theorem Query.mapUp_eq (q : Query) :
    q.mapUp f = { q with
      columns := q.columns.map fun c => { c with expr := c.expr.mapUp f }
      skip := q.skip.map (Expr.mapUp f)
      take := q.take.map (Expr.mapUp f)
      sources := q.sources.map (Source.mapUp f)
      filter := q.filter.map (Expr.mapUp f)
      groupBy := q.groupBy.map (Expr.mapUp f)
      having := q.having.map (Expr.mapUp f)
      orderBy := q.orderBy.map fun o => { o with expr := o.expr.mapUp f } } := by
  cases q
  simp only [← transformColumns_ofFun, ← transformOptional_ofFun, ← transformSources_ofFun,
    ← transformExprs_ofFun, ← transformOrder_ofFun]
  rfl

theorem Source.mapUp_eq (s : Source) :
    s.mapUp f = { s with
      origin := (match s.origin with
        | .table t => .table t
        | .query q => .query (q.mapUp f))
      joins := s.joins.map fun j =>
        ⟨j.kind, j.source.mapUp f, j.condition.map (Expr.mapUp f)⟩ } := by
  cases s with
  | mk id origin aliasName joins =>
    simp only [← transformJoins_ofFun]
    cases origin <;> rfl

end MapUp

section Reference

variable (d r : Renaming)

/-- The references of a tree with renamed declarations are renamed without regard to those. -/
theorem Tree.mapUp_reference_closed :
    Tree.Closed (fun e => (e.rename d {}).mapUp r.reference = e.rename d r)
      (fun q => (q.rename d {}).mapUp r.reference = q.rename d r)
      (fun s => (s.rename d {}).mapUp r.reference = s.rename d r) where
  value _ _ := rfl
  parameter _ := rfl
  field _ := rfl
  column _ := rfl
  call name t args flags ih := by
    have hargs : (args.map (Expr.rename d {})).map (Expr.mapUp r.reference) =
        args.map (Expr.rename d r) := by
      simpa using ih
    simp only [Expr.rename, renameExprs_eq_map, ← hargs, ← transformExprs_ofFun]
    rfl
  binary op left right p t nullable hl hr := by
    simp only [Expr.rename, ← hl, ← hr]
    rfl
  raw format p args t ih := by
    have hargs : (args.map (Expr.rename d {})).map (Expr.mapUp r.reference) =
        args.map (Expr.rename d r) := by
      simpa using ih
    simp only [Expr.rename, renameExprs_eq_map, ← hargs, ← transformExprs_ofFun]
    rfl
  typeName _ := rfl
  subquery q ih := by
    simp only [Expr.rename, ← ih]
    rfl
  existsRow q ih := by
    simp only [Expr.rename, ← ih]
    rfl
  query q ih := by
    rw [Query.mapUp_eq, Query.rename_eq, Query.rename_eq]
    simp only [List.map_map, Option.map_map, Query.mk.injEq, true_and]
    refine ⟨List.map_congr_left fun c hc => ?_, Option.map_congr fun e he => ih.skip e he,
      Option.map_congr fun e he => ih.take e he, List.map_congr_left fun s hs => ih.sources s hs,
      Option.map_congr fun e he => ih.filter e he, List.map_congr_left fun e he => ih.groupBy e he,
      Option.map_congr fun e he => ih.having e he, List.map_congr_left fun o ho => ?_⟩
    · simpa using ih.columns c hc
    · simpa using ih.orderBy o ho
  source s ih := by
    rw [Source.mapUp_eq, Source.rename_eq, Source.rename_eq]
    simp only [List.map_map, Source.mk.injEq, true_and]
    refine ⟨?_, List.map_congr_left fun j hj => ?_⟩
    · cases ho : s.origin with
      | table t => rfl
      | query q => simp only [Origin.rename, ih.origin q ho]
    · simp only [Function.comp_apply, ih.joins j hj, Option.map_map, Join.mk.injEq, true_and]
      exact Option.map_congr fun e he => ih.conditions j hj e he

/-- Renaming by no entry changes nothing. -/
theorem Tree.rename_empty_closed :
    Tree.Closed (fun e => e.rename {} {} = e) (fun q => q.rename {} {} = q)
      (fun s => s.rename {} {} = s) where
  value _ _ := rfl
  parameter _ := rfl
  field _ := rfl
  column _ := rfl
  call name t args flags ih := by
    rw [Expr.rename, renameExprs_eq_map, (List.map_congr_left ih).trans (List.map_id args)]
  binary op left right p t nullable hl hr := by rw [Expr.rename, hl, hr]
  raw format p args t ih := by
    rw [Expr.rename, renameExprs_eq_map, (List.map_congr_left ih).trans (List.map_id args)]
  typeName _ := rfl
  subquery q ih := by rw [Expr.rename, ih]
  existsRow q ih := by rw [Expr.rename, ih]
  query q ih := by
    have hc : (q.columns.map fun c => { c with expr := c.expr.rename {} {} }) = q.columns :=
      (List.map_congr_left fun c hc => by rw [ih.columns c hc]; cases c; rfl).trans (List.map_id _)
    have ho : (q.orderBy.map fun o => { o with expr := o.expr.rename {} {} }) = q.orderBy :=
      (List.map_congr_left fun o ho => by rw [ih.orderBy o ho]; cases o; rfl).trans (List.map_id _)
    rw [Query.rename_eq, hc, ho, (Option.map_congr ih.skip).trans (Option.map_id_apply),
      (Option.map_congr ih.take).trans (Option.map_id_apply),
      (List.map_congr_left ih.sources).trans (List.map_id _),
      (Option.map_congr ih.filter).trans (Option.map_id_apply),
      (List.map_congr_left ih.groupBy).trans (List.map_id _),
      (Option.map_congr ih.having).trans (Option.map_id_apply)]
    cases q
    rfl
  source s ih := by
    have ho : s.origin.rename {} {} = s.origin := by
      cases h : s.origin with
      | table t => rfl
      | query q => rw [Origin.rename, ih.origin q h]
    have hj : (s.joins.map fun j =>
        (⟨j.kind, j.source.rename {} {}, j.condition.map (Expr.rename {} {})⟩ : Join)) =
          s.joins := by
      refine (List.map_congr_left fun j hj => ?_).trans (List.map_id _)
      rw [ih.joins j hj, (Option.map_congr (ih.conditions j hj)).trans (Option.map_id_apply)]
      cases j
      rfl
    rw [Source.rename_eq, ho, hj]
    cases s
    rfl

theorem Expr.mapUp_reference (e : Expr) : e.mapUp r.reference = e.rename {} r := by
  have h := (Tree.mapUp_reference_closed {} r).onExpr e
  rwa [Tree.rename_empty_closed.onExpr e] at h

theorem Query.mapUp_reference_rename (q : Query) :
    (q.rename d {}).mapUp r.reference = q.rename d r :=
  (Tree.mapUp_reference_closed d r).onQuery q

end Reference

end SqlTree

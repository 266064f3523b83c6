import SqlTree.Proofs.Refinement
import SqlTree.Proofs.Transform
import SqlTree.Proofs.Tree
import Mathlib.Data.List.Forall2

/-! # What transformations yield

A transformation runs in a monad: it may fail, or take ids as it goes. What is said of its results
is said in the same way for all of them, as a notion that passes from step to step. A relation
between a tree and what becomes of it is then shown for one node at a time, from the relation
between the parts.

Main definitions:

* `Outcome`: a notion of what a computation yields.
* `Expr.Aligned`, `Query.Aligned`, `Source.Aligned`, `Statement.Aligned`: two nodes of the same form
  with related parts.
* `Transform.Yields`: a transformation that yields related nodes from related parts.

Main statements:

* `Transform.Yields.onExpr`, `Transform.Yields.onQuery`, `Transform.Yields.onStatement`: it yields
  related trees.
-/

namespace SqlTree

/-- A notion of what a computation yields: it holds for a value that is returned, and it passes from
one step to the next. -/
structure Outcome (m : Type → Type) [Monad m] where
  Holds : {α : Type} → (α → Prop) → m α → Prop
  pure : ∀ {α : Type} {P : α → Prop} {a : α}, P a → Holds P (Pure.pure a)
  bind : ∀ {α β : Type} {P : α → Prop} {Q : β → Prop} {x : m α} {f : α → m β},
    Holds P x → (∀ a, P a → Holds Q (f a)) → Holds Q (x >>= f)

namespace Outcome

/-- The result of a computation without effects. -/
def result : Outcome Id where
  Holds P x := P x.run
  pure h := h
  bind h g := g _ h

/-- The results of a computation that may fail, if it succeeds. -/
def success (ε : Type) : Outcome (Except ε) where
  Holds P x := ∀ a, x = .ok a → P a
  pure h a ha := by
    cases ha
    exact h
  bind {_ _ _ _ x _} h g b hb := by
    cases x with
    | error e => cases hb
    | ok a => exact g a (h a rfl) b hb

/-- The result of a computation that succeeds. -/
def total (ε : Type) : Outcome (Except ε) where
  Holds P x := ∃ a, x = .ok a ∧ P a
  pure h := ⟨_, rfl, h⟩
  bind h g := by
    obtain ⟨a, rfl, ha⟩ := h
    exact g a ha

theorem exists_of_isOk {ε α : Type} {x : Except ε α} (h : x.isOk = true) : ∃ a, x = .ok a := by
  cases x with
  | error e => cases h
  | ok a => exact ⟨a, rfl⟩

/-- The results of a computation with a state, from each state. -/
def fromEach (σ : Type) : Outcome (StateM σ) where
  Holds P x := ∀ s, P (x.run s).1
  pure h _ := h
  bind h g s := g _ (h s) _

variable {m : Type → Type} [Monad m] [LawfulMonad m] (O : Outcome m) {α β : Type}

theorem mono {P P' : α → Prop} {x : m α} (h : O.Holds P x) (himp : ∀ a, P a → P' a) :
    O.Holds P' x := by
  rw [← bind_pure x]
  exact O.bind h fun a ha => O.pure (himp a ha)

theorem mapM {R : α → β → Prop} {f : α → m β} {xs : List α} (h : ∀ x ∈ xs, O.Holds (R x) (f x)) :
    O.Holds (List.Forall₂ R xs) (xs.mapM f) := by
  induction xs with
  | nil => exact O.pure .nil
  | cons x xs ih =>
    rw [List.mapM_cons]
    refine O.bind (h x List.mem_cons_self) fun y hy => ?_
    refine O.bind (ih fun z hz => h z (List.mem_cons_of_mem x hz)) fun ys hys => ?_
    exact O.pure (.cons hy hys)

end Outcome

/-! Nodes of the same form with related parts. -/

section Aligned

variable (RE : Expr → Expr → Prop) (RQ : Query → Query → Prop) (RS : Source → Source → Prop)

inductive Expr.Aligned : Expr → Expr → Prop
  | value (l : Literal) (t : DataType) : Aligned (.value l t) (.value l t)
  | parameter (p : Parameter) : Aligned (.parameter p) (.parameter p)
  | field (f : FieldRef) : Aligned (.field f) (.field f)
  | column (c : ColumnRef) : Aligned (.column c) (.column c)
  | call (name : String) (t : DataType) (flags : CallFlags) {args args' : List Expr}
      (hargs : List.Forall₂ RE args args') :
      Aligned (.call name t args flags) (.call name t args' flags)
  | binary (op : Operator) (p : Int) (t : DataType) (n : Bool) {l l' r r' : Expr} (hl : RE l l')
      (hr : RE r r') : Aligned (.binary op l r p t n) (.binary op l' r' p t n)
  | raw (format : String) (p : Int) (t : DataType) {args args' : List Expr}
      (hargs : List.Forall₂ RE args args') :
      Aligned (.raw format p args t) (.raw format p args' t)
  | typeName (t : DataType) : Aligned (.typeName t) (.typeName t)
  | subquery {q q' : Query} (hq : RQ q q') : Aligned (.subquery q) (.subquery q')
  | existsRow {q q' : Query} (hq : RQ q q') : Aligned (.existsRow q) (.existsRow q')

structure Query.Aligned (q q' : Query) : Prop where
  id : q'.id = q.id
  columns : List.Forall₂ (fun c c' => RE c.expr c'.expr ∧ c'.aliasName = c.aliasName) q.columns
    q'.columns
  distinct : q'.distinct = q.distinct
  skip : Option.Rel RE q.skip q'.skip
  take : Option.Rel RE q.take q'.take
  sources : List.Forall₂ RS q.sources q'.sources
  filter : Option.Rel RE q.filter q'.filter
  groupBy : List.Forall₂ RE q.groupBy q'.groupBy
  having : Option.Rel RE q.having q'.having
  orderBy : List.Forall₂ (fun o o' => RE o.expr o'.expr ∧ o'.desc = o.desc) q.orderBy q'.orderBy

inductive Origin.Aligned : Origin → Origin → Prop
  | table (t : Table) : Aligned (.table t) (.table t)
  | query {q q' : Query} (hq : RQ q q') : Aligned (.query q) (.query q')

structure Join.Aligned (j j' : Join) : Prop where
  kind : j'.kind = j.kind
  source : RS j.source j'.source
  condition : Option.Rel RE j.condition j'.condition

structure Source.Aligned (s s' : Source) : Prop where
  id : s'.id = s.id
  aliasName : s'.aliasName = s.aliasName
  origin : s.origin.Aligned RQ s'.origin
  joins : List.Forall₂ (Join.Aligned RE RS) s.joins s'.joins

structure SetItem.Aligned (i i' : SetItem) : Prop where
  column : i'.column = i.column
  expr : RE i.expr i'.expr

structure MergeOperation.Aligned (o o' : MergeOperation) : Prop where
  kind : o'.kind = o.kind
  condition : Option.Rel RE o.condition o'.condition
  items : List.Forall₂ (SetItem.Aligned RE) o.items o'.items

inductive Statement.Aligned : Statement → Statement → Prop
  | select {q q' : Query} (hq : RQ q q') : Aligned (.select q) (.select q')
  | insert (into : Table) {items items' : List SetItem} {q q' : Query}
      (hitems : List.Forall₂ (SetItem.Aligned RE) items items') (hq : RQ q q') :
      Aligned (.insert into items q) (.insert into items' q')
  | update (target : Option SourceId) {items items' : List SetItem} {q q' : Query}
      (hitems : List.Forall₂ (SetItem.Aligned RE) items items') (hq : RQ q q') :
      Aligned (.update target items q) (.update target items' q')
  | delete (target : Option SourceId) {q q' : Query} (hq : RQ q q') :
      Aligned (.delete target q) (.delete target q')
  | merge {target target' : Source} {q q' : Query} {on on' : Option Expr}
      {operations operations' : List MergeOperation} (htarget : RS target target') (hq : RQ q q')
      (hon : Option.Rel RE on on')
      (hoperations : List.Forall₂ (MergeOperation.Aligned RE) operations operations') :
      Aligned (.merge target q on operations) (.merge target' q' on' operations')
  | createTable (t : Table) : Aligned (.createTable t) (.createTable t)
  | dropTable (t : Table) (ifExists : Bool) :
      Aligned (.dropTable t ifExists) (.dropTable t ifExists)

end Aligned

theorem rel_self {α : Type} {R : α → α → Prop} (h : ∀ a, R a a) (o : Option α) :
    Option.Rel R o o := by
  cases o with
  | none => exact .none
  | some a => exact .some (h a)

/-! The relations the other way round. -/

section Flip

variable {RE : Expr → Expr → Prop} {RQ : Query → Query → Prop} {RS : Source → Source → Prop}

theorem rel_flip {α β : Type} {R : α → β → Prop} {o : Option α} {o' : Option β}
    (h : Option.Rel R o o') : Option.Rel (flip R) o' o := by
  cases h with
  | none => exact .none
  | some h => exact .some h

theorem Expr.Aligned.symm {e e' : Expr} (h : e.Aligned RE RQ e') :
    e'.Aligned (flip RE) (flip RQ) e := by
  cases h with
  | value l t => exact .value l t
  | parameter p => exact .parameter p
  | field f => exact .field f
  | column c => exact .column c
  | call name t flags hargs => exact .call name t flags hargs.flip
  | binary op p t n hl hr => exact .binary op p t n hl hr
  | raw format p t hargs => exact .raw format p t hargs.flip
  | typeName t => exact .typeName t
  | subquery hq => exact .subquery hq
  | existsRow hq => exact .existsRow hq

theorem Query.Aligned.symm {q q' : Query} (h : q.Aligned RE RS q') :
    q'.Aligned (flip RE) (flip RS) q where
  id := h.id.symm
  columns := (h.columns.imp fun _ _ hc => ⟨hc.1, hc.2.symm⟩).flip
  distinct := h.distinct.symm
  skip := rel_flip h.skip
  take := rel_flip h.take
  sources := h.sources.flip
  filter := rel_flip h.filter
  groupBy := h.groupBy.flip
  having := rel_flip h.having
  orderBy := (h.orderBy.imp fun _ _ ho => ⟨ho.1, ho.2.symm⟩).flip

theorem Source.Aligned.symm {s s' : Source} (h : s.Aligned RE RQ RS s') :
    s'.Aligned (flip RE) (flip RQ) (flip RS) s where
  id := h.id.symm
  aliasName := h.aliasName.symm
  origin := by
    have horigin := h.origin
    generalize s.origin = origin, s'.origin = origin' at horigin
    cases horigin with
    | table t => exact .table t
    | query hq => exact .query hq
  joins := (h.joins.imp fun _ _ hj => ⟨hj.kind.symm, hj.source, rel_flip hj.condition⟩).flip

theorem Statement.Aligned.symm {s s' : Statement} (h : s.Aligned RE RQ RS s') :
    s'.Aligned (flip RE) (flip RQ) (flip RS) s := by
  have hflip : ∀ {items items' : List SetItem}, List.Forall₂ (SetItem.Aligned RE) items items' →
      List.Forall₂ (SetItem.Aligned (flip RE)) items' items :=
    fun h => (h.imp fun _ _ hi => ⟨hi.column.symm, hi.expr⟩).flip
  cases h with
  | select hq => exact .select hq
  | insert into hitems hq => exact .insert into (hflip hitems) hq
  | update target hitems hq => exact .update target (hflip hitems) hq
  | delete target hq => exact .delete target hq
  | merge htarget hq hon hoperations =>
    refine .merge htarget hq (rel_flip hon) (hoperations.imp fun _ _ ho => ?_).flip
    exact ⟨ho.kind.symm, rel_flip ho.condition, hflip ho.items⟩
  | createTable t => exact .createTable t
  | dropTable t ifExists => exact .dropTable t ifExists

end Flip

/-! Weaker relations. -/

section Imp

variable {RE RE' : Expr → Expr → Prop} {RQ RQ' : Query → Query → Prop}
  {RS RS' : Source → Source → Prop}

theorem rel_imp {α : Type} {R R' : α → α → Prop} {o o' : Option α} (h : Option.Rel R o o')
    (himp : ∀ a ∈ o, ∀ a', R a a' → R' a a') : Option.Rel R' o o' := by
  cases h with
  | none => exact .none
  | some h => exact .some (himp _ rfl _ h)

theorem Expr.Aligned.imp {e e' : Expr} (h : e.Aligned RE RQ e') (hE : ∀ e e', RE e e' → RE' e e')
    (hQ : ∀ q q', RQ q q' → RQ' q q') : e.Aligned RE' RQ' e' := by
  cases h with
  | value l t => exact .value l t
  | parameter p => exact .parameter p
  | field f => exact .field f
  | column c => exact .column c
  | call name t flags hargs => exact .call name t flags (hargs.imp hE)
  | binary op p t n hl hr => exact .binary op p t n (hE _ _ hl) (hE _ _ hr)
  | raw format p t hargs => exact .raw format p t (hargs.imp hE)
  | typeName t => exact .typeName t
  | subquery hq => exact .subquery (hQ _ _ hq)
  | existsRow hq => exact .existsRow (hQ _ _ hq)

theorem Query.Aligned.imp {q q' : Query} (h : q.Aligned RE RS q')
    (himp : q.Each (fun e => ∀ e', RE e e' → RE' e e') (fun s => ∀ s', RS s s' → RS' s s')) :
    q.Aligned RE' RS' q' where
  id := h.id
  columns := forall₂_imp_of_mem h.columns fun c hc _ hcc => ⟨himp.columns c hc _ hcc.1, hcc.2⟩
  distinct := h.distinct
  skip := rel_imp h.skip himp.skip
  take := rel_imp h.take himp.take
  sources := forall₂_imp_of_mem h.sources himp.sources
  filter := rel_imp h.filter himp.filter
  groupBy := forall₂_imp_of_mem h.groupBy himp.groupBy
  having := rel_imp h.having himp.having
  orderBy := forall₂_imp_of_mem h.orderBy fun o ho _ hoo => ⟨himp.orderBy o ho _ hoo.1, hoo.2⟩

theorem Source.Aligned.imp {s s' : Source} (h : s.Aligned RE RQ RS s')
    (himp : s.Each (fun e => ∀ e', RE e e' → RE' e e') (fun q => ∀ q', RQ q q' → RQ' q q')
      (fun s => ∀ s', RS s s' → RS' s s')) : s.Aligned RE' RQ' RS' s' where
  id := h.id
  aliasName := h.aliasName
  origin := by
    have horigin := h.origin
    have hquery := himp.origin
    generalize s.origin = origin, s'.origin = origin' at horigin hquery
    cases horigin with
    | table t => exact .table t
    | query hq => exact .query (hquery _ rfl _ hq)
  joins := forall₂_imp_of_mem h.joins fun j hj _ hjj =>
    ⟨hjj.kind, himp.joins j hj _ hjj.source, rel_imp hjj.condition (himp.conditions j hj)⟩

theorem Statement.Aligned.imp {s s' : Statement} (h : s.Aligned RE RQ RS s')
    (hE : ∀ e e', RE e e' → RE' e e') (hQ : ∀ q q', RQ q q' → RQ' q q')
    (hS : ∀ s s', RS s s' → RS' s s') : s.Aligned RE' RQ' RS' s' := by
  have hitems : ∀ {items items' : List SetItem}, List.Forall₂ (SetItem.Aligned RE) items items' →
      List.Forall₂ (SetItem.Aligned RE') items items' :=
    fun h => h.imp fun _ _ hi => ⟨hi.column, hE _ _ hi.expr⟩
  have hoptional : ∀ {o o' : Option Expr}, Option.Rel RE o o' → Option.Rel RE' o o' :=
    fun h => rel_imp h fun e _ e' => hE e e'
  cases h with
  | select hq => exact .select (hQ _ _ hq)
  | insert into hall hq => exact .insert into (hitems hall) (hQ _ _ hq)
  | update target hall hq => exact .update target (hitems hall) (hQ _ _ hq)
  | delete target hq => exact .delete target (hQ _ _ hq)
  | merge htarget hq hon hoperations =>
    refine .merge (hS _ _ htarget) (hQ _ _ hq) (hoptional hon) (hoperations.imp fun _ _ ho => ?_)
    exact ⟨ho.kind, hoptional ho.condition, hitems ho.items⟩
  | createTable t => exact .createTable t
  | dropTable t ifExists => exact .dropTable t ifExists

end Imp

/-! Transformations. -/

variable {m : Type → Type} [Monad m] [LawfulMonad m]

/-- The actions on the clauses of a query yield related clauses. -/
structure QueryParts.Yield (O : Outcome m) (RE : Expr → Expr → Prop) (RS : Source → Source → Prop)
    (q : Query) (p : QueryParts m) : Prop where
  columns : O.Holds (List.Forall₂ (fun c c' => RE c.expr c'.expr ∧ c'.aliasName = c.aliasName)
    q.columns) p.columns
  skip : O.Holds (Option.Rel RE q.skip) p.skip
  take : O.Holds (Option.Rel RE q.take) p.take
  sources : O.Holds (List.Forall₂ RS q.sources) p.sources
  filter : O.Holds (Option.Rel RE q.filter) p.filter
  groupBy : O.Holds (List.Forall₂ RE q.groupBy) p.groupBy
  having : O.Holds (Option.Rel RE q.having) p.having
  orderBy : O.Holds (List.Forall₂ (fun o o' => RE o.expr o'.expr ∧ o'.desc = o.desc) q.orderBy)
    p.orderBy

omit [LawfulMonad m] in
theorem QueryParts.Yield.rebuild {O : Outcome m} {RE : Expr → Expr → Prop}
    {RS : Source → Source → Prop} {q : Query} {p : QueryParts m} (h : p.Yield O RE RS q) :
    O.Holds (q.Aligned RE RS) (p.rebuild q) := by
  refine O.bind h.columns fun cs hcs => O.bind h.skip fun sk hsk => O.bind h.take fun tk htk => ?_
  refine O.bind h.sources fun ss hss => O.bind h.filter fun f hf => O.bind h.groupBy fun g hg => ?_
  refine O.bind h.having fun v hv => O.bind h.orderBy fun os hos => O.pure ?_
  exact ⟨rfl, hcs, rfl, hsk, htk, hss, hf, hg, hv, hos⟩

/-- The transformation yields related nodes from related parts. -/
structure Transform.Yields (O : Outcome m) (t : Transform m) (RE : Expr → Expr → Prop)
    (RQ : Query → Query → Prop) (RS : Source → Source → Prop) : Prop where
  expr : ∀ {e e' : Expr}, e.Aligned RE RQ e' → O.Holds (RE e) (t.expr e')
  query : ∀ {q : Query} {p : QueryParts m}, p.Yield O RE RS q → O.Holds (RQ q) (t.query q p)
  source : ∀ {s s' : Source}, s.Aligned RE RQ RS s' → RS s s'

namespace Transform.Yields

variable {O : Outcome m} {t : Transform m} {RE : Expr → Expr → Prop} {RQ : Query → Query → Prop}
  {RS : Source → Source → Prop}

omit [LawfulMonad m] in
theorem optional {o : Option Expr} (h : ∀ e ∈ o, O.Holds (RE e) (e.transform t)) :
    O.Holds (Option.Rel RE o) (transformOptional t o) := by
  cases o with
  | none => exact O.pure .none
  | some e => exact O.bind (h e rfl) fun e' he => O.pure (.some he)

theorem exprs {es : List Expr} (h : ∀ e ∈ es, O.Holds (RE e) (e.transform t)) :
    O.Holds (List.Forall₂ RE es) (transformExprs t es) := by
  rw [transformExprs_eq_mapM]
  exact O.mapM h

theorem parts {q : Query}
    (h : q.Each (fun e => O.Holds (RE e) (e.transform t)) fun s => O.Holds (RS s) (s.transform t)) :
    QueryParts.Yield O RE RS q
      { columns := transformColumns t q.columns
        skip := transformOptional t q.skip
        take := transformOptional t q.take
        sources := transformSources t q.sources
        filter := transformOptional t q.filter
        groupBy := transformExprs t q.groupBy
        having := transformOptional t q.having
        orderBy := transformOrder t q.orderBy } where
  columns := by
    rw [transformColumns_eq_mapM]
    exact O.mapM fun c hc => O.bind (h.columns c hc) fun e he => O.pure ⟨he, rfl⟩
  skip := optional h.skip
  take := optional h.take
  sources := by
    rw [transformSources_eq_mapM]
    exact O.mapM h.sources
  filter := optional h.filter
  groupBy := exprs h.groupBy
  having := optional h.having
  orderBy := by
    rw [transformOrder_eq_mapM]
    exact O.mapM fun o ho => O.bind (h.orderBy o ho) fun e he => O.pure ⟨he, rfl⟩

theorem aligned {s : Source} (h : s.Each (fun e => O.Holds (RE e) (e.transform t))
    (fun q => O.Holds (RQ q) (q.transform t)) fun s => O.Holds (RS s) (s.transform t)) :
    O.Holds (s.Aligned RE RQ RS) (s.transform t) := by
  have horigin : O.Holds (s.origin.Aligned RQ) (s.origin.transform t) := by
    cases ho : s.origin with
    | table table => exact O.pure (.table table)
    | query q => exact O.bind (h.origin q ho) fun q' hq => O.pure (.query hq)
  have hjoins : O.Holds (List.Forall₂ (Join.Aligned RE RS) s.joins) (transformJoins t s.joins) := by
    rw [transformJoins_eq_mapM]
    refine O.mapM fun j hj => O.bind (h.joins j hj) fun source hsource => ?_
    exact O.bind (optional (h.conditions j hj)) fun c hc => O.pure ⟨rfl, hsource, hc⟩
  rw [Source.transform_eq]
  exact O.bind horigin fun origin ho => O.bind hjoins fun joins hj => O.pure ⟨rfl, rfl, ho, hj⟩

theorem closed (h : t.Yields O RE RQ RS) :
    Tree.Closed (fun e => O.Holds (RE e) (e.transform t)) (fun q => O.Holds (RQ q) (q.transform t))
      (fun s => O.Holds (RS s) (s.transform t)) where
  value l ty := h.expr (.value l ty)
  parameter p := h.expr (.parameter p)
  field f := h.expr (.field f)
  column c := h.expr (.column c)
  call name ty args flags ih := O.bind (exprs ih) fun _ hargs => h.expr (.call name ty flags hargs)
  binary op l r p ty n hl hr :=
    O.bind hl fun _ hl => O.bind hr fun _ hr => h.expr (.binary op p ty n hl hr)
  raw format p args ty ih := O.bind (exprs ih) fun _ hargs => h.expr (.raw format p ty hargs)
  typeName ty := h.expr (.typeName ty)
  subquery q ih := O.bind ih fun _ hq => h.expr (.subquery hq)
  existsRow q ih := O.bind ih fun _ hq => h.expr (.existsRow hq)
  query q ih := by
    rw [Query.transform_eq]
    exact h.query (parts ih)
  source s ih := O.mono (aligned ih) fun _ hs => h.source hs

theorem onExpr (h : t.Yields O RE RQ RS) (e : Expr) : O.Holds (RE e) (e.transform t) :=
  h.closed.onExpr e

theorem onQuery (h : t.Yields O RE RQ RS) (q : Query) : O.Holds (RQ q) (q.transform t) :=
  h.closed.onQuery q

theorem onSource (h : t.Yields O RE RQ RS) (s : Source) : O.Holds (RS s) (s.transform t) :=
  h.closed.onSource s

theorem onItems (h : t.Yields O RE RQ RS) (items : List SetItem) :
    O.Holds (List.Forall₂ (SetItem.Aligned RE) items) (items.mapM (SetItem.transform t)) :=
  O.mapM fun i _ => O.bind (h.onExpr i.expr) fun _ he => O.pure ⟨rfl, he⟩

theorem onOperations (h : t.Yields O RE RQ RS) (operations : List MergeOperation) :
    O.Holds (List.Forall₂ (MergeOperation.Aligned RE) operations)
      (operations.mapM (MergeOperation.transform t)) := by
  refine O.mapM fun o _ => O.bind (optional fun e _ => h.onExpr e) fun condition hcondition => ?_
  exact O.bind (h.onItems o.items) fun items hitems => O.pure ⟨rfl, hcondition, hitems⟩

/-- What a transformation makes of a statement has the same form and related parts. -/
theorem onStatement (h : t.Yields O RE RQ RS) (s : Statement) :
    O.Holds (s.Aligned RE RQ RS) (s.transform t) := by
  cases s with
  | select q => exact O.bind (h.onQuery q) fun _ hq => O.pure (.select hq)
  | insert into items q =>
    exact O.bind (h.onItems items) fun _ hitems => O.bind (h.onQuery q) fun _ hq =>
      O.pure (.insert into hitems hq)
  | update target items q =>
    exact O.bind (h.onItems items) fun _ hitems => O.bind (h.onQuery q) fun _ hq =>
      O.pure (.update target hitems hq)
  | delete target q => exact O.bind (h.onQuery q) fun _ hq => O.pure (.delete target hq)
  | merge target q on operations =>
    refine O.bind (h.onSource target) fun _ htarget => O.bind (h.onQuery q) fun _ hq => ?_
    refine O.bind (optional fun e _ => h.onExpr e) fun _ hon => ?_
    exact O.bind (h.onOperations operations) fun _ hoperations =>
      O.pure (.merge htarget hq hon hoperations)
  | createTable table => exact O.pure (.createTable table)
  | dropTable table ifExists => exact O.pure (.dropTable table ifExists)

end Transform.Yields

end SqlTree

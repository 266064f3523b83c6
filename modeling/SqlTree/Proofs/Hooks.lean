import SqlTree.Transform.Rules
import SqlTree.Proofs.Ident
import SqlTree.Proofs.Outcome

/-! # Walks with hooks meet the nodes in pre-order

The walk that reads a tree and the walk that rewrites it are written apart from each other, and
each lists all clauses. With hooks that put every node back, the second one meets the expressions
and queries that the first one meets, in the same order.

Main definitions:

* `Node.hooked`: the nodes at and below a node that hooks are called on.
* `Trace`: a notion of what a computation returns and of the nodes that it meets.
* `Hooks.Keeps`: hooks that put every node back.
* `Hooks.traced`: hooks that keep a list of the nodes they are entered with.

Main statements:

* `Trace.onStatement`: the walk over a statement meets its nodes in pre-order.
* `Hooks.onStatement_of_keeps`: hooks that put every node back leave the statement as it is and are
  entered once with each expression and query.
-/

namespace SqlTree

namespace Node

/-- Whether hooks are called on the node. -/
def hasHook : Node → Bool
  | .query _ => true
  | .expr _ => true
  | _ => false

/-- The nodes at and below the node that hooks are called on, in pre-order. -/
def hooked (n : Node) : List Node := n.preorder.filter hasHook

theorem hooked_eq (n : Node) :
    n.hooked = (if n.hasHook then [n] else []) ++ n.children.flatMap hooked := by
  unfold hooked
  rw [preorder_eq, List.filter_cons, List.filter_flatMap]
  cases n.hasHook <;> rfl

theorem hooked_of_hasHook {n : Node} (h : n.hasHook = true) :
    n.hooked = n :: n.children.flatMap hooked := by
  rw [hooked_eq, if_pos h]
  rfl

theorem hooked_of_not_hasHook {n : Node} (h : n.hasHook = false) :
    n.hooked = n.children.flatMap hooked := by
  rw [hooked_eq, h, if_neg Bool.false_ne_true, List.nil_append]

theorem children_weight_le (n : Node) {limit : Nat} (h : n.weight ≤ limit) :
    ∀ c ∈ n.children, c.weight ≤ limit :=
  fun _ hc => Nat.le_of_lt (Nat.lt_of_lt_of_le (weight_lt_of_mem_children hc) h)

theorem weight_pos (n : Node) : 0 < n.weight := by
  rw [weight, preorder_eq]
  exact Nat.succ_pos _

end Node

/-- A notion of what a computation returns and of the nodes that it meets: one that returns at once
meets none, and one step after the other meets the nodes of both. -/
structure Trace (m : Type → Type) [Monad m] where
  Holds : {α : Type} → α → List Node → m α → Prop
  pure : ∀ {α : Type} (a : α), Holds a [] (Pure.pure a)
  bind : ∀ {α β : Type} {a : α} {b : β} {ns ns' : List Node} {x : m α} {f : α → m β},
    Holds a ns x → Holds b ns' (f a) → Holds b (ns ++ ns') (x >>= f)

variable {m : Type → Type} [Monad m]

namespace Trace

/-- What a computation yields, whatever it meets. -/
def ofOutcome (O : Outcome m) : Trace m where
  Holds a _ x := O.Holds (· = a) x
  pure _ := O.pure rfl
  bind hx hf := O.bind hx fun _ ha => ha ▸ hf

/-- The nodes that a computation meets are those that it adds to a list. -/
def logged (O : Outcome m) : Trace (StateT (List Node) m) where
  Holds a ns x := ∀ log, O.Holds (· = (a, log ++ ns)) (x.run log)
  pure a log := O.pure (by simp)
  bind {_ _ a _ ns ns' x f} hx hf log := by
    rw [StateT.run_bind]
    refine O.bind (hx log) ?_
    rintro _ rfl
    simpa using hf (log ++ ns)

theorem logged_modify {O : Outcome m} (ns : List Node) :
    (logged O).Holds () ns (modify (· ++ ns)) :=
  fun _ => O.pure rfl

theorem logged_lift {O : Outcome m} {α : Type} {a : α} {x : m α} (h : O.Holds (· = a) x) :
    (logged O).Holds a [] (monadLift x) := by
  intro log
  rw [List.append_nil]
  exact O.bind h fun _ ha => O.pure (by rw [ha])

/-! From the parts of a node to the node. -/

variable (T : Trace m) {α β : Type}

/-- A result that is put together after a step. -/
theorem map {a : α} {ns : List Node} {x : m α} (h : T.Holds a ns x) (k : α → β) :
    T.Holds (k a) ns (x >>= fun a => Pure.pure (k a)) := by
  have hk := T.bind (f := fun a => Pure.pure (k a)) h (T.pure (k a))
  rwa [List.append_nil] at hk

theorem mapM [LawfulMonad m] {ns : α → List Node} {k : α → m α} {xs : List α}
    (h : ∀ x ∈ xs, T.Holds x (ns x) (k x)) : T.Holds xs (xs.flatMap ns) (xs.mapM k) := by
  induction xs with
  | nil => exact T.pure []
  | cons x xs ih =>
    rw [List.mapM_cons, List.flatMap_cons]
    have htail := ih fun y hy => h y (List.mem_cons_of_mem x hy)
    exact T.bind (h x List.mem_cons_self) (T.map htail (x :: ·))

/-- The actions on expressions and queries meet the nodes of all trees that are not too large. -/
structure Walks (limit : Nat) (f : Expr → m Expr) (g : Query → m Query) : Prop where
  expr : ∀ e, (Node.expr e).weight ≤ limit → T.Holds e (Node.expr e).hooked (f e)
  query : ∀ q, (Node.query q).weight ≤ limit → T.Holds q (Node.query q).hooked (g q)

namespace Walks

variable {T} {limit : Nat} {f : Expr → m Expr} {g : Query → m Query} (h : T.Walks limit f g)

include h

theorem optional {o : Option Expr} (ho : ∀ n ∈ Node.ofOption o, n.weight ≤ limit) :
    T.Holds o ((Node.ofOption o).flatMap Node.hooked) (Hooks.inOptional f o) := by
  cases o with
  | none => exact T.pure none
  | some e =>
    have hnodes : (Node.ofOption (some e)).flatMap Node.hooked = (Node.expr e).hooked :=
      List.flatMap_singleton ..
    rw [hnodes]
    exact T.map (h.expr e (ho _ (by simp [Node.ofOption]))) some

/-- The expression of a node that holds nothing else. -/
theorem only {n : Node} {e : Expr} (hn : n.hasHook = false) (hchildren : n.children = [.expr e])
    (hweight : n.weight ≤ limit) : T.Holds e n.hooked (f e) := by
  rw [Node.hooked_of_not_hasHook hn, hchildren, List.flatMap_singleton]
  exact h.expr e (n.children_weight_le hweight _ (by simp [hchildren]))

theorem joins {js : List Join} (hjs : ∀ n ∈ js.map Node.join, n.weight ≤ limit)
    (ih : ∀ j ∈ js, (Node.source j.source).weight ≤ limit →
      T.Holds j.source (Node.source j.source).hooked (Hooks.inSource f g j.source)) :
    T.Holds js ((js.map Node.join).flatMap Node.hooked) (Hooks.inJoins f g js) := by
  induction js with
  | nil => exact T.pure []
  | cons j js ihjs =>
    obtain ⟨hj, hjs⟩ := List.forall_mem_cons.1 hjs
    have htail := ihjs hjs fun j hj => ih j (List.mem_cons_of_mem _ hj)
    have hparts := Node.children_weight_le _ hj
    have hsource := ih j List.mem_cons_self
    cases j with
    | mk kind source condition =>
      simp only [Node.children, List.forall_mem_cons] at hparts hsource
      rw [List.map_cons, List.flatMap_cons, Node.hooked_of_not_hasHook rfl, Node.children,
        List.flatMap_cons, List.append_assoc, Hooks.inJoins]
      refine T.bind (hsource hparts.1) (T.bind (h.optional hparts.2) ?_)
      exact T.map htail (⟨kind, source, condition⟩ :: ·)

theorem source : ∀ s : Source, (Node.source s).weight ≤ limit →
    T.Holds s (Node.source s).hooked (Hooks.inSource f g s) := by
  refine Source.joinInduction fun s ih hweight => ?_
  have hparts := Node.children_weight_le _ hweight
  rw [Node.hooked_of_not_hasHook rfl]
  cases s with
  | mk id origin aliasName joins =>
    simp only [Node.children, List.forall_mem_cons] at hparts
    have hjoins := h.joins hparts.2 ih
    cases origin with
    | table t =>
      exact T.bind (T.pure (Origin.table t)) (T.map hjoins (Source.mk id (.table t) aliasName))
    | query q =>
      have horigin := T.map (h.query q hparts.1) Origin.query
      exact T.bind horigin (T.map hjoins (Source.mk id (.query q) aliasName))

variable [LawfulMonad m]

theorem exprs {es : List Expr} (hes : ∀ n ∈ es.map Node.expr, n.weight ≤ limit) :
    T.Holds es ((es.map Node.expr).flatMap Node.hooked) (es.mapM f) := by
  rw [List.flatMap_map]
  exact T.mapM fun e he => h.expr e (hes _ (List.mem_map_of_mem he))

theorem columns {cs : List Column} (hcs : ∀ n ∈ cs.map Node.column, n.weight ≤ limit) :
    T.Holds cs ((cs.map Node.column).flatMap Node.hooked) (cs.mapM (Hooks.inColumn f)) := by
  rw [List.flatMap_map]
  refine T.mapM fun c hc => ?_
  have hexpr := h.only rfl rfl (hcs _ (List.mem_map_of_mem hc))
  cases c with
  | mk expr aliasName => exact T.map hexpr (Column.mk · aliasName)

theorem order {os : List OrderItem} (hos : ∀ n ∈ os.map Node.order, n.weight ≤ limit) :
    T.Holds os ((os.map Node.order).flatMap Node.hooked) (os.mapM (Hooks.inOrderItem f)) := by
  rw [List.flatMap_map]
  refine T.mapM fun o ho => ?_
  have hexpr := h.only rfl rfl (hos _ (List.mem_map_of_mem ho))
  cases o with
  | mk expr desc => exact T.map hexpr (OrderItem.mk · desc)

theorem items {is : List SetItem} (his : ∀ n ∈ is.map Node.setItem, n.weight ≤ limit) :
    T.Holds is ((is.map Node.setItem).flatMap Node.hooked) (is.mapM (Hooks.inSetItem f)) := by
  rw [List.flatMap_map]
  refine T.mapM fun i hi => ?_
  exact T.map (h.only rfl rfl (his _ (List.mem_map_of_mem hi))) fun e => { i with expr := e }

theorem sources {ss : List Source} (hss : ∀ n ∈ ss.map Node.source, n.weight ≤ limit) :
    T.Holds ss ((ss.map Node.source).flatMap Node.hooked) (ss.mapM (Hooks.inSource f g)) := by
  rw [List.flatMap_map]
  exact T.mapM fun s hs => h.source s (hss _ (List.mem_map_of_mem hs))

theorem inExpr {e : Expr} (he : ∀ n ∈ (Node.expr e).children, n.weight ≤ limit) :
    T.Holds e ((Node.expr e).children.flatMap Node.hooked) (Hooks.inExpr f g e) := by
  cases e with
  | call name t args flags => exact T.map (h.exprs he) (Expr.call name t · flags)
  | raw format p args t => exact T.map (h.exprs he) (Expr.raw format p · t)
  | binary op left right p t nullable =>
    obtain ⟨hleft, hright⟩ := by simpa [Node.children] using he
    simp only [Node.children, List.flatMap_cons, List.flatMap_nil, List.append_nil]
    refine T.bind (h.expr left hleft) ?_
    exact T.map (h.expr right hright) (Expr.binary op left · p t nullable)
  | subquery q =>
    rw [Node.children, List.flatMap_singleton]
    exact T.map (h.query q (he _ List.mem_cons_self)) Expr.subquery
  | existsRow q =>
    rw [Node.children, List.flatMap_singleton]
    exact T.map (h.query q (he _ List.mem_cons_self)) Expr.existsRow
  | _ => exact T.pure _

theorem inQuery {q : Query} (hq : ∀ n ∈ (Node.query q).children, n.weight ≤ limit) :
    T.Holds q ((Node.query q).children.flatMap Node.hooked) (Hooks.inQuery f g q) := by
  cases q with
  | mk id columns distinct skip take sources filter groupBy having orderBy =>
    simp only [Node.children, List.forall_mem_append, and_assoc] at hq
    obtain ⟨hcolumns, hskip, htake, hsources, hfilter, hgroupBy, hhaving, horderBy⟩ := hq
    simp only [Node.children, List.flatMap_append, List.append_assoc]
    refine T.bind (h.columns hcolumns) (T.bind (h.optional hskip) (T.bind (h.optional htake) ?_))
    refine T.bind (h.sources hsources) (T.bind (h.optional hfilter) ?_)
    refine T.bind (h.exprs hgroupBy) (T.bind (h.optional hhaving) ?_)
    exact T.map (h.order horderBy)
      (Query.mk id columns distinct skip take sources filter groupBy having)

theorem operations {os : List MergeOperation}
    (hos : ∀ n ∈ os.map Node.mergeOperation, n.weight ≤ limit) :
    T.Holds os ((os.map Node.mergeOperation).flatMap Node.hooked) (os.mapM fun o => do
      return { o with condition := ← Hooks.inOptional f o.condition
                      items := ← o.items.mapM (Hooks.inSetItem f) }) := by
  rw [List.flatMap_map]
  refine T.mapM fun o ho => ?_
  have hparts := Node.children_weight_le _ (hos _ (List.mem_map_of_mem ho))
  simp only [Node.children, List.forall_mem_append] at hparts
  rw [Node.hooked_of_not_hasHook rfl, Node.children, List.flatMap_append]
  refine T.bind (h.optional hparts.1) ?_
  exact T.map (h.items hparts.2) fun items => { o with items }

end Walks

/-- A hook that comes before the children meets its node and goes on with it; one that comes after
them meets nothing. Both put the node back. -/
structure Enters (h : Hooks m) : Prop where
  enterExpr : ∀ e, T.Holds (.descend e) [.expr e] (h.enterExpr e)
  leaveExpr : ∀ e, T.Holds e [] (h.leaveExpr e)
  enterQuery : ∀ q, T.Holds (.descend q) [.query q] (h.enterQuery q)
  leaveQuery : ∀ q, T.Holds q [] (h.leaveQuery q)

variable {T} {h : Hooks m} [LawfulMonad m]

/-- The limit is not reached within a tree that is not larger. -/
theorem Enters.walks (hh : T.Enters h) (limit : Nat) :
    T.Walks limit (h.onExpr limit) (h.onQuery limit) := by
  induction limit with
  | zero =>
    refine ⟨fun e he => ?_, fun q hq => ?_⟩
    · exact absurd he (Nat.not_le_of_gt (Node.weight_pos _))
    · exact absurd hq (Nat.not_le_of_gt (Node.weight_pos _))
  | succ limit ih =>
    have hbelow : ∀ n : Node, n.weight ≤ limit + 1 → ∀ c ∈ n.children, c.weight ≤ limit := by
      intro n hn c hc
      have := Node.weight_lt_of_mem_children hc
      omega
    constructor
    · intro e he
      rw [Node.hooked_of_hasHook rfl, Hooks.onExpr]
      have hin := T.bind (ih.inExpr (hbelow _ he)) (hh.leaveExpr e)
      rw [List.append_nil] at hin
      exact T.bind (hh.enterExpr e) hin
    · intro q hq
      rw [Node.hooked_of_hasHook rfl, Hooks.onQuery]
      have hin := T.bind (ih.inQuery (hbelow _ hq)) (hh.leaveQuery q)
      rw [List.append_nil] at hin
      exact T.bind (hh.enterQuery q) hin

theorem onStatement (hh : T.Enters h) {s : Statement} {limit : Nat}
    (hlimit : (Node.statement s).weight ≤ limit) :
    T.Holds s (Node.statement s).hooked (h.onStatement limit s) := by
  have hw := hh.walks limit
  have hparts := Node.children_weight_le _ hlimit
  rw [Node.hooked_of_not_hasHook rfl]
  cases s with
  | select q =>
    rw [Node.children, List.flatMap_singleton]
    exact T.map (hw.query q (hparts _ List.mem_cons_self)) Statement.select
  | delete target q =>
    rw [Node.children, List.flatMap_singleton]
    exact T.map (hw.query q (hparts _ List.mem_cons_self)) (Statement.delete target)
  | insert into items q =>
    simp only [Node.children, List.forall_mem_cons, List.forall_mem_append] at hparts
    have htable : (Node.table into).hooked = [] := rfl
    simp only [Node.children, List.flatMap_cons, htable, List.nil_append, List.flatMap_append,
      List.flatMap_nil, List.append_nil]
    refine T.bind (hw.items hparts.2.1) ?_
    exact T.map (hw.query q hparts.2.2.1) (Statement.insert into items)
  | update target items q =>
    simp only [Node.children, List.forall_mem_cons, List.forall_mem_append] at hparts
    simp only [Node.children, List.flatMap_append, List.flatMap_singleton]
    refine T.bind (hw.items hparts.1) ?_
    exact T.map (hw.query q hparts.2.1) (Statement.update target items)
  | merge target q on operations =>
    simp only [Node.children, List.forall_mem_cons, List.forall_mem_append] at hparts
    obtain ⟨htarget, hq, hon, hoperations⟩ := hparts
    simp only [Node.children, List.flatMap_cons, List.flatMap_append]
    refine T.bind (hw.source target htarget) (T.bind (hw.query q hq) ?_)
    refine T.bind (hw.optional hon) ?_
    exact T.map (hw.operations hoperations) (Statement.merge target q on)
  | createTable t => exact T.pure _
  | dropTable t ifExists => exact T.pure _

end Trace

namespace Outcome

/-- What a computation with a state yields, which does not fail from any state. -/
def anyState (ε σ : Type) : Outcome (ExceptT ε (StateM σ)) where
  Holds P x := ∀ st, ∃ a st', x.run.run st = (.ok a, st') ∧ P a
  pure ha st := ⟨_, st, rfl, ha⟩
  bind {_ _ _ _ x f} hx hf st := by
    obtain ⟨a, st₁, hrun, ha⟩ := hx st
    obtain ⟨b, st₂, hrun', hb⟩ := hf a ha st₁
    refine ⟨b, st₂, ?_, hb⟩
    have hrest : (x >>= f).run.run st = (f a).run.run st₁ := by
      rw [ExceptT.run_bind, StateT.run_bind, hrun]
      rfl
    rw [hrest, hrun']

end Outcome

namespace Hooks

/-- Hooks that put every node back, go on with its children and do not fail. -/
structure Keeps (O : Outcome m) (h : Hooks m) : Prop where
  enterExpr : ∀ e, O.Holds (· = .descend e) (h.enterExpr e)
  leaveExpr : ∀ e, O.Holds (· = e) (h.leaveExpr e)
  enterQuery : ∀ q, O.Holds (· = .descend q) (h.enterQuery q)
  leaveQuery : ∀ q, O.Holds (· = q) (h.leaveQuery q)

/-- The same hooks, with a list of the nodes they are entered with. -/
def traced (h : Hooks m) : Hooks (StateT (List Node) m) where
  enterExpr e := do
    modify (· ++ [.expr e])
    h.enterExpr e
  leaveExpr e := h.leaveExpr e
  enterQuery q := do
    modify (· ++ [.query q])
    h.enterQuery q
  leaveQuery q := h.leaveQuery q

variable {O : Outcome m} {h : Hooks m}

theorem Keeps.enters (hkeeps : h.Keeps O) : (Trace.ofOutcome O).Enters h :=
  ⟨hkeeps.enterExpr, hkeeps.leaveExpr, hkeeps.enterQuery, hkeeps.leaveQuery⟩

theorem Keeps.enters_traced (hkeeps : h.Keeps O) : (Trace.logged O).Enters h.traced := by
  constructor
  · intro e
    have henter := Trace.logged_lift (hkeeps.enterExpr e)
    exact (Trace.logged O).bind (Trace.logged_modify [.expr e]) henter
  · exact fun e => Trace.logged_lift (hkeeps.leaveExpr e)
  · intro q
    have henter := Trace.logged_lift (hkeeps.enterQuery q)
    exact (Trace.logged O).bind (Trace.logged_modify [.query q]) henter
  · exact fun q => Trace.logged_lift (hkeeps.leaveQuery q)

/-- Hooks that put every node back leave the statement as it is, and they are entered with the
expressions and queries that the walk over the nodes meets, once each and in its order. -/
theorem onStatement_of_keeps {σ : Type} {h : Hooks (ExceptT Error (StateM σ))}
    (hkeeps : h.Keeps (.anyState Error σ)) {s : Statement} {limit : Nat}
    (hlimit : (Node.statement s).weight ≤ limit) (st : σ) :
    (∃ st', (h.onStatement limit s).run.run st = (.ok s, st')) ∧
      ∃ st', ((h.traced.onStatement limit s).run []).run.run st =
        (.ok (s, (Node.statement s).walk.filter Node.hasHook), st') := by
  constructor
  · obtain ⟨_, st', hrun, rfl⟩ := Trace.onStatement hkeeps.enters hlimit st
    exact ⟨st', hrun⟩
  · obtain ⟨_, st', hrun, rfl⟩ := Trace.onStatement hkeeps.enters_traced hlimit [] st
    rw [Node.walk_eq_preorder]
    exact ⟨st', hrun⟩

end Hooks

namespace Sample

def idOf (source : Nat) : Expr := .field { source := ⟨source⟩, name := "id", dataType := .int32 }

/-- Closes the accounts with a change while there is an audit, and opens the others. -/
def syncAccounts : Statement :=
  .merge { id := ⟨1⟩, origin := .table { name := "accounts" } }
    { id := ⟨1⟩, sources := [{ id := ⟨2⟩, origin := .table { name := "changes" } }] }
    (some (.eq (idOf 1) (idOf 2)))
    [{ kind := .update
       condition := some (.existsRow {
         id := ⟨2⟩
         sources := [{ id := ⟨3⟩, origin := .table { name := "audits" } }] })
       items := [⟨"state", .int 2⟩] },
     { kind := .insert, items := [⟨"id", idOf 2⟩, ⟨"state", .int 1⟩] }]

/-- No rule changes a node. -/
theorem keeps_hooks_nil : (Rules.hooks []).Keeps (.anyState Error (List String)) where
  enterExpr _ _ := ⟨_, _, rfl, rfl⟩
  leaveExpr _ _ := ⟨_, _, rfl, rfl⟩
  enterQuery _ _ := ⟨_, _, rfl, rfl⟩
  leaveQuery _ _ := ⟨_, _, rfl, rfl⟩

theorem onStatement_syncAccounts :
    (∃ log, (Rules.runStatement [] (Rules.hooks []) syncAccounts).run.run [] =
        (.ok syncAccounts, log)) ∧
      ∃ log, (((Rules.hooks []).traced.onStatement (Rules.limit [] (.statement syncAccounts))
          syncAccounts).run []).run.run [] =
        (.ok (syncAccounts, (Node.statement syncAccounts).walk.filter Node.hasHook), log) := by
  have hlimit : (Node.statement syncAccounts).weight ≤ Rules.limit [] (.statement syncAccounts) :=
    Nat.le_refl _
  exact Hooks.onStatement_of_keeps keeps_hooks_nil hlimit []

end Sample

end SqlTree

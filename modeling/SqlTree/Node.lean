import SqlTree.Statement

/-! # Nodes and walks

A node is a part of a tree of any kind. The nodes below a node are met in the order of the clauses,
each before the ones below it.

Main definitions:

* `Node`: a part of a tree.
* `Node.children`: the nodes directly below.
* `Node.preorder`: a node and all nodes below it.
* `Node.Walk`: a walk with a stack of nodes that are still to be met.
* `Node.walk`, `Node.visit`: the nodes that it yields.
* `Node.findAll`, `Node.count`, `Node.contains`: those that meet a condition.
* `Node.queryIds`, `Node.sourceIds`, `Node.referencedSources`, `Node.parameters`: what occurs below.
-/

namespace SqlTree

inductive Node where
  | statement (s : Statement)
  | query (q : Query)
  | column (c : Column)
  | source (s : Source)
  | join (j : Join)
  | table (t : Table)
  | order (o : OrderItem)
  | setItem (i : SetItem)
  | mergeOperation (o : MergeOperation)
  | expr (e : Expr)

namespace Node

/-- The node of an expression that may be missing. -/
def ofOption (e : Option Expr) : List Node := e.toList.map .expr

def children : Node → List Node
  | .statement s =>
    match s with
    | .select q => [.query q]
    | .insert into items q => .table into :: (items.map .setItem ++ [.query q])
    | .update _ items q => items.map .setItem ++ [.query q]
    | .delete _ q => [.query q]
    | .merge target q on operations =>
      .source target :: .query q :: (ofOption on ++ operations.map .mergeOperation)
    | .createTable t => [.table t]
    | .dropTable t _ => [.table t]
  | .query q =>
    q.columns.map .column ++ ofOption q.skip ++ ofOption q.take ++ q.sources.map .source ++
      ofOption q.filter ++ q.groupBy.map .expr ++ ofOption q.having ++ q.orderBy.map .order
  | .column c => [.expr c.expr]
  | .source s =>
    (match s.origin with
      | .table t => .table t
      | .query q => .query q) :: s.joins.map .join
  | .join j => .source j.source :: ofOption j.condition
  | .table _ => []
  | .order o => [.expr o.expr]
  | .setItem i => [.expr i.expr]
  | .mergeOperation o => ofOption o.condition ++ o.items.map .setItem
  | .expr e =>
    match e with
    | .call _ _ args _ => args.map .expr
    | .binary _ left right _ _ _ => [.expr left, .expr right]
    | .raw _ _ args _ => args.map .expr
    | .subquery q => [.query q]
    | .existsRow q => [.query q]
    | .value .. | .parameter _ | .field _ | .column _ | .typeName _ => []

/-! The nodes below a node, by recursion on the tree. -/

mutual

def ofExpr : Expr → List Node
  | .value l t => [.expr (.value l t)]
  | .parameter p => [.expr (.parameter p)]
  | .field f => [.expr (.field f)]
  | .column c => [.expr (.column c)]
  | .call n t args fs => .expr (.call n t args fs) :: ofExprs args
  | .binary o l r p t n => .expr (.binary o l r p t n) :: (ofExpr l ++ ofExpr r)
  | .raw f p args t => .expr (.raw f p args t) :: ofExprs args
  | .typeName t => [.expr (.typeName t)]
  | .subquery q => .expr (.subquery q) :: ofQuery q
  | .existsRow q => .expr (.existsRow q) :: ofQuery q

def ofExprs : List Expr → List Node
  | [] => []
  | e :: es => ofExpr e ++ ofExprs es

def ofOptional : Option Expr → List Node
  | none => []
  | some e => ofExpr e

def ofQuery : Query → List Node
  | ⟨i, cs, d, sk, tk, ss, f, g, h, o⟩ =>
    .query ⟨i, cs, d, sk, tk, ss, f, g, h, o⟩ ::
      (ofColumns cs ++ ofOptional sk ++ ofOptional tk ++ ofSources ss ++ ofOptional f ++
        ofExprs g ++ ofOptional h ++ ofOrder o)

def ofColumn : Column → List Node
  | ⟨e, a⟩ => .column ⟨e, a⟩ :: ofExpr e

def ofColumns : List Column → List Node
  | [] => []
  | c :: cs => ofColumn c ++ ofColumns cs

def ofSource : Source → List Node
  | ⟨i, o, a, js⟩ => .source ⟨i, o, a, js⟩ :: (ofOrigin o ++ ofJoins js)

def ofSources : List Source → List Node
  | [] => []
  | s :: ss => ofSource s ++ ofSources ss

def ofOrigin : Origin → List Node
  | .table t => [.table t]
  | .query q => ofQuery q

def ofJoin : Join → List Node
  | ⟨k, s, c⟩ => .join ⟨k, s, c⟩ :: (ofSource s ++ ofOptional c)

def ofJoins : List Join → List Node
  | [] => []
  | j :: js => ofJoin j ++ ofJoins js

def ofOrderItem : OrderItem → List Node
  | ⟨e, d⟩ => .order ⟨e, d⟩ :: ofExpr e

def ofOrder : List OrderItem → List Node
  | [] => []
  | o :: os => ofOrderItem o ++ ofOrder os

end

def ofSetItem (i : SetItem) : List Node := .setItem i :: ofExpr i.expr

def ofMergeOperation (o : MergeOperation) : List Node :=
  .mergeOperation o :: (ofOptional o.condition ++ o.items.flatMap ofSetItem)

def ofStatement (s : Statement) : List Node :=
  .statement s ::
    match s with
    | .select q => ofQuery q
    | .insert into items q => .table into :: (items.flatMap ofSetItem ++ ofQuery q)
    | .update _ items q => items.flatMap ofSetItem ++ ofQuery q
    | .delete _ q => ofQuery q
    | .merge target q on operations =>
      ofSource target ++ ofQuery q ++ ofOptional on ++ operations.flatMap ofMergeOperation
    | .createTable t => [.table t]
    | .dropTable t _ => [.table t]

/-- The node and all nodes below it, each before the ones below it. -/
def preorder : Node → List Node
  | .statement s => ofStatement s
  | .query q => ofQuery q
  | .column c => ofColumn c
  | .source s => ofSource s
  | .join j => ofJoin j
  | .table t => [.table t]
  | .order o => ofOrderItem o
  | .setItem i => ofSetItem i
  | .mergeOperation o => ofMergeOperation o
  | .expr e => ofExpr e

/-! The same walk with a stack. -/

/-- The number of nodes at and below a node. -/
def weight (n : Node) : Nat := n.preorder.length

theorem ofExprs_eq_flatMap (es : List Expr) : ofExprs es = es.flatMap ofExpr := by
  induction es with
  | nil => rfl
  | cons e es ih => simp [ofExprs, ih]

theorem ofColumns_eq_flatMap (cs : List Column) : ofColumns cs = cs.flatMap ofColumn := by
  induction cs with
  | nil => rfl
  | cons c cs ih => simp [ofColumns, ih]

theorem ofSources_eq_flatMap (ss : List Source) : ofSources ss = ss.flatMap ofSource := by
  induction ss with
  | nil => rfl
  | cons s ss ih => simp [ofSources, ih]

theorem ofJoins_eq_flatMap (js : List Join) : ofJoins js = js.flatMap ofJoin := by
  induction js with
  | nil => rfl
  | cons j js ih => simp [ofJoins, ih]

theorem ofOrder_eq_flatMap (os : List OrderItem) : ofOrder os = os.flatMap ofOrderItem := by
  induction os with
  | nil => rfl
  | cons o os ih => simp [ofOrder, ih]

theorem flatMap_ofOption (e : Option Expr) : (ofOption e).flatMap preorder = ofOptional e := by
  cases e <;> simp [ofOption, ofOptional, preorder]

/-- The nodes below a node are those at and below its children. -/
theorem preorder_eq (n : Node) : n.preorder = n :: n.children.flatMap preorder := by
  cases n with
  | statement s =>
    cases s <;>
      simp [preorder, children, ofStatement, List.flatMap_map, List.flatMap_append,
        flatMap_ofOption]
  | query q =>
    cases q
    simp [preorder, children, ofQuery, List.flatMap_map, List.flatMap_append, flatMap_ofOption,
      ofColumns_eq_flatMap, ofSources_eq_flatMap, ofExprs_eq_flatMap, ofOrder_eq_flatMap]
  | column c => cases c; simp [preorder, children, ofColumn]
  | source s =>
    cases s with
    | mk id origin aliasName joins =>
      cases origin <;>
        simp [preorder, children, ofSource, ofOrigin, ofJoins_eq_flatMap, List.flatMap_map]
  | join j => cases j; simp [preorder, children, ofJoin, flatMap_ofOption]
  | table t => simp [preorder, children]
  | order o => cases o; simp [preorder, children, ofOrderItem]
  | setItem i => simp [preorder, children, ofSetItem]
  | mergeOperation o =>
    simp [preorder, children, ofMergeOperation, List.flatMap_map, List.flatMap_append,
      flatMap_ofOption]
  | expr e =>
    cases e <;> simp [preorder, children, ofExpr, ofExprs_eq_flatMap, List.flatMap_map]

/-- A walk that is under way: the nodes that it goes on with, the next one on top. -/
structure Walk where
  stack : List Node

namespace Walk

def start (n : Node) : Walk := ⟨[n]⟩

/-- Put nodes on the stack one by one. The last of them is then on top. -/
def push (w : Walk) (ns : List Node) : Walk := ⟨ns.foldl (fun stack n => n :: stack) w.stack⟩

/-- The next node and the walk after it. The children are put on the stack from the last to the
first, so that they come out in their order. -/
def next? (w : Walk) : Option (Node × Walk) :=
  match w.stack with
  | [] => none
  | n :: stack => some (n, push ⟨stack⟩ n.children.reverse)

/-- The nodes that are still to be met. -/
def rest (w : Walk) : List Node := w.stack.flatMap preorder

theorem stack_push (w : Walk) (ns : List Node) : (w.push ns).stack = ns.reverse ++ w.stack := by
  simp [push]

theorem next?_eq_none {w : Walk} : w.next? = none ↔ w.stack = [] := by
  unfold next?
  split <;> simp [*]

theorem rest_of_next? {w w' : Walk} {n : Node} (h : w.next? = some (n, w')) :
    w.rest = n :: w'.rest := by
  unfold next? at h
  split at h
  · cases h
  · rename_i hstack
    cases h
    simp [rest, hstack, stack_push, preorder_eq n]

/-- All nodes that the walk yields. -/
def toList (w : Walk) : List Node :=
  match _h : w.next? with
  | none => []
  | some (n, w') => n :: w'.toList
termination_by w.rest.length
decreasing_by simp [rest_of_next? _h]

/-- Run an action on all nodes that the walk yields, on each before the next one is looked for. -/
def forEach {m : Type → Type} [Monad m] (w : Walk) (action : Node → m Unit) : m Unit :=
  match _h : w.next? with
  | none => return
  | some (n, w') => do
    action n
    w'.forEach action
termination_by w.rest.length
decreasing_by simp [rest_of_next? _h]

end Walk

/-- The node and all nodes below it, in the order in which a stack yields them. -/
def walk (n : Node) : List Node := (Walk.start n).toList

/-- Run an action on the node and on all nodes below it. -/
def visit {m : Type → Type} [Monad m] (n : Node) (action : Node → m Unit) : m Unit :=
  (Walk.start n).forEach action

/-- The nodes at and below the node that meet a condition. -/
def findAll (n : Node) (p : Node → Bool) : List Node := n.walk.filter p

/-- The number of nodes at and below the node that meet a condition. -/
def count (n : Node) (p : Node → Bool) : Nat := n.walk.countP p

/-- Whether the node or a node below it meets a condition. -/
def contains (n : Node) (p : Node → Bool) : Bool := n.walk.any p

/-! What occurs below a node. -/

def expr? : Node → Option Expr
  | .expr e => some e
  | _ => none

def query? : Node → Option Query
  | .query q => some q
  | _ => none

def source? : Node → Option Source
  | .source s => some s
  | _ => none

def parameter? : Node → Option Parameter
  | .expr (.parameter p) => some p
  | _ => none

def fieldRef? : Node → Option FieldRef
  | .expr (.field f) => some f
  | _ => none

/-- The ids of the queries at and below the node. -/
def queryIds (n : Node) : List QueryId := n.walk.filterMap fun m => m.query?.map (·.id)

/-- The ids of the sources at and below the node. -/
def sourceIds (n : Node) : List SourceId := n.walk.filterMap fun m => m.source?.map (·.id)

def parameters (n : Node) : List Parameter := n.walk.filterMap parameter?

/-- The sources that fields below the node refer to, in ascending order and each once. -/
def referencedSources (n : Node) : List SourceId :=
  let ids := n.walk.filterMap fun m => m.fieldRef?.map (·.source.val)
  (ids.mergeSort.eraseReps).map SourceId.mk

/-- Whether the node reads a field or the column of a nested query. -/
def isColumnReference : Node → Bool
  | .expr (.field _) => true
  | .expr (.column _) => true
  | _ => false

def isBoundParameter : Node → Bool
  | .expr (.parameter p) => p.isBound
  | _ => false

/-- Whether the node is a call of the function called `name`. -/
def isFunctionNamed (name : String) : Node → Bool
  | .expr e => e.isCallOf name
  | _ => false

end Node

/-- Whether the expression or a node below it meets a condition. -/
def Expr.contains (e : Expr) (p : Node → Bool) : Bool := (Node.expr e).contains p

end SqlTree

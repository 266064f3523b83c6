import SqlTree.Ids
import SqlTree.Proofs.Tree
import Mathlib.Data.List.Nodup

/-! # The ids of a tree

Main definitions:

* `Ident`: the id of a source or of a query.
* `Node.declared`, `Node.references`: the ids that a tree declares and those that it refers to.
* `Statement.Numbered`, `Statement.HasFreeIds`: a statement with distinct ids, and one after which
  ids can be taken.
* `Ids.next`: the next number of a kind.
* `Ident.Below`: the ids that are not given out any more.
* `Ids.Draws`: the ids of new trees are those of old ones or new.

Main statements:

* `Node.walk_eq_preorder`: the stack yields the nodes in pre-order.
* `Node.declared_nodup_iff`: no id is declared twice if neither a query id nor a source id is.
* `Ids.next_reserve_le_iff`: the next numbers after a tree are the first ones past its ids.
* `Ids.below_after`: the ids of a tree lie below the ids that are taken after it.
-/

namespace SqlTree

/-- The handle of a source or of a query. -/
inductive Ident where
  | source (id : SourceId)
  | query (id : QueryId)
deriving DecidableEq, Repr

namespace Ident

/-- Sources and queries are numbered apart. -/
inductive Kind where
  | source
  | query
deriving DecidableEq, Repr

def kind : Ident → Kind
  | .source _ => .source
  | .query _ => .query

def val : Ident → Nat
  | .source id => id.val
  | .query id => id.val

def source? : Ident → Option SourceId
  | .source id => some id
  | .query _ => none

def query? : Ident → Option QueryId
  | .source _ => none
  | .query id => some id

end Ident

namespace Node

/-- The id that a node declares. -/
def declares? : Node → Option Ident
  | .source s => some (.source s.id)
  | .query q => some (.query q.id)
  | _ => none

/-- The id that a node refers to. -/
def refersTo? : Node → Option Ident
  | .expr (.field f) => some (.source f.source)
  | .expr (.column c) => some (.query c.query)
  | _ => none

/-- What is found at a node comes before what is found below it. -/
theorem filterMap_preorder {α : Type} (f : Node → Option α) (n : Node) :
    n.preorder.filterMap f =
      (f n).toList ++ n.children.flatMap fun c => c.preorder.filterMap f := by
  rw [preorder_eq, List.filterMap_cons, List.filterMap_flatMap]
  cases f n <;> rfl

def declared (n : Node) : List Ident := n.preorder.filterMap declares?

def references (n : Node) : List Ident := n.preorder.filterMap refersTo?

theorem declared_eq (n : Node) :
    n.declared = n.declares?.toList ++ n.children.flatMap declared :=
  filterMap_preorder declares? n

theorem references_eq (n : Node) :
    n.references = n.refersTo?.toList ++ n.children.flatMap references :=
  filterMap_preorder refersTo? n

theorem all_declares_iff {M : Ident → Prop} {n : Node} :
    n.All (fun m => ∀ i ∈ m.declares?, M i) ↔ ∀ i ∈ n.declared, M i := by
  simp only [All, declared, List.mem_filterMap]
  constructor
  · rintro h i ⟨m, hm, hi⟩
    exact h m hm i hi
  · intro h m hm i hi
    exact h i ⟨m, hm, hi⟩

section

attribute [local simp] declares? children

@[simp] theorem declared_table (t : Table) : (Node.table t).declared = [] := rfl

@[simp] theorem declared_setItem (i : SetItem) :
    (Node.setItem i).declared = (Node.expr i.expr).declared := by
  simp [declared_eq (.setItem i)]

/-- The ids that an optional expression declares. -/
def declaredIn (e : Option Expr) : List Ident := (ofOption e).flatMap declared

@[simp] theorem declaredIn_none : declaredIn none = [] := rfl

@[simp] theorem declaredIn_some (e : Expr) : declaredIn (some e) = (Node.expr e).declared := by
  simp [declaredIn, ofOption]

@[simp] theorem declared_select (q : Query) :
    (Node.statement (.select q)).declared = (Node.query q).declared := by
  simp [declared_eq (.statement _)]

@[simp] theorem declared_insert (into : Table) (items : List SetItem) (q : Query) :
    (Node.statement (.insert into items q)).declared =
      (items.flatMap fun i => (Node.expr i.expr).declared) ++ (Node.query q).declared := by
  simp [declared_eq (.statement _), List.flatMap_map]

@[simp] theorem declared_update (target : Option SourceId) (items : List SetItem) (q : Query) :
    (Node.statement (.update target items q)).declared =
      (items.flatMap fun i => (Node.expr i.expr).declared) ++ (Node.query q).declared := by
  simp [declared_eq (.statement _), List.flatMap_map]

@[simp] theorem declared_delete (target : Option SourceId) (q : Query) :
    (Node.statement (.delete target q)).declared = (Node.query q).declared := by
  simp [declared_eq (.statement _)]

@[simp] theorem declared_mergeOperation (o : MergeOperation) :
    (Node.mergeOperation o).declared =
      declaredIn o.condition ++ o.items.flatMap fun i => (Node.expr i.expr).declared := by
  simp [declared_eq (.mergeOperation o), declaredIn, List.flatMap_map]

@[simp] theorem declared_merge (target : Source) (q : Query) (on : Option Expr)
    (operations : List MergeOperation) :
    (Node.statement (.merge target q on operations)).declared =
      (Node.source target).declared ++ ((Node.query q).declared ++
        (declaredIn on ++ operations.flatMap fun o => (Node.mergeOperation o).declared)) := by
  simp [declared_eq (.statement _), declaredIn, List.flatMap_map]

@[simp] theorem declared_column (c : Column) :
    (Node.column c).declared = (Node.expr c.expr).declared := by
  simp [declared_eq (.column c)]

@[simp] theorem declared_order (o : OrderItem) :
    (Node.order o).declared = (Node.expr o.expr).declared := by
  simp [declared_eq (.order o)]

@[simp] theorem declared_value (l : Literal) (t : DataType) :
    (Node.expr (.value l t)).declared = [] := rfl

@[simp] theorem declared_typeName (t : DataType) : (Node.expr (.typeName t)).declared = [] := rfl

@[simp] theorem declared_call (name : String) (t : DataType) (args : List Expr)
    (flags : CallFlags) : (Node.expr (.call name t args flags)).declared =
      args.flatMap fun e => (Node.expr e).declared := by
  simp [declared_eq (.expr (.call ..)), List.flatMap_map]

@[simp] theorem declared_binary (op : Operator) (l r : Expr) (p : Int) (t : DataType) (n : Bool) :
    (Node.expr (.binary op l r p t n)).declared =
      (Node.expr l).declared ++ (Node.expr r).declared := by
  simp [declared_eq (.expr (.binary ..))]

@[simp] theorem declared_raw (format : String) (p : Int) (args : List Expr) (t : DataType) :
    (Node.expr (.raw format p args t)).declared =
      args.flatMap fun e => (Node.expr e).declared := by
  simp [declared_eq (.expr (.raw ..)), List.flatMap_map]

@[simp] theorem declared_subquery (q : Query) :
    (Node.expr (.subquery q)).declared = (Node.query q).declared := by
  simp [declared_eq (.expr (.subquery q))]

@[simp] theorem declared_existsRow (q : Query) :
    (Node.expr (.existsRow q)).declared = (Node.query q).declared := by
  simp [declared_eq (.expr (.existsRow q))]

theorem declared_query (q : Query) :
    (Node.query q).declared =
      .query q.id :: ((q.columns.flatMap fun c => (Node.expr c.expr).declared) ++
        (declaredIn q.skip ++ (declaredIn q.take ++
          ((q.sources.flatMap fun s => (Node.source s).declared) ++ (declaredIn q.filter ++
            ((q.groupBy.flatMap fun e => (Node.expr e).declared) ++ (declaredIn q.having ++
              (q.orderBy.flatMap fun o => (Node.expr o.expr).declared)))))))) := by
  rw [declared_eq]
  simp [declaredIn, List.flatMap_map]

/-- The ids that the derived table of a source declares. -/
def declaredBy : Origin → List Ident
  | .table _ => []
  | .query q => (Node.query q).declared

theorem declared_source (s : Source) :
    (Node.source s).declared =
      .source s.id :: (declaredBy s.origin ++ s.joins.flatMap fun j =>
        (Node.source j.source).declared ++ declaredIn j.condition) := by
  have hjoin : ∀ j : Join, (Node.join j).declared =
      (Node.source j.source).declared ++ declaredIn j.condition := by
    intro j
    simp [declared_eq (.join j), declaredIn]
  rw [declared_eq]
  cases ho : s.origin with
  | table t =>
    simp [ho, declaredBy, declared_eq (.table t), List.flatMap_map, hjoin]
  | query q => simp [ho, declaredBy, List.flatMap_map, hjoin]

end

theorem declared_derived (id : SourceId) (q : Query) (aliasName : Option String) :
    (Node.source { id, origin := .query q, aliasName }).declared =
      .source id :: (Node.query q).declared := by
  rw [declared_source, declaredBy, List.flatMap_nil, List.append_nil]

@[simp] theorem Walk.rest_start (n : Node) : (Walk.start n).rest = n.preorder := by
  simp [rest, start]

theorem Walk.rest_of_next?_eq_none {w : Walk} (h : w.next? = none) : w.rest = [] := by
  simp [rest, next?_eq_none.1 h]

theorem Walk.toList_eq_rest (w : Walk) : w.toList = w.rest := by
  fun_induction toList w with
  | case1 w h => exact (rest_of_next?_eq_none h).symm
  | case2 w n w' h ih => rw [ih, rest_of_next? h]

theorem walk_eq_preorder (n : Node) : n.walk = n.preorder := by
  rw [walk, Walk.toList_eq_rest, Walk.rest_start]

theorem queryIds_eq (n : Node) : n.queryIds = n.declared.filterMap Ident.query? := by
  rw [queryIds, walk_eq_preorder, declared, List.filterMap_filterMap]
  refine List.filterMap_congr fun m _ => ?_
  cases m <;> rfl

theorem sourceIds_eq (n : Node) : n.sourceIds = n.declared.filterMap Ident.source? := by
  rw [sourceIds, walk_eq_preorder, declared, List.filterMap_filterMap]
  refine List.filterMap_congr fun m _ => ?_
  cases m <;> rfl

end Node

theorem Ident.nodup_iff (l : List Ident) :
    l.Nodup ↔ (l.filterMap query?).Nodup ∧ (l.filterMap source?).Nodup := by
  induction l with
  | nil => simp
  | cons i l ih =>
    cases i with
    | source id =>
      have hmem : SqlTree.Ident.source id ∈ l ↔ id ∈ l.filterMap source? := by
        rw [List.mem_filterMap]
        refine ⟨fun h => ⟨_, h, rfl⟩, ?_⟩
        rintro ⟨_ | _, h, hid⟩ <;> cases hid
        exact h
      simp [query?, source?, ih, hmem]
      tauto
    | query id =>
      have hmem : SqlTree.Ident.query id ∈ l ↔ id ∈ l.filterMap query? := by
        rw [List.mem_filterMap]
        refine ⟨fun h => ⟨_, h, rfl⟩, ?_⟩
        rintro ⟨_ | _, h, hid⟩ <;> cases hid
        exact h
      simp [query?, source?, ih, hmem]
      tauto

theorem Node.declared_nodup_iff (n : Node) :
    n.declared.Nodup ↔ n.queryIds.Nodup ∧ n.sourceIds.Nodup := by
  rw [Ident.nodup_iff, queryIds_eq, sourceIds_eq]

/-- No id is declared twice. -/
structure Statement.Numbered (s : Statement) : Prop where
  queryIds : (Node.statement s).queryIds.Nodup
  sourceIds : (Node.statement s).sourceIds.Nodup

/-- The ids are not used up: none is the largest, after which no id can be taken. -/
def Statement.HasFreeIds (s : Statement) : Prop :=
  ∀ i ∈ (Node.statement s).declared, i.val < maxId

instance (s : Statement) : Decidable s.HasFreeIds :=
  inferInstanceAs (Decidable (∀ i ∈ (Node.statement s).declared, i.val < maxId))

theorem Statement.Numbered.declared_nodup {s : Statement} (h : s.Numbered) :
    (Node.statement s).declared.Nodup :=
  (Node.declared_nodup_iff _).2 ⟨h.queryIds, h.sourceIds⟩

theorem Statement.Numbered.of_declared {s : Statement}
    (h : (Node.statement s).declared.Nodup) : s.Numbered := by
  obtain ⟨hqueries, hsources⟩ := (Node.declared_nodup_iff _).1 h
  exact ⟨hqueries, hsources⟩

/-! Ids in order. -/

/-- The id comes before those that are given out next. -/
def Ident.Below (ids : Ids) : Ident → Prop
  | .source id => id.val < ids.nextSource
  | .query id => id.val < ids.nextQuery

namespace Ids

instance : LE Ids := ⟨fun a b => a.nextQuery ≤ b.nextQuery ∧ a.nextSource ≤ b.nextSource⟩

theorem below_mono {a b : Ids} {i : Ident} (hi : i.Below a) (h : a ≤ b) : i.Below b := by
  cases i with
  | source id => exact Nat.lt_of_lt_of_le hi h.2
  | query id => exact Nat.lt_of_lt_of_le hi h.1

theorem le_refl (a : Ids) : a ≤ a := ⟨Nat.le_refl _, Nat.le_refl _⟩

theorem le_trans {a b c : Ids} (h : a ≤ b) (g : b ≤ c) : a ≤ c :=
  ⟨Nat.le_trans h.1 g.1, Nat.le_trans h.2 g.2⟩

theorem le_drawQuery (a : Ids) : a ≤ a.drawQuery.2 := ⟨Nat.le_succ _, Nat.le_refl _⟩

theorem le_drawSource (a : Ids) : a ≤ a.drawSource.2 := ⟨Nat.le_refl _, Nat.le_succ _⟩

theorem ne_drawSource {ids : Ids} {i : Ident} (h : i.Below ids) :
    i ≠ .source ids.drawSource.1 := by
  rintro rfl
  exact Nat.lt_irrefl _ h

theorem ne_drawQuery {ids : Ids} {i : Ident} (h : i.Below ids) : i ≠ .query ids.drawQuery.1 := by
  rintro rfl
  exact Nat.lt_irrefl _ h

/-- The next number of a kind. -/
def next (ids : Ids) : Ident.Kind → Nat
  | .source => ids.nextSource
  | .query => ids.nextQuery

theorem below_iff {ids : Ids} {i : Ident} : i.Below ids ↔ i.val < ids.next i.kind := by
  cases i <;> rfl

theorem succ_le_iff {id m : Nat} : succ id ≤ m ↔ id < m ∨ maxId ≤ m := by
  rw [succ]
  omega

theorem next_past_le_iff (ids : Ids) (n : Node) {k : Ident.Kind} {m : Nat} :
    (ids.past n).next k ≤ m ↔
      ids.next k ≤ m ∧ ∀ i ∈ n.declares?, i.kind = k → succ i.val ≤ m := by
  cases n <;> cases k <;>
    simp only [past, next, Node.declares?, Option.mem_def, Option.some.injEq, reduceCtorEq,
      forall_eq', Ident.kind, Ident.val, Nat.max_le, false_imp_iff, true_imp_iff, implies_true,
      and_true]

theorem reserve_eq_foldl (ids : Ids) (n : Node) : ids.reserve n = n.preorder.foldl past ids := by
  rw [reserve, Node.walk_eq_preorder]

/-- The next numbers after a tree, by what they are bounded by: those before it, and what comes
after each id that the tree declares. -/
theorem next_reserve_le_iff (ids : Ids) (n : Node) {k : Ident.Kind} {m : Nat} :
    (ids.reserve n).next k ≤ m ↔
      ids.next k ≤ m ∧ ∀ i ∈ n.declared, i.kind = k → succ i.val ≤ m := by
  rw [reserve_eq_foldl, Node.declared]
  generalize n.preorder = nodes
  induction nodes generalizing ids with
  | nil => simp
  | cons n nodes ih =>
    rw [List.foldl_cons, ih, next_past_le_iff, and_assoc]
    refine and_congr_right fun _ => ?_
    cases hn : n.declares? <;> simp [hn]

theorem below_reserve (ids : Ids) {n : Node} {i : Ident} (h : i ∈ n.declared)
    (hi : i.val < maxId) : i.Below (ids.reserve n) := by
  have hnext : succ i.val ≤ (ids.reserve n).next i.kind :=
    ((next_reserve_le_iff ids n).1 (Nat.le_refl _)).2 i h rfl
  rw [below_iff]
  rcases succ_le_iff.1 hnext with hlt | hle
  · exact hlt
  · exact Nat.lt_of_lt_of_le hi hle

/-- The ids of a tree lie below those that are taken after it, unless one of them is the largest. -/
theorem below_after {n : Node} (h : ∀ i ∈ n.declared, i.val < maxId) :
    ∀ i ∈ n.declared, i.Below (after n) :=
  fun i hi => below_reserve _ hi (h i hi)

/-- The ids of a new tree are those of an old one or taken on the way from one state to the
other. -/
structure Draws (old : List Ident) (ids ids' : Ids) (new : List Ident) : Prop where
  le : ids ≤ ids'
  nodup : new.Nodup
  mem : ∀ i ∈ new, i ∈ old ∨ (¬ i.Below ids ∧ i.Below ids')

theorem Draws.append {old old' new new' : List Ident} {ids ids' ids'' : Ids}
    (h : Draws old ids ids' new) (h' : Draws old' ids' ids'' new') (hdisjoint : old.Disjoint old')
    (hold : ∀ i ∈ old, i.Below ids) (hold' : ∀ i ∈ old', i.Below ids) :
    Draws (old ++ old') ids ids'' (new ++ new') where
  le := le_trans h.le h'.le
  nodup := by
    refine List.nodup_append'.2 ⟨h.nodup, h'.nodup, fun i hi hi' => ?_⟩
    rcases h.mem i hi, h'.mem i hi' with ⟨hm | ⟨hfresh, hbelow⟩, hm' | ⟨hfresh', -⟩⟩
    · exact hdisjoint hm hm'
    · exact hfresh' (below_mono (hold i hm) h.le)
    · exact hfresh (hold' i hm')
    · exact hfresh' hbelow
  mem i hi := by
    rcases List.mem_append.1 hi with hi | hi
    · rcases h.mem i hi with hm | ⟨hfresh, hbelow⟩
      · exact .inl (List.mem_append_left _ hm)
      · exact .inr ⟨hfresh, below_mono hbelow h'.le⟩
    · rcases h'.mem i hi with hm | ⟨hfresh, hbelow⟩
      · exact .inl (List.mem_append_right _ hm)
      · exact .inr ⟨fun hbelow' => hfresh (below_mono hbelow' h.le), hbelow⟩

end Ids

end SqlTree

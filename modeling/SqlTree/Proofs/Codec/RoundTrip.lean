import SqlTree.Proofs.Codec.Limits

/-! # Reading trees that were written

A tree within the limits of JSON is read from its JSON form as it was. What is not a number is the
exception: it is written as a name that is not read.

Main definitions:

* `Json.Rereads`: a value is read as it was written, with all fuel that suffices.
* `Node.Durable`: a node within the limits that is not a value without a number.

Main statements:

* `Table.ofJson?_toJson`, `Parameter.ofJson?_toJson`, `ColumnRef.ofJson?_toJson`: leaves.
* `Query.rereads_of_each`, `Source.rereads_of_each`: from the clauses to the whole.
* `Tree.rereads_closed`: trees of durable nodes.
* `Statement.ofJson?_toJson`: statements of durable nodes.
-/

namespace SqlTree

/-! Reading fields that were written. -/

namespace Json

variable {α : Type} {read : Json → Option α} {write : α → Json}

@[simp] theorem record?_object (names : List String) (fields : Fields) :
    record? names (.object fields) = some fields := rfl

theorem lookup_cons_of_ne {name name' : String} (h : name ≠ name') (j : Json) (fields : Fields) :
    List.lookup name ((name', j) :: fields) = fields.lookup name := by
  rw [List.lookup_cons, beq_eq_false_iff_ne.2 h]

@[simp] theorem required_cons (name name' : String) (j : Json) (fields : Fields) :
    required read ((name', j) :: fields) name =
      if name = name' then read j else required read fields name := by
  by_cases h : name = name' <;> simp [required, lookup_cons_of_ne, h]

@[simp] theorem defaulted_cons (absent : α) (name name' : String) (j : Json) (fields : Fields) :
    defaulted read absent ((name', j) :: fields) name =
      if name = name' then read j else defaulted read absent fields name := by
  by_cases h : name = name' <;> simp [defaulted, lookup_cons_of_ne, h]

/-- A value that may be `null`. -/
def nullable (read : Json → Option α) : Json → Option (Option α)
  | .null => some none
  | j => (read j).map some

@[simp] theorem optional_cons (name name' : String) (j : Json) (fields : Fields) :
    optional read ((name', j) :: fields) name =
      if name = name' then nullable read j else optional read fields name := by
  by_cases h : name = name'
  · subst h
    cases j <;> simp [optional, nullable]
  · simp [optional, lookup_cons_of_ne, h]

theorem nullable_ofOption {o : Option α} (hnull : ∀ a, write a ≠ .null)
    (h : ∀ a ∈ o, read (write a) = some a) : nullable read (ofOption write o) = some o := by
  cases o with
  | none => rfl
  | some a =>
    have hread : (read (write a)).map some = some (some a) := by rw [h a rfl, Option.map_some]
    unfold ofOption nullable
    split
    · exact absurd ‹_› (hnull a)
    · exact hread

@[simp] theorem nullable_string (o : Option String) :
    nullable string? (ofOption .string o) = some o :=
  nullable_ofOption (by simp) fun _ _ => rfl

theorem list?_map {as : List α} (h : ∀ a ∈ as, read (write a) = some a) :
    list? read (.array (as.map write)) = some as := by
  rw [list?, List.mapM_map]
  exact (mapM_eq_some h).trans (by rw [List.map_id'])

@[simp] theorem bool?_bool (b : Bool) : (bool b).bool? = some b := rfl

@[simp] theorem string?_string (s : String) : (string s).string? = some s := rfl

end Json

/-! Leaves. -/

theorem QueryId.ofJson?_toJson {id : QueryId} (h : id.Limited) : ofJson? id.toJson = some id := by
  rw [ofJson?, toJson, Json.natural?_nat h]
  rfl

theorem SourceId.ofJson?_toJson {id : SourceId} (h : id.Limited) :
    ofJson? id.toJson = some id := by
  rw [ofJson?, toJson, Json.natural?_nat h]
  rfl

theorem precedenceOfJson?_int {p : Int} (h : Precedence.Limited p) :
    precedenceOfJson? (.int p) = some p :=
  Json.bounded?_int h.1 h.2

@[simp] theorem Operator.ofJson?_toJson (o : Operator) : ofJson? o.toJson = some o :=
  Json.choice?_tag (by decide) (by cases o <;> decide)

@[simp] theorem JoinKind.ofJson?_toJson (k : JoinKind) : ofJson? k.toJson = some k :=
  Json.choice?_tag (by decide) (by cases k <;> decide)

@[simp] theorem MergeKind.ofJson?_toJson (k : MergeKind) : ofJson? k.toJson = some k :=
  Json.choice?_tag (by decide) (by cases k <;> decide)

theorem Field.ofJson?_toJson {f : Field} (h : f.Limited) : ofJson? f.toJson = some f := by
  have hordinal : Json.nullable (Json.natural? 65535) (.ofOption .nat f.keyOrdinal) =
      some f.keyOrdinal :=
    Json.nullable_ofOption (by simp [Json.nat, Json.int]) fun n hn => Json.natural?_nat (h n hn)
  simp [ofJson?, toJson, hordinal]

theorem Table.ofJson?_toJson {t : Table} (h : t.Limited) : ofJson? t.toJson = some t := by
  have hfields : Json.list? Field.ofJson? (.array (t.fields.map Field.toJson)) = some t.fields :=
    Json.list?_map fun f hf => Field.ofJson?_toJson (h f hf)
  simp [ofJson?, toJson, hfields]

theorem Parameter.ofJson?_toJson {p : Parameter} (h : p.value.Limited)
    (hnan : p.value.isNaN = false) : ofJson? p.toJson = some p := by
  simp [ofJson?, toJson, Literal.ofJson?_toJson h hnan]

theorem FieldRef.ofJson?_toJson {f : FieldRef} (h : f.source.Limited) :
    ofJson? f.toJson = some f := by
  simp [ofJson?, toJson, SourceId.ofJson?_toJson h]

theorem ColumnRef.ofJson?_toJson {c : ColumnRef} (h : c.Limited) : ofJson? c.toJson = some c := by
  have hindex := Json.natural?_nat h.index
  simp only [ofJson?, toJson, Json.record?_object, Json.required_cons, QueryId.ofJson?_toJson h.query,
    hindex, DataType.ofJson?_toJson, Option.bind_eq_bind, Option.bind_some, String.reduceEq,
    if_true, if_false, Option.pure_def]

@[simp] theorem CallFlags.ofJson?_toJson (f : CallFlags) : ofJson? f.toJson = some f := by
  simp [ofJson?, toJson]

/-! Trees. -/

theorem exprsToJson_eq_map (es : List Expr) : exprsToJson es = es.map Expr.toJson := by
  induction es with
  | nil => simp [exprsToJson]
  | cons e es ih => simp [exprsToJson, ih]

theorem columnsToJson_eq_map (cs : List Column) : columnsToJson cs = cs.map Column.toJson := by
  induction cs with
  | nil => simp [columnsToJson]
  | cons c cs ih => simp [columnsToJson, ih]

theorem sourcesToJson_eq_map (ss : List Source) : sourcesToJson ss = ss.map Source.toJson := by
  induction ss with
  | nil => simp [sourcesToJson]
  | cons s ss ih => simp [sourcesToJson, ih]

theorem joinsToJson_eq_map (js : List Join) : joinsToJson js = js.map Join.toJson := by
  induction js with
  | nil => simp [joinsToJson]
  | cons j js ih => simp [joinsToJson, ih]

theorem orderToJson_eq_map (os : List OrderItem) : orderToJson os = os.map OrderItem.toJson := by
  induction os with
  | nil => simp [orderToJson]
  | cons o os ih => simp [orderToJson, ih]

theorem optionalToJson_eq (o : Option Expr) : optionalToJson o = .ofOption Expr.toJson o := by
  cases o <;> simp [optionalToJson, Json.ofOption]

theorem Query.toJson_eq (q : Query) :
    q.toJson = .object [("id", q.id.toJson),
      ("select", .object [("columns", .array (q.columns.map Column.toJson)),
        ("distinct", .bool q.distinct), ("skip", .ofOption Expr.toJson q.skip),
        ("take", .ofOption Expr.toJson q.take)]),
      ("from", .array (q.sources.map Source.toJson)),
      ("where_clause", .ofOption Expr.toJson q.filter),
      ("group_by", .array (q.groupBy.map Expr.toJson)),
      ("having", .ofOption Expr.toJson q.having),
      ("order_by", .array (q.orderBy.map OrderItem.toJson))] := by
  cases q
  simp [toJson, optionalToJson_eq, exprsToJson_eq_map, columnsToJson_eq_map, sourcesToJson_eq_map,
    orderToJson_eq_map]

theorem Column.toJson_eq (c : Column) :
    c.toJson = .object [("expression", c.expr.toJson), ("alias", .ofOption .string c.aliasName)] := by
  cases c
  simp [toJson]

theorem Source.toJson_eq (s : Source) :
    s.toJson = .object [("id", s.id.toJson), ("origin", s.origin.toJson),
      ("alias", .ofOption .string s.aliasName), ("joins", .array (s.joins.map Join.toJson))] := by
  cases s
  simp [toJson, joinsToJson_eq_map]

theorem Join.toJson_eq (j : Join) :
    j.toJson = .object [("kind", j.kind.toJson), ("source", j.source.toJson),
      ("condition", .ofOption Expr.toJson j.condition)] := by
  cases j
  simp [toJson, optionalToJson_eq]

theorem OrderItem.toJson_eq (o : OrderItem) :
    o.toJson = .object [("expression", o.expr.toJson), ("desc", .bool o.desc)] := by
  cases o
  simp [toJson]

theorem Expr.toJson_ne_null (e : Expr) : e.toJson ≠ .null := by
  cases e <;> simp [toJson]

namespace Json

variable {α : Type} {read : Nat → Json → Option α} {write : α → Json}

/-- The value is read as it was written, with all fuel that suffices for its depth. -/
def Rereads (read : Nat → Json → Option α) (write : α → Json) (a : α) : Prop :=
  ∀ ⦃fuel⦄, (write a).depth ≤ fuel → read fuel (write a) = some a

theorem depth_le_itemsDepth {j : Json} {items : List Json} (hj : j ∈ items) :
    j.depth ≤ itemsDepth items := by
  induction items with
  | nil => cases hj
  | cons i items ih =>
    rw [itemsDepth]
    rcases List.mem_cons.1 hj with rfl | hj
    · exact Nat.le_max_left ..
    · exact Nat.le_trans (ih hj) (Nat.le_max_right ..)

theorem depth_le_fieldsDepth {f : String × Json} {fields : Fields} (hf : f ∈ fields) :
    f.2.depth ≤ fieldsDepth fields := by
  induction fields with
  | nil => cases hf
  | cons g fields ih =>
    rw [fieldsDepth]
    rcases List.mem_cons.1 hf with rfl | hf
    · exact Nat.le_max_left ..
    · exact Nat.le_trans (ih hf) (Nat.le_max_right ..)

/-- Reading an object takes one off the fuel, and what is left suffices for its fields. -/
theorem exists_fuel {fields : Fields} {fuel : Nat} (h : (object fields).depth ≤ fuel) :
    ∃ k, fuel = k + 1 ∧ ∀ f ∈ fields, f.2.depth ≤ k := by
  rw [depth] at h
  refine ⟨fuel - 1, by omega, fun f hf => ?_⟩
  have hle := depth_le_fieldsDepth hf
  omega

theorem Rereads.list {as : List α} (h : ∀ a ∈ as, Rereads read write a) {fuel : Nat}
    (hfuel : (array (as.map write)).depth ≤ fuel) :
    list? (read fuel) (.array (as.map write)) = some as := by
  refine list?_map fun a ha => h a ha ?_
  have hle := depth_le_itemsDepth (List.mem_map_of_mem (f := write) ha)
  rw [depth] at hfuel
  omega

theorem Rereads.option {o : Option α} (hnull : ∀ a, write a ≠ .null)
    (h : ∀ a ∈ o, Rereads read write a) {fuel : Nat} (hfuel : (ofOption write o).depth ≤ fuel) :
    nullable (read fuel) (ofOption write o) = some o := by
  refine nullable_ofOption hnull fun a ha => h a ha ?_
  rw [Option.mem_def.1 ha] at hfuel
  exact hfuel

end Json

open Json (Rereads exists_fuel)

namespace Node

/-- The node is a value that is not a number. -/
def isNaN : Node → Bool
  | .expr (.value l _) => l.isNaN
  | .expr (.parameter p) => p.value.isNaN
  | _ => false

/-- The node is within the limits, and not a value that is not a number. -/
structure Durable (n : Node) : Prop where
  limited : n.Limited
  isNaN : n.isNaN = false

end Node

abbrev Expr.Rereads (e : Expr) : Prop := Json.Rereads exprOfJson? toJson e

abbrev Query.Rereads (q : Query) : Prop := Json.Rereads queryOfJson? toJson q

abbrev Source.Rereads (s : Source) : Prop := Json.Rereads sourceOfJson? toJson s

/-! The types of trees are one family, so a record of the fields of a value is not the value by
definition. -/

theorem Column.eta (c : Column) : ⟨c.expr, c.aliasName⟩ = c := by
  cases c
  rfl

theorem OrderItem.eta (o : OrderItem) : ⟨o.expr, o.desc⟩ = o := by
  cases o
  rfl

theorem Join.eta (j : Join) : ⟨j.kind, j.source, j.condition⟩ = j := by
  cases j
  rfl

theorem Query.eta (q : Query) :
    ⟨q.id, q.columns, q.distinct, q.skip, q.take, q.sources, q.filter, q.groupBy, q.having,
      q.orderBy⟩ = q := by
  cases q
  rfl

theorem Source.eta (s : Source) : ⟨s.id, s.origin, s.aliasName, s.joins⟩ = s := by
  cases s
  rfl

/-! Reading trees. -/

theorem Column.rereads {c : Column} (h : c.expr.Rereads) : Rereads columnOfJson? toJson c := by
  intro fuel hfuel
  rw [toJson_eq] at hfuel
  obtain ⟨fuel, rfl, hdepth⟩ := exists_fuel hfuel
  have he : exprOfJson? fuel c.expr.toJson = some c.expr := h (hdepth _ List.mem_cons_self)
  simp [toJson_eq, columnOfJson?, he, eta]

theorem OrderItem.rereads {o : OrderItem} (h : o.expr.Rereads) : Rereads orderOfJson? toJson o := by
  intro fuel hfuel
  rw [toJson_eq] at hfuel
  obtain ⟨fuel, rfl, hdepth⟩ := exists_fuel hfuel
  have he : exprOfJson? fuel o.expr.toJson = some o.expr := h (hdepth _ List.mem_cons_self)
  simp [toJson_eq, orderOfJson?, he, eta]

theorem Join.rereads {j : Join} (hsource : j.source.Rereads)
    (hcondition : ∀ e ∈ j.condition, e.Rereads) : Rereads joinOfJson? toJson j := by
  intro fuel hfuel
  rw [toJson_eq] at hfuel
  obtain ⟨fuel, rfl, hdepth⟩ := exists_fuel hfuel
  simp only [List.forall_mem_cons] at hdepth
  have hs : sourceOfJson? fuel j.source.toJson = some j.source := hsource hdepth.2.1
  have hc : Json.nullable (exprOfJson? fuel) (.ofOption Expr.toJson j.condition) =
      some j.condition := Rereads.option Expr.toJson_ne_null hcondition hdepth.2.2.1
  simp [toJson_eq, joinOfJson?, hs, hc, eta]

theorem Origin.rereads {o : Origin} (htable : ∀ t, o = .table t → t.Limited)
    (hquery : ∀ q, o = .query q → q.Rereads) : Rereads originOfJson? toJson o := by
  intro fuel hfuel
  cases o with
  | table t =>
    rw [toJson] at hfuel
    obtain ⟨fuel, rfl, -⟩ := exists_fuel hfuel
    simp [toJson, originOfJson?, Table.ofJson?_toJson (htable t rfl)]
  | query q =>
    rw [toJson] at hfuel
    obtain ⟨fuel, rfl, hdepth⟩ := exists_fuel hfuel
    have hq : queryOfJson? fuel q.toJson = some q := hquery q rfl (hdepth _ List.mem_cons_self)
    simp [toJson, originOfJson?, hq]

theorem Query.rereads_of_each {q : Query} (hid : q.id.Limited)
    (h : q.Each Expr.Rereads Source.Rereads) : q.Rereads := by
  intro fuel hfuel
  rw [toJson_eq] at hfuel
  obtain ⟨fuel, rfl, hdepth⟩ := exists_fuel hfuel
  simp only [List.forall_mem_cons] at hdepth
  obtain ⟨-, hselectDepth, hfromDepth, hfilterDepth, hgroupDepth, hhavingDepth, horderDepth, -⟩ :=
    hdepth
  -- The columns and bounds are one step further down than the other clauses.
  obtain ⟨fuel, rfl, hdepth⟩ := exists_fuel hselectDepth
  simp only [List.forall_mem_cons] at hdepth
  obtain ⟨hcolumnsDepth, -, hskipDepth, htakeDepth, -⟩ := hdepth
  have hcolumns : Json.list? (columnOfJson? fuel) (.array (q.columns.map Column.toJson)) =
      some q.columns :=
    Rereads.list (fun c hc => Column.rereads (h.columns c hc)) hcolumnsDepth
  have hskip : Json.nullable (exprOfJson? fuel) (.ofOption Expr.toJson q.skip) = some q.skip :=
    Rereads.option Expr.toJson_ne_null h.skip hskipDepth
  have htake : Json.nullable (exprOfJson? fuel) (.ofOption Expr.toJson q.take) = some q.take :=
    Rereads.option Expr.toJson_ne_null h.take htakeDepth
  have hsources : Json.list? (sourceOfJson? (fuel + 1)) (.array (q.sources.map Source.toJson)) =
      some q.sources := Rereads.list h.sources hfromDepth
  have hfilter : Json.nullable (exprOfJson? (fuel + 1)) (.ofOption Expr.toJson q.filter) =
      some q.filter :=
    Rereads.option Expr.toJson_ne_null h.filter hfilterDepth
  have hgroupBy : Json.list? (exprOfJson? (fuel + 1)) (.array (q.groupBy.map Expr.toJson)) =
      some q.groupBy := Rereads.list h.groupBy hgroupDepth
  have hhaving : Json.nullable (exprOfJson? (fuel + 1)) (.ofOption Expr.toJson q.having) =
      some q.having := Rereads.option Expr.toJson_ne_null h.having hhavingDepth
  have horderBy : Json.list? (orderOfJson? (fuel + 1)) (.array (q.orderBy.map OrderItem.toJson)) =
      some q.orderBy :=
    Rereads.list (fun o ho => OrderItem.rereads (h.orderBy o ho)) horderDepth
  simp [toJson_eq, queryOfJson?, selectOfJson?, QueryId.ofJson?_toJson hid, hcolumns, hskip, htake,
    hsources, hfilter, hgroupBy, hhaving, horderBy, eta]

theorem Source.rereads_of_each {s : Source} (hid : s.id.Limited)
    (htable : ∀ t, s.origin = .table t → t.Limited)
    (h : s.Each Expr.Rereads Query.Rereads Source.Rereads) : s.Rereads := by
  intro fuel hfuel
  rw [toJson_eq] at hfuel
  obtain ⟨fuel, rfl, hdepth⟩ := exists_fuel hfuel
  simp only [List.forall_mem_cons] at hdepth
  obtain ⟨-, horiginDepth, -, hjoinsDepth, -⟩ := hdepth
  have horigin : originOfJson? fuel s.origin.toJson = some s.origin :=
    Origin.rereads htable h.origin horiginDepth
  have hjoins : Json.list? (joinOfJson? fuel) (.array (s.joins.map Join.toJson)) = some s.joins :=
    Rereads.list (fun j hj => Join.rereads (h.joins j hj) (h.conditions j hj)) hjoinsDepth
  simp [toJson_eq, sourceOfJson?, SourceId.ofJson?_toJson hid, horigin, hjoins, eta]

namespace Expr

/-- An expression is an object with its kind as the only field. -/
theorem exists_toJson (e : Expr) : ∃ tag body, e.toJson = .object [(tag, body)] := by
  cases e <;> exact ⟨_, _, by rw [toJson]⟩

theorem rereads_leaf {e : Expr} (h : ∀ fuel, exprOfJson? (fuel + 1) e.toJson = some e) :
    e.Rereads := by
  intro fuel hfuel
  obtain ⟨tag, body, hjson⟩ := e.exists_toJson
  obtain ⟨fuel, rfl, -⟩ := exists_fuel (hjson ▸ hfuel)
  exact h fuel

theorem rereads_call {name : String} {t : DataType} {args : List Expr} {flags : CallFlags}
    (h : ∀ e ∈ args, e.Rereads) : (call name t args flags).Rereads := by
  intro fuel hfuel
  rw [toJson, exprsToJson_eq_map] at hfuel
  obtain ⟨fuel, rfl, hbody⟩ := exists_fuel hfuel
  obtain ⟨k, rfl, hdepth⟩ := exists_fuel (hbody _ List.mem_cons_self)
  simp only [List.forall_mem_cons] at hdepth
  have hargs : Json.list? (exprOfJson? (k + 1)) (.array (args.map toJson)) = some args :=
    Json.Rereads.list h (Nat.le_succ_of_le hdepth.2.2.1)
  simp [toJson, exprOfJson?, exprsToJson_eq_map, hargs]

theorem rereads_binary {op : Operator} {l r : Expr} {p : Int} {t : DataType} {n : Bool}
    (hp : Precedence.Limited p) (hl : l.Rereads) (hr : r.Rereads) :
    (binary op l r p t n).Rereads := by
  intro fuel hfuel
  rw [toJson] at hfuel
  obtain ⟨fuel, rfl, hbody⟩ := exists_fuel hfuel
  obtain ⟨k, rfl, hdepth⟩ := exists_fuel (hbody _ List.mem_cons_self)
  simp only [List.forall_mem_cons] at hdepth
  have hleft : exprOfJson? (k + 1) l.toJson = some l :=
    hl (Nat.le_succ_of_le hdepth.1)
  have hright : exprOfJson? (k + 1) r.toJson = some r :=
    hr (Nat.le_succ_of_le hdepth.2.2.1)
  simp [toJson, exprOfJson?, hleft, hright, precedenceOfJson?_int hp]

theorem rereads_raw {format : String} {p : Int} {args : List Expr} {t : DataType}
    (hp : Precedence.Limited p) (h : ∀ e ∈ args, e.Rereads) : (raw format p args t).Rereads := by
  intro fuel hfuel
  rw [toJson, exprsToJson_eq_map] at hfuel
  obtain ⟨fuel, rfl, hbody⟩ := exists_fuel hfuel
  obtain ⟨k, rfl, hdepth⟩ := exists_fuel (hbody _ List.mem_cons_self)
  simp only [List.forall_mem_cons] at hdepth
  have hargs : Json.list? (exprOfJson? (k + 1)) (.array (args.map toJson)) = some args :=
    Json.Rereads.list h (Nat.le_succ_of_le hdepth.2.2.1)
  simp [toJson, exprOfJson?, exprsToJson_eq_map, hargs, precedenceOfJson?_int hp]

theorem rereads_subquery {q : Query} (h : q.Rereads) : (subquery q).Rereads := by
  intro fuel hfuel
  rw [toJson] at hfuel
  obtain ⟨fuel, rfl, hbody⟩ := exists_fuel hfuel
  have hq : queryOfJson? fuel q.toJson = some q := h (hbody _ List.mem_cons_self)
  simp [toJson, exprOfJson?, hq]

theorem rereads_existsRow {q : Query} (h : q.Rereads) : (existsRow q).Rereads := by
  intro fuel hfuel
  rw [toJson] at hfuel
  obtain ⟨fuel, rfl, hbody⟩ := exists_fuel hfuel
  have hq : queryOfJson? fuel q.toJson = some q := h (hbody _ List.mem_cons_self)
  simp [toJson, exprOfJson?, hq]

end Expr

/-- Trees of durable nodes are read as they were written. -/
theorem Tree.rereads_closed :
    Tree.Closed (fun e => (Node.expr e).All Node.Durable → e.Rereads)
      (fun q => (Node.query q).All Node.Durable → q.Rereads)
      (fun s => (Node.source s).All Node.Durable → s.Rereads) where
  value l t h := Expr.rereads_leaf fun fuel => by
    simp [Expr.toJson, exprOfJson?, Literal.ofJson?_toJson h.self.limited h.self.isNaN]
  parameter p h := Expr.rereads_leaf fun fuel => by
    simp [Expr.toJson, exprOfJson?, Parameter.ofJson?_toJson h.self.limited h.self.isNaN]
  field f h := Expr.rereads_leaf fun fuel => by
    simp [Expr.toJson, exprOfJson?, FieldRef.ofJson?_toJson h.self.limited]
  column c h := Expr.rereads_leaf fun fuel => by
    simp [Expr.toJson, exprOfJson?, ColumnRef.ofJson?_toJson h.self.limited]
  call _ _ _ _ ih h := Expr.rereads_call fun e he => ih e he (h.arg e he)
  binary _ _ _ _ _ _ ihl ihr h :=
    Expr.rereads_binary h.self.limited (ihl h.left) (ihr h.right)
  raw _ _ _ _ ih h := Expr.rereads_raw h.self.limited fun e he => ih e he (h.rawArg e he)
  typeName t _ := Expr.rereads_leaf fun fuel => by simp [Expr.toJson, exprOfJson?]
  subquery _ ih h := Expr.rereads_subquery (ih h.subquery)
  existsRow _ ih h := Expr.rereads_existsRow (ih h.existsRow)
  query q ih h := Query.rereads_of_each h.self.limited (ih.mp h.clauses)
  source s ih h := by
    refine Source.rereads_of_each h.self.limited (fun t ht => ?_) (ih.mp h.parts)
    have htable : (Node.table t).All Node.Durable :=
      h.child (by simp [Node.children_source, ht, Node.ofSourceOrigin])
    exact htable.self.limited

theorem Expr.ofJson?_toJson {e : Expr} (h : (Node.expr e).All Node.Durable) :
    ofJson? e.toJson = some e :=
  Tree.rereads_closed.onExpr e h (Nat.le_refl _)

theorem Query.ofJson?_toJson {q : Query} (h : (Node.query q).All Node.Durable) :
    ofJson? q.toJson = some q :=
  Tree.rereads_closed.onQuery q h (Nat.le_refl _)

theorem Source.ofJson?_toJson {s : Source} (h : (Node.source s).All Node.Durable) :
    ofJson? s.toJson = some s :=
  Tree.rereads_closed.onSource s h (Nat.le_refl _)

/-! Statements. -/

theorem SetItem.ofJson?_toJson {i : SetItem} (h : (Node.setItem i).All Node.Durable) :
    ofJson? i.toJson = some i := by
  have he : (Node.expr i.expr).All Node.Durable := h.child (by simp [Node.children])
  simp [ofJson?, toJson, Expr.ofJson?_toJson he]

theorem SetItem.list?_toJson {items : List SetItem}
    (h : ∀ i ∈ items, (Node.setItem i).All Node.Durable) :
    Json.list? ofJson? (.array (items.map toJson)) = some items :=
  Json.list?_map fun i hi => ofJson?_toJson (h i hi)

theorem Expr.nullable_toJson {o : Option Expr} (h : ∀ e ∈ o, (Node.expr e).All Node.Durable) :
    Json.nullable ofJson? (optionalToJson o) = some o := by
  rw [optionalToJson_eq]
  exact Json.nullable_ofOption toJson_ne_null fun e he => ofJson?_toJson (h e he)

theorem SourceId.nullable_toJson {o : Option SourceId} (h : ∀ id ∈ o, id.Limited) :
    Json.nullable ofJson? (.ofOption toJson o) = some o :=
  Json.nullable_ofOption (by simp [toJson, Json.nat, Json.int]) fun id hid =>
    ofJson?_toJson (h id hid)

theorem MergeOperation.ofJson?_toJson {o : MergeOperation}
    (h : (Node.mergeOperation o).All Node.Durable) : ofJson? o.toJson = some o := by
  have hcondition := Expr.nullable_toJson (o := o.condition) fun e he =>
    h.child (by simp [Node.children, Node.ofOption, Option.mem_def.1 he])
  have hitems : Json.list? SetItem.ofJson? (.array (o.items.map SetItem.toJson)) = some o.items :=
    SetItem.list?_toJson fun i hi => h.child (by simp [Node.children, hi])
  simp [ofJson?, toJson, hcondition, hitems]

namespace Statement

/-- A statement of durable nodes is read as it was written. -/
theorem ofJson?_toJson {s : Statement} (h : (Node.statement s).All Node.Durable) :
    ofJson? s.toJson = some s := by
  cases s with
  | select q =>
    have hq := Query.ofJson?_toJson (q := q) (h.child (by simp [Node.children]))
    simp [ofJson?, toJson, kind, StatementKind.tag, hq]
  | insert into items q =>
    have hinto := Table.ofJson?_toJson (t := into)
      (h.child (c := .table into) (by simp [Node.children])).self.limited
    have hitems : Json.list? SetItem.ofJson? (.array (items.map SetItem.toJson)) = some items :=
      SetItem.list?_toJson fun i hi => h.child (by simp [Node.children, hi])
    have hq := Query.ofJson?_toJson (q := q) (h.child (by simp [Node.children]))
    simp [ofJson?, toJson, kind, StatementKind.tag, hinto, hitems, hq]
  | update target items q =>
    have htarget := SourceId.nullable_toJson h.self.limited
    have hitems : Json.list? SetItem.ofJson? (.array (items.map SetItem.toJson)) = some items :=
      SetItem.list?_toJson fun i hi => h.child (by simp [Node.children, hi])
    have hq := Query.ofJson?_toJson (q := q) (h.child (by simp [Node.children]))
    simp [ofJson?, toJson, kind, StatementKind.tag, htarget, hitems, hq]
  | delete target q =>
    have htarget := SourceId.nullable_toJson h.self.limited
    have hq := Query.ofJson?_toJson (q := q) (h.child (by simp [Node.children]))
    simp [ofJson?, toJson, kind, StatementKind.tag, htarget, hq]
  | merge target q on operations =>
    have htarget := Source.ofJson?_toJson (s := target) (h.child (by simp [Node.children]))
    have hq := Query.ofJson?_toJson (q := q) (h.child (by simp [Node.children]))
    have hon := Expr.nullable_toJson (o := on) fun e he =>
      h.child (by simp [Node.children, Node.ofOption, Option.mem_def.1 he])
    have hoperations : Json.list? MergeOperation.ofJson?
        (.array (operations.map MergeOperation.toJson)) = some operations :=
      Json.list?_map fun o ho => MergeOperation.ofJson?_toJson
        (h.child (by simp [Node.children, ho]))
    simp [ofJson?, toJson, kind, StatementKind.tag, htarget, hq, hon, hoperations]
  | createTable t =>
    have ht := Table.ofJson?_toJson (t := t)
      (h.child (c := .table t) (by simp [Node.children])).self.limited
    simp [ofJson?, toJson, kind, StatementKind.tag, ht]
  | dropTable t ifExists =>
    have ht := Table.ofJson?_toJson (t := t)
      (h.child (c := .table t) (by simp [Node.children])).self.limited
    simp [ofJson?, toJson, kind, StatementKind.tag, ht]

end Statement

end SqlTree

import SqlTree.Proofs.Codec.RoundTrip

/-! # Texts of statements

A statement is written as the text of its JSON form. No object of it has two fields of one name, so
the text is read as the JSON form and this one as the statement.

Main definitions:

* `Statement.encode`, `Statement.decode?`: writing and reading the text.

Main statements:

* `Tree.distinct_closed`, `Statement.distinct_toJson`: no name is written twice.
* `Statement.decode?_encode`: which statements have a text, and that they survive in it.
-/

namespace SqlTree

/-! Names of fields. -/

namespace Json

@[simp] theorem distinct_bool (b : Bool) : (bool b).Distinct := trivial

@[simp] theorem distinct_int (n : Int) : (int n).Distinct := trivial

@[simp] theorem distinct_nat (n : Nat) : (nat n).Distinct := trivial

@[simp] theorem distinct_string (s : String) : (string s).Distinct := trivial

@[simp] theorem distinct_object (fields : Fields) :
    (object fields).Distinct ↔ (fields.map Prod.fst).Nodup ∧ DistinctFields fields := Iff.rfl

@[simp] theorem distinctFields_nil : DistinctFields [] := trivial

@[simp] theorem distinctFields_cons (f : String × Json) (fields : Fields) :
    DistinctFields (f :: fields) ↔ f.2.Distinct ∧ DistinctFields fields := Iff.rfl

theorem distinct_array {α : Type} {write : α → Json} {as : List α}
    (h : ∀ a ∈ as, (write a).Distinct) : (array (as.map write)).Distinct := by
  induction as with
  | nil => trivial
  | cons a as ih => exact ⟨h a (by simp), ih fun b hb => h b (by simp [hb])⟩

theorem distinct_ofOption {α : Type} {write : α → Json} {o : Option α}
    (h : ∀ a ∈ o, (write a).Distinct) : (ofOption write o).Distinct := by
  cases o with
  | none => trivial
  | some a => exact h a rfl

@[simp] theorem distinct_text (o : Option String) : (ofOption .string o).Distinct :=
  distinct_ofOption fun _ _ => trivial

end Json

open Json (distinct_array distinct_ofOption)

@[simp] theorem DataType.distinct_toJson (t : DataType) : t.toJson.Distinct := trivial

@[simp] theorem QueryId.distinct_toJson (id : QueryId) : id.toJson.Distinct := trivial

@[simp] theorem SourceId.distinct_toJson (id : SourceId) : id.toJson.Distinct := trivial

@[simp] theorem Literal.distinct_toJson (l : Literal) : l.toJson.Distinct := by
  cases l with
  | float x =>
    have hvalue : (doubleToJson x).Distinct := by
      unfold doubleToJson
      split <;> trivial
    simp [toJson, tagged, hvalue]
  | _ => simp [toJson, tagged]

theorem Field.distinct_toJson (f : Field) : f.toJson.Distinct := by
  have hordinal : (Json.ofOption .nat f.keyOrdinal).Distinct := distinct_ofOption fun _ _ => trivial
  simp [toJson, hordinal]

@[simp] theorem Table.distinct_toJson (t : Table) : t.toJson.Distinct := by
  have hfields := distinct_array fun f (_ : f ∈ t.fields) => f.distinct_toJson
  simp [toJson, hfields]

theorem Query.distinct_of_each {q : Query}
    (h : q.Each (fun e => e.toJson.Distinct) (fun s => s.toJson.Distinct)) : q.toJson.Distinct := by
  have hcolumns : (Json.array (q.columns.map Column.toJson)).Distinct := by
    refine distinct_array fun c hc => ?_
    simp [Column.toJson_eq, h.columns c hc]
  have horderBy : (Json.array (q.orderBy.map OrderItem.toJson)).Distinct := by
    refine distinct_array fun o ho => ?_
    simp [OrderItem.toJson_eq, h.orderBy o ho]
  simp [toJson_eq, hcolumns, distinct_ofOption h.skip, distinct_ofOption h.take,
    distinct_array h.sources, distinct_ofOption h.filter, distinct_array h.groupBy,
    distinct_ofOption h.having, horderBy]

theorem Source.distinct_of_each {s : Source}
    (h : s.Each (fun e => e.toJson.Distinct) (fun q => q.toJson.Distinct)
      (fun s => s.toJson.Distinct)) : s.toJson.Distinct := by
  have horigin : s.origin.toJson.Distinct := by
    cases ho : s.origin with
    | table t => simp [Origin.toJson]
    | query q => simp [Origin.toJson, h.origin q ho]
  have hjoins : (Json.array (s.joins.map Join.toJson)).Distinct := by
    refine distinct_array fun j hj => ?_
    have hkind : j.kind.toJson.Distinct := trivial
    simp [Join.toJson_eq, hkind, h.joins j hj, distinct_ofOption (h.conditions j hj)]
  simp [toJson_eq, horigin, hjoins]

/-- No object in the JSON form of a tree has two fields of one name. -/
theorem Tree.distinct_closed :
    Tree.Closed (fun e => e.toJson.Distinct) (fun q => q.toJson.Distinct)
      (fun s => s.toJson.Distinct) where
  value l t := by simp [Expr.toJson]
  parameter p := by simp [Expr.toJson, Parameter.toJson]
  field f := by simp [Expr.toJson, FieldRef.toJson]
  column c := by simp [Expr.toJson, ColumnRef.toJson]
  call name t args flags ih := by
    simp [Expr.toJson, exprsToJson_eq_map, CallFlags.toJson, distinct_array ih]
  binary op l r p t n ihl ihr := by
    have hop : op.toJson.Distinct := trivial
    simp [Expr.toJson, hop, ihl, ihr]
  raw format p args t ih := by
    simp [Expr.toJson, exprsToJson_eq_map, distinct_array ih]
  typeName t := by simp [Expr.toJson]
  subquery q ih := by simp [Expr.toJson, ih]
  existsRow q ih := by simp [Expr.toJson, ih]
  query _ ih := Query.distinct_of_each ih
  source _ ih := Source.distinct_of_each ih

@[simp] theorem Expr.distinct_toJson (e : Expr) : e.toJson.Distinct := Tree.distinct_closed.onExpr e

@[simp] theorem Query.distinct_toJson (q : Query) : q.toJson.Distinct :=
  Tree.distinct_closed.onQuery q

@[simp] theorem Source.distinct_toJson (s : Source) : s.toJson.Distinct :=
  Tree.distinct_closed.onSource s

theorem SetItem.distinct_array (items : List SetItem) :
    (Json.array (items.map toJson)).Distinct :=
  Json.distinct_array fun i _ => by simp [toJson]

theorem Expr.distinct_optional (o : Option Expr) : (optionalToJson o).Distinct := by
  rw [optionalToJson_eq]
  exact distinct_ofOption fun e _ => e.distinct_toJson

theorem MergeOperation.distinct_toJson (o : MergeOperation) : o.toJson.Distinct := by
  have hkind : o.kind.toJson.Distinct := trivial
  simp [toJson, hkind, Expr.distinct_optional, SetItem.distinct_array]

theorem Statement.distinct_toJson (s : Statement) : s.toJson.Distinct := by
  have htarget : ∀ o : Option SourceId, (Json.ofOption SourceId.toJson o).Distinct :=
    fun o => distinct_ofOption fun _ _ => trivial
  cases s with
  | merge target q on operations =>
    have hoperations := Json.distinct_array fun o (_ : o ∈ operations) => o.distinct_toJson
    simp [toJson, Expr.distinct_optional, hoperations]
  | _ => simp [toJson, SetItem.distinct_array, htarget]

/-! Texts. -/

namespace Statement

/-- The text of a statement. -/
def encode (s : Statement) : String := s.toJson.render

/-- The statement with a text. -/
def decode? (text : String) : Option Statement := Json.parse? text >>= ofJson?

theorem decode?_encode_eq (s : Statement) : decode? s.encode = ofJson? s.toJson := by
  rw [decode?, encode, Json.parse?_render s.distinct_toJson]
  rfl

theorem allLimited_of_decode? {text : String} {s : Statement} (h : decode? text = some s) :
    (Node.statement s).AllLimited := by
  obtain ⟨j, -, hj⟩ := Option.bind_eq_some_iff.1 h
  exact allLimited_of_ofJson? hj

/-- A statement without values that are not numbers comes from a text if and only if all of its
nodes are within the limits, and its own text is then read as the statement. -/
theorem decode?_encode {s : Statement}
    (hnan : ∀ n ∈ (Node.statement s).preorder, n.isNaN = false) :
    ((∃ text, decode? text = some s) ↔ ∀ n ∈ (Node.statement s).preorder, n.Limited) ∧
      ∀ text, decode? text = some s →
        ∃ s', decode? s.encode = some s' ∧ s' = s ∧ s'.encode = s.encode := by
  have hread : (∀ n ∈ (Node.statement s).preorder, n.Limited) → decode? s.encode = some s := by
    intro hlimited
    rw [decode?_encode_eq]
    exact ofJson?_toJson fun n hn => ⟨hlimited n hn, hnan n hn⟩
  refine ⟨⟨?_, fun h => ⟨_, hread h⟩⟩, fun text htext => ?_⟩
  · rintro ⟨text, htext⟩
    exact allLimited_of_decode? htext
  · exact ⟨s, hread (allLimited_of_decode? htext), rfl, rfl⟩

end Statement

namespace Sample

/-- A deletion of which no more is said than has to be. -/
def bareDeletion : Statement := .delete none { id := ⟨1⟩ }

def bareDeletionJson : Json := .object [("delete", .object [("query", .object [("id", .nat 1)])])]

/-- The least interval within the limit. -/
def leastInterval : Interval := Interval.ofTotal (-9223372036854775807000000)

/-- The middle of the leap second at the end of 2016. -/
def leapSecond : DateTime := ⟨1483228799500000000, true, by decide, by decide⟩

def stock : Table :=
  { name := "stock", fields := [{ name := "id", dataType := .int64, keyOrdinal := some 65535 }] }

/-- An update with ids, literals and precedences at the limits. -/
def restock : Statement :=
  .update (some ⟨maxId⟩)
    [⟨"counted", .value (.dateTime leapSecond) .dateTime⟩,
      ⟨"delay", .value (.interval leastInterval) .interval⟩,
      ⟨"rate", .binary .add (.value (.float (Float.ofBits 0x8000000000000000)) .double)
        (.parameter { name := "p", value := .uint 18446744073709551615, dataType := .uint64 })
        (-2147483648) .double true⟩]
    { id := ⟨1⟩
      sources := [⟨⟨maxId⟩, .table stock, none, []⟩]
      filter := some (.existsRow
        { id := ⟨2⟩, sources := [⟨⟨2⟩, .query { id := ⟨3⟩ }, some "d", []⟩] }) }

theorem restock_survives :
    Statement.decode? bareDeletionJson.render = some bareDeletion ∧
      Statement.decode? bareDeletion.encode = some bareDeletion ∧
      (∃ text, Statement.decode? text = some restock) ∧
      Statement.decode? restock.encode = some restock := by
  have hdistinct : bareDeletionJson.Distinct := by simp [bareDeletionJson]
  have hbare : Statement.decode? bareDeletionJson.render = some bareDeletion := by
    rw [Statement.decode?, Json.parse?_render hdistinct]
    rfl
  obtain ⟨-, hbareRead⟩ := Statement.decode?_encode (s := bareDeletion) (by decide)
  obtain ⟨hlimits, hread⟩ := Statement.decode?_encode (s := restock) (by decide)
  obtain ⟨text, htext⟩ := hlimits.2 (by decide)
  obtain ⟨_, hs, rfl, -⟩ := hbareRead _ hbare
  obtain ⟨_, hs', rfl, -⟩ := hread text htext
  exact ⟨hbare, hs, ⟨text, htext⟩, hs'⟩

end Sample

end SqlTree

import SqlTree.Lowering.SingleTable
import SqlTree.Proofs.Semantics.Logic
import SqlTree.Proofs.Semantics.Statement

/-! # The key identifies the row

The condition that two sources are at the same row compares the key fields one by one, in a way that
depends on whether the table admits NULL in a field.

Main definitions:

* `Table.Admits`: a row as the table declares it.
* `Expr.Decides`: an expression that has a value, and when it is true.

Main statements:

* `Table.Conforms.eq_of_keyFields`: rows that agree in the key fields are the same row.
* `Table.eval_keyEquality`: the key condition is true if and only if the rows of two sources agree
  in the key fields.
* `Table.exists_keyEquality`: the same for integers and NULL, where the inner row can also be NULL.
-/

namespace SqlTree

variable {tables : String → Option (List (Row Value))}

/-- The expression has a value, which is true if and only if `p` holds. -/
def Expr.Decides (tables : String → Option (List (Row Value))) (env : Env Value) (e : Expr)
    (p : Prop) : Prop :=
  ∃ v, e.eval (.integers tables) env = some v ∧ (v.isTrue = true ↔ p)

theorem Expr.HoldsIff.decides {env : Env Value} {e : Expr} {p : Prop}
    (h : e.HoldsIff (.integers tables) env p) : e.Decides tables env p := by
  obtain ⟨v, hv, hyes⟩ := h
  exact ⟨_, hv, Engine.threeValued_integers.isTrue_truth.trans hyes⟩

namespace Table

theorem mem_keyFields {t : Table} {f : Field} :
    f ∈ t.keyFields ↔
      f ∈ t.fields ∧ ((∃ g ∈ t.fields, g.keyOrdinal.isSome) → f.keyOrdinal.isSome) := by
  unfold keyFields
  split
  · rename_i h
    have hnone : ¬ ∃ g ∈ t.fields, g.keyOrdinal.isSome := by
      simpa [List.filter_eq_nil_iff] using h
    simp [hnone]
  · rename_i keys hkeys
    have hsome : ∃ g ∈ t.fields, g.keyOrdinal.isSome := by
      obtain ⟨g, hg⟩ := List.exists_mem_of_ne_nil _ hkeys
      exact ⟨g, List.mem_filter.1 hg⟩
    rw [List.mem_mergeSort, List.mem_filter]
    simp [hsome]

theorem keyFields_eq_nil {t : Table} : t.keyFields = [] ↔ t.fields = [] := by
  unfold keyFields
  split
  · rfl
  · rename_i keys hkeys
    have hne : t.fields ≠ [] := by
      rintro h
      simp [h] at hkeys
    simp only [hne, iff_false]
    intro h
    have hlength := congrArg List.length h
    rw [List.length_mergeSort] at hlength
    exact hkeys (List.length_eq_zero_iff.1 hlength)

theorem eval_fieldRef {V : Type} [DecidableEq V] {db : Database V} (t : Table) (id : SourceId)
    (name : String) {env : Env V} {x : Row V} (h : env.source id = some x) :
    (t.fieldRef id name).eval db env = x name := by
  unfold fieldRef
  split <;> simp [Expr.eval, h]

theorem canBeNull_fieldRef {t : Table} {id : SourceId} {name : String}
    (h : (t.fieldRef id name).canBeNull = false) :
    ∃ f ∈ t.fields, f.name = name ∧ f.nullable = false := by
  unfold fieldRef at h
  split at h
  · rename_i f hf
    exact ⟨f, List.mem_of_find?_eq_some hf, by simpa using List.find?_some hf, h⟩
  · cases h

end Table

/-- Rows that agree in the key fields are the same row. -/
theorem Table.Conforms.eq_of_keyFields {V : Type} {null : V} {t : Table} {rows : List (Row V)}
    (h : t.Conforms null rows) {x y : Row V} (hx : x ∈ rows) (hy : y ∈ rows)
    (hkeys : ∀ f ∈ t.keyFields, x f.name = y f.name) : x = y := by
  by_cases hkey : ∃ f ∈ t.fields, f.keyOrdinal.isSome
  · refine h.unique hkey x hx y hy fun f hf hord => hkeys f ?_
    exact Table.mem_keyFields.2 ⟨hf, fun _ => hord⟩
  · -- Without a key the rows agree in all fields, and other names are bound in neither.
    funext name
    by_cases hname : ∃ f ∈ t.fields, name = f.name
    · obtain ⟨f, hf, rfl⟩ := hname
      exact hkeys f (Table.mem_keyFields.2 ⟨hf, fun hsome => absurd hsome hkey⟩)
    · have hxn : x name = none := by simpa [hname] using h.isSome_iff x hx name
      have hyn : y name = none := by simpa [hname] using h.isSome_iff y hy name
      rw [hxn, hyn]

/-- The row has the fields that the table declares, and no NULL in a field that excludes it. -/
structure Table.Admits {V : Type} (null : V) (t : Table) (x : Row V) : Prop where
  isSome : ∀ f ∈ t.fields, (x f.name).isSome
  notNull : ∀ f ∈ t.fields, f.nullable = false → x f.name ≠ some null

theorem Table.Fits.admits {V : Type} {null : V} {t : Table} {rows : List (Row V)}
    (h : t.Fits null rows) {x : Row V} (hx : x ∈ rows) : t.Admits null x where
  isSome f hf := (h.isSome_iff x hx f.name).2 ⟨f, hf, rfl⟩
  notNull := h.notNull x hx

namespace Table

section Condition

variable {V : Type} [DecidableEq V] {db : Database V} {env : Env V} {t : Table}
  {inner outer : SourceId} {x y : Row V} (logic : db.engine.ThreeValued)

include logic

/-- The outer row is as the table declares it. The inner one only has values, so it can also be NULL
where the table excludes it. -/
theorem holdsIff_keyCondition (hy : t.Admits db.engine.null y) {f : Field} (hf : f ∈ t.keyFields)
    (hx : (x f.name).isSome) (hinner : env.source inner = some x)
    (houter : env.source outer = some y) :
    (Expr.nullSafeEq (t.fieldRef inner f.name) (t.fieldRef outer f.name)).HoldsIff db env
      (x f.name = y f.name) := by
  obtain ⟨a, ha⟩ := Option.isSome_iff_exists.1 hx
  obtain ⟨b, hb⟩ := Option.isSome_iff_exists.1 (hy.isSome f (mem_keyFields.1 hf).1)
  have hnotNull : ∀ {id : SourceId}, (t.fieldRef id f.name).canBeNull = false →
      b ≠ db.engine.null := by
    rintro id hnull rfl
    obtain ⟨g, hg, hname, hnullable⟩ := canBeNull_fieldRef hnull
    exact hy.notNull g hg hnullable (by rw [hname, hb])
  have hl : (t.fieldRef inner f.name).eval db env = some a :=
    (t.eval_fieldRef inner f.name hinner).trans ha
  have hr : (t.fieldRef outer f.name).eval db env = some b :=
    (t.eval_fieldRef outer f.name houter).trans hb
  rw [ha, hb, Option.some.injEq]
  exact .nullSafeEq logic hl hr fun hnull => .inr (hnull.elim hnotNull hnotNull)

theorem holdsIff_keyEquality {e : Expr} (he : t.keyEquality inner outer = some e)
    (hx : ∀ f ∈ t.keyFields, (x f.name).isSome) (hy : t.Admits db.engine.null y)
    (hinner : env.source inner = some x) (houter : env.source outer = some y) :
    e.HoldsIff db env (∀ f ∈ t.keyFields, x f.name = y f.name) := by
  have hcondition := fun f hf =>
    holdsIff_keyCondition logic hy (f := f) hf (hx f hf) hinner houter
  unfold keyEquality keyConditions at he
  cases hkey : t.keyFields with
  | nil => simp [hkey] at he
  | cons f fs =>
    rw [hkey, List.forall_mem_cons] at hcondition
    rw [hkey, List.map_cons, Option.some.injEq] at he
    rw [List.forall_mem_cons, ← he]
    exact hcondition.1.foldl_and logic hcondition.2

end Condition

theorem exists_eq_keyEquality {t : Table} (hfields : t.fields ≠ []) (inner outer : SourceId) :
    ∃ e, t.keyEquality inner outer = some e := by
  obtain ⟨f, fs, hkey⟩ := List.exists_cons_of_ne_nil (mt keyFields_eq_nil.1 hfields)
  simp [keyEquality, keyConditions, hkey]

/-- The key condition of a table with known fields holds if the rows of the two sources agree in the
key fields. -/
theorem exists_keyEquality (t : Table) (hfields : t.fields ≠ []) (inner outer : SourceId) :
    ∃ e, t.keyEquality inner outer = some e ∧
      ∀ {tables : String → Option (List (Row Value))} {rows x y env},
        t.Fits none rows → (∀ f ∈ t.keyFields, (x f.name).isSome) → y ∈ rows →
        env.source inner = some x → env.source outer = some y →
        e.Decides tables env (∀ f ∈ t.keyFields, x f.name = y f.name) := by
  obtain ⟨e, he⟩ := exists_eq_keyEquality hfields inner outer
  refine ⟨e, he, fun {tables rows x y env} h hx hy hinner houter => ?_⟩
  have logic : (Database.integers tables).engine.ThreeValued := Engine.threeValued_integers
  exact (holdsIff_keyEquality logic he hx (h.admits hy) hinner houter).decides

/-- In three-valued logic the key condition of a table with known fields has a truth value at two
rows of the table. It is true if and only if the rows agree in all fields of the primary key, or in
all fields if no key is declared, where NULL agrees with NULL only. -/
theorem eval_keyEquality (t : Table) (hfields : t.fields ≠ []) (inner outer : SourceId) :
    ∃ e, t.keyEquality inner outer = some e ∧
      ∀ {V : Type} [DecidableEq V] (db : Database V), db.engine.ThreeValued →
        ∀ (env : Env V) (x y : Row V), env.source inner = some x → env.source outer = some y →
          t.Admits db.engine.null x → t.Admits db.engine.null y →
          ∃ v : Truth, e.eval db env = some (db.engine.truth v) ∧
            (v = .yes ↔ ∀ f ∈ t.fields,
              ((∃ g ∈ t.fields, g.keyOrdinal.isSome) → f.keyOrdinal.isSome) →
                x f.name = y f.name) := by
  obtain ⟨e, he⟩ := exists_eq_keyEquality hfields inner outer
  refine ⟨e, he, fun db logic env x y hinner houter hx hy => ?_⟩
  have hkeys : ∀ f ∈ t.keyFields, (x f.name).isSome :=
    fun f hf => hx.isSome f (mem_keyFields.1 hf).1
  obtain ⟨v, hv, hyes⟩ := holdsIff_keyEquality logic he hkeys hy hinner houter
  refine ⟨v, hv, hyes.trans ?_⟩
  simp only [mem_keyFields, and_imp]

end Table

/-! Parcels without a key, some of which have no weight. -/

namespace Sample

def parcels : Table where
  name := "parcels"
  fields := [⟨"shelf", .int32, false, none⟩, ⟨"weight", .int32, true, none⟩]

def parcel (shelf : Int) (weight : Value) : Row Value :=
  .ofFields [("shelf", some shelf), ("weight", weight)]

@[simp] theorem parcel_shelf (shelf : Int) (weight : Value) :
    parcel shelf weight "shelf" = some (some shelf) := rfl

@[simp] theorem parcel_weight (shelf : Int) (weight : Value) :
    parcel shelf weight "weight" = some weight := rfl

theorem admits_parcel (shelf : Int) (weight : Value) :
    parcels.Admits none (parcel shelf weight) := by
  constructor <;> simp [parcels]

/-- The parcel in the inner source has no weight, so only one without a weight is the same. -/
theorem eval_keyEquality_parcels :
    ∃ e, parcels.keyEquality ⟨1⟩ ⟨2⟩ = some e ∧ ∀ weight : Value, ∃ v : Truth,
      e.eval (.integers fun _ => none)
          ((Env.empty.bindSource ⟨1⟩ (parcel 4 none)).bindSource ⟨2⟩ (parcel 4 weight)) =
        some (Engine.integers.truth v) ∧ (v = .yes ↔ weight = none) := by
  obtain ⟨e, he, htruth⟩ := Table.eval_keyEquality parcels (by simp [parcels]) ⟨1⟩ ⟨2⟩
  refine ⟨e, he, fun weight => ?_⟩
  obtain ⟨v, hv, hyes⟩ := htruth (.integers fun _ => none) Engine.threeValued_integers
    ((Env.empty.bindSource ⟨1⟩ (parcel 4 none)).bindSource ⟨2⟩ (parcel 4 weight)) _ _ rfl rfl
    (admits_parcel 4 none) (admits_parcel 4 weight)
  refine ⟨v, hv, hyes.trans ?_⟩
  simp [parcels, @eq_comm _ none weight]

end Sample

end SqlTree

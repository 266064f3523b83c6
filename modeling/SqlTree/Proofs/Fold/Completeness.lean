import SqlTree.Proofs.Fold.Soundness

/-! # Expressions that fold

An expression of integers, truth values and NULL folds exactly if all parts that the reference needs
have values that words of 64 bits can hold and are no fields.

Main statements:

* `Literal.isSome_arithmetic?_iff`: when integers can be computed with.
* `Expr.Integral.isSome_fold?_iff`: when an expression folds.
* `Expr.fold?_of_integral`: what it folds to, and when.
-/

namespace SqlTree

namespace Word

theorem isSome_unsigned?_iff {n : Int} : (unsigned? n).isSome ↔ Kind.unsigned.Fits n := by
  unfold unsigned? Kind.Fits
  split <;> simp_all

namespace Operation

variable {op : Operation}

/-- A remainder of signed words needs the quotient. -/
theorem isSome_signed?_iff {a b : Int64} :
    (op.signed? a b).isSome ↔
      (∃ n, op.value? a.toInt b.toInt = some n ∧ Kind.signed.Fits n) ∧
        (op = .modulo → Kind.signed.Fits (a.toInt.tdiv b.toInt)) := by
  unfold Operation.signed?
  cases hvalue : op.value? a.toInt b.toInt with
  | none => simp
  | some n =>
    by_cases hop : op = .modulo
    · subst hop
      have hquotient : Operation.divide.value? a.toInt b.toInt = some (a.toInt.tdiv b.toInt) := by
        by_cases hzero : b.toInt = 0
        · simp [Operation.value?, hzero] at hvalue
        · exact if_neg hzero
      cases hw : Word.signed? (a.toInt.tdiv b.toInt) with
      | none => simp [hquotient, hw, ← Word.isSome_signed?_iff]
      | some w => simp [hquotient, hw, ← Word.isSome_signed?_iff]
    · simp [hop, Word.isSome_signed?_iff]

/-- The operation on the signed words of two integers. -/
theorem isSome_bind_signed?_iff {m n : Int} :
    ((Word.signed? m).bind fun x => (Word.signed? n).bind fun y => op.signed? x y).isSome ↔
      (∃ i, op.value? m n = some i ∧ Kind.signed.Fits i) ∧
        Kind.signed.Holds (op = .modulo) m n := by
  unfold Kind.Holds
  rw [← Word.isSome_signed?_iff (n := m), ← Word.isSome_signed?_iff (n := n)]
  cases hx : Word.signed? m with
  | none => simp
  | some x =>
    cases hy : Word.signed? n with
    | none => simp
    | some y =>
      rw [← toInt_of_signed? hx, ← toInt_of_signed? hy]
      simp [isSome_signed?_iff]

theorem isSome_unsigned?_iff {a b : UInt64} :
    (op.unsigned? a b).isSome ↔
      ∃ n, op.value? a.toNat b.toNat = some n ∧ Kind.unsigned.Fits n := by
  simp only [Operation.unsigned?, unsignedValue, ← Word.isSome_unsigned?_iff]
  cases op.value? a.toNat b.toNat <;> simp

end Operation

end Word

namespace Literal

variable {a b : Literal} {j k : Kind} {m n : Int}

/-- Integers are computed with if words of the kind of the result hold all that is needed. -/
theorem isSome_arithmetic?_iff {op : Word.Operation} (ha : a.datum? = some (.integer j m))
    (hb : b.datum? = some (.integer k n)) :
    (arithmetic? op a b).isSome ↔
      (∃ i, op.value? m n = some i ∧ (j.meet k).Fits i) ∧
        (j.meet k).Holds (op = .modulo) m n := by
  cases hkind : j.meet k with
  | signed =>
    rw [arithmetic?_eq_signed op ha hb hkind, Option.isSome_map]
    exact Word.Operation.isSome_bind_signed?_iff
  | unsigned =>
    obtain ⟨x, y, rfl, rfl, heq⟩ := arithmetic?_eq_unsigned op ha hb hkind
    have hx : Kind.unsigned.Fits x.toNat := fits_of_datum? (l := .uint x) rfl
    have hy : Kind.unsigned.Fits y.toNat := fits_of_datum? (l := .uint y) rfl
    have hquotient : Kind.unsigned.Fits (Int.tdiv x.toNat y.toNat) := by
      have hle := Nat.div_le_self x.toNat y.toNat
      have hlt := x.toNat_lt_size
      refine ⟨Int.natCast_nonneg _, ?_⟩
      rw [← Int.ofNat_tdiv]
      omega
    rw [heq, Option.isSome_map, Word.Operation.isSome_unsigned?_iff]
    exact ⟨fun h => ⟨h, hx, hy, fun _ => hquotient⟩, And.left⟩

variable {x y : Datum}

/-- Connectives have a result where the reference does. -/
theorem isSome_connectives (ha : a.datum? = some x) (hb : b.datum? = some y) :
    (a.and? b).isSome = (Datum.connective? Bool.and x y).isSome ∧
      (a.or? b).isSome = (Datum.connective? Bool.or x y).isSome := by
  cases a with
  | boolean p =>
    cases p <;> cases ha <;> cases b with
    | boolean q => cases q <;> cases hb <;> exact ⟨rfl, rfl⟩
    | _ => cases hb <;> exact ⟨rfl, rfl⟩
  | _ =>
    cases ha <;> cases b with
    | boolean q => cases q <;> cases hb <;> exact ⟨rfl, rfl⟩
    | _ => cases hb <;> exact ⟨rfl, rfl⟩

theorem eq_of_datum?_truth {p : Bool} (h : a.datum? = some (.truth p)) : a = .boolean p := by
  cases a <;> cases h
  rfl

end Literal

/-! Operators. -/

namespace Datum

/-- What is combined are truth values or integers. -/
theorem eq_of_combine? {op : Operator} {x y : Datum} (hx : x ≠ .null) (hy : y ≠ .null)
    (h : (combine? op x y).isSome) :
    (∃ p q, x = .truth p ∧ y = .truth q ∧ op.relation?.isSome) ∨
      ∃ j m k n, x = .integer j m ∧ y = .integer k n := by
  cases x with
  | null => exact absurd rfl hx
  | truth p =>
    cases y with
    | null => exact absurd rfl hy
    | truth q => exact .inl ⟨p, q, rfl, rfl, by simpa [combine?] using h⟩
    | integer k n => cases h
  | integer j m =>
    cases y with
    | null => exact absurd rfl hy
    | truth q => cases h
    | integer k n => exact .inr ⟨j, m, k, n, rfl, rfl⟩

end Datum

namespace Operator

variable {op : Operator} {a b : Literal} {x y : Datum}

section

variable (hconcat : op ≠ .concat) (hmixed : op.relation?.isSome → ¬ a.Mixed b)
  (ha : a.datum? = some x) (hb : b.datum? = some y)

include hconcat ha hb

theorem held_of_fold? (h : (op.fold? a b).isSome) : Datum.Held op x y := by
  cases x with
  | null => trivial
  | truth => trivial
  | integer j m =>
    cases y with
    | null => trivial
    | truth => trivial
    | integer k n =>
      intro hnone
      -- No connective takes two integers, and no comparison comes without a relation.
      have hlogical := Literal.isSome_connectives ha hb
      have hand : op ≠ .and := by
        rintro rfl
        exact Bool.noConfusion (hlogical.1.symm.trans h)
      have hor : op ≠ .or := by
        rintro rfl
        exact Bool.noConfusion (hlogical.2.symm.trans h)
      rw [fold?_of_integers hand hor ha hb] at h
      rcases relation_or_arithmetic hand hor hconcat with ⟨r, hr⟩ | ⟨-, f, -, hmodulo, hvalues⟩
      · rw [hr] at hnone
        cases hnone
      · rw [hvalues, Literal.isSome_arithmetic?_iff ha hb] at h
        rw [← hmodulo]
        exact h.2

include hmixed

theorem isSome_fold?_of_operator? {d : Datum} (h : Datum.operator? op x y = some d) (hfits : d.Fits)
    (hheld : Datum.Held op x y) : (op.fold? a b).isSome := by
  have hlogical := Literal.isSome_connectives ha hb
  by_cases hand : op = .and
  · subst hand
    exact hlogical.1.trans (Option.isSome_iff_exists.2 ⟨d, h⟩)
  by_cases hor : op = .or
  · subst hor
    exact hlogical.2.trans (Option.isSome_iff_exists.2 ⟨d, h⟩)
  rw [operator?_eq_combine? hand hor] at h
  rw [fold?_eq_foldValues? hand hor]
  split
  · rfl
  · rename_i hnull
    rw [Bool.or_eq_true, Literal.isNull_iff_of_datum? ha, Literal.isNull_iff_of_datum? hb,
      not_or] at hnull
    rcases Datum.eq_of_combine? hnull.1 hnull.2 (Option.isSome_iff_exists.2 ⟨d, h⟩) with
      ⟨p, q, rfl, rfl, hr⟩ | ⟨j, m, k, n, rfl, rfl⟩
    · obtain ⟨r, hr⟩ := Option.isSome_iff_exists.1 hr
      rw [isSome_foldValues? hr, Literal.eq_of_datum?_truth ha, Literal.eq_of_datum?_truth hb]
      rfl
    · rcases relation_or_arithmetic hand hor hconcat with ⟨r, hr⟩ | ⟨hnone, f, hf, hmodulo, hvalues⟩
      · have hkind : j = k := Decidable.not_not.1 fun hne =>
          hmixed (by rw [hr]; rfl) ⟨j, m, k, n, ha, hb, hne⟩
        subst hkind
        rw [isSome_foldValues? hr, Literal.compare?_of_kind_eq ha hb]
        rfl
      · simp only [Datum.combine?, hnone, hf] at h
        obtain ⟨i, hi, rfl⟩ := Option.map_eq_some_iff.1 h
        rw [hvalues, Literal.isSome_arithmetic?_iff ha hb, hmodulo]
        exact ⟨⟨i, hi, hfits⟩, hheld hnone⟩

end

end Operator

/-! Expressions. -/

namespace Expr

variable {ctx : Context} {e : Expr} {ρ : FieldRef → Datum}

/-- An expression that folds is computed. -/
theorem Integral.computed (he : e.Integral ctx) (h : (e.fold? ctx).isSome) (ρ : FieldRef → Datum) :
    e.Computed ctx ρ := by
  obtain ⟨v, hv⟩ := Option.isSome_iff_exists.1 h
  obtain ⟨d, hd, heval⟩ := he.constant hv
  refine ⟨⟨d, heval ρ, Literal.fits_of_datum? hd⟩, ?_⟩
  cases he with
  | value => trivial
  | parameter => trivial
  | field =>
    rw [fold?] at hv
    cases hv
  | binary hconcat hl hr =>
    intro x y hx hy
    rw [fold?] at hv
    obtain ⟨a, ha, hv⟩ := Option.bind_eq_some_iff.1 hv
    obtain ⟨b, hb, hv⟩ := Option.bind_eq_some_iff.1 hv
    obtain ⟨x', hx', hleft⟩ := hl.constant ha
    obtain ⟨y', hy', hright⟩ := hr.constant hb
    rw [hleft] at hx
    rw [hright] at hy
    cases hx
    cases hy
    exact Operator.held_of_fold? hconcat hx' hy' (Option.isSome_iff_exists.2 ⟨v, hv⟩)
  | @call name t args flags =>
    rw [fold?] at hv
    split at hv
    · rename_i hflags
      simpa using (Bool.and_eq_true_iff.1 hflags).2
    · cases hv

/-- COALESCE folds if the arguments do up to the first that is not NULL. -/
theorem isSome_coalesce? (ρ : FieldRef → Datum) {args : List Expr}
    (hintegral : ∀ a ∈ args, a.Integral ctx)
    (h : ∀ before x after, args = before ++ x :: after →
      (∀ y ∈ before, y.evaluate? ctx ρ = some .null) → (x.fold? ctx).isSome) :
    (coalesce? (foldEach? ctx args)).isSome := by
  induction args with
  | nil => rfl
  | cons a args ih =>
    obtain ⟨l, hl⟩ := Option.isSome_iff_exists.1 (h [] a args rfl (fun _ hy => by cases hy))
    rw [foldEach?, hl, coalesce?]
    split
    · rename_i hnull
      obtain ⟨d, hd, heval⟩ := (hintegral a List.mem_cons_self).constant hl
      obtain rfl := (Literal.isNull_iff_of_datum? hd).1 hnull
      -- The NULL joins those that precede a later argument.
      refine ih (fun b hb => hintegral b (List.mem_cons_of_mem a hb)) ?_
      rintro before x after rfl hbefore
      exact h (a :: before) x after rfl (List.forall_mem_cons.2 ⟨heval ρ, hbefore⟩)
    · rfl

theorem eq_of_evaluateSole? {name : String} {args : List Expr} {d : Datum}
    (h : evaluateSole? ctx ρ name args = some d) :
    ∃ a x, args = [a] ∧ a.evaluate? ctx ρ = some x ∧ Datum.function? name x = some d := by
  unfold evaluateSole? at h
  split at h
  · rename_i a
    obtain ⟨x, hx, h⟩ := Option.bind_eq_some_iff.1 h
    exact ⟨a, x, rfl, hx, h⟩
  · cases h

/-- An expression folds if all parts that are needed are computed. -/
theorem Integral.isSome_fold? (he : e.Integral ctx)
    (h : ∀ a, e.Needs ctx ρ a → a.Computed ctx ρ) : (e.fold? ctx).isSome := by
  induction he with
  | value =>
    rw [fold?]
    rfl
  | parameter =>
    rw [fold?]
    rfl
  | field f => exact (h _ (.self _)).2.elim
  | binary hconcat hl hr hmixed ihl ihr =>
    obtain ⟨a, ha⟩ := Option.isSome_iff_exists.1 (ihl fun c hc => h c (.left hc))
    obtain ⟨b, hb⟩ := Option.isSome_iff_exists.1 (ihr fun c hc => h c (.right hc))
    obtain ⟨x, hx, hleft⟩ := hl.constant ha
    obtain ⟨y, hy, hright⟩ := hr.constant hb
    obtain ⟨⟨d, heval, hfits⟩, hheld⟩ := h _ (.self _)
    simp only [evaluate?, hleft, hright, Option.bind_eq_bind, Option.bind_some] at heval
    rw [fold?, ha, hb]
    exact Operator.isSome_fold?_of_operator? hconcat (fun hop => hmixed hop a b ha hb) hx hy heval
      hfits (hheld x y (hleft ρ) (hright ρ))
  | @call name t args flags hname hpure hargs ih =>
    obtain ⟨⟨d, heval, hfits⟩, haggregate⟩ := h _ (.self _)
    have haggregate : flags.aggregate = false := haggregate
    have hfold : fold? ctx (.call name t args flags) =
        foldCall? name args (foldEach? ctx args) := by
      rw [fold?, hpure, haggregate]
      rfl
    rw [hfold]
    rw [evaluate?_call] at heval
    by_cases hcoalesce : name.toLower = "coalesce"
    · rw [foldCall?_coalesce hcoalesce]
      refine isSome_coalesce? ρ hargs ?_
      rintro before x after rfl hbefore
      exact ih x (List.mem_append_right _ List.mem_cons_self) fun a ha =>
        h a (.alternative hcoalesce hbefore ha)
    · obtain ⟨f, hf, hunary⟩ := foldCall?_unary hname hcoalesce
      rw [hunary]
      rw [if_neg hcoalesce] at heval
      obtain ⟨a, x, rfl, hx, hfunction⟩ := eq_of_evaluateSole? heval
      obtain ⟨l, hl⟩ := Option.isSome_iff_exists.1 <|
        ih a List.mem_cons_self fun b hb => h b (.argument hcoalesce List.mem_cons_self hb)
      obtain ⟨y, hy, hconstant⟩ := (hargs a List.mem_cons_self).constant hl
      obtain rfl : y = x := Option.some.inj ((hconstant ρ).symm.trans hx)
      rw [foldEach?, foldEach?, hl, applyUnary?]
      split
      · rfl
      · rename_i hnull
        rw [Literal.isNull_iff_of_datum? hy] at hnull
        exact hf.complete hy hnull hfunction hfits

/-- An expression folds exactly if all parts that are needed are computed. -/
theorem Integral.isSome_fold?_iff (he : e.Integral ctx) (ρ : FieldRef → Datum) :
    (e.fold? ctx).isSome ↔ ∀ a, e.Needs ctx ρ a → a.Computed ctx ρ := by
  refine ⟨fun h a hneeds => ?_, he.isSome_fold?⟩
  obtain ⟨ha, hsome⟩ := he.of_needs hneeds h
  exact ha.computed hsome ρ

/-- A part that is needed and has no value, has one that its words do not hold, or depends on the
fields. -/
theorem Integral.fold?_eq_none {a : Expr} (he : e.Integral ctx) (hneeds : e.Needs ctx ρ a)
    (h : (∃ σ, a.evaluate? ctx σ = none) ∨
      (∃ σ d, a.evaluate? ctx σ = some d ∧ ¬ d.Fits) ∨
      ∃ σ τ, a.evaluate? ctx σ ≠ a.evaluate? ctx τ) : e.fold? ctx = none := by
  refine Option.eq_none_iff_forall_ne_some.2 fun v hv => ?_
  obtain ⟨ha, hsome⟩ := he.of_needs hneeds (Option.isSome_iff_exists.2 ⟨v, hv⟩)
  obtain ⟨l, hl⟩ := Option.isSome_iff_exists.1 hsome
  obtain ⟨d, hd, heval⟩ := ha.constant hl
  rcases h with ⟨σ, hσ⟩ | ⟨σ, x, hσ, hx⟩ | ⟨σ, τ, hne⟩
  · rw [heval] at hσ
    cases hσ
  · rw [heval] at hσ
    cases hσ
    exact hx (Literal.fits_of_datum? hd)
  · exact hne ((heval σ).trans (heval τ).symm)

/-- If an expression of integers, truth values and NULL folds, then its value is that of the
reference for all values of the fields. It does not fold if a part that the reference needs has no
value, has one that its words do not hold, or depends on the fields. It does if all parts that the
reference needs are computed. -/
theorem fold?_of_integral (he : e.Integral ctx) :
    (∀ v, e.fold? ctx = some v →
      ∃ d, v.datum? = some d ∧ ∀ ρ, e.evaluate? ctx ρ = some d) ∧
    (∀ ρ a, e.Needs ctx ρ a →
      ((∃ σ, a.evaluate? ctx σ = none) ∨
        (∃ σ d, a.evaluate? ctx σ = some d ∧ ¬ d.Fits) ∨
        ∃ σ τ, a.evaluate? ctx σ ≠ a.evaluate? ctx τ) → e.fold? ctx = none) ∧
    ∀ ρ, (e.fold? ctx).isSome ↔ ∀ a, e.Needs ctx ρ a → a.Computed ctx ρ :=
  ⟨fun _ => he.constant, fun _ _ => he.fold?_eq_none, he.isSome_fold?_iff⟩

end Expr

namespace Sample

/-- The first of a NULL, an integer and a field. -/
def fallback : Expr :=
  .function "Coalesce" .int64
    [.operation .multiply (.null .int64) (.long 2) .int64,
      .operation .modulo (.function "Abs" .int64 [.long (-7)]) (.long 4) .int64,
      .field { source := ⟨1⟩, name := "total", dataType := .int64, nullable := false }]

theorem coalesce_toLower : "Coalesce".toLower = "coalesce" := by decide +kernel

theorem abs_toLower : "Abs".toLower = "abs" := by decide +kernel

theorem integral_fallback : fallback.Integral {} := by
  refine .call (by simp [coalesce_toLower]) rfl ?_
  intro a ha
  simp only [List.mem_cons, List.not_mem_nil, or_false] at ha
  rcases ha with rfl | rfl | rfl
  · exact .binary (by decide) (.value _ _ rfl) (.value _ _ rfl) (fun h => absurd h (by decide))
  · refine .binary (by decide) (.call (by simp [abs_toLower]) rfl ?_) (.value _ _ rfl)
      (fun h => absurd h (by decide))
    intro a ha
    rw [List.mem_singleton.1 ha]
    exact .value _ _ rfl
  · exact .field _

theorem fold?_fallback :
    fallback.Integral {} ∧ fallback.fold? {} = some (.int 3) ∧
      ∀ ρ, fallback.evaluate? {} ρ = some (.integer .signed 3) := by
  have hfold : fallback.fold? {} = some (.int 3) := by
    simp only [fallback, Expr.function, Expr.operation, Expr.fold?, foldEach?, foldCall?,
      coalesce_toLower, abs_toLower]
    rfl
  obtain ⟨d, hd, heval⟩ := (Expr.fold?_of_integral integral_fallback).1 _ hfold
  cases hd
  exact ⟨integral_fallback, hfold, heval⟩

end Sample

end SqlTree

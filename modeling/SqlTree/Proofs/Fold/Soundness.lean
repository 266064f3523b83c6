import SqlTree.Proofs.Fold.Reference

/-! # Folded integers and truth values

An expression of integers, truth values and NULL that folds has the value of the reference, whatever
the fields hold, and with it folds every part that the reference needs.

Main definitions:

* `Expr.Constant`: a literal that is the value of an expression for all values of the fields.

Main statements:

* `Operator.operator?_of_fold?`, `Literal.Follows.function?_eq`: operators and functions of
  literals.
* `Expr.Integral.constant`: expressions that fold.
* `Expr.Integral.of_needs`: parts of expressions that fold.
-/

namespace SqlTree

/-! Words. -/

namespace Word

theorem toInt_of_signed? {n : Int} {w : Int64} (h : signed? n = some w) : w.toInt = n := by
  have hmin : Int64.minValue.toInt = -9223372036854775808 := rfl
  have hmax : Int64.maxValue.toInt = 9223372036854775807 := rfl
  unfold signed? at h
  split at h
  · cases h
    exact Int64.toInt_ofInt_of_le (by omega) (by omega)
  · cases h

theorem isSome_signed?_iff {n : Int} : (signed? n).isSome ↔ Kind.signed.Fits n := by
  unfold signed? Kind.Fits
  split <;> simp_all

theorem signed?_toInt (x : Int64) : signed? x.toInt = some x := by
  have hlow := x.le_toInt
  have hhigh := x.toInt_lt
  have hmin : Int64.minValue.toInt = -9223372036854775808 := rfl
  have hmax : Int64.maxValue.toInt = 9223372036854775807 := rfl
  rw [signed?, if_pos (by omega), Int64.ofInt_toInt]

theorem toNat_of_unsigned? {n : Int} {w : UInt64} (h : unsigned? n = some w) :
    (w.toNat : Int) = n := by
  have hsize : UInt64.size = 18446744073709551616 := rfl
  unfold unsigned? at h
  split at h
  · cases h
    rw [UInt64.toNat_ofNat_of_lt' (by omega)]
    omega
  · cases h

theorem unsigned?_toNat (x : UInt64) : unsigned? x.toNat = some x := by
  have hlt := x.toNat_lt_size
  rw [unsigned?, if_pos (by omega), Int.toNat_natCast, UInt64.ofNat_toNat]

theorem Operation.value?_of_signed? {op : Operation} {a b w : Int64}
    (h : op.signed? a b = some w) : op.value? a.toInt b.toInt = some w.toInt := by
  unfold Operation.signed? at h
  obtain ⟨n, hn, h⟩ := Option.bind_eq_some_iff.1 h
  split at h
  · obtain ⟨_, _, h⟩ := Option.bind_eq_some_iff.1 h
    rw [hn, toInt_of_signed? h]
  · rw [hn, toInt_of_signed? h]

theorem Operation.value?_of_unsigned? {op : Operation} {a b w : UInt64}
    (h : op.unsigned? a b = some w) : op.value? a.toNat b.toNat = some (w.toNat : Int) := by
  obtain ⟨n, hn, h⟩ := Option.bind_eq_some_iff.1 h
  rw [toNat_of_unsigned? h]
  exact hn

end Word

namespace Literal

variable {a b v : Literal} {j k : Kind} {m n : Int}

theorem fits_of_datum? {l : Literal} {d : Datum} (h : l.datum? = some d) : d.Fits := by
  cases l <;> simp only [datum?, Option.some.injEq, reduceCtorEq] at h <;> subst h
  · trivial
  · trivial
  · rename_i n
    have hlow := n.le_toInt
    have hhigh := n.toInt_lt
    have hmin : Int64.minValue.toInt = -9223372036854775808 := rfl
    have hmax : Int64.maxValue.toInt = 9223372036854775807 := rfl
    change _ ∧ _
    omega
  · rename_i n
    have hlt := n.toNat_lt_size
    change _ ∧ _
    omega

theorem eq_of_datum?_integer (h : a.datum? = some (.integer j m)) :
    (j = .signed ∧ ∃ x : Int64, a = .int x ∧ m = x.toInt) ∨
      j = .unsigned ∧ ∃ x : UInt64, a = .uint x ∧ m = x.toNat := by
  cases a with
  | int x =>
    cases h
    exact .inl ⟨rfl, x, rfl, rfl⟩
  | uint x =>
    cases h
    exact .inr ⟨rfl, x, rfl, rfl⟩
  | _ => cases h

theorem isNull_iff_of_datum? {x : Datum} (h : a.datum? = some x) : a.isNull = true ↔ x = .null := by
  cases a <;> cases h <;> simp [isNull]

/-- Unless both integers are unsigned, the operation is that on signed words. -/
theorem arithmetic?_eq_signed (op : Word.Operation) (ha : a.datum? = some (.integer j m))
    (hb : b.datum? = some (.integer k n)) (hkind : j.meet k = .signed) :
    arithmetic? op a b =
      ((Word.signed? m).bind fun x => (Word.signed? n).bind fun y => op.signed? x y).map .int := by
  rcases eq_of_datum?_integer ha with ⟨rfl, x, rfl, rfl⟩ | ⟨rfl, x, rfl, rfl⟩ <;>
    rcases eq_of_datum?_integer hb with ⟨rfl, y, rfl, rfl⟩ | ⟨rfl, y, rfl, rfl⟩
  · simp [arithmetic?, Word.signed?_toInt]
  · rw [arithmetic?, Word.signed?_toInt]
    cases Word.signed? y.toNat with
    | none => rfl
    | some z => cases h : op.signed? x z <;> simp [h]
  · rw [arithmetic?, Word.signed?_toInt]
    cases Word.signed? x.toNat with
    | none => rfl
    | some z => cases h : op.signed? z y <;> simp [h]
  · cases hkind

theorem arithmetic?_eq_unsigned (op : Word.Operation) (ha : a.datum? = some (.integer j m))
    (hb : b.datum? = some (.integer k n)) (hkind : j.meet k = .unsigned) :
    ∃ x y : UInt64, m = x.toNat ∧ n = y.toNat ∧
      arithmetic? op a b = (op.unsigned? x y).map .uint := by
  rcases eq_of_datum?_integer ha with ⟨rfl, x, rfl, rfl⟩ | ⟨rfl, x, rfl, rfl⟩ <;>
    rcases eq_of_datum?_integer hb with ⟨rfl, y, rfl, rfl⟩ | ⟨rfl, y, rfl, rfl⟩ <;> cases hkind
  exact ⟨x, y, rfl, rfl, rfl⟩

/-- Arithmetic on literals is that on integers. -/
theorem value?_of_arithmetic? {op : Word.Operation} (ha : a.datum? = some (.integer j m))
    (hb : b.datum? = some (.integer k n)) (h : arithmetic? op a b = some v) :
    ∃ i, op.value? m n = some i ∧ v.datum? = some (.integer (j.meet k) i) := by
  cases hkind : j.meet k with
  | signed =>
    rw [arithmetic?_eq_signed op ha hb hkind] at h
    obtain ⟨w, hw, rfl⟩ := Option.map_eq_some_iff.1 h
    obtain ⟨x, hx, hw⟩ := Option.bind_eq_some_iff.1 hw
    obtain ⟨y, hy, hw⟩ := Option.bind_eq_some_iff.1 hw
    rw [← Word.toInt_of_signed? hx, ← Word.toInt_of_signed? hy]
    exact ⟨_, Word.Operation.value?_of_signed? hw, rfl⟩
  | unsigned =>
    obtain ⟨x, y, rfl, rfl, heq⟩ := arithmetic?_eq_unsigned op ha hb hkind
    obtain ⟨w, hw, rfl⟩ := Option.map_eq_some_iff.1 (heq.symm.trans h)
    exact ⟨_, Word.Operation.value?_of_unsigned? hw, rfl⟩

/-- Integers of one kind are compared as they are. -/
theorem compare?_of_kind_eq (ha : a.datum? = some (.integer j m))
    (hb : b.datum? = some (.integer j n)) : a.compare? b = some (compare m n) := by
  rcases eq_of_datum?_integer ha with ⟨rfl, x, rfl, rfl⟩ | ⟨rfl, x, rfl, rfl⟩ <;>
    rcases eq_of_datum?_integer hb with ⟨hj, y, rfl, rfl⟩ | ⟨hj, y, rfl, rfl⟩ <;> cases hj
  · rfl
  · change some (compare x.toNat y.toNat) = _
    rw [Nat.compare_eq_ite_lt, Int.compare_eq_ite_lt]
    simp only [Int.ofNat_lt]

end Literal

/-! Three-valued logic. -/

namespace Datum

theorem combine?_null (op : Operator) {x y : Datum} (h : x = .null ∨ y = .null) :
    combine? op x y = some .null := by
  rcases h with rfl | rfl
  · rfl
  · cases x <;> rfl

variable {f : Bool → Bool → Bool} {p r : Bool}

/-- An operand that decides the result by itself. -/
theorem connective?_left (h : ∀ q, f p q = r) (d : Datum) :
    connective? f (.truth p) d = some (.truth r) := by
  cases d <;> cases r <;> simp [connective?, possible, h]

theorem connective?_right (h : ∀ q, f q p = r) (d : Datum) :
    connective? f d (.truth p) = some (.truth r) := by
  cases d <;> cases r <;> simp [connective?, possible, h]

end Datum

namespace Literal

variable {a b v : Literal} {x y : Datum}

theorem connective?_of_and? (ha : a.datum? = some x) (hb : b.datum? = some y)
    (h : a.and? b = some v) :
    ∃ d, v.datum? = some d ∧ Datum.connective? and x y = some d := by
  revert h
  fun_cases and? a b <;> rintro ⟨⟩
  · cases ha
    exact ⟨_, rfl, Datum.connective?_left Bool.false_and y⟩
  · cases hb
    exact ⟨_, rfl, Datum.connective?_right Bool.and_false x⟩
  all_goals
    cases ha
    cases hb
    refine ⟨_, rfl, ?_⟩
  · rfl
  · rename_i p hp
    rw [eq_true_of_ne_false hp]
    rfl
  · rfl
  · rename_i p hp
    rw [eq_true_of_ne_false hp]
    rfl

theorem connective?_of_or? (ha : a.datum? = some x) (hb : b.datum? = some y)
    (h : a.or? b = some v) :
    ∃ d, v.datum? = some d ∧ Datum.connective? or x y = some d := by
  revert h
  fun_cases or? a b <;> rintro ⟨⟩
  · cases ha
    exact ⟨_, rfl, Datum.connective?_left Bool.true_or y⟩
  · cases hb
    exact ⟨_, rfl, Datum.connective?_right Bool.or_true x⟩
  all_goals
    cases ha
    cases hb
    refine ⟨_, rfl, ?_⟩
  · rfl
  · rename_i p hp
    rw [eq_false_of_ne_true hp]
    rfl
  · rfl
  · rename_i p hp
    rw [eq_false_of_ne_true hp]
    rfl

end Literal

/-! Operators. -/

namespace Operator

variable {op : Operator} {r : Int → Int → Bool} {a b : Literal} {m n : Int}

/-- A comparison operator tests the order of its operands. -/
theorem exists_foldValues?_eq_test? (h : op.relation? = some r) :
    ∃ holds : Ordering → Bool, op.foldValues? = Literal.test? holds ∧
      ∀ m n, r m n = holds (compare m n) := by
  cases op <;> cases h
  all_goals
    refine ⟨_, rfl, fun m n => ?_⟩
    rcases Int.lt_trichotomy m n with hlt | heq | hlt
    · rw [Int.compare_eq_lt.2 hlt]
      first | exact decide_eq_true (by omega) | exact decide_eq_false (by omega)
    · rw [Int.compare_eq_eq.2 heq]
      first | exact decide_eq_true (by omega) | exact decide_eq_false (by omega)
    · rw [Int.compare_eq_gt.2 hlt]
      first | exact decide_eq_true (by omega) | exact decide_eq_false (by omega)

theorem foldValues?_of_compare? (h : op.relation? = some r)
    (hc : a.compare? b = some (compare m n)) :
    op.foldValues? a b = some (.boolean (r m n)) := by
  obtain ⟨holds, hop, hr⟩ := exists_foldValues?_eq_test? h
  rw [hop, Literal.test?, hc, Option.map_some, hr]

theorem isSome_foldValues? (h : op.relation? = some r) (a b : Literal) :
    (op.foldValues? a b).isSome = (a.compare? b).isSome := by
  obtain ⟨holds, hop, -⟩ := exists_foldValues?_eq_test? h
  rw [hop, Literal.test?, Option.isSome_map]

/-- Apart from the logical operators, NULL passes through. -/
theorem fold?_eq_foldValues? (hand : op ≠ .and) (hor : op ≠ .or) (a b : Literal) :
    op.fold? a b = if a.isNull || b.isNull then some .null else op.foldValues? a b := by
  cases op <;> first | rfl | contradiction

theorem fold?_of_integers (hand : op ≠ .and) (hor : op ≠ .or) {j k : Kind}
    (ha : a.datum? = some (.integer j m)) (hb : b.datum? = some (.integer k n)) :
    op.fold? a b = op.foldValues? a b := by
  rw [fold?_eq_foldValues? hand hor, if_neg]
  rw [Bool.or_eq_true, Literal.isNull_iff_of_datum? ha, Literal.isNull_iff_of_datum? hb]
  rintro (h | h) <;> cases h

theorem operator?_eq_combine? (hand : op ≠ .and) (hor : op ≠ .or) (x y : Datum) :
    Datum.operator? op x y = Datum.combine? op x y := by
  cases op <;> first | rfl | contradiction

/-- Apart from the logical operators and the concatenation, operators compare or compute. -/
theorem relation_or_arithmetic (hand : op ≠ .and) (hor : op ≠ .or) (hconcat : op ≠ .concat) :
    (∃ r, op.relation? = some r) ∨
      op.relation? = none ∧ ∃ f : Word.Operation, op.arithmetic? = f.value? ∧
        (f = .modulo ↔ op = .modulo) ∧ ∀ a b, op.foldValues? a b = Literal.arithmetic? f a b := by
  cases op
  case add => exact .inr ⟨rfl, .add, rfl, by decide, fun _ _ => rfl⟩
  case subtract => exact .inr ⟨rfl, .subtract, rfl, by decide, fun _ _ => rfl⟩
  case multiply => exact .inr ⟨rfl, .multiply, rfl, by decide, fun _ _ => rfl⟩
  case divide => exact .inr ⟨rfl, .divide, rfl, by decide, fun _ _ => rfl⟩
  case modulo => exact .inr ⟨rfl, .modulo, rfl, by decide, fun _ _ => rfl⟩
  case and => exact absurd rfl hand
  case or => exact absurd rfl hor
  case concat => exact absurd rfl hconcat
  all_goals exact .inl ⟨_, rfl⟩

variable {v : Literal} {x y : Datum}

/-- What can be compared are two truth values or two integers. -/
theorem combine?_of_compare? (hr : op.relation? = some r) (ha : a.datum? = some x)
    (hb : b.datum? = some y) (hmixed : ¬ a.Mixed b) {o : Ordering} (h : a.compare? b = some o) :
    ∃ m n, o = compare m n ∧ Datum.combine? op x y = some (.truth (r m n)) := by
  -- Other pairs of literals with data have no order, and mixed integers are excluded.
  have hkind : ∀ {j k m n}, x = .integer j m → y = .integer k n → j = k := by
    rintro j k m n rfl rfl
    exact Decidable.not_not.1 fun hne => hmixed ⟨j, m, k, n, ha, hb, hne⟩
  cases a <;> cases ha <;> cases b <;> cases hb <;> try cases h
  · rename_i p q
    refine ⟨p.toNat, q.toNat, ?_, ?_⟩
    · cases p <;> cases q <;> rfl
    · simp [Datum.combine?, hr]
  · rename_i m n
    exact ⟨m.toInt, n.toInt, rfl, by simp [Datum.combine?, hr]⟩
  · cases hkind rfl rfl
  · cases hkind rfl rfl
  · rename_i m n
    have hcompare : (Literal.uint m).compare? (.uint n) = some (compare (m.toNat : Int) n.toNat) :=
      Literal.compare?_of_kind_eq rfl rfl
    exact ⟨m.toNat, n.toNat, Option.some.inj hcompare, by simp [Datum.combine?, hr]⟩

/-- What can be computed with are two integers. -/
theorem combine?_of_arithmetic? {f : Word.Operation} (hnone : op.relation? = none)
    (hf : op.arithmetic? = f.value?) (ha : a.datum? = some x) (hb : b.datum? = some y)
    (h : Literal.arithmetic? f a b = some v) :
    ∃ d, v.datum? = some d ∧ Datum.combine? op x y = some d := by
  have hintegers : ∃ j m k n, x = .integer j m ∧ y = .integer k n := by
    cases a <;> cases ha <;> cases b <;> cases hb <;>
      first | exact ⟨_, _, _, _, rfl, rfl⟩ | cases h
  obtain ⟨j, m, k, n, rfl, rfl⟩ := hintegers
  obtain ⟨i, hi, hv⟩ := Literal.value?_of_arithmetic? ha hb h
  exact ⟨_, hv, by simp [Datum.combine?, hnone, hf, hi]⟩

/-- An operator on literals yields what the reference does. -/
theorem operator?_of_fold? (hconcat : op ≠ .concat) (hmixed : op.relation?.isSome → ¬ a.Mixed b)
    (ha : a.datum? = some x) (hb : b.datum? = some y) (h : op.fold? a b = some v) :
    ∃ d, v.datum? = some d ∧ Datum.operator? op x y = some d := by
  by_cases hand : op = .and
  · subst hand
    exact Literal.connective?_of_and? ha hb h
  by_cases hor : op = .or
  · subst hor
    exact Literal.connective?_of_or? ha hb h
  rw [operator?_eq_combine? hand hor]
  rw [fold?_eq_foldValues? hand hor] at h
  split at h
  · rename_i hnull
    cases h
    rw [Bool.or_eq_true, Literal.isNull_iff_of_datum? ha, Literal.isNull_iff_of_datum? hb] at hnull
    exact ⟨.null, rfl, Datum.combine?_null op hnull⟩
  · rcases relation_or_arithmetic hand hor hconcat with ⟨r, hr⟩ | ⟨hnone, f, hf, -, hvalues⟩
    · have hsome := isSome_foldValues? hr a b
      rw [h] at hsome
      obtain ⟨o, hc⟩ := Option.isSome_iff_exists.1 hsome.symm
      obtain ⟨m, n, rfl, hcombine⟩ := combine?_of_compare? hr ha hb (hmixed (by rw [hr]; rfl)) hc
      rw [foldValues?_of_compare? hr hc] at h
      cases h
      exact ⟨_, rfl, hcombine⟩
    · rw [hvalues] at h
      exact combine?_of_arithmetic? hnone hf ha hb h

end Operator

/-! Functions. -/

theorem foldCall?_coalesce {name : String} (h : name.toLower = "coalesce") (args : List Expr)
    (values : List (Option Literal)) : foldCall? name args values = coalesce? values := by
  simp [foldCall?, h]

/-- A function of literals yields what the reference does, if there is a word for it. -/
structure Literal.Follows (f : Literal → Option Literal) (name : String) : Prop where
  sound : ∀ {l v x}, l.datum? = some x → f l = some v →
    ∃ d, v.datum? = some d ∧ Datum.function? name x = some d
  complete : ∀ {l x d}, l.datum? = some x → x ≠ .null → Datum.function? name x = some d → d.Fits →
    (f l).isSome

namespace Literal

theorem Follows.function?_eq {f : Literal → Option Literal} {name : String} (hf : Follows f name)
    {l v : Literal} {x : Datum} (hl : l.datum? = some x)
    (h : (if l.isNull then some .null else f l) = some v) :
    ∃ d, v.datum? = some d ∧ Datum.function? name x = some d := by
  split at h
  · rename_i hnull
    obtain rfl := (isNull_iff_of_datum? hl).1 hnull
    cases h
    exact ⟨.null, rfl, rfl⟩
  · exact hf.sound hl h

theorem follows_abs? : Follows abs? "abs" where
  sound {l v x} hl h := by
    cases l <;> cases hl
    case null => cases h
    case boolean => cases h
    case int n =>
      obtain ⟨w, hw, rfl⟩ := Option.map_eq_some_iff.1 h
      exact ⟨_, rfl, by simp [Datum.function?, Word.toInt_of_signed? hw]⟩
    case uint n =>
      cases h
      exact ⟨_, rfl, by simp [Datum.function?]⟩
  complete {l x d} hl hx h hfits := by
    cases l <;> cases hl
    case null => exact absurd rfl hx
    case boolean => cases h
    case int n =>
      cases h
      rw [abs?, Option.isSome_map]
      exact Word.isSome_signed?_iff.2 hfits
    case uint n => rfl

/-- A function that leaves integers as they are. -/
theorem follows_of_id {f : Literal → Option Literal} {name : String} (hnull : f .null = none)
    (hboolean : ∀ b, f (.boolean b) = none) (hint : ∀ n, f (.int n) = some (.int n))
    (huint : ∀ n, f (.uint n) = some (.uint n))
    (hname : ∀ k n, Datum.function? name (.integer k n) = some (.integer k n)) :
    Follows f name where
  sound {l v x} hl h := by
    cases l <;> cases hl
    case null => cases hnull.symm.trans h
    case boolean b => cases (hboolean b).symm.trans h
    case int n =>
      cases (hint n).symm.trans h
      exact ⟨_, rfl, hname _ _⟩
    case uint n =>
      cases (huint n).symm.trans h
      exact ⟨_, rfl, hname _ _⟩
  complete {l x d} hl hx h hfits := by
    cases l <;> cases hl
    case null => exact absurd rfl hx
    case boolean => cases h
    case int n =>
      rw [hint]
      rfl
    case uint n =>
      rw [huint]
      rfl

theorem follows_floor? : Follows floor? "floor" :=
  follows_of_id rfl (fun _ => rfl) (fun _ => rfl) (fun _ => rfl)
    fun _ _ => by simp [Datum.function?]

theorem follows_ceiling? : Follows ceiling? "ceiling" :=
  follows_of_id rfl (fun _ => rfl) (fun _ => rfl) (fun _ => rfl)
    fun _ _ => by simp [Datum.function?]

end Literal

/-- The functions of one argument. -/
theorem foldCall?_unary {name : String} (h : name.toLower ∈ ["coalesce", "abs", "floor", "ceiling"])
    (hne : name.toLower ≠ "coalesce") :
    ∃ f, Literal.Follows f name.toLower ∧
      ∀ args values, foldCall? name args values = applyUnary? f values := by
  simp only [List.mem_cons, List.not_mem_nil, or_false] at h
  rcases h with h | h | h | h
  · exact absurd h hne
  · exact ⟨_, h ▸ Literal.follows_abs?, fun args values => by simp [foldCall?, h]⟩
  · exact ⟨_, h ▸ Literal.follows_floor?, fun args values => by simp [foldCall?, h]⟩
  · exact ⟨_, h ▸ Literal.follows_ceiling?, fun args values => by simp [foldCall?, h]⟩

theorem eq_of_applyUnary? {f : Literal → Option Literal} {ctx : Context} {args : List Expr}
    {v : Literal} (h : applyUnary? f (foldEach? ctx args) = some v) :
    ∃ e l, args = [e] ∧ e.fold? ctx = some l ∧ (if l.isNull then some .null else f l) = some v := by
  cases args with
  | nil => cases h
  | cons e es =>
    rw [foldEach?] at h
    cases es with
    | nil =>
      cases hl : e.fold? ctx with
      | none =>
        rw [hl] at h
        cases h
      | some l =>
        rw [hl] at h
        exact ⟨e, l, rfl, hl, h⟩
    | cons e' es =>
      rw [foldEach?] at h
      simp [applyUnary?] at h

/-! Expressions. -/

namespace Expr

variable {ctx : Context} {e : Expr} {v : Literal}

/-- The literal is the value of the expression, whatever the fields hold. -/
def Constant (ctx : Context) (e : Expr) (v : Literal) : Prop :=
  ∃ d, v.datum? = some d ∧ ∀ ρ, e.evaluate? ctx ρ = some d

theorem evaluateFirst?_of_coalesce? {args : List Expr}
    (ih : ∀ a ∈ args, ∀ v, a.fold? ctx = some v → a.Constant ctx v)
    (h : coalesce? (foldEach? ctx args) = some v) :
    ∃ d, v.datum? = some d ∧ ∀ ρ, evaluateFirst? ctx ρ args = some d := by
  induction args with
  | nil =>
    cases h
    exact ⟨.null, rfl, fun ρ => by rw [evaluateFirst?]⟩
  | cons a args ihargs =>
    rw [foldEach?] at h
    cases hl : a.fold? ctx with
    | none =>
      rw [hl] at h
      cases h
    | some l =>
      obtain ⟨d, hd, heval⟩ := ih a List.mem_cons_self l hl
      rw [hl, coalesce?] at h
      split at h
      · rename_i hnull
        obtain rfl := (Literal.isNull_iff_of_datum? hd).1 hnull
        obtain ⟨d, hd, hrest⟩ := ihargs (fun b hb => ih b (List.mem_cons_of_mem a hb)) h
        exact ⟨d, hd, fun ρ => by simp [evaluateFirst?, heval, hrest]⟩
      · rename_i hnull
        have hne : d ≠ .null := fun heq => hnull ((Literal.isNull_iff_of_datum? hd).2 heq)
        cases h
        exact ⟨d, hd, fun ρ => by simp [evaluateFirst?, heval, hne]⟩

theorem foldCall?_of_fold?_call {name : String} {t : DataType} {args : List Expr}
    {flags : CallFlags} (h : fold? ctx (.call name t args flags) = some v) :
    foldCall? name args (foldEach? ctx args) = some v := by
  rw [fold?] at h
  split at h
  · exact h
  · cases h

theorem evaluate?_call (ρ : FieldRef → Datum) (name : String) (t : DataType) (args : List Expr)
    (flags : CallFlags) :
    evaluate? ctx ρ (.call name t args flags) =
      if name.toLower = "coalesce" then evaluateFirst? ctx ρ args
      else evaluateSole? ctx ρ name.toLower args := by
  rw [evaluate?]

/-- An expression that folds has one value. -/
theorem Integral.constant (he : e.Integral ctx) (h : e.fold? ctx = some v) : e.Constant ctx v := by
  induction he generalizing v with
  | value l t hl =>
    obtain ⟨d, hd⟩ := Option.isSome_iff_exists.1 hl
    rw [fold?] at h
    cases h
    exact ⟨d, hd, fun ρ => by rw [evaluate?, hd]⟩
  | parameter p hp =>
    obtain ⟨d, hd⟩ := Option.isSome_iff_exists.1 hp
    rw [fold?] at h
    cases h
    exact ⟨d, hd, fun ρ => by rw [evaluate?, hd]⟩
  | field f =>
    rw [fold?] at h
    cases h
  | binary hconcat _ _ hmixed ihl ihr =>
    rw [fold?] at h
    obtain ⟨a, ha, h⟩ := Option.bind_eq_some_iff.1 h
    obtain ⟨b, hb, h⟩ := Option.bind_eq_some_iff.1 h
    obtain ⟨x, hx, hl⟩ := ihl ha
    obtain ⟨y, hy, hr⟩ := ihr hb
    obtain ⟨d, hd, hoperator⟩ :=
      Operator.operator?_of_fold? hconcat (fun hop => hmixed hop a b ha hb) hx hy h
    exact ⟨d, hd, fun ρ => by simp [evaluate?, hl, hr, hoperator]⟩
  | @call name t args flags hname _ _ ih =>
    have hcall := foldCall?_of_fold?_call h
    by_cases hcoalesce : name.toLower = "coalesce"
    · rw [foldCall?_coalesce hcoalesce] at hcall
      obtain ⟨d, hd, hfirst⟩ := evaluateFirst?_of_coalesce? (fun a ha v => ih a ha) hcall
      exact ⟨d, hd, fun ρ => by rw [evaluate?_call, if_pos hcoalesce, hfirst]⟩
    · obtain ⟨f, hf, hunary⟩ := foldCall?_unary hname hcoalesce
      rw [hunary] at hcall
      obtain ⟨a, l, rfl, hl, hvalue⟩ := eq_of_applyUnary? hcall
      obtain ⟨x, hx, heval⟩ := ih a List.mem_cons_self hl
      obtain ⟨d, hd, hfunction⟩ := hf.function?_eq hx hvalue
      exact ⟨d, hd, fun ρ => by
        rw [evaluate?_call, if_neg hcoalesce]
        simp [evaluateSole?, heval, hfunction]⟩

/-! Parts that are needed. -/

theorem isSome_fold?_of_coalesce? {ρ : FieldRef → Datum} {before after : List Expr} {x : Expr}
    (hintegral : ∀ y ∈ before, y.Integral ctx)
    (hnull : ∀ y ∈ before, y.evaluate? ctx ρ = some .null)
    (h : coalesce? (foldEach? ctx (before ++ x :: after)) = some v) : (x.fold? ctx).isSome := by
  induction before with
  | nil =>
    rw [List.nil_append, foldEach?] at h
    cases hx : x.fold? ctx with
    | none =>
      rw [hx] at h
      cases h
    | some l => rfl
  | cons y before ih =>
    rw [List.cons_append, foldEach?] at h
    cases hl : y.fold? ctx with
    | none =>
      rw [hl] at h
      cases h
    | some l =>
      obtain ⟨d, hd, heval⟩ := (hintegral y List.mem_cons_self).constant hl
      have hdnull : d = .null :=
        Option.some.inj ((heval ρ).symm.trans (hnull y List.mem_cons_self))
      rw [hl, coalesce?, if_pos ((Literal.isNull_iff_of_datum? hd).2 hdnull)] at h
      exact ih (fun z hz => hintegral z (List.mem_cons_of_mem y hz))
        (fun z hz => hnull z (List.mem_cons_of_mem y hz)) h

/-- If an expression folds, so does every part that is needed. -/
theorem Integral.of_needs {ρ : FieldRef → Datum} {a : Expr} (he : e.Integral ctx)
    (hneeds : e.Needs ctx ρ a) (h : (e.fold? ctx).isSome) :
    a.Integral ctx ∧ (a.fold? ctx).isSome := by
  -- By induction on the way down to the part: the next expression on it folds as well.
  induction hneeds with
  | self e => exact ⟨he, h⟩
  | left _ ih =>
    cases he with
    | binary _ hl _ _ =>
      obtain ⟨v, hv⟩ := Option.isSome_iff_exists.1 h
      rw [fold?] at hv
      obtain ⟨x, hx, _⟩ := Option.bind_eq_some_iff.1 hv
      exact ih hl (Option.isSome_iff_exists.2 ⟨x, hx⟩)
  | right _ ih =>
    cases he with
    | binary _ _ hr _ =>
      obtain ⟨v, hv⟩ := Option.isSome_iff_exists.1 h
      rw [fold?] at hv
      obtain ⟨_, _, hv⟩ := Option.bind_eq_some_iff.1 hv
      obtain ⟨y, hy, _⟩ := Option.bind_eq_some_iff.1 hv
      exact ih hr (Option.isSome_iff_exists.2 ⟨y, hy⟩)
  | argument hne hx _ ih =>
    cases he with
    | call hname _ hargs =>
      obtain ⟨v, hv⟩ := Option.isSome_iff_exists.1 h
      obtain ⟨f, _, hunary⟩ := foldCall?_unary hname hne
      have hcall := foldCall?_of_fold?_call hv
      rw [hunary] at hcall
      obtain ⟨b, l, rfl, hl, _⟩ := eq_of_applyUnary? hcall
      obtain rfl := List.mem_singleton.1 hx
      exact ih (hargs _ hx) (Option.isSome_iff_exists.2 ⟨l, hl⟩)
  | alternative hcoalesce hnull _ ih =>
    cases he with
    | call _ _ hargs =>
      obtain ⟨v, hv⟩ := Option.isSome_iff_exists.1 h
      have hcall := foldCall?_of_fold?_call hv
      rw [foldCall?_coalesce hcoalesce] at hcall
      have hbefore := fun y hy => hargs y (List.mem_append_left _ hy)
      exact ih (hargs _ (List.mem_append_right _ List.mem_cons_self))
        (isSome_fold?_of_coalesce? hbefore hnull hcall)

end Expr

end SqlTree

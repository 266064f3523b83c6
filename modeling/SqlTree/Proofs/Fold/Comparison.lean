import SqlTree.Proofs.Fold.Soundness
import SqlTree.Proofs.Number.Double

/-! # Comparisons of integers

Integers of one kind are compared exactly. A signed and an unsigned integer are compared as doubles,
so they count as equal if they have the same neighbour of 53 bits.

Main definitions:

* `Kind.compared`: what an integer counts as beside another one.

Main statements:

* `Literal.compare?_of_kind_ne`: the order of a signed and an unsigned integer.
* `Expr.fold?_comparison`: what comparisons fold to, and when this is exact.
-/

namespace SqlTree

namespace Literal

variable {a b : Literal} {j k : Kind} {m n : Int}

theorem natAbs_lt_of_datum? (h : a.datum? = some (.integer j m)) : m.natAbs < 2 ^ 64 := by
  rcases eq_of_datum?_integer h with ⟨_, x, _, rfl⟩ | ⟨_, x, _, rfl⟩
  · have hlow := x.le_toInt
    have hhigh := x.toInt_lt
    omega
  · have hlt := x.toNat_lt
    omega

/-- Integers of different kinds are compared as doubles. -/
theorem compare?_of_kind_ne (ha : a.datum? = some (.integer j m))
    (hb : b.datum? = some (.integer k n)) (hne : j ≠ k) :
    a.compare? b = some (compare (Binary64.nearest m) (Binary64.nearest n)) := by
  rw [← Binary64.compare?_ofInt (natAbs_lt_of_datum? ha) (natAbs_lt_of_datum? hb)]
  rcases eq_of_datum?_integer ha with ⟨rfl, x, rfl, rfl⟩ | ⟨rfl, x, rfl, rfl⟩ <;>
    rcases eq_of_datum?_integer hb with ⟨rfl, y, rfl, rfl⟩ | ⟨rfl, y, rfl, rfl⟩
  · exact absurd rfl hne
  · rfl
  · rfl
  · exact absurd rfl hne

end Literal

/-- An integer as it is compared: as it is by one of its own kind, and by another as its neighbour
of 53 bits. -/
def Kind.compared (j k : Kind) (n : Int) : Int := if j = k then n else Binary64.nearest n

theorem Literal.compare?_integers {a b : Literal} {j k : Kind} {m n : Int}
    (ha : a.datum? = some (.integer j m)) (hb : b.datum? = some (.integer k n)) :
    a.compare? b = some (compare (j.compared k m) (j.compared k n)) := by
  unfold Kind.compared
  split
  · rename_i h
    subst h
    exact compare?_of_kind_eq ha hb
  · rename_i h
    exact compare?_of_kind_ne ha hb h

namespace Expr

variable {ctx : Context} {l r : Expr} {a b : Literal} {j k : Kind} {m n : Int}

section

variable (hl : l.fold? ctx = some a) (hr : r.fold? ctx = some b)
  (ha : a.datum? = some (.integer j m)) (hb : b.datum? = some (.integer k n))

include hl hr ha hb

/-- A comparison of integers follows the order of these. -/
theorem fold?_of_compare? {m' n' : Int} (hc : a.compare? b = some (compare m' n')) {op : Operator}
    {f : Int → Int → Bool} (hop : op.relation? = some f) (p : Int) (t : DataType)
    (nullable : Bool) :
    fold? ctx (.binary op l r p t nullable) = some (.boolean (f m' n')) := by
  have hand : op ≠ .and := by
    rintro rfl
    cases hop
  have hor : op ≠ .or := by
    rintro rfl
    cases hop
  rw [fold?, hl, hr]
  exact (Operator.fold?_of_integers hand hor ha hb).trans (Operator.foldValues?_of_compare? hop hc)

/-- All comparisons are exact if and only if the neighbours differ where they count. -/
theorem fold?_exact_iff :
    (∀ op f p t nullable, Operator.relation? op = some f →
      fold? ctx (.binary op l r p t nullable) = some (.boolean (f m n))) ↔
        j = k ∨ m = n ∨ Binary64.nearest m ≠ Binary64.nearest n := by
  have hc := Literal.compare?_integers ha hb
  constructor
  · intro h
    by_cases hkind : j = k
    · exact .inl hkind
    · rw [Kind.compared, Kind.compared, if_neg hkind, if_neg hkind] at hc
      have hequal := (fold?_of_compare? hl hr ha hb hc rfl 0 .boolean false).symm.trans
        (h .equal _ 0 .boolean false rfl)
      simp only [Option.some.injEq, Literal.boolean.injEq, decide_eq_decide] at hequal
      refine .inr (Decidable.or_iff_not_imp_right.2 fun hnearest => ?_)
      exact hequal.1 (Decidable.not_not.1 hnearest)
  · intro h op f p t nullable hop
    have hexact : a.compare? b = some (compare m n) := by
      rw [hc]
      rcases h with rfl | h
      · rw [Kind.compared, Kind.compared, if_pos rfl, if_pos rfl]
      · unfold Kind.compared
        split
        · rfl
        · rw [(Binary64.compare_nearest_iff m n).2 h]
    exact fold?_of_compare? hl hr ha hb hexact hop p t nullable

/-- A comparison of two integers is that of the integers themselves if they are of one kind, and
that of their neighbours of 53 bits otherwise. All six comparisons are exact if and only if the
integers are of one kind, are equal, or have different neighbours; up to `2 ^ 53` they are. -/
theorem fold?_comparison :
    (∀ op f p t nullable, Operator.relation? op = some f →
      fold? ctx (.binary op l r p t nullable) =
        some (.boolean (f (j.compared k m) (j.compared k n)))) ∧
    ((∀ op f p t nullable, Operator.relation? op = some f →
      fold? ctx (.binary op l r p t nullable) = some (.boolean (f m n))) ↔
        j = k ∨ m = n ∨ Binary64.nearest m ≠ Binary64.nearest n) ∧
    (m.natAbs ≤ 2 ^ 53 → n.natAbs ≤ 2 ^ 53 →
      m = n ∨ Binary64.nearest m ≠ Binary64.nearest n) := by
  refine ⟨fun op f p t nullable hop => ?_, fold?_exact_iff hl hr ha hb, fun hm hn => ?_⟩
  · exact fold?_of_compare? hl hr ha hb (Literal.compare?_integers ha hb) hop p t nullable
  · rw [Binary64.nearest_eq_self hm, Binary64.nearest_eq_self hn]
    exact Decidable.em _

end

end Expr

namespace Sample

/-- A signed integer beside an unsigned one. -/
def mixed (op : Operator) (m : Int64) (n : UInt64) : Expr :=
  .operation op (.literal (.int m)) (.literal (.uint n)) .boolean

/-- Neighbours on either side of a tie. -/
theorem fold?_tie :
    (Literal.int 9007199254740993).datum? = some (.integer .signed 9007199254740993) ∧
      (mixed .less 9007199254740993 9007199254740994).fold? {} = some (.boolean true) := by
  have hl : (Expr.literal (.int 9007199254740993)).fold? {} = some (.int 9007199254740993) := rfl
  have ha : (Literal.int 9007199254740993).datum? = some (.integer .signed 9007199254740993) := rfl
  have h := Expr.fold?_comparison (r := .literal (.uint 9007199254740994)) hl rfl ha rfl
  exact ⟨ha, h.2.1.2 (by decide) .less _ _ _ _ rfl⟩

/-- The least two natural numbers with one neighbour count as equal if they are of different
kinds. -/
theorem fold?_neighbours :
    (mixed .equal 9007199254740993 9007199254740992).fold? {} = some (.boolean true) ∧
      (mixed .less 9007199254740992 9007199254740993).fold? {} = some (.boolean false) := by
  constructor
  · have hc := Literal.compare?_integers (a := .int 9007199254740993)
      (b := .uint 9007199254740992) rfl rfl
    exact Expr.fold?_of_compare? (f := fun m n => decide (m = n)) rfl rfl rfl rfl hc rfl _ _ _
  · have hc := Literal.compare?_integers (a := .int 9007199254740992)
      (b := .uint 9007199254740993) rfl rfl
    exact Expr.fold?_of_compare? (f := fun m n => decide (m < n)) rfl rfl rfl rfl hc rfl _ _ _

end Sample

end SqlTree

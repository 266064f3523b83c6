import SqlTree.Proofs.Semantics.Basic

/-! # Three-valued logic

A condition is true, false or unknown. In an engine with this logic NULL stands for the unknown
truth value: a comparison with NULL is unknown, conjunction and disjunction follow the tables of the
three truth values, and only the test for NULL tells NULL apart.

Main definitions:

* `Truth`: the truth values, with `Truth.and` and `Truth.or`.
* `Engine.ThreeValued`: an engine that computes with them.
* `Expr.HoldsIff`: an expression with a truth value, and when it is true.

Main statements:

* `Engine.threeValued_integers`: the engine of integers and NULL.
* `Expr.HoldsIff.nullSafeEq`, `Expr.HoldsIff.foldl_and`: null-safe equality, and conjunctions.
-/

namespace SqlTree

inductive Truth where
  | yes
  | no
  | unknown
deriving DecidableEq, Repr

namespace Truth

/-- Conjunction: a side that is false decides. -/
def and : Truth → Truth → Truth
  | .no, _ => .no
  | _, .no => .no
  | .yes, .yes => .yes
  | _, _ => .unknown

/-- Disjunction: a side that is true decides. -/
def or : Truth → Truth → Truth
  | .yes, _ => .yes
  | _, .yes => .yes
  | .no, .no => .no
  | _, _ => .unknown

@[simp] theorem and_eq_yes {p q : Truth} : p.and q = .yes ↔ p = .yes ∧ q = .yes := by
  cases p <;> cases q <;> decide

@[simp] theorem or_eq_yes {p q : Truth} : p.or q = .yes ↔ p = .yes ∨ q = .yes := by
  cases p <;> cases q <;> decide

end Truth

namespace Engine

variable {V : Type}

/-- The value of the engine that stands for a truth value. -/
def truth (e : Engine V) : Truth → V
  | .yes => e.boolean true
  | .no => e.boolean false
  | .unknown => e.null

/-- The engine computes with the three truth values. Values that are not NULL are equal if they are
the same. -/
structure ThreeValued [DecidableEq V] (e : Engine V) : Prop where
  isTrue_null : e.isTrue e.null = false
  and_truth : ∀ p q, e.operator .and (e.truth p) (e.truth q) = some (e.truth (p.and q))
  or_truth : ∀ p q, e.operator .or (e.truth p) (e.truth q) = some (e.truth (p.or q))
  equal_null : ∀ a b, a = e.null ∨ b = e.null → e.operator .equal a b = some e.null
  equal_value : ∀ a b, a ≠ e.null → b ≠ e.null →
    e.operator .equal a b = some (e.boolean (decide (a = b)))
  text_isNull : ∀ a, e.text Expr.isNullFormat [a] = some (e.boolean (decide (a = e.null)))

theorem ThreeValued.isTrue_truth [DecidableEq V] {e : Engine V} (h : e.ThreeValued) {p : Truth} :
    e.isTrue (e.truth p) = true ↔ p = .yes := by
  cases p <;> simp [truth, e.isTrue_boolean, h.isTrue_null]

theorem exists_truth_eq_boolean (e : Engine V) (b : Bool) :
    ∃ p, e.truth p = e.boolean b ∧ (p = .yes ↔ b = true) := by
  cases b with
  | true => exact ⟨.yes, rfl, by simp⟩
  | false => exact ⟨.no, rfl, by simp⟩

theorem threeValued_integers : integers.ThreeValued where
  isTrue_null := rfl
  and_truth p q := by cases p <;> cases q <;> rfl
  or_truth p q := by cases p <;> cases q <;> rfl
  equal_null a b h := by
    rcases h with rfl | rfl
    · rfl
    · cases a <;> rfl
  equal_value a b ha hb := by
    obtain ⟨m, rfl⟩ := Option.ne_none_iff_exists'.1 ha
    obtain ⟨n, rfl⟩ := Option.ne_none_iff_exists'.1 hb
    simp [integers, Value.operator, Value.operation?]
  text_isNull a := by cases a <;> rfl

end Engine

namespace Expr

variable {V : Type} [DecidableEq V] {db : Database V} {env : Env V} {left right : Expr} {a b : V}

theorem eval_operation {op : Operator} {t : DataType} (hl : left.eval db env = some a)
    (hr : right.eval db env = some b) :
    (operation op left right t).eval db env = db.engine.operator op a b := by
  simp [operation, Expr.eval, hl, hr]

/-- The expression has a truth value, which is true if and only if `p` holds. -/
def HoldsIff (db : Database V) (env : Env V) (e : Expr) (p : Prop) : Prop :=
  ∃ v : Truth, e.eval db env = some (db.engine.truth v) ∧ (v = .yes ↔ p)

namespace HoldsIff

variable {p q : Prop}

theorem of_boolean {e : Expr} {b : Bool} (h : e.eval db env = some (db.engine.boolean b)) :
    e.HoldsIff db env (b = true) := by
  obtain ⟨v, hv, hyes⟩ := db.engine.exists_truth_eq_boolean b
  exact ⟨v, hv ▸ h, hyes⟩

variable (logic : db.engine.ThreeValued)

include logic

theorem and (hl : left.HoldsIff db env p) (hr : right.HoldsIff db env q) :
    (Expr.and left right).HoldsIff db env (p ∧ q) := by
  obtain ⟨v, hv, hp⟩ := hl
  obtain ⟨w, hw, hq⟩ := hr
  refine ⟨v.and w, ?_, by simp [hp, hq]⟩
  rw [Expr.and, eval_operation hv hw, logic.and_truth]

theorem or (hl : left.HoldsIff db env p) (hr : right.HoldsIff db env q) :
    (Expr.or left right).HoldsIff db env (p ∨ q) := by
  obtain ⟨v, hv, hp⟩ := hl
  obtain ⟨w, hw, hq⟩ := hr
  refine ⟨v.or w, ?_, by simp [hp, hq]⟩
  rw [Expr.or, eval_operation hv hw, logic.or_truth]

theorem isNull (hl : left.eval db env = some a) :
    left.isNull.HoldsIff db env (a = db.engine.null) := by
  have hkeys : SqlTree.rowNumberKeys? isNullFormat = none := by decide +kernel
  have heval : left.isNull.eval db env =
      some (db.engine.boolean (decide (a = db.engine.null))) := by
    simp [Expr.isNull, Expr.eval, evalExprs, hkeys, hl, logic.text_isNull]
  simpa using of_boolean heval

/-- Plain equality is unknown if a side is NULL. -/
theorem eq (hl : left.eval db env = some a) (hr : right.eval db env = some b) :
    (Expr.eq left right).HoldsIff db env (a = b ∧ a ≠ db.engine.null) := by
  have heval : (Expr.eq left right).eval db env = db.engine.operator .equal a b :=
    eval_operation hl hr
  by_cases hnull : a = db.engine.null ∨ b = db.engine.null
  · rw [logic.equal_null a b hnull] at heval
    refine ⟨.unknown, heval, ?_⟩
    grind
  · rw [not_or] at hnull
    rw [logic.equal_value a b hnull.1 hnull.2] at heval
    simpa [hnull.1] using of_boolean heval

/-- Null-safe equality holds of equal values, unless both are NULL and a side was said never to
be. -/
theorem nullSafeEq (hl : left.eval db env = some a) (hr : right.eval db env = some b)
    (hnull : left.canBeNull = false ∨ right.canBeNull = false →
      a ≠ db.engine.null ∨ b ≠ db.engine.null) :
    (Expr.nullSafeEq left right).HoldsIff db env (a = b) := by
  have heq := eq logic hl hr
  unfold Expr.nullSafeEq
  split
  · have hboth := (isNull logic hl).and logic (isNull logic hr)
    obtain ⟨v, hv, hyes⟩ := heq.or logic hboth
    refine ⟨v, hv, hyes.trans ?_⟩
    grind
  · obtain ⟨v, hv, hyes⟩ := heq
    refine ⟨v, hv, hyes.trans ?_⟩
    grind

theorem foldl_and {α : Type} {condition : α → Expr} {P : α → Prop} {xs : List α} {c : Expr}
    (hc : c.HoldsIff db env p) (h : ∀ x ∈ xs, (condition x).HoldsIff db env (P x)) :
    ((xs.map condition).foldl Expr.and c).HoldsIff db env (p ∧ ∀ x ∈ xs, P x) := by
  induction xs generalizing c p with
  | nil => simpa using hc
  | cons x xs ih =>
    have hand := ih (hc.and logic (h x List.mem_cons_self))
      fun y hy => h y (List.mem_cons_of_mem x hy)
    simpa [and_assoc] using hand

end HoldsIff

end Expr

end SqlTree

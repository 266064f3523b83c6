import SqlTree.Query
import Mathlib.Data.List.Pairwise

/-! # What identifies the rows of a source

The key of a table comes from a stable sort. What is asked of it, that it is in the order of the
positions and keeps the order of the declarations under one position, leaves no choice.

Main definitions:

* `Table.IsKey`, `Source.IsKey`: the fields or expressions that identify a row.

Main statements:

* `Table.isKey_iff`, `Source.isKey_iff`: they are those that are computed.
-/

namespace SqlTree

section Sorted

variable {α : Type} {key : α → Nat}

theorem mem_iff_of_filter_key_eq {xs ys : List α}
    (h : ∀ k, xs.filter (fun x => key x == k) = ys.filter fun x => key x == k) (x : α) :
    x ∈ xs ↔ x ∈ ys := by
  have hx : x ∈ xs.filter (fun y => key y == key x) ↔ x ∈ ys.filter fun y => key y == key x := by
    rw [h (key x)]
  simpa [List.mem_filter] using hx

/-- Two lists in the order of a key that agree on the elements under each key are equal. -/
theorem eq_of_filter_key_eq {xs ys : List α} (hxs : xs.Pairwise fun x y => key x ≤ key y)
    (hys : ys.Pairwise fun x y => key x ≤ key y)
    (h : ∀ k, xs.filter (fun x => key x == k) = ys.filter fun x => key x == k) : xs = ys := by
  have hmem := mem_iff_of_filter_key_eq h
  induction xs generalizing ys with
  | nil => exact (List.eq_nil_iff_forall_not_mem.2 fun y hy => by simpa using (hmem y).2 hy).symm
  | cons x xs ih =>
    cases ys with
    | nil => simpa using (hmem x).1 List.mem_cons_self
    | cons y ys =>
      obtain ⟨hx, hxs'⟩ := List.pairwise_cons.1 hxs
      obtain ⟨hy, hys'⟩ := List.pairwise_cons.1 hys
      -- Each of the first elements is in the other list, so neither key is larger.
      have hkey : key x = key y := by
        have hxy := (hmem x).1 List.mem_cons_self
        have hyx := (hmem y).2 List.mem_cons_self
        grind
      have hfirst : x = y := by
        simpa [hkey] using congrArg List.head? (h (key y))
      subst hfirst
      have hrest : ∀ k, xs.filter (fun x => key x == k) = ys.filter fun x => key x == k := by
        intro k
        have hk := h k
        grind
      rw [ih hxs' hys' hrest (mem_iff_of_filter_key_eq hrest)]

end Sorted

/-- A stable sort keeps the order of elements that need not be exchanged. -/
theorem filter_mergeSort {α : Type} {le : α → α → Bool} {p : α → Bool}
    (trans : ∀ a b c, le a b → le b c → le a c) (total : ∀ a b, le a b || le b a)
    (h : ∀ a b, p a → p b → le a b) (l : List α) : (l.mergeSort le).filter p = l.filter p := by
  have hpairwise : (l.filter p).Pairwise fun a b => le a b := by
    refine List.pairwise_of_forall_mem_list fun a ha b hb => ?_
    exact h a b (List.mem_filter.1 ha).2 (List.mem_filter.1 hb).2
  have hsublist : (l.filter p).Sublist ((l.mergeSort le).filter p) := by
    simpa using (List.sublist_mergeSort trans total hpairwise List.filter_sublist).filter p
  have hlength : (l.filter p).length = ((l.mergeSort le).filter p).length :=
    ((List.mergeSort_perm l le).filter p).length_eq.symm
  exact (hsublist.eq_of_length hlength).symm

/-- The fields that identify a row of the table, in the order they are listed in: those that a key
is declared of, by their position in it and under one position as they are declared, or all fields
if no key is declared. -/
inductive Table.IsKey (t : Table) : List Field → Prop
  | undeclared (h : ∀ f ∈ t.fields, f.keyOrdinal.isNone) : IsKey t t.fields
  | declared {fs : List Field} (h : ∃ f ∈ t.fields, f.keyOrdinal.isSome)
      (hmembers : ∀ f ∈ fs, f.keyOrdinal.isSome)
      (hsorted : fs.Pairwise fun f g => f.keyOrdinal.getD 0 ≤ g.keyOrdinal.getD 0)
      (hstable : ∀ n, fs.filter (fun f => f.keyOrdinal == some n) =
        t.fields.filter fun f => f.keyOrdinal == some n) : IsKey t fs

namespace Table

variable {t : Table} {fs : List Field}

theorem keyFields_of_undeclared (h : ∀ f ∈ t.fields, f.keyOrdinal.isNone) :
    t.keyFields = t.fields := by
  have hnone : t.fields.filter (·.keyOrdinal.isSome) = [] := by
    simpa [List.filter_eq_nil_iff] using h
  unfold keyFields
  rw [hnone]

theorem keyFields_of_declared (h : ∃ f ∈ t.fields, f.keyOrdinal.isSome) :
    t.keyFields = (t.fields.filter (·.keyOrdinal.isSome)).mergeSort keyLe := by
  unfold keyFields
  split
  · rename_i hnone
    obtain ⟨f, hf, hkey⟩ := h
    exact absurd hkey (List.filter_eq_nil_iff.1 hnone f hf)
  · rfl

theorem isKey_keyFields (t : Table) : t.IsKey t.keyFields := by
  by_cases h : ∃ f ∈ t.fields, f.keyOrdinal.isSome
  case neg =>
    have hnone : ∀ f ∈ t.fields, f.keyOrdinal.isNone := by simpa using h
    rw [keyFields_of_undeclared hnone]
    exact .undeclared hnone
  case pos =>
    have htrans : ∀ a b c : Field, keyLe a b → keyLe b c → keyLe a c := by
      simp only [keyLe, decide_eq_true_eq]
      omega
    have htotal : ∀ a b : Field, keyLe a b || keyLe b a := by
      intro a b
      simpa [keyLe] using Nat.le_total _ _
    rw [keyFields_of_declared h]
    refine .declared h ?_ ?_ fun n => ?_
    · intro f hf
      exact (List.mem_filter.1 (List.mem_mergeSort.1 hf)).2
    · have hsorted := List.pairwise_mergeSort htrans htotal
        (t.fields.filter (·.keyOrdinal.isSome))
      simpa [keyLe] using hsorted
    · have hclass : ∀ a b : Field, a.keyOrdinal == some n → b.keyOrdinal == some n → keyLe a b := by
        simp only [beq_iff_eq, keyLe]
        intro a b ha hb
        simp [ha, hb]
      rw [filter_mergeSort htrans htotal hclass, List.filter_filter]
      refine List.filter_congr fun f _ => ?_
      cases f.keyOrdinal <;> simp

/-- The key is determined by what is said of it. -/
theorem isKey_iff : t.IsKey fs ↔ fs = t.keyFields := by
  refine ⟨fun h => ?_, fun h => h ▸ t.isKey_keyFields⟩
  have hposition : ∀ {gs : List Field}, (∀ f ∈ gs, f.keyOrdinal.isSome) → ∀ n,
      gs.filter (fun f => f.keyOrdinal.getD 0 == n) =
        gs.filter fun f => f.keyOrdinal == some n := by
    intro gs hgs n
    refine List.filter_congr fun f hf => ?_
    obtain ⟨m, hm⟩ := Option.isSome_iff_exists.1 (hgs f hf)
    simp [hm]
  cases h with
  | undeclared h => exact (keyFields_of_undeclared h).symm
  | declared h hmembers hsorted hstable =>
    have hkey := t.isKey_keyFields
    generalize hks : t.keyFields = ks at hkey
    cases hkey with
    | undeclared hnone =>
      obtain ⟨f, hf, hkey⟩ := h
      simp [Option.isNone_iff_eq_none.1 (hnone f hf)] at hkey
    | declared _ hmembers' hsorted' hstable' =>
      refine eq_of_filter_key_eq hsorted hsorted' fun n => ?_
      rw [hposition hmembers, hposition hmembers', hstable, hstable']

end Table

/-- The expressions that identify a row of the source: references to the key of its table, or to all
columns of its derived table. -/
def Source.IsKey (s : Source) (es : List Expr) : Prop :=
  match s.origin with
  | .table t => ∃ fs, t.IsKey fs ∧ es = fs.map fun f =>
      .field { source := s.id, name := f.name, dataType := f.dataType, nullable := f.nullable }
  | .query q => es = q.columns.mapIdx fun index c =>
      .column { query := q.id, index, dataType := c.dataType }

theorem Source.isKey_iff {s : Source} {es : List Expr} : s.IsKey es ↔ es = s.keyExprs := by
  unfold IsKey keyExprs
  cases s.origin with
  | table t =>
    simp only [Table.isKey_iff, exists_eq_left]
    rfl
  | query q => rfl

end SqlTree

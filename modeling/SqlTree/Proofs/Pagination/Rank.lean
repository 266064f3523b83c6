import SqlTree.Proofs.Semantics.Basic
import Mathlib.Data.List.Nodup

/-! # Ranks

To sort rows, to skip the first of them and to take some is the same as to number the rows in their
order, to keep those with a number in a range and to sort them by their numbers.

Main definitions:

* `inPage`: the places that bounds leave over.

Main statements:

* `Engine.rank_perm`: elements with their ranks are the sorted elements with their places.
* `Engine.mergeSort_filter_rank`: selecting and sorting by ranks yields a page of the sorted
  elements.
-/

namespace SqlTree

variable {α V : Type}

/-- The element at the place is not skipped and is among those to take. -/
def inPage (skip : Nat) (take : Option Nat) (place : Nat) : Bool :=
  decide (skip ≤ place) && take.all fun n => decide (place < skip + n)

/-- The elements at places within the bounds are those that the bounds leave over. -/
theorem filter_inPage_zipIdx (xs : List α) (skip : Nat) (take : Option Nat) :
    (xs.zipIdx.filter fun x => inPage skip take x.2).map (·.1) = page skip take xs := by
  -- Places are counted from any number on, so that the first element can be taken off.
  suffices h : ∀ n, ((xs.zipIdx n).filter fun x => inPage skip take (x.2 - n)).map (·.1) =
      page skip take xs from h 0
  intro n
  induction xs generalizing n skip take with
  | nil => cases take <;> simp [page]
  | cons x xs ih =>
    have hshift : ∀ a b a' b', (∀ i, inPage a b (i + 1) = inPage a' b' i) →
        ((xs.zipIdx (n + 1)).filter fun x => inPage a b (x.2 - n)).map (·.1) = page a' b' xs := by
      intro a b a' b' h
      rw [← ih a' b' (n + 1)]
      congr 1
      refine List.filter_congr fun x hx => ?_
      have hle := List.le_snd_of_mem_zipIdx hx
      rw [← h, show x.2 - n = x.2 - (n + 1) + 1 by omega]
    rw [List.zipIdx_cons, List.filter_cons]
    cases skip with
    | succ skip =>
      have hrest := hshift (skip + 1) take skip take fun i => by
        cases take <;> simp [inPage, Nat.add_right_comm]
      cases take <;> simpa [inPage, page] using hrest
    | zero =>
      cases take with
      | none =>
        simp [inPage, page]
      | some take =>
        cases take with
        | zero => simp [inPage, page]
        | succ take =>
          have hrest := hshift 0 (some (take + 1)) 0 (some take) fun i => by simp [inPage]
          simpa [inPage, page] using hrest

/-- Of elements with distinct places, those within the bounds, sorted by their places. -/
theorem mergeSort_filter_inPage {xs : List α} {ps : List (α × Nat)} (h : ps.Perm xs.zipIdx)
    (skip : Nat) (take : Option Nat) :
    ((ps.filter fun p => inPage skip take p.2).mergeSort fun a b => decide (a.2 ≤ b.2)).map (·.1) =
      page skip take xs := by
  rw [← filter_inPage_zipIdx]
  congr 1
  have hplaces : xs.zipIdx.Pairwise fun a b => a.2 < b.2 := by
    rw [← List.pairwise_map (f := Prod.snd) (R := (· < ·)), List.zipIdx_map_snd]
    exact List.pairwise_lt_range'
  have hnodup : (xs.zipIdx.map (·.2)).Nodup := by
    rw [List.zipIdx_map_snd]
    exact List.nodup_range'
  generalize hkept : (ps.filter fun p => inPage skip take p.2) = kept
  have hperm : (kept.mergeSort fun a b => decide (a.2 ≤ b.2)).Perm
      (xs.zipIdx.filter fun p => inPage skip take p.2) :=
    (List.mergeSort_perm _ _).trans (hkept ▸ h.filter _)
  have hsorted : (kept.mergeSort fun a b => decide (a.2 ≤ b.2)).Pairwise fun a b => a.2 ≤ b.2 := by
    have hpairwise : (kept.mergeSort fun a b => decide (a.2 ≤ b.2)).Pairwise
        fun a b => decide (a.2 ≤ b.2) = true :=
      List.pairwise_mergeSort (by simp only [decide_eq_true_eq]; omega)
        (by simp only [Bool.or_eq_true, decide_eq_true_eq]; omega) kept
    exact hpairwise.imp of_decide_eq_true
  refine hperm.eq_of_pairwise (fun a b ha hb hab hba => ?_) hsorted
    ((hplaces.filter _).imp Nat.le_of_lt)
  exact List.inj_on_of_nodup_map hnodup (List.mem_of_mem_filter (hperm.mem_iff.1 ha))
    (List.mem_of_mem_filter hb) (Nat.le_antisymm hab hba)

namespace Engine

variable (e : Engine V) (descending : List Bool) (key : α → List V)

/-- Elements with their ranks are, in another order, the sorted elements with their places. -/
theorem rank_perm (xs : List α) :
    (xs.zipIdx.map fun x => (x.1, e.rank descending (xs.map key) x.2)).Perm
      (xs.mergeSort fun a b => e.keysLe descending (key a) (key b)).zipIdx := by
  -- One sorting of the elements with their places, of which both sides keep a part.
  let sorted := xs.zipIdx.mergeSort fun a b => e.keysLe descending (key a.1) (key b.1)
  have hperm : sorted.Perm xs.zipIdx := List.mergeSort_perm _ _
  have hfst : sorted.map (·.1) = xs.mergeSort fun a b => e.keysLe descending (key a) (key b) := by
    rw [List.map_mergeSort (s := fun a b => e.keysLe descending (key a) (key b)) fun _ _ _ _ => rfl,
      List.zipIdx_map_fst]
  have hrank : ∀ i, e.rank descending (xs.map key) i = (sorted.map (·.2)).idxOf i := by
    intro i
    have hkeys : (sorted.map fun x => (key x.1, x.2)) = (xs.map key).zipIdx.mergeSort fun a b =>
        e.keysLe descending a.1 b.1 := by
      rw [List.map_mergeSort (s := fun a b : List V × Nat => e.keysLe descending a.1 b.1)
        fun _ _ _ _ => rfl, List.zipIdx_map]
      rfl
    rw [rank, ← hkeys, List.map_map]
    rfl
  have hnodup : (sorted.map (·.2)).Nodup := by
    rw [(hperm.map _).nodup_iff, List.zipIdx_map_snd]
    exact List.nodup_range'
  have hplaces : (sorted.map fun x => (x.1, e.rank descending (xs.map key) x.2)) =
      (sorted.map (·.1)).zipIdx := by
    refine List.ext_getElem (by simp) fun i hi _ => ?_
    rw [List.length_map] at hi
    have hidx := hnodup.idxOf_getElem i (by simpa using hi)
    rw [List.getElem_map] at hidx
    simp [hrank, hidx]
  rw [← hfst, ← hplaces]
  exact hperm.symm.map _

/-- Selecting and sorting elements by their ranks yields a page of the sorted elements. -/
theorem mergeSort_filter_rank (xs : List α) (skip : Nat) (take : Option Nat) :
    ((xs.zipIdx.filter fun x => inPage skip take (e.rank descending (xs.map key) x.2)).mergeSort
        fun a b => decide (e.rank descending (xs.map key) a.2 ≤
          e.rank descending (xs.map key) b.2)).map (·.1) =
      page skip take (xs.mergeSort fun a b => e.keysLe descending (key a) (key b)) := by
  rw [← mergeSort_filter_inPage (e.rank_perm descending key xs), List.filter_map,
    ← List.map_mergeSort (r := fun a b => decide (e.rank descending (xs.map key) a.2 ≤
      e.rank descending (xs.map key) b.2)) fun _ _ _ _ => rfl, List.map_map]
  rfl

end Engine

end SqlTree

import SqlTree.Pass
import Mathlib.Data.List.Nodup
import Mathlib.Data.List.Perm.Subperm

/-! # Lists of passes

A list of passes is made from the base passes by adding one pass at a time. What holds of every list
that is made in this way is shown from what one addition does.

Main definitions:

* `PassEdit.pass`, `PassEdit.anchor?`: the pass that is added and the one that it is put next to.
* `PassEdit.Places`: where an addition puts its pass.

Main statements:

* `PassEdit.places_run`: an addition puts its pass there.
* `PassEdit.sublist_runAll`, `PassEdit.nodup_runAll`: no pass is taken away and none comes up twice.
* `PassEdit.runAll_base`: the lists that are made from the base passes.
-/

namespace SqlTree

namespace PassEdit

/-- The pass that is added. -/
def pass : PassEdit → Pass
  | .push p => p
  | .insertBefore _ p => p
  | .insertAfter _ p => p

/-- The pass next to which the added one is put. -/
def anchor? : PassEdit → Option Pass
  | .push _ => none
  | .insertBefore anchor _ => some anchor
  | .insertAfter anchor _ => some anchor

/-- What becomes of a list when a pass is added. A pass that is there stays where it is. A new one
is put next to its anchor, on the side that was asked for, or at the end if the anchor is
missing. -/
inductive Places : PassEdit → List Pass → List Pass → Prop
  | present {e : PassEdit} {l : List Pass} (h : e.pass ∈ l) : Places e l l
  | last {e : PassEdit} {l : List Pass} (h : e.pass ∉ l) (hanchor : ∀ a ∈ e.anchor?, a ∉ l) :
      Places e l (l ++ [e.pass])
  | before {anchor p : Pass} {l r : List Pass} (h : p ∉ l ++ anchor :: r) :
      Places (.insertBefore anchor p) (l ++ anchor :: r) (l ++ p :: anchor :: r)
  | after {anchor p : Pass} {l r : List Pass} (h : p ∉ l ++ anchor :: r) :
      Places (.insertAfter anchor p) (l ++ anchor :: r) (l ++ anchor :: p :: r)

end PassEdit

/-! One addition. -/

/-- A pass that is put next to the first `anchor`, so that `both` stands there, or else at the
end. -/
theorem place_cases (place : List Pass → List Pass) (anchor p : Pass) (both : List Pass)
    (hnil : place [] = [p])
    (hcons : ∀ q qs, place (q :: qs) = if q = anchor then both ++ qs else q :: place qs)
    (l : List Pass) :
    (anchor ∉ l ∧ place l = l ++ [p]) ∨
      ∃ a b, l = a ++ anchor :: b ∧ place l = a ++ (both ++ b) := by
  induction l with
  | nil => exact .inl ⟨List.not_mem_nil, hnil⟩
  | cons q qs ih =>
    rw [hcons]
    by_cases hq : q = anchor
    · exact .inr ⟨[], qs, by rw [hq, List.nil_append], by rw [if_pos hq, List.nil_append]⟩
    · rw [if_neg hq]
      rcases ih with ⟨hanchor, hplace⟩ | ⟨a, b, rfl, hplace⟩
      · exact .inl ⟨by simp [hanchor, Ne.symm hq], by rw [hplace, List.cons_append]⟩
      · exact .inr ⟨q :: a, b, rfl, by rw [hplace, List.cons_append]⟩

namespace PassEdit

theorem places_run (l : PassList) (e : PassEdit) : e.Places l.passes (e.run l).passes := by
  by_cases hmem : e.pass ∈ l.passes
  · have hrun : e.run l = l := by
      cases e <;> exact if_pos (List.contains_iff_mem.2 hmem)
    rw [hrun]
    exact .present hmem
  · have hnew : ¬ l.contains e.pass = true := fun h => hmem (List.contains_iff_mem.1 h)
    cases e with
    | push p =>
      rw [run, PassList.push, if_neg (c := l.contains p = true) hnew]
      exact .last hmem (by simp [anchor?])
    | insertBefore anchor p =>
      rw [run, PassList.insertBefore, if_neg (c := l.contains p = true) hnew]
      obtain ⟨hanchor, hplace⟩ | ⟨a, b, hl, hplace⟩ :=
        place_cases (PassList.placeBefore anchor p) anchor p [p, anchor] rfl
        (fun q qs => by rw [PassList.placeBefore]; split <;> simp [*]) l.passes
      · rw [hplace]
        exact .last hmem (by simpa [anchor?] using hanchor)
      · rw [hplace, hl]
        exact .before (hl ▸ hmem)
    | insertAfter anchor p =>
      rw [run, PassList.insertAfter, if_neg (c := l.contains p = true) hnew]
      obtain ⟨hanchor, hplace⟩ | ⟨a, b, hl, hplace⟩ :=
        place_cases (PassList.placeAfter anchor p) anchor p [anchor, p] rfl
        (fun q qs => by rw [PassList.placeAfter]; split <;> simp [*]) l.passes
      · rw [hplace]
        exact .last hmem (by simpa [anchor?] using hanchor)
      · rw [hplace, hl]
        exact .after (hl ▸ hmem)

namespace Places

variable {e : PassEdit} {l l' : List Pass} (h : e.Places l l')

include h

theorem sublist : l.Sublist l' := by
  cases h with
  | present => exact .refl l
  | last => exact List.sublist_append_left _ _
  | before => exact .append (.refl _) (List.sublist_cons_self _ _)
  | after => exact .append (.refl _) (.cons_cons _ (List.sublist_cons_self _ _))

theorem mem : e.pass ∈ l' := by
  cases h with
  | present hmem => exact hmem
  | last => simp
  | before => simp [pass]
  | after => simp [pass]

/-- A new pass leads to the list with this pass in front, but for the order. -/
theorem nodup (hl : l.Nodup) : l'.Nodup := by
  have hperm : ∀ {a b : List Pass} {p : Pass}, p ∉ a ++ b → (a ++ b).Nodup →
      (a ++ p :: b).Nodup :=
    fun hp hab => List.perm_middle.nodup_iff.2 (List.nodup_cons.2 ⟨hp, hab⟩)
  cases h with
  | present => exact hl
  | last hnew => exact hperm (by simpa using hnew) (by simpa using hl)
  | before hnew => exact hperm hnew hl
  | @after anchor p a r hnew =>
    have hafter := hperm (a := a ++ [anchor]) (b := r) (p := p) (by simpa using hnew)
      (by simpa using hl)
    simpa using hafter

end Places

/-! Several additions. -/

theorem runAll_append (edits later : List PassEdit) (l : PassList) :
    runAll (edits ++ later) l = runAll later (runAll edits l) := List.foldl_append

theorem sublist_runAll (edits : List PassEdit) (l : PassList) :
    l.passes.Sublist (runAll edits l).passes := by
  induction edits generalizing l with
  | nil => exact .refl _
  | cons e edits ih => exact (places_run l e).sublist.trans (ih (e.run l))

theorem nodup_runAll (edits : List PassEdit) {l : PassList} (hl : l.passes.Nodup) :
    (runAll edits l).passes.Nodup := by
  induction edits generalizing l with
  | nil => exact hl
  | cons e edits ih => exact ih ((places_run l e).nodup hl)

/-- Passes that are in a list without repetitions are in the order of any part of it that has
both. -/
theorem pair_sublist_iff {l l' : List Pass} (h : l.Sublist l') (hl' : l'.Nodup) {p q : Pass}
    (hp : p ∈ l) (hq : q ∈ l) : [p, q].Sublist l ↔ [p, q].Sublist l' := by
  refine ⟨fun hpq => hpq.trans h, fun hpq => ?_⟩
  -- The passes of the larger list that are in the smaller one are the smaller one.
  have hpart : l.Sublist (l'.filter fun r => decide (r ∈ l)) := by
    have hsame : l.filter (fun r => decide (r ∈ l)) = l := List.filter_eq_self.2 (by simp)
    have hfilter := h.filter fun r => decide (r ∈ l)
    rwa [hsame] at hfilter
  have hlength : (l'.filter fun r => decide (r ∈ l)).length ≤ l.length :=
    ((hl'.filter _).subperm fun r hr => by simpa using (List.mem_filter.1 hr).2).length_le
  rw [hpart.eq_of_length_le hlength]
  simpa [hp, hq] using hpq.filter fun r => decide (r ∈ l)

/-- However passes are added to the base passes, none comes up twice, the base passes stay in their
order and the passes that are there never change places. The pass that is added next is put next to
its anchor, or at the end if that is missing, unless it is there. -/
theorem runAll_base (edits later : List PassEdit) (e : PassEdit) :
    (runAll edits .base).passes.Nodup ∧
      Pass.base.Sublist (runAll edits .base).passes ∧
      (runAll edits .base).passes.Sublist (runAll (edits ++ later) .base).passes ∧
      (∀ p ∈ (runAll edits .base).passes, ∀ q ∈ (runAll edits .base).passes,
        ([p, q].Sublist (runAll edits .base).passes ↔
          [p, q].Sublist (runAll (edits ++ later) .base).passes)) ∧
      e.Places (runAll edits .base).passes (runAll (edits ++ [e]) .base).passes ∧
      e.pass ∈ (runAll (edits ++ [e]) .base).passes := by
  have hbase : PassList.base.passes.Nodup := by decide
  have hlater : (runAll edits .base).passes.Sublist (runAll (edits ++ later) .base).passes := by
    rw [runAll_append]
    exact sublist_runAll later _
  have hplaces : e.Places (runAll edits .base).passes (runAll (edits ++ [e]) .base).passes := by
    rw [runAll_append]
    exact places_run _ e
  refine ⟨nodup_runAll edits hbase, sublist_runAll edits .base, hlater, fun p hp q hq => ?_,
    hplaces, hplaces.mem⟩
  exact pair_sublist_iff hlater (nodup_runAll _ hbase) hp hq

/-- A pass that is its own anchor is put at the end, and the second time it stays there. -/
example : (runAll [.insertBefore .emulatePagination .emulatePagination, .push .convertExpressions,
    .insertAfter .correctPagination .emulatePagination] .base).passes =
      Pass.base ++ [.emulatePagination, .convertExpressions] := by
  decide

end PassEdit

end SqlTree

import Mathlib.Data.List.Forall2

/-! # Refinement of partial computations

A computation refines another one if it has a result wherever the other one has, and the results are
related. Evaluation can fail, so what a rewriting keeps of it is stated in this form.

Main definitions:

* `Refines`: refinement of one optional result by another.

Main statements:

* `Refines.bind`, `Refines.mapM`, `Refines.flatMapM`: refinement step by step.
-/

namespace SqlTree

variable {α β γ δ : Type}

/-- The elements of a concatenation of results. -/
theorem mem_flatMapM {f : α → Option (List β)} {xs : List α} {ys : List β}
    (h : xs.flatMapM f = some ys) {y : β} :
    y ∈ ys ↔ ∃ x ∈ xs, ∃ zs, f x = some zs ∧ y ∈ zs := by
  induction xs generalizing ys with
  | nil =>
    cases h
    simp
  | cons x xs ih =>
    simp only [List.flatMapM_cons] at h
    obtain ⟨zs, hzs, h⟩ := Option.bind_eq_some_iff.1 h
    obtain ⟨ws, hws, h⟩ := Option.bind_eq_some_iff.1 h
    cases h
    simp [hzs, ih hws]

theorem mem_bind_flatMapM {x : Option (List α)} {f : α → Option (List β)} {ys : List β}
    (h : (x >>= fun xs => xs.flatMapM f) = some ys) {y : β} (hy : y ∈ ys) :
    ∃ xs a, x = some xs ∧ a ∈ xs ∧ ∃ zs, f a = some zs ∧ y ∈ zs := by
  obtain ⟨xs, hxs, h⟩ := Option.bind_eq_some_iff.1 h
  obtain ⟨a, ha, zs, hzs, hmem⟩ := (mem_flatMapM h).1 hy
  exact ⟨xs, a, hxs, ha, zs, hzs, hmem⟩

theorem flatMapM_eq_some {f : α → Option (List β)} {g : α → List β} {xs : List α}
    (h : ∀ x ∈ xs, f x = some (g x)) : xs.flatMapM f = some (xs.flatMap g) := by
  induction xs with
  | nil => rfl
  | cons x xs ih =>
    simp [h x List.mem_cons_self, ih fun y hy => h y (List.mem_cons_of_mem x hy)]

theorem mapM_eq_some {f : α → Option β} {g : α → β} {xs : List α} (h : ∀ x ∈ xs, f x = some (g x)) :
    xs.mapM f = some (xs.map g) := by
  induction xs with
  | nil => rfl
  | cons x xs ih =>
    simp [h x List.mem_cons_self, ih fun y hy => h y (List.mem_cons_of_mem x hy)]

theorem forall₂_imp_of_mem {R S : α → β → Prop} {xs : List α} {ys : List β}
    (h : List.Forall₂ R xs ys) (himp : ∀ x ∈ xs, ∀ y, R x y → S x y) : List.Forall₂ S xs ys :=
  ((List.forall₂_and_left _ _).2 ⟨himp, h⟩).imp fun _ y hxy => hxy.1 y hxy.2

theorem exists_of_forall₂ {R : α → β → Prop} {xs : List α} {ys : List β}
    (h : List.Forall₂ R xs ys) {y : β} (hy : y ∈ ys) : ∃ x ∈ xs, R x y := by
  induction h with
  | nil => simp at hy
  | cons hR _ ih =>
    rcases List.mem_cons.1 hy with rfl | hy
    · exact ⟨_, List.mem_cons_self, hR⟩
    · obtain ⟨x, hx, hRx⟩ := ih hy
      exact ⟨x, List.mem_cons_of_mem _ hx, hRx⟩

theorem forall₂_zipIdx {R : α → β → Prop} {xs : List α} {ys : List β} (h : List.Forall₂ R xs ys)
    (n : Nat) : List.Forall₂ (fun x y : _ × Nat => R x.1 y.1 ∧ x.2 = y.2) (xs.zipIdx n)
      (ys.zipIdx n) := by
  induction h generalizing n with
  | nil => exact .nil
  | cons hR _ ih => exact .cons ⟨hR, rfl⟩ (ih (n + 1))

theorem forall₂_of_mapM {f : α → Option β} {xs : List α} {ys : List β} (h : xs.mapM f = some ys) :
    List.Forall₂ (fun x y => f x = some y) xs ys := by
  induction xs generalizing ys with
  | nil =>
    cases h
    exact .nil
  | cons x xs ih =>
    rw [List.mapM_cons] at h
    obtain ⟨y, hy, h⟩ := Option.bind_eq_some_iff.1 h
    obtain ⟨zs, hzs, h⟩ := Option.bind_eq_some_iff.1 h
    cases h
    exact .cons hy (ih hzs)

theorem mem_mapM {f : α → Option β} {xs : List α} {ys : List β} (h : xs.mapM f = some ys) {y : β} :
    y ∈ ys ↔ ∃ x ∈ xs, f x = some y := by
  have hall := forall₂_of_mapM h
  clear h
  induction hall with
  | nil => simp
  | cons hx _ ih => simp [hx, ih, eq_comm]

theorem exists_of_mapM {f : α → Option β} {xs : List α} {ys : List β} (h : xs.mapM f = some ys)
    {x : α} (hx : x ∈ xs) : ∃ y, f x = some y := by
  have hall := forall₂_of_mapM h
  clear h
  induction hall with
  | nil => simp at hx
  | cons hy _ ih =>
    rcases List.mem_cons.1 hx with rfl | hx
    · exact ⟨_, hy⟩
    · exact ih hx

theorem getElem?_of_mapM {f : α → Option β} {xs : List α} {ys : List β} (h : xs.mapM f = some ys)
    {i : Nat} {x : α} (hx : xs[i]? = some x) : ∃ y, ys[i]? = some y ∧ f x = some y := by
  have hall := forall₂_of_mapM h
  clear h
  induction hall generalizing i with
  | nil => simp at hx
  | cons hy _ ih =>
    cases i with
    | zero =>
      cases hx
      exact ⟨_, rfl, hy⟩
    | succ i => exact ih hx

/-- Every result of `x` is matched by a result of `y` that `R` relates to it. -/
def Refines (R : α → β → Prop) (x : Option α) (y : Option β) : Prop :=
  ∀ a, x = some a → ∃ b, y = some b ∧ R a b

namespace Refines

theorem refl (x : Option α) : Refines Eq x x := fun a h => ⟨a, h, rfl⟩

theorem of_eq {x y : Option α} (h : x = y) : Refines Eq x y := h ▸ refl x

theorem none (R : α → β → Prop) (y : Option β) : Refines R .none y := by
  intro a h
  cases h

theorem some {R : α → β → Prop} {a : α} {b : β} (h : R a b) : Refines R (.some a) (.some b) := by
  intro a' ha
  cases ha
  exact ⟨b, rfl, h⟩

theorem of_rel {R : α → β → Prop} {x : Option α} {y : Option β} (h : Option.Rel R x y) :
    Refines R x y := by
  cases h with
  | none => exact none R .none
  | some hab => exact some hab

/-- A refinement whose premise may use where the first result comes from. -/
theorem bind_of_eq {R : α → β → Prop} {S : γ → δ → Prop} {x : Option α} {y : Option β}
    {f : α → Option γ} {g : β → Option δ} (h : Refines R x y)
    (hfg : ∀ a b, x = .some a → R a b → Refines S (f a) (g b)) :
    Refines S (x >>= f) (y >>= g) := by
  intro c hc
  cases hx : x with
  | none => simp [hx] at hc
  | some a =>
    obtain ⟨b, hb, hab⟩ := h a hx
    obtain ⟨d, hd, hcd⟩ := hfg a b hx hab c (by simpa [hx] using hc)
    exact ⟨d, by simp [hb, hd], hcd⟩

theorem bind {R : α → β → Prop} {S : γ → δ → Prop} {x : Option α} {y : Option β}
    {f : α → Option γ} {g : β → Option δ} (h : Refines R x y)
    (hfg : ∀ a b, R a b → Refines S (f a) (g b)) : Refines S (x >>= f) (y >>= g) :=
  h.bind_of_eq fun a b _ => hfg a b

theorem map {R : α → β → Prop} {S : γ → δ → Prop} {x : Option α} {y : Option β} {f : α → γ}
    {g : β → δ} (h : Refines R x y) (hfg : ∀ a b, R a b → S (f a) (g b)) :
    Refines S (x.map f) (y.map g) := by
  intro c hc
  obtain ⟨a, ha, rfl⟩ := Option.map_eq_some_iff.1 hc
  obtain ⟨b, hb, hab⟩ := h a ha
  exact ⟨g b, by simp [hb], hfg a b hab⟩

theorem mapM {R : α → β → Prop} {S : γ → δ → Prop} {xs : List α} {ys : List β}
    {f : α → Option γ} {g : β → Option δ} (h : List.Forall₂ R xs ys)
    (hfg : ∀ a b, R a b → Refines S (f a) (g b)) :
    Refines (List.Forall₂ S) (xs.mapM f) (ys.mapM g) := by
  induction h with
  | nil => exact some .nil
  | cons hab _ ih =>
    simp only [List.mapM_cons]
    refine (hfg _ _ hab).bind fun c d hcd => ih.bind fun cs ds hcds => ?_
    exact some (.cons hcd hcds)

theorem mapM_eq {R : α → β → Prop} {xs : List α} {ys : List β} {f : α → Option γ}
    {g : β → Option γ} (h : List.Forall₂ R xs ys) (hfg : ∀ a b, R a b → Refines Eq (f a) (g b)) :
    Refines Eq (xs.mapM f) (ys.mapM g) := by
  have hm := mapM h hfg
  rwa [List.forall₂_eq_eq_eq] at hm

/-- Concatenations are related if their parts are, by a relation that is kept by concatenation. -/
theorem flatMapM_of_append {R : α → β → Prop} {T : List γ → List δ → Prop} (hnil : T [] [])
    (happend : ∀ {a b c d}, T a b → T c d → T (a ++ c) (b ++ d)) {xs : List α} {ys : List β}
    {f : α → Option (List γ)} {g : β → Option (List δ)} (h : List.Forall₂ R xs ys)
    (hfg : ∀ a b, R a b → Refines T (f a) (g b)) : Refines T (xs.flatMapM f) (ys.flatMapM g) := by
  induction h with
  | nil => exact some hnil
  | cons hab _ ih =>
    simp only [List.flatMapM_cons]
    refine (hfg _ _ hab).bind fun cs ds hcd => ih.bind fun cs' ds' hcds => ?_
    exact some (happend hcd hcds)

theorem flatMapM {R : α → β → Prop} {S : γ → δ → Prop} {xs : List α} {ys : List β}
    {f : α → Option (List γ)} {g : β → Option (List δ)} (h : List.Forall₂ R xs ys)
    (hfg : ∀ a b, R a b → Refines (List.Forall₂ S) (f a) (g b)) :
    Refines (List.Forall₂ S) (xs.flatMapM f) (ys.flatMapM g) :=
  flatMapM_of_append .nil (fun h g => List.rel_append h g) h hfg

/-- Refinement with equal results leaves a result as it is. -/
theorem eq_some {x y : Option α} {a : α} (h : Refines Eq x y) (ha : x = .some a) :
    y = .some a := by
  obtain ⟨b, hb, rfl⟩ := h a ha
  exact hb

end Refines

end SqlTree

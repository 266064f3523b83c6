import SqlTree.Lowering.Pipeline

/-! # The passes of a lowering

Without changes to its list of passes, a dialect runs the passes in one order. Which of them run
depends on the capabilities of the engine and on what the application asks for.

Main definitions:

* `Dialect.single`, `Dialect.paged`, `Dialect.inlined`: the passes up to the conversion.
* `Dialect.prepared`: the statement that the conversion gets.

Main statements:

* `Dialect.lower_eq`: a lowering as these passes, one after another.
* `Dialect.exists_of_lower`: what a lowering that succeeds goes through.
-/

namespace SqlTree

namespace PassList

theorem contains_pushIf (l : PassList) (b : Bool) (p q : Pass) :
    (l.pushIf b p).contains q = (l.contains q || b && p == q) := by
  cases b with
  | false => simp [pushIf]
  | true =>
    by_cases hp : l.contains p = true
    · by_cases hpq : p = q
      · subst hpq
        simp [pushIf, push, hp]
      · simp [pushIf, push, hp, hpq]
    · simp only [pushIf, push, hp, Bool.false_eq_true, if_false, if_true, Bool.true_and]
      rw [contains, List.contains_append, contains]
      by_cases hpq : p = q
      · simp [hpq]
      · simp [hpq, Ne.symm hpq]

end PassList

namespace Dialect

variable (d : Dialect) (config : Config) (ctx : Context)

theorem runPasses_pushIf {l : PassList} {p : Pass} (h : l.contains p = false)
    (hp : p ≠ .singleTableDml) (b : Bool) (s : Statement) :
    d.runPasses ctx (l.pushIf b p) s =
      d.runPasses ctx l s >>= fun s => if b then d.runPass ctx p s else .ok s := by
  cases b with
  | false => exact (bind_pure _).symm
  | true =>
    have hneeds : d.needs p = true := by simp [needs, hp]
    simp [PassList.pushIf, PassList.push, h, runPasses, List.foldlM_append, hneeds]

/-- A deletion or an update over a single table, if the engine has no other. -/
def single (s : Statement) : Statement :=
  if d.capabilities.multiTableDml then s else s.toSingleTable

/-- Row bounds by row numbers, if the engine has no bounds. -/
def paged (s : Statement) : Except Error Statement :=
  if d.capabilities.offsetFetch then .ok s else s.emulatePagination

/-- Whether parameters among the arguments of functions are written into the text. -/
def inlinesArguments : Bool :=
  config.inlineFunctionParameters || !d.capabilities.parametersInFunctions

/-- Parameters in the text, where the engine takes none or the application asks for it. -/
def inlined (s : Statement) : Statement :=
  let s := if d.capabilities.parametersInInsert then s else s.debindInsertParameters
  let s := if d.inlinesArguments config then s.inlineFunctionParameters else s
  if config.inlineParameters then s.inlineAllParameters else s

/-- The statement after all passes but the conversion. -/
def prepared (s : Statement) : Except Error Statement := do
  let s ← s.correctPagination
  let s ← d.paged (d.single s).fixEmptyProjection
  return d.inlined config s

/-- What the passes that write parameters into the text keep one by one, they keep together. -/
theorem inlined_induction {P : Statement → Prop} {s : Statement} (hs : P s)
    (hinsert : ∀ s, P s → P s.debindInsertParameters)
    (harguments : ∀ s, P s → P s.inlineFunctionParameters)
    (hall : ∀ s, P s → P s.inlineAllParameters) : P (d.inlined config s) := by
  have hif : ∀ {b : Bool} {s₁ s₂ : Statement}, P s₁ → P s₂ → P (if b = true then s₁ else s₂) := by
    intro b s₁ s₂ h₁ h₂
    cases b
    · exact h₂
    · exact h₁
  have hinserted : P (if d.capabilities.parametersInInsert then s else s.debindInsertParameters) :=
    hif hs (hinsert s hs)
  have hargued := hif (b := d.inlinesArguments config) (harguments _ hinserted) hinserted
  exact hif (hall _ hargued) hargued

/-- The passes of a dialect that does not change its list of passes. -/
theorem lower_eq (hd : d.edits = []) (s : Statement) :
    d.lower config ctx s = (do
      let s ← s.correctPagination
      let s ← d.paged (d.single s).fixEmptyProjection
      d.convertStatement ctx (d.inlined config s)) := by
  have hbase : d.runPasses ctx .base s =
      s.correctPagination >>= fun s => .ok (d.single s).fixEmptyProjection := by
    cases hmulti : d.capabilities.multiTableDml <;>
      simp only [runPasses, PassList.base, Pass.base, needs, single, hmulti] <;> rfl
  have hpush : ∀ l : PassList, l.push .convertExpressions = l.pushIf true .convertExpressions :=
    fun l => rfl
  have hcontains : ∀ p, PassList.base.contains p = p.isBase := fun _ => rfl
  rw [lower, passes, hd, PassEdit.runAll, List.foldl_nil, defaultPasses, hpush]
  iterate 5
    rw [runPasses_pushIf _ _ (by simp [PassList.contains_pushIf, hcontains, Pass.isBase, Pass.base])
      (by simp)]
  rw [hbase]
  have hpaged : ∀ s, (if (!d.capabilities.offsetFetch) = true then
      d.runPass ctx .emulatePagination s else .ok s) = d.paged s := by
    intro s
    unfold paged
    cases d.capabilities.offsetFetch <;> rfl
  simp only [hpaged]
  cases s.correctPagination with
  | error e => rfl
  | ok s =>
    change (((d.paged (d.single s).fixEmptyProjection >>= _) >>= _) >>= _) >>= _ =
      d.paged (d.single s).fixEmptyProjection >>= _
    cases d.paged (d.single s).fixEmptyProjection with
    | error e => rfl
    | ok s =>
      change _ = d.convertStatement ctx (d.inlined config s)
      unfold inlined inlinesArguments
      cases d.capabilities.parametersInInsert <;>
        cases config.inlineFunctionParameters || !d.capabilities.parametersInFunctions <;>
          cases config.inlineParameters <;> rfl

/-- What a lowering that succeeds goes through. -/
theorem exists_of_lower (hd : d.edits = []) {s s' : Statement}
    (h : d.lower config ctx s = .ok s') :
    ∃ s₁ s₂, s.correctPagination = .ok s₁ ∧ d.paged (d.single s₁).fixEmptyProjection = .ok s₂ ∧
      d.convertStatement ctx (d.inlined config s₂) = .ok s' := by
  rw [d.lower_eq config ctx hd] at h
  cases h₁ : s.correctPagination with
  | error e =>
    rw [h₁] at h
    cases h
  | ok s₁ =>
    rw [h₁] at h
    change d.paged (d.single s₁).fixEmptyProjection >>= _ = _ at h
    cases h₂ : d.paged (d.single s₁).fixEmptyProjection with
    | error e =>
      rw [h₂] at h
      cases h
    | ok s₂ =>
      rw [h₂] at h
      exact ⟨s₁, s₂, rfl, h₂, h⟩

theorem exists_prepared (hd : d.edits = []) {s s' : Statement}
    (h : d.lower config ctx s = .ok s') :
    ∃ s₂, d.prepared config s = .ok (d.inlined config s₂) ∧
      d.convertStatement ctx (d.inlined config s₂) = .ok s' := by
  obtain ⟨s₁, s₂, h₁, h₂, h₃⟩ := d.exists_of_lower config ctx hd h
  refine ⟨s₂, ?_, h₃⟩
  rw [prepared, h₁]
  change d.paged (d.single s₁).fixEmptyProjection >>= _ = _
  rw [h₂]
  rfl

end Dialect

end SqlTree

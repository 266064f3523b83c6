import SqlTree.Proofs.Lowering.Target
import SqlTree.Proofs.Lowering.Tied
import SqlTree.Proofs.Number.Digits
import SqlTree.Proofs.Survey
import SqlTree.Proofs.Walk
import Mathlib.Data.List.Nodup

/-! # The alias of the new source

A search for a free alias tries one number after the other. It ends without a bound, because
distinct numbers have distinct texts and only so many of these are taken.

The alias is then free in all scopes of the statement over a single table too: copies of a query
keep the aliases of each scope, and each source stands in one scope.

Main definitions:

* `AliasSearch`: the steps of a search without a bound.
* `Node.sources`, `Node.exposed`: the sources of a tree, and those that it brings into the scope
  around it.
* `Query.scopeAliases`: the aliases in the scope of a query.
* `Expr.KeepsAliases`, `Query.KeepsAliases`, `Source.KeepsAliases`: scopes with the same aliases.

Main statements:

* `aliasSearch_iff`, `aliasSearch_freshAlias`: a search ends with the least number that is free.
* `Node.sources_perm`: the sources of a tree, scope by scope.
* `Transform.keepsAliases_renumber`, `Transform.keepsAliases_reference`: the scopes of a copy.
* `Statement.exists_newSource`: the new source is the only one with its alias.
* `Statement.fresh_syntheticAlias`: which alias the new source has, and that aliases stay distinct
  in each scope.
-/

namespace SqlTree

/-! The search. -/

theorem numberedAlias_injective : Function.Injective numberedAlias := by
  intro j k h
  have htext : Decimal.integer ((j + 1 : Nat) : Int) = Decimal.integer ((k + 1 : Nat) : Int) := by
    simpa [numberedAlias] using h
  have hdigits := congrArg String.toList htext
  rw [Decimal.toList_integer, Decimal.toList_integer] at hdigits
  have hvalue := congrArg Decimal.natural? hdigits
  simpa [Decimal.natural?_toDigits] using hvalue

theorem numberedAlias_ne_targetAlias (k : Nat) : numberedAlias k ≠ targetAlias := by
  intro h
  have htext : Decimal.integer ((k + 1 : Nat) : Int) = "" := by simpa [numberedAlias] using h
  have hdigits := congrArg String.toList htext
  rw [Decimal.toList_integer] at hdigits
  exact Nat.toDigits_ne_nil hdigits

/-- The plain alias and as many numbered ones as are taken are one too many. -/
theorem exists_numberedAlias_notMem {taken : List String} (h : targetAlias ∈ taken) :
    ∃ k < taken.length, numberedAlias k ∉ taken := by
  by_contra hall
  have hsub : targetAlias :: (List.range taken.length).map numberedAlias ⊆ taken := by
    rw [List.cons_subset]
    refine ⟨h, fun a ha => ?_⟩
    obtain ⟨k, hk, rfl⟩ := List.mem_map.1 ha
    by_contra hfree
    exact hall ⟨k, List.mem_range.1 hk, hfree⟩
  have hnodup : (targetAlias :: (List.range taken.length).map numberedAlias).Nodup := by
    refine List.nodup_cons.2 ⟨?_, List.nodup_range.map numberedAlias_injective⟩
    rintro hmem
    obtain ⟨k, -, hk⟩ := List.mem_map.1 hmem
    exact numberedAlias_ne_targetAlias k hk
  have hlength := (List.subperm_of_subset hnodup hsub).length_le
  rw [List.length_cons, List.length_map, List.length_range] at hlength
  omega

/-- From the number `k` on, the aliases are tried one after the other. The first that is not taken
is `a`. -/
inductive AliasSearch (taken : List String) : Nat → String → Prop
  | free {k : Nat} (h : numberedAlias k ∉ taken) : AliasSearch taken k (numberedAlias k)
  | next {k : Nat} {a : String} (h : numberedAlias k ∈ taken) (ha : AliasSearch taken (k + 1) a) :
      AliasSearch taken k a

theorem AliasSearch.unique {taken : List String} {k : Nat} {a b : String}
    (ha : AliasSearch taken k a) (hb : AliasSearch taken k b) : a = b := by
  induction ha with
  | free h =>
    cases hb with
    | free => rfl
    | next h' => exact absurd h' h
  | next h _ ih =>
    cases hb with
    | free h' => exact absurd h h'
    | next _ hb => exact ih hb

theorem AliasSearch.exists_least {taken : List String} {k : Nat} {a : String}
    (h : AliasSearch taken k a) :
    ∃ j, k ≤ j ∧ a = numberedAlias j ∧ numberedAlias j ∉ taken ∧
      ∀ i, k ≤ i → i < j → numberedAlias i ∈ taken := by
  induction h with
  | @free k h => exact ⟨k, Nat.le_refl k, rfl, h, fun i hk hi => absurd hi (Nat.not_lt.2 hk)⟩
  | @next k a h _ ih =>
    obtain ⟨j, hkj, rfl, hj, hleast⟩ := ih
    refine ⟨j, Nat.le_of_succ_le hkj, rfl, hj, fun i hki hij => ?_⟩
    rcases Nat.eq_or_lt_of_le hki with rfl | hlt
    · exact h
    · exact hleast i hlt hij

theorem AliasSearch.of_least {taken : List String} {k d : Nat}
    (hfree : numberedAlias (k + d) ∉ taken)
    (hleast : ∀ i, k ≤ i → i < k + d → numberedAlias i ∈ taken) :
    AliasSearch taken k (numberedAlias (k + d)) := by
  induction d generalizing k with
  | zero => exact .free hfree
  | succ d ih =>
    rw [← Nat.succ_add_eq_add_succ] at hfree ⊢
    exact .next (hleast k (Nat.le_refl k) (by omega))
      (ih hfree fun i hki hi => hleast i (by omega) (by omega))

/-- A search ends with the least number that is free. -/
theorem aliasSearch_iff {taken : List String} {a : String} :
    AliasSearch taken 0 a ↔ ∃ k, a = numberedAlias k ∧ numberedAlias k ∉ taken ∧
      ∀ j < k, numberedAlias j ∈ taken := by
  constructor
  · intro h
    obtain ⟨k, -, rfl, hfree, hleast⟩ := h.exists_least
    exact ⟨k, rfl, hfree, fun j => hleast j (Nat.zero_le j)⟩
  · rintro ⟨k, rfl, hfree, hleast⟩
    rw [← Nat.zero_add k] at hfree ⊢
    exact .of_least hfree fun j _ hj => hleast j (by omega)

theorem freshAlias_of_notMem {taken : List String} (h : targetAlias ∉ taken) :
    freshAlias taken = targetAlias := by
  simp [freshAlias, h]

/-- Where the plain alias is taken, a search ends, and with the alias that is chosen. -/
theorem aliasSearch_freshAlias {taken : List String} (h : targetAlias ∈ taken) :
    AliasSearch taken 0 (freshAlias taken) := by
  obtain ⟨n, hn, hfree⟩ := exists_numberedAlias_notMem h
  have hsome : ((List.range taken.length).find? fun k =>
      !taken.contains (numberedAlias k)).isSome := by
    rw [List.find?_isSome]
    exact ⟨n, List.mem_range.2 hn, by simpa using hfree⟩
  obtain ⟨k, hk⟩ := Option.isSome_iff_exists.1 hsome
  have hleast := List.find?_range_eq_some.1 hk
  have heq : freshAlias taken = numberedAlias k := by
    simp only [freshAlias, List.find?_cons, List.find?_map, Function.comp_def, hk]
    simp [h]
  exact heq ▸ aliasSearch_iff.2 ⟨k, rfl, by simpa using hleast.1, by simpa using hleast.2.2⟩

theorem freshAlias_notMem (taken : List String) : freshAlias taken ∉ taken := by
  by_cases h : targetAlias ∈ taken
  · obtain ⟨k, heq, hfree, -⟩ := aliasSearch_iff.1 (aliasSearch_freshAlias h)
    rwa [heq]
  · rwa [freshAlias_of_notMem h]

/-! Sources and scopes. -/

namespace Node

/-- The sources at and below a node. -/
def sources (n : Node) : List Source := n.preorder.filterMap source?

theorem sources_eq (n : Node) : n.sources = n.source?.toList ++ n.children.flatMap sources :=
  filterMap_preorder source? n

/-- The sources that a node brings into the scope around it. -/
def exposed : Node → List Source
  | .source s => s.withJoined
  | .join j => j.source.withJoined
  | .statement (.merge target _ _ _) => target.withJoined
  | _ => []

theorem exposed_eq (n : Node) :
    n.source?.toList ++ n.children.flatMap exposed =
      n.exposed ++ n.query?.toList.flatMap Query.allSources := by
  have hoption : ∀ o : Option Expr, (ofOption o).flatMap exposed = [] := by
    intro o
    cases o <;> rfl
  have hnone : ∀ {α : Type} (l : List α), (l.flatMap fun _ => ([] : List Source)) = [] := by simp
  cases n with
  | statement s => cases s <;> simp [children, source?, query?, exposed, hoption, List.flatMap_map]
  | query q =>
    simp [children, source?, query?, exposed, hoption, hnone, List.flatMap_map, Query.allSources]
  | source s =>
    rw [exposed, s.withJoined_eq]
    cases ho : s.origin <;> simp [children, source?, query?, exposed, ho, List.flatMap_map]
  | join j => simp [children, source?, query?, exposed, hoption]
  | mergeOperation o => simp [children, source?, query?, exposed, hoption, List.flatMap_map]
  | expr e => cases e <;> simp [children, source?, query?, exposed, List.flatMap_map]
  | _ => simp [children, source?, query?, exposed]

open scoped List in
/-- Each source of a tree stands in the scope of one query of the tree or in the scope around it. -/
theorem sources_perm (n : Node) :
    n.sources.Perm (n.exposed ++ n.queries.flatMap Query.allSources) := by
  induction n using childInduction with
  | h n ih =>
    calc n.sources
      _ = n.source?.toList ++ n.children.flatMap sources := sources_eq n
      _ ~ n.source?.toList ++
          n.children.flatMap fun c => c.exposed ++ c.queries.flatMap Query.allSources :=
        (List.Perm.flatMap_left _ ih).append_left _
      _ ~ n.source?.toList ++ (n.children.flatMap exposed ++
          n.children.flatMap fun c => c.queries.flatMap Query.allSources) :=
        (List.flatMap_append_perm ..).symm.append_left _
      _ = n.exposed ++ n.queries.flatMap Query.allSources := by
        rw [queries_eq, List.flatMap_append, ← List.append_assoc, exposed_eq, List.append_assoc,
          List.flatMap_assoc]

theorem sources_delete (target : Option SourceId) (q : Query) :
    (statement (.delete target q)).sources = (query q).sources := by
  simp [sources_eq (.statement _), source?, children]

theorem sources_setItem (i : SetItem) : (setItem i).sources = (expr i.expr).sources := by
  simp [sources_eq (.setItem i), source?, children]

theorem sources_update (target : Option SourceId) (items : List SetItem) (q : Query) :
    (statement (.update target items q)).sources =
      (items.flatMap fun i => (expr i.expr).sources) ++ (query q).sources := by
  simp [sources_eq (.statement _), source?, children, List.flatMap_map, sources_setItem]

theorem aliases_eq (n : Node) : n.aliases = n.sources.filterMap (·.aliasName) := by
  rw [aliases, sources, walk_eq_preorder, List.filterMap_filterMap]

theorem mem_aliases {n : Node} {a : String} :
    a ∈ n.aliases ↔ ∃ s ∈ n.sources, s.aliasName = some a := by
  rw [aliases_eq, List.mem_filterMap]

end Node

theorem Query.sources_overTarget (q : Query) (t : Target) (outer : SourceId) (aliasName : String)
    (id : QueryId) :
    (Node.query (q.overTarget t outer aliasName id)).sources =
      { id := outer, origin := .table t.table, aliasName := some aliasName } ::
        (Node.query (q.correlatedFilter t outer)).sources := by
  have htable : (Node.table t.table).sources = [] := rfl
  have htest : (Node.expr (.existsRow (q.correlatedFilter t outer))).sources =
      (Node.query (q.correlatedFilter t outer)).sources := by
    simp [Node.sources_eq (.expr _), Node.source?, Node.children]
  rw [Node.sources_eq]
  simp [overTarget, Node.source?, Node.children, Node.ofOption, htest, Node.sources_eq (.source _),
    htable]

/-! Aliases in a scope. -/

/-- The aliases of a source and of those joined to it. -/
def Source.scopeAliases (s : Source) : List String := s.withJoined.filterMap (·.aliasName)

/-- The aliases in the scope of a query. -/
def Query.scopeAliases (q : Query) : List String := q.allSources.filterMap (·.aliasName)

theorem Source.scopeAliases_eq (s : Source) :
    s.scopeAliases = s.aliasName.toList ++ s.joins.flatMap fun j => j.source.scopeAliases := by
  rw [scopeAliases, withJoined_eq, List.filterMap_cons, List.filterMap_flatMap]
  cases s.aliasName <;> rfl

theorem Query.scopeAliases_eq (q : Query) :
    q.scopeAliases = q.sources.flatMap Source.scopeAliases := by
  rw [scopeAliases, allSources, List.filterMap_flatMap]
  rfl

/-- The aliases in the scope of the query meet `A`. -/
abbrev Query.AliasesMeet (A : List String → Prop) (q : Query) : Prop := A q.scopeAliases

/-- No source of a tree has an alias if none does that stands in one of the scopes. -/
theorem Node.forall_mem_sources {n : Node} (hn : n.exposed = []) {a : String} :
    (∀ s ∈ n.sources, s.aliasName ≠ some a) ↔
      n.All (Node.IfQuery (Query.AliasesMeet (a ∉ ·))) := by
  have hmem : ∀ s, s ∈ n.sources ↔ ∃ q ∈ n.queries, s ∈ q.allSources := by
    intro s
    rw [n.sources_perm.mem_iff, hn, List.nil_append, List.mem_flatMap]
  rw [← Node.forall_mem_queries]
  simp only [hmem, Query.AliasesMeet, Query.scopeAliases, List.mem_filterMap, not_exists, not_and,
    forall_exists_index, and_imp]
  exact ⟨fun h q hq s hs => h s q hq hs, fun h s q hq hs => h q hq s hs⟩

/-! Copies. -/

/-- What the aliases in each scope of the first expression meet, they meet in each scope of the
second. -/
def Expr.KeepsAliases (A : List String → Prop) (e e' : Expr) : Prop :=
  e.EachQuery (Query.AliasesMeet A) → e'.EachQuery (Query.AliasesMeet A)

structure Query.KeepsAliases (A : List String → Prop) (q q' : Query) : Prop where
  scopeAliases : q'.scopeAliases = q.scopeAliases
  each : q.EachQuery (Query.AliasesMeet A) → q'.EachQuery (Query.AliasesMeet A)

structure Source.KeepsAliases (A : List String → Prop) (s s' : Source) : Prop where
  scopeAliases : s'.scopeAliases = s.scopeAliases
  each : s.EachQuery (Query.AliasesMeet A) → s'.EachQuery (Query.AliasesMeet A)

theorem flatMap_eq_of_forall₂ {α β γ : Type} {R : α → β → Prop} {f : α → List γ} {g : β → List γ}
    {xs : List α} {ys : List β} (h : List.Forall₂ R xs ys) (hR : ∀ x y, R x y → g y = f x) :
    ys.flatMap g = xs.flatMap f := by
  induction h with
  | nil => rfl
  | cons h _ ih => rw [List.flatMap_cons, List.flatMap_cons, hR _ _ h, ih]

variable {A : List String → Prop}

theorem Query.KeepsAliases.trans {a b c : Query} (h : a.KeepsAliases A b)
    (g : b.KeepsAliases A c) : a.KeepsAliases A c :=
  ⟨g.scopeAliases.trans h.scopeAliases, fun ha => g.each (h.each ha)⟩

theorem Query.keepsAliases_of_sources {q q' : Query}
    (hsources : List.Forall₂ (Source.KeepsAliases A) q.sources q'.sources)
    (heach : q.Each (Expr.EachQuery (AliasesMeet A)) (Source.EachQuery (AliasesMeet A)) →
      q'.Each (Expr.EachQuery (AliasesMeet A)) (Source.EachQuery (AliasesMeet A))) :
    q.KeepsAliases A q' := by
  have haliases : q'.scopeAliases = q.scopeAliases := by
    rw [q.scopeAliases_eq, q'.scopeAliases_eq]
    exact flatMap_eq_of_forall₂ hsources fun _ _ h => h.scopeAliases
  refine ⟨haliases, fun hq => ?_⟩
  obtain ⟨hself, hparts⟩ := (eachQuery_iff q).1 hq
  refine (eachQuery_iff q').2 ⟨?_, heach hparts⟩
  rw [AliasesMeet, haliases]
  exact hself

theorem Query.Aligned.keepsAliases {q q' : Query}
    (h : q.Aligned (Expr.KeepsAliases A) (Source.KeepsAliases A) q') : q.KeepsAliases A q' :=
  keepsAliases_of_sources h.sources (h.leads (fun _ _ h => h) fun _ _ h => h.each)

theorem Expr.Aligned.keepsAliases {e e' : Expr}
    (h : e.Aligned (Expr.KeepsAliases A) (Query.KeepsAliases A) e') : e.KeepsAliases A e' :=
  h.leads_of_selective (Node.IfQuery.selective _) (fun _ _ h => h) fun _ _ h => h.each

theorem Source.Aligned.keepsAliases {s s' : Source}
    (h : s.Aligned (Expr.KeepsAliases A) (Query.KeepsAliases A) (Source.KeepsAliases A) s') :
    s.KeepsAliases A s' where
  scopeAliases := by
    rw [s.scopeAliases_eq, s'.scopeAliases_eq, h.aliasName,
      flatMap_eq_of_forall₂ h.joins fun _ _ hj => hj.source.scopeAliases]
  each := h.leads (fun _ _ h => h) (fun _ _ h => h.each) (fun _ _ h => h.each)
    (Node.IfQuery.ofTrees _)

theorem Source.scopeAliases_numberFrom :
    ∀ (s : Source) (n : Nat), (s.numberFrom n).scopeAliases = s.scopeAliases := by
  refine Source.rel_numberFrom (R := fun s s' => s'.scopeAliases = s.scopeAliases)
    fun s s' _ hname hjoins => ?_
  rw [s.scopeAliases_eq, s'.scopeAliases_eq, hname,
    flatMap_eq_of_forall₂ hjoins fun _ _ hj => hj.2]

theorem Source.keepsAliases_numberFrom (s : Source) (n : Nat) :
    s.KeepsAliases A (s.numberFrom n) :=
  ⟨s.scopeAliases_numberFrom n, (Source.tied_numberFrom (Node.IfQuery.ofTrees _) s n).1⟩

theorem Query.keepsAliases_numberSources (q : Query) (id : QueryId) (n : Nat) :
    q.KeepsAliases A { q with id, sources := numberSources n q.sources } := by
  have hsources := forall₂_numberSources (Source.keepsAliases_numberFrom (A := A)) q.sources n
  refine keepsAliases_of_sources hsources fun h => { h with sources := ?_ }
  exact forall_mem_of_forall₂ hsources h.sources fun _ _ hs => hs.each

theorem Transform.keepsAliases_renumber : Transform.renumber.Yields (.fromEach Renumbering)
    (Expr.KeepsAliases A) (Query.KeepsAliases A) (Source.KeepsAliases A) where
  expr h := (Outcome.fromEach Renumbering).pure h.keepsAliases
  query h := by
    let O := Outcome.fromEach Renumbering
    refine O.bind (P := fun _ => True) (fun _ => trivial) fun id _ => ?_
    refine O.bind (P := fun _ => True) (fun _ => trivial) fun base _ => ?_
    refine O.bind h.rebuild fun copy hcopy => O.pure ?_
    exact hcopy.keepsAliases.trans (copy.keepsAliases_numberSources id base)
  source h := h.keepsAliases

theorem Transform.keepsAliases_reference (r : Renaming) :
    (Transform.ofFun r.reference).Yields .result (Expr.KeepsAliases A) (Query.KeepsAliases A)
      (Source.KeepsAliases A) where
  expr {_ e'} h he := (r.tied_reference (Node.IfQuery.selective _) e').1 (h.keepsAliases he)
  query h := Outcome.result.mono h.rebuild fun _ hq => hq.keepsAliases
  source h := h.keepsAliases

/-- The scopes of a value that is set are those of the value and of a copy of the query. -/
theorem Query.aliasesMeet_setValue {q : Query} {value : Expr} (t : Target) (outer : SourceId)
    (hq : q.EachQuery (Query.AliasesMeet A)) (hvalue : value.EachQuery (Query.AliasesMeet A))
    (ids : Ids) :
    ((q.setValue t outer value).run ids).1.EachQuery (Query.AliasesMeet A) := by
  by_cases hreads : q.readsOnly t.id value = true
  · rw [setValue, if_pos hreads]
    exact (Transform.keepsAliases_reference _).onExpr value hvalue
  · rw [setValue_of_not_readsOnly hreads]
    obtain ⟨r, copy, value', inner, hr, hcopy, hvalue', heq⟩ := exists_correlatedValue
      Transform.keepsAliases_renumber Transform.keepsAliases_reference q value t outer ids
    obtain ⟨hself, heach⟩ := (eachQuery_iff copy).1 ((hr.trans hcopy).each hq)
    -- The scope of the copy depends neither on its columns nor on its condition.
    rw [heq, Expr.eachQuery_subquery]
    refine eachQuery_addKey _ _ _ (fun _ => hself) { heach with columns := ?_, orderBy := by simp }
    simpa using hvalue' hvalue

/-! The statement over a single table. -/

namespace Statement

/-- What holds of the aliases in each scope, and of the alias of the new source alone, holds in each
scope of the statement over a single table. -/
theorem aliasesMeet_toSingleTable {s : Statement} (hnew : ∀ a, A [a])
    (hs : (Node.statement s).All (Node.IfQuery (Query.AliasesMeet A))) :
    (Node.statement s.toSingleTable).All (Node.IfQuery (Query.AliasesMeet A)) := by
  refine eachQuery_toSingleTable hs (fun _ _ _ aliasName _ => hnew aliasName)
    (fun _ _ _ hq => hq) ?_
  rintro target items q t rfl - i hi outer ids
  obtain ⟨hitems, hq⟩ := (Node.all_update (Node.IfQuery.ofTrees _)).1 hs
  exact Query.aliasesMeet_setValue t outer hq (hitems i hi) ids

/-- The new source is the target, and no other source has its alias. -/
theorem exists_newSource {s : Statement} {target : Option SourceId} {q : Query} {t : Target}
    (hs : s.scope? = some (target, q)) (ht : q.target? target = some t) :
    ∃ source before after, s.toSingleTable.Targets source ∧ source.origin = .table t.table ∧
      source.aliasName = some (syntheticAlias s) ∧
      (Node.statement s.toSingleTable).sources = before ++ source :: after ∧
      ∀ o ∈ before ++ after, o.aliasName ≠ some (syntheticAlias s) := by
  have hfresh : ∀ o ∈ (Node.statement s).sources, o.aliasName ≠ some (syntheticAlias s) :=
    fun o ho hname => freshAlias_notMem _ (Node.mem_aliases.2 ⟨o, ho, hname⟩)
  have hP := Node.IfQuery.ofTrees (Query.AliasesMeet (syntheticAlias s ∉ ·))
  have htest : ∀ {q : Query}, q.EachQuery (Query.AliasesMeet (syntheticAlias s ∉ ·)) →
      ∀ outer, ∀ o ∈ (Node.query (q.correlatedFilter t outer)).sources,
        o.aliasName ≠ some (syntheticAlias s) :=
    fun {q} hq outer => (Node.forall_mem_sources rfl).2
      (Query.eachQuery_correlatedFilter t outer (fun _ _ => hq.self q rfl) hq)
  cases s with
  | delete target q =>
    cases hs
    have hq := (Node.all_delete hP).1 ((Node.forall_mem_sources rfl).1 hfresh)
    simp only [toSingleTable_delete, ht, Node.sources_delete, Query.sources_overTarget]
    exact ⟨_, [], _, ⟨List.mem_singleton_self _, rfl⟩, rfl, rfl, rfl, htest hq _⟩
  | update target items q =>
    cases hs
    obtain ⟨hitems, hq⟩ := (Node.all_update hP).1 ((Node.forall_mem_sources rfl).1 hfresh)
    -- The sources of the values come before the new one, and those of the test for rows after it.
    simp only [toSingleTable_update, ht, Node.sources_update, Query.sources_overTarget]
    refine ⟨_, _, _, ⟨List.mem_singleton_self _, rfl⟩, rfl, rfl, rfl,
      List.forall_mem_append.2 ⟨fun o ho => ?_, htest hq _⟩⟩
    obtain ⟨i, hi, ho⟩ := List.mem_flatMap.1 ho
    have hvalue := Query.eachQuery_setItems
      (fun i hi => Query.aliasesMeet_setValue t _ hq (hitems i hi)) _ i hi
    exact (Node.forall_mem_sources rfl).2 hvalue o ho
  | _ => cases hs

theorem syntheticAlias_of_forall {s : Statement}
    (h : ∀ source ∈ (Node.statement s).sources, source.aliasName ≠ some targetAlias) :
    syntheticAlias s = targetAlias := by
  refine freshAlias_of_notMem fun hmem => ?_
  obtain ⟨source, hsource, hname⟩ := Node.mem_aliases.1 hmem
  exact h source hsource hname

/-- The alias of the new source is `$` if no source of the statement has it, and else the first of
`$1`, `$2`, … that none has, with which a search without a bound ends. No other source of the
statement over a single table has the alias of the new target, and aliases that are distinct in each
scope stay so. -/
theorem fresh_syntheticAlias (s : Statement) :
    ((∀ source ∈ (Node.statement s).sources, source.aliasName ≠ some "$") →
      syntheticAlias s = "$") ∧
    ((∃ source ∈ (Node.statement s).sources, source.aliasName = some "$") →
      (∀ a, AliasSearch (Node.statement s).aliases 0 a ↔ a = syntheticAlias s) ∧
      ∃ k : Nat, 1 ≤ k ∧ syntheticAlias s = "$" ++ Decimal.integer k ∧
        (∀ source ∈ (Node.statement s).sources,
          source.aliasName ≠ some ("$" ++ Decimal.integer k)) ∧
        ∀ j : Nat, 1 ≤ j → j < k → ∃ source ∈ (Node.statement s).sources,
          source.aliasName = some ("$" ++ Decimal.integer j)) ∧
    (∀ target q t, s.scope? = some (target, q) → q.target? target = some t →
      ∃ source before after, s.toSingleTable.Targets source ∧ source.origin = .table t.table ∧
        source.aliasName = some (syntheticAlias s) ∧
        (Node.statement s.toSingleTable).sources = before ++ source :: after ∧
        ∀ o ∈ before ++ after, o.aliasName ≠ some (syntheticAlias s)) ∧
    ((∀ q ∈ (Node.statement s).queries, q.scopeAliases.Nodup) →
      ∀ q ∈ (Node.statement s.toSingleTable).queries, q.scopeAliases.Nodup) := by
  refine ⟨syntheticAlias_of_forall, fun h => ?_, fun _ _ _ => exists_newSource, fun h => ?_⟩
  · have hsearch := aliasSearch_freshAlias (Node.mem_aliases.2 h)
    refine ⟨fun a => ⟨fun ha => ha.unique hsearch, fun ha => ha ▸ hsearch⟩, ?_⟩
    obtain ⟨k, heq, hfree, hleast⟩ := aliasSearch_iff.1 hsearch
    refine ⟨k + 1, Nat.le_add_left 1 k, heq, fun source hsource hname => ?_, fun j hj hjk => ?_⟩
    · exact hfree (Node.mem_aliases.2 ⟨source, hsource, hname⟩)
    · obtain ⟨j, rfl⟩ := Nat.exists_eq_add_of_le' hj
      exact Node.mem_aliases.1 (hleast j (Nat.lt_of_succ_lt_succ hjk))
  · exact Node.forall_mem_queries.2
      (aliasesMeet_toSingleTable List.nodup_singleton (Node.forall_mem_queries.1 h))

end Statement

namespace Sample

/-- Deletes the orders of customers in a scope with the alias `$` and, below it, one with `$1`. -/
def deleteNested : Statement :=
  .delete none
    { id := ⟨1⟩
      sources := [
        { id := ⟨1⟩, origin := .table orders, aliasName := some "$" },
        { id := ⟨2⟩, origin := .table customers }]
      filter := some (.existsRow
        { id := ⟨2⟩
          columns := [{ expr := .int 1 }]
          sources := [{ id := ⟨3⟩, origin := .table customers, aliasName := some "$1" }] }) }

theorem aliases_deleteNested : (Node.statement deleteNested).aliases = ["$", "$1"] := by
  rw [Node.aliases, Node.walk_eq_preorder]
  rfl

theorem syntheticAlias_deleteNested : syntheticAlias deleteNested = "$2" := by
  rw [syntheticAlias, aliases_deleteNested]
  rfl

theorem fresh_syntheticAlias_deleteNested :
    ∃ source before after, deleteNested.toSingleTable.Targets source ∧
      source.aliasName = some "$2" ∧
      (Node.statement deleteNested.toSingleTable).sources = before ++ source :: after ∧
      ∀ o ∈ before ++ after, o.aliasName ≠ some "$2" := by
  obtain ⟨-, -, hnew, -⟩ := Statement.fresh_syntheticAlias deleteNested
  obtain ⟨source, before, after, htargets, -, h⟩ := hnew none _ ⟨⟨1⟩, orders⟩ rfl rfl
  rw [syntheticAlias_deleteNested] at h
  exact ⟨source, before, after, htargets, h⟩

end Sample

end SqlTree

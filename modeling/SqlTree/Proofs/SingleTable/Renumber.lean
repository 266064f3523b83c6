import SqlTree.Proofs.Rename
import SqlTree.Proofs.Transform
import Mathlib.Data.List.Perm.Basic

/-! # Copies with new ids

A copy of a query is the query with its declared ids renamed. The new names are given out one after
the other while the copy is made, so that they are known only at the end; references are renamed
after that.

Main definitions:

* `Renumbering.Names`: what a run does to the names of some ids.
* `Renumbers`: a run that names the ids of a tree, and what it yields.

Main statements:

* `Query.renumber_spec`: the copy is a renaming, and the new ids are distinct and not in use.
* `Query.run_correlatedValue`: a value over a copy, whose references are renamed too.
-/

namespace SqlTree

/-- From one state to the other the ids `D`, and only these, get new names: distinct ones that were
not in use before. -/
structure Renumbering.Names (D : List Ident) (σ σ' : Renumbering) : Prop where
  le : σ.ids ≤ σ'.ids
  off : ∀ i, i ∉ D → σ'.names.ident i = σ.names.ident i
  fresh : ∀ i ∈ D, ¬ (σ'.names.ident i).Below σ.ids
  below : ∀ i ∈ D, (σ'.names.ident i).Below σ'.ids
  inj : ∀ i ∈ D, ∀ j ∈ D, σ'.names.ident i = σ'.names.ident j → i = j

namespace Renumbering.Names

theorem refl (σ : Renumbering) : Names [] σ σ where
  le := Ids.le_refl _
  off _ _ := rfl
  fresh _ h := by simp at h
  below _ h := by simp at h
  inj _ h := by simp at h

theorem append {D D' : List Ident} {σ σ' σ'' : Renumbering} (h : Names D σ σ')
    (h' : Names D' σ' σ'') (hD : D.Disjoint D') : Names (D ++ D') σ σ'' := by
  have hkeep : ∀ i ∈ D, σ''.names.ident i = σ'.names.ident i :=
    fun i hi => h'.off i (hD hi)
  -- The names of `D` are in use when those of `D'` are given out.
  have hne : ∀ i ∈ D, ∀ j ∈ D', σ''.names.ident i ≠ σ''.names.ident j := by
    intro i hi j hj heq
    rw [hkeep i hi] at heq
    exact h'.fresh j hj (heq ▸ h.below i hi)
  refine ⟨Ids.le_trans h.le h'.le, fun i hi => ?_, fun i hi => ?_, fun i hi => ?_,
    fun i hi j hj heq => ?_⟩
  · simp only [List.mem_append, not_or] at hi
    rw [h'.off i hi.2, h.off i hi.1]
  · rcases List.mem_append.1 hi with hi | hi
    · rw [hkeep i hi]
      exact h.fresh i hi
    · exact fun hb => h'.fresh i hi (Ids.below_mono hb h.le)
  · rcases List.mem_append.1 hi with hi | hi
    · rw [hkeep i hi]
      exact Ids.below_mono (h.below i hi) h'.le
    · exact h'.below i hi
  · rcases List.mem_append.1 hi with hi | hi <;> rcases List.mem_append.1 hj with hj | hj
    · rw [hkeep i hi, hkeep j hj] at heq
      exact h.inj i hi j hj heq
    · exact absurd heq (hne i hi j hj)
    · exact absurd heq.symm (hne j hj i hi)
    · exact h'.inj i hi j hj heq

theorem congr {D D' : List Ident} {σ σ' : Renumbering} (h : Names D σ σ')
    (hD : ∀ i, i ∈ D' ↔ i ∈ D) : Names D' σ σ' where
  le := h.le
  off i hi := h.off i fun hm => hi ((hD i).2 hm)
  fresh i hi := h.fresh i ((hD i).1 hi)
  below i hi := h.below i ((hD i).1 hi)
  inj i hi j hj := h.inj i ((hD i).1 hi) j ((hD j).1 hj)

/-! The names after a run in which no name was given before. -/

variable {D : List Ident} {ids : Ids} {σ : Renumbering}

theorem ident_of_notMem (h : Names D { ids } σ) {i : Ident} (hi : i ∉ D) :
    σ.names.ident i = i :=
  (h.off i hi).trans (Renaming.ident_empty i)

theorem ident_ne (h : Names D { ids } σ) {i j : Ident} (hi : i ∈ D) (hj : j.Below ids) :
    σ.names.ident i ≠ j := by
  rintro rfl
  exact h.fresh i hi hj

/-- No two ids in use have the same name. -/
theorem eq_of_ident_eq (h : Names D { ids } σ) {i j : Ident} (hi : i.Below ids) (hj : j.Below ids)
    (heq : σ.names.ident i = σ.names.ident j) : i = j := by
  by_cases hiD : i ∈ D <;> by_cases hjD : j ∈ D
  · exact h.inj i hiD j hjD heq
  · rw [h.ident_of_notMem hjD] at heq
    exact absurd heq (h.ident_ne hiD hj)
  · rw [h.ident_of_notMem hiD] at heq
    exact absurd heq.symm (h.ident_ne hjD hi)
  · rwa [h.ident_of_notMem hiD, h.ident_of_notMem hjD] at heq

end Renumbering.Names

/-- A run that names the ids `D`, and yields a result that meets `P` for each renaming with these
names. -/
def Renumbers {α : Type} (D : List Ident) (P : Renaming → α → Prop) (m : StateM Renumbering α) :
    Prop :=
  ∀ σ, Renumbering.Names D σ (m.run σ).2 ∧
    ∀ d : Renaming, (∀ i ∈ D, d.ident i = (m.run σ).2.names.ident i) → P d (m.run σ).1

namespace Renumbers

variable {α β : Type} {D D' : List Ident} {P : Renaming → α → Prop} {m : StateM Renumbering α}

theorem pure (a : α) : Renumbers [] (fun _ b => b = a) (pure a) :=
  fun σ => ⟨.refl σ, fun _ _ => rfl⟩

theorem mono {P' : Renaming → α → Prop} (h : Renumbers D P m) (hP : ∀ d a, P d a → P' d a)
    (hD : ∀ i, i ∈ D' ↔ i ∈ D) : Renumbers D' P' m := by
  intro σ
  obtain ⟨hnames, hresult⟩ := h σ
  exact ⟨hnames.congr hD, fun d hd => hP d _ (hresult d fun i hi => hd i ((hD i).2 hi))⟩

theorem bind {k : α → StateM Renumbering β} {Q : α → Renaming → β → Prop} (h : Renumbers D P m)
    (hk : ∀ a, Renumbers D' (Q a) (k a)) (hD : D.Disjoint D') :
    Renumbers (D ++ D') (fun d b => ∃ a, P d a ∧ Q a d b) (m >>= k) := by
  intro σ
  obtain ⟨hnames, hresult⟩ := h σ
  obtain ⟨hnames', hresult'⟩ := hk (m.run σ).1 (m.run σ).2
  refine ⟨hnames.append hnames' hD, fun d hd => ⟨(m.run σ).1, ?_, ?_⟩⟩
  · refine hresult d fun i hi => ?_
    rw [hd i (List.mem_append_left _ hi)]
    exact hnames'.off i (hD hi)
  · exact hresult' d fun i hi => hd i (List.mem_append_right _ hi)

/-- A result that is put together after the run. -/
theorem map {f : Renaming → α} (h : Renumbers D (fun d a => a = f d) m) (g : α → β) :
    Renumbers D (fun d b => b = g (f d)) (m >>= fun a => Pure.pure (g a)) := by
  refine (h.bind (fun a => .pure (g a)) (List.disjoint_nil_right D)).mono ?_ (by simp)
  rintro d b ⟨a, rfl, rfl⟩
  rfl

theorem mapM {xs : List α} {t : α → StateM Renumbering β} {ids : α → List Ident}
    {P : Renaming → α → β → Prop} (h : ∀ x ∈ xs, (ids x).Nodup → Renumbers (ids x) (P · x) (t x))
    (hnodup : (xs.flatMap ids).Nodup) :
    Renumbers (xs.flatMap ids) (fun d bs => List.Forall₂ (P d) xs bs) (xs.mapM t) := by
  induction xs with
  | nil =>
    refine (pure []).mono ?_ (by simp)
    rintro d bs rfl
    exact .nil
  | cons x xs ih =>
    rw [List.flatMap_cons, List.nodup_append'] at hnodup
    obtain ⟨hx, hxs, hdisjoint⟩ := hnodup
    rw [List.mapM_cons]
    have htail := ih (fun y hy => h y (List.mem_cons_of_mem x hy)) hxs
    have hcons := fun b => htail.bind (fun bs => .pure (b :: bs)) (List.disjoint_nil_right _)
    have hmapM := (h x List.mem_cons_self hx).bind hcons (by simpa using hdisjoint)
    refine hmapM.mono ?_ (by simp)
    rintro d _ ⟨b, hb, bs, hbs, rfl⟩
    exact .cons hb hbs

/-- The results of a run through a list, if each is determined by the names. -/
theorem mapM_eq {xs : List α} {t : α → StateM Renumbering β} {ids : α → List Ident}
    {f : Renaming → α → β}
    (h : ∀ x ∈ xs, (ids x).Nodup → Renumbers (ids x) (fun d b => b = f d x) (t x))
    (hnodup : (xs.flatMap ids).Nodup) :
    Renumbers (xs.flatMap ids) (fun d bs => bs = xs.map (f d)) (xs.mapM t) := by
  refine (mapM h hnodup).mono (fun d bs hbs => ?_) fun _ => Iff.rfl
  clear h hnodup
  induction hbs with
  | nil => rfl
  | cons hb _ ih => rw [List.map_cons, hb, ih]

/-! Drawing ids. -/

theorem modifyGet {f : Renumbering → α × Renumbering} (hnames : ∀ σ, Renumbering.Names D σ (f σ).2)
    (hresult : ∀ σ (d : Renaming), (∀ i ∈ D, d.ident i = (f σ).2.names.ident i) → P d (f σ).1) :
    Renumbers D P (MonadStateOf.modifyGet f) :=
  fun σ => ⟨hnames σ, hresult σ⟩

end Renumbers

namespace Renaming

theorem ident_addQuery (r : Renaming) (old new : QueryId) (i : Ident) :
    (r.addQuery old new).ident i = if i = .query old then .query new else r.ident i := by
  cases i with
  | source id => rfl
  | query id =>
    simp only [ident, query, addQuery, List.lookup_cons, Ident.query.injEq]
    by_cases h : id = old
    · simp [h]
    · have hne : (id == old) = false := by simpa using h
      simp [hne, h]

theorem lookup_eq_some_of_mem {α β : Type} [DecidableEq α] {l : List (α × β)}
    (h : (l.map Prod.fst).Nodup) {a : α} {b : β} (hm : (a, b) ∈ l) : l.lookup a = some b := by
  induction l with
  | nil => simp at hm
  | cons p l ih =>
    simp only [List.map_cons, List.nodup_cons] at h
    rcases List.mem_cons.1 hm with rfl | hm
    · simp
    · have hne : (a == p.1) = false := by
        simpa using fun heq : a = p.1 => h.1 (heq ▸ List.mem_map_of_mem hm)
      rw [List.lookup_cons, hne]
      exact ih h.2 hm

theorem fst_entries (ids : List SourceId) (base : Nat) :
    (ids.mapIdx fun i id => (id, SourceId.mk (base + i))).reverse.map Prod.fst = ids.reverse := by
  rw [List.map_reverse, List.reverse_inj]
  refine List.ext_getElem (by simp) fun i _ _ => by simp

theorem source_addSources {ids : List SourceId} (hnodup : ids.Nodup) (r : Renaming) (base : Nat)
    {i : Nat} (hi : i < ids.length) : (r.addSources base ids).source ids[i] = ⟨base + i⟩ := by
  have hmem : (ids[i], SourceId.mk (base + i)) ∈
      (ids.mapIdx fun i id => (id, SourceId.mk (base + i))).reverse := by
    rw [List.mem_reverse, List.mem_mapIdx]
    exact ⟨i, hi, rfl⟩
  have hlookup := lookup_eq_some_of_mem
    (by rw [fst_entries]; exact List.nodup_reverse.2 hnodup) hmem
  simp [source, addSources, List.lookup_append, hlookup]

theorem ident_addSources_of_notMem {ids : List SourceId} (r : Renaming) (base : Nat) {i : Ident}
    (hi : i ∉ ids.map .source) : (r.addSources base ids).ident i = r.ident i := by
  cases i with
  | query id => rfl
  | source id =>
    have hnone :
        (ids.mapIdx fun i id => (id, SourceId.mk (base + i))).reverse.lookup id = none := by
      rw [List.lookup_eq_none_iff]
      intro p hp
      have hmem : p.1 ∈ ids.reverse := fst_entries ids base ▸ List.mem_map_of_mem hp
      have hne : id ≠ p.1 := by
        rintro rfl
        exact hi (List.mem_map_of_mem (List.mem_reverse.1 hmem))
      simpa using hne
    simp [ident, source, addSources, List.lookup_append, hnone]

end Renaming

/-- The ids count up from `n`. -/
def ConsecutiveFrom (n : Nat) (ids : List SourceId) : Prop :=
  ids = (List.range' n ids.length).map SourceId.mk

theorem ConsecutiveFrom.append_iff {n : Nat} {l l' : List SourceId} :
    ConsecutiveFrom n (l ++ l') ↔ ConsecutiveFrom n l ∧ ConsecutiveFrom (n + l.length) l' := by
  unfold ConsecutiveFrom
  rw [List.length_append, ← List.range'_append_1, List.map_append]
  constructor
  · intro h
    exact List.append_inj h (by simp)
  · rintro ⟨h, h'⟩
    rw [← h, ← h']

theorem ConsecutiveFrom.cons_iff {n : Nat} {id : SourceId} {l : List SourceId} :
    ConsecutiveFrom n (id :: l) ↔ id = ⟨n⟩ ∧ ConsecutiveFrom (n + 1) l := by
  simp [ConsecutiveFrom, List.range'_succ]

/-! The ids of a scope and those below it. -/

mutual

/-- The ids that are declared below a source and those joined to it, in queries of their own. -/
def Source.inner : Source → List Ident
  | ⟨_, origin, _, joins⟩ => Node.declaredBy origin ++ innerOfJoins joins

def innerOfJoins : List Join → List Ident
  | [] => []
  | ⟨_, source, condition⟩ :: joins =>
    source.inner ++ Node.declaredIn condition ++ innerOfJoins joins

end

theorem innerOfJoins_eq (js : List Join) :
    innerOfJoins js = js.flatMap fun j => j.source.inner ++ Node.declaredIn j.condition := by
  induction js with
  | nil => rfl
  | cons j js ih =>
    cases j
    simp [innerOfJoins, ih]

theorem Source.inner_eq (s : Source) :
    s.inner = Node.declaredBy s.origin ++
      s.joins.flatMap fun j => j.source.inner ++ Node.declaredIn j.condition := by
  cases s
  simp [inner, innerOfJoins_eq]

/-- The ids of the sources of a scope. -/
def scopeIds (ss : List Source) : List Ident := ss.map fun s => .source s.id

theorem flatMap_perm_append {α β : Type} {f g k : α → List β} {l : List α}
    (h : ∀ a ∈ l, (f a).Perm (g a ++ k a)) : (l.flatMap f).Perm (l.flatMap g ++ l.flatMap k) :=
  (List.Perm.flatMap_left l h).trans (List.flatMap_append_perm l g k).symm

theorem Source.declared_perm :
    ∀ s : Source, (Node.source s).declared.Perm (scopeIds s.withJoined ++ s.inner) := by
  refine Source.joinInduction fun s ih => ?_
  have hjoins : (s.joins.flatMap fun j => (Node.source j.source).declared ++
      Node.declaredIn j.condition).Perm ((s.joins.flatMap fun j => scopeIds j.source.withJoined) ++
        s.joins.flatMap fun j => j.source.inner ++ Node.declaredIn j.condition) := by
    refine flatMap_perm_append fun j hj => ?_
    rw [← List.append_assoc]
    exact (ih j hj).append_right _
  rw [Node.declared_source, withJoined_eq, inner_eq, scopeIds, List.map_cons, List.map_flatMap,
    List.cons_append]
  refine List.Perm.cons _ ?_
  refine (hjoins.append_left _).trans ?_
  rw [← List.append_assoc, ← List.append_assoc]
  exact List.perm_append_comm.append_right _

/-! Numbering sources whose ids count up already. -/

theorem numberJoins_eq_self {js : List Join}
    (hjs : ∀ j ∈ js, ∀ n, ConsecutiveFrom n (j.source.withJoined.map (·.id)) →
      j.source.numberFrom n = j.source) {n : Nat}
    (h : ConsecutiveFrom n ((js.flatMap fun j => j.source.withJoined).map (·.id))) :
    numberJoins n js = js := by
  induction js generalizing n with
  | nil => rfl
  | cons j js ih =>
    rw [List.flatMap_cons, List.map_append, ConsecutiveFrom.append_iff, List.length_map] at h
    have hj := hjs j List.mem_cons_self n h.1
    cases j
    simp only [numberJoins]
    rw [hj, ih (fun j hj => hjs j (List.mem_cons_of_mem _ hj)) h.2]

theorem Source.numberFrom_eq_self :
    ∀ (s : Source) (n : Nat), ConsecutiveFrom n (s.withJoined.map (·.id)) → s.numberFrom n = s := by
  refine Source.joinInduction fun s ih n h => ?_
  rw [withJoined_eq, List.map_cons, ConsecutiveFrom.cons_iff] at h
  have hjoins := numberJoins_eq_self ih h.2
  cases s
  simp only at h hjoins
  simp only [numberFrom, hjoins, h.1]

theorem numberSources_eq_self {ss : List Source} {n : Nat}
    (h : ConsecutiveFrom n ((ss.flatMap Source.withJoined).map (·.id))) :
    numberSources n ss = ss := by
  induction ss generalizing n with
  | nil => rfl
  | cons s ss ih =>
    rw [List.flatMap_cons, List.map_append, ConsecutiveFrom.append_iff, List.length_map] at h
    rw [numberSources, s.numberFrom_eq_self n h.1, ih h.2]

namespace Renumbers

theorem drawQuery (old : QueryId) :
    Renumbers [.query old] (fun d id => id = d.query old)
      (MonadStateOf.modifyGet (Renumbering.drawQuery old)) := by
  have hold : ∀ σ : Renumbering, (Renumbering.drawQuery old σ).2.names.ident (.query old) =
      .query σ.ids.drawQuery.1 := by
    intro σ
    exact (Renaming.ident_addQuery ..).trans (if_pos rfl)
  refine modifyGet (fun σ => ⟨Ids.le_drawQuery _, fun i hi => ?_, ?_, ?_, ?_⟩) fun σ d hd => ?_
  · exact (Renaming.ident_addQuery ..).trans (if_neg (by simpa using hi))
  · simp only [List.mem_singleton, forall_eq, hold]
    exact Nat.lt_irrefl _
  · simp only [List.mem_singleton, forall_eq, hold]
    exact Nat.lt_succ_self _
  · simp
  · have hquery := (hd _ List.mem_cons_self).trans (hold σ)
    exact (Ident.query.inj hquery).symm

/-- The ids of a scope are numbered one after the other. -/
theorem drawSources {old : List SourceId} (hnodup : old.Nodup) :
    Renumbers (old.map .source) (fun d base => ConsecutiveFrom base (old.map d.source))
      (MonadStateOf.modifyGet (Renumbering.drawSources old)) := by
  have hold : ∀ (σ : Renumbering) {i : Nat} (hi : i < old.length),
      (Renumbering.drawSources old σ).2.names.ident (.source old[i]) =
        .source ⟨σ.ids.nextSource + i⟩ := by
    intro σ i hi
    exact congrArg Ident.source (Renaming.source_addSources hnodup _ _ hi)
  refine modifyGet (fun σ => ⟨⟨Nat.le_refl _, Nat.le_add_right _ _⟩, fun i hi => ?_, ?_, ?_, ?_⟩)
    fun σ d hd => ?_
  · exact Renaming.ident_addSources_of_notMem _ _ hi
  · intro i hi
    obtain ⟨id, hid, rfl⟩ := List.mem_map.1 hi
    obtain ⟨k, hk, rfl⟩ := List.mem_iff_getElem.1 hid
    rw [hold σ hk]
    simp only [Ident.Below]
    omega
  · intro i hi
    obtain ⟨id, hid, rfl⟩ := List.mem_map.1 hi
    obtain ⟨k, hk, rfl⟩ := List.mem_iff_getElem.1 hid
    rw [hold σ hk]
    exact Nat.add_lt_add_left hk _
  · intro i hi j hj heq
    obtain ⟨id, hid, rfl⟩ := List.mem_map.1 hi
    obtain ⟨k, hk, rfl⟩ := List.mem_iff_getElem.1 hid
    obtain ⟨id', hid', rfl⟩ := List.mem_map.1 hj
    obtain ⟨k', hk', rfl⟩ := List.mem_iff_getElem.1 hid'
    rw [hold σ hk, hold σ hk'] at heq
    have hkk : k = k' := by simpa using heq
    subst hkk
    rfl
  · refine List.ext_getElem (by simp) fun i hi _ => ?_
    have hi' : i < old.length := by simpa using hi
    have hsource := (hd (.source old[i]) (List.mem_map_of_mem (List.getElem_mem hi'))).trans
      (hold σ hi')
    simpa [Renumbering.drawSources, Ids.drawSources] using Ident.source.inj hsource

end Renumbers

/-- The ids that are declared below a query in queries of their own. -/
def Query.inner (q : Query) : List Ident :=
  (q.columns.flatMap fun c => (Node.expr c.expr).declared) ++ (Node.declaredIn q.skip ++
    (Node.declaredIn q.take ++ (q.sources.flatMap Source.inner ++ (Node.declaredIn q.filter ++
      ((q.groupBy.flatMap fun e => (Node.expr e).declared) ++ (Node.declaredIn q.having ++
        (q.orderBy.flatMap fun o => (Node.expr o.expr).declared)))))))

/-- A query declares its own id, those of its scope, and those below. -/
theorem Query.declared_perm (q : Query) :
    (Node.query q).declared.Perm (.query q.id :: (scopeIds q.allSources ++ q.inner)) := by
  have hsources : (q.sources.flatMap fun s => (Node.source s).declared).Perm
      (scopeIds q.allSources ++ q.sources.flatMap Source.inner) := by
    rw [scopeIds, allSources, List.map_flatMap]
    exact flatMap_perm_append fun s _ => s.declared_perm
  rw [Node.declared_query, Query.inner]
  refine List.Perm.cons _ ?_
  rw [List.perm_iff_count]
  intro i
  have hcount := List.perm_iff_count.1 hsources i
  simp only [List.count_append] at hcount ⊢
  omega

/-- The sources differ from the renamed one at most in the ids of their scope. -/
structure Source.RenamedBelow (d : Renaming) (s a : Source) : Prop where
  numberFrom : ∀ n, a.numberFrom n = (s.rename d {}).numberFrom n
  length : a.withJoined.length = s.withJoined.length

theorem numberSources_of_renamedBelow {d : Renaming} {ss as : List Source}
    (h : List.Forall₂ (Source.RenamedBelow d) ss as) (n : Nat) :
    numberSources n as = numberSources n (ss.map (Source.rename d {})) := by
  induction h generalizing n with
  | nil => rfl
  | cons hs _ ih =>
    simp only [List.map_cons, numberSources, hs.numberFrom, hs.length, ih, Source.withJoined_rename,
      List.length_map]

/-- The joins differ from the renamed ones at most in the ids of the scope. -/
def Join.RenamedBelow (d : Renaming) (j a : Join) : Prop :=
  ∃ s, j.source.RenamedBelow d s ∧ a = ⟨j.kind, s, j.condition.map (Expr.rename d {})⟩

theorem numberJoins_of_renamedBelow {d : Renaming} {js as : List Join}
    (h : List.Forall₂ (Join.RenamedBelow d) js as) (n : Nat) :
    numberJoins n as = numberJoins n (js.map (Join.rename d {})) := by
  induction h generalizing n with
  | nil => rfl
  | cons hj _ ih =>
    obtain ⟨a, ha, rfl⟩ := hj
    simp only [List.map_cons, Join.rename_eq, numberJoins, ha.numberFrom, ha.length, ih,
      Source.withJoined_rename, List.length_map]

theorem length_of_renamedBelow {d : Renaming} {js as : List Join}
    (h : List.Forall₂ (Join.RenamedBelow d) js as) :
    (as.flatMap fun a => a.source.withJoined).length =
      (js.flatMap fun j => j.source.withJoined).length := by
  induction h with
  | nil => rfl
  | cons hj _ ih =>
    obtain ⟨a, ha, rfl⟩ := hj
    simp only [List.flatMap_cons, List.length_append, ha.length, ih]

theorem Source.RenamedBelow.of_parts {d : Renaming} {s : Source} {js : List Join}
    (h : List.Forall₂ (Join.RenamedBelow d) s.joins js) :
    s.RenamedBelow d { s with origin := s.origin.rename d {}, joins := js } where
  numberFrom n := by
    have hjoins := numberJoins_of_renamedBelow h (n + 1)
    cases s
    simp only at hjoins
    simp only [Source.numberFrom, Source.rename, renameJoins_eq_map, hjoins]
  length := by
    rw [withJoined_eq, withJoined_eq s]
    simp only [List.length_cons, length_of_renamedBelow h]

namespace Renumbers

/-! The walk. -/

/-- The expression becomes a renaming of itself. -/
def OnExpr (e : Expr) : Prop :=
  (Node.expr e).declared.Nodup →
    Renumbers (Node.expr e).declared (fun d a => a = e.rename d {}) (e.transform .renumber)

/-- The query becomes a renaming of itself. -/
def OnQuery (q : Query) : Prop :=
  (Node.query q).declared.Nodup →
    Renumbers (Node.query q).declared (fun d a => a = q.rename d {}) (q.transform .renumber)

/-- What is below the source becomes a renaming of itself. -/
def OnSource (s : Source) : Prop :=
  s.inner.Nodup → Renumbers s.inner (fun d a => s.RenamedBelow d a) (s.transform .renumber)

theorem optional {o : Option Expr} (h : ∀ e ∈ o, OnExpr e) (hnodup : (Node.declaredIn o).Nodup) :
    Renumbers (Node.declaredIn o) (fun d a => a = o.map (Expr.rename d {}))
      (transformOptional .renumber o) := by
  cases o with
  | none => exact .pure none
  | some e =>
    rw [Node.declaredIn_some] at hnodup ⊢
    exact (h e rfl hnodup).map some

theorem exprs {es : List Expr} (h : ∀ e ∈ es, OnExpr e)
    (hnodup : (es.flatMap fun e => (Node.expr e).declared).Nodup) :
    Renumbers (es.flatMap fun e => (Node.expr e).declared)
      (fun d as => as = es.map (Expr.rename d {})) (transformExprs .renumber es) := by
  rw [transformExprs_eq_mapM]
  exact mapM_eq h hnodup

theorem origin {o : Origin} (h : ∀ q, o = .query q → OnQuery q)
    (hnodup : (Node.declaredBy o).Nodup) :
    Renumbers (Node.declaredBy o) (fun d a => a = o.rename d {}) (o.transform .renumber) := by
  cases o with
  | table t => exact .pure _
  | query q => exact (h q rfl hnodup).map Origin.query

theorem columns {cs : List Column} (h : ∀ c ∈ cs, OnExpr c.expr)
    (hnodup : (cs.flatMap fun c => (Node.expr c.expr).declared).Nodup) :
    Renumbers (cs.flatMap fun c => (Node.expr c.expr).declared)
      (fun d as => as = cs.map fun c => { c with expr := c.expr.rename d {} })
      (transformColumns .renumber cs) := by
  rw [transformColumns_eq_mapM]
  exact mapM_eq (fun c hc hn => (h c hc hn).map fun e => { c with expr := e }) hnodup

theorem order {os : List OrderItem} (h : ∀ o ∈ os, OnExpr o.expr)
    (hnodup : (os.flatMap fun o => (Node.expr o.expr).declared).Nodup) :
    Renumbers (os.flatMap fun o => (Node.expr o.expr).declared)
      (fun d as => as = os.map fun o => { o with expr := o.expr.rename d {} })
      (transformOrder .renumber os) := by
  rw [transformOrder_eq_mapM]
  exact mapM_eq (fun o ho hn => (h o ho hn).map fun e => { o with expr := e }) hnodup

theorem joins {js : List Join} (hsource : ∀ j ∈ js, OnSource j.source)
    (hcondition : ∀ j ∈ js, ∀ e ∈ j.condition, OnExpr e)
    (hnodup : (js.flatMap fun j => j.source.inner ++ Node.declaredIn j.condition).Nodup) :
    Renumbers (js.flatMap fun j => j.source.inner ++ Node.declaredIn j.condition)
      (fun d as => List.Forall₂ (Join.RenamedBelow d) js as) (transformJoins .renumber js) := by
  rw [transformJoins_eq_mapM]
  refine mapM (fun j hj hn => ?_) hnodup
  obtain ⟨hs, hc, hdisjoint⟩ := List.nodup_append'.1 hn
  have hrun := (hsource j hj hs).bind
    (fun s => (optional (hcondition j hj) hc).map fun c => (⟨j.kind, s, c⟩ : Join)) hdisjoint
  exact hrun.mono (fun d a ha => ha) fun _ => Iff.rfl

theorem sources {ss : List Source} (h : ∀ s ∈ ss, OnSource s)
    (hnodup : (ss.flatMap Source.inner).Nodup) :
    Renumbers (ss.flatMap Source.inner) (fun d as => List.Forall₂ (Source.RenamedBelow d) ss as)
      (transformSources .renumber ss) := by
  rw [transformSources_eq_mapM]
  exact mapM h hnodup

theorem rebuild {q : Query} (ih : q.Each OnExpr OnSource) (hnodup : q.inner.Nodup) :
    Renumbers q.inner
      (fun d a => ∃ ss, List.Forall₂ (Source.RenamedBelow d) q.sources ss ∧
        a = { q.rename d {} with id := q.id, sources := ss })
      (QueryParts.rebuild q
        { columns := transformColumns .renumber q.columns
          skip := transformOptional .renumber q.skip
          take := transformOptional .renumber q.take
          sources := transformSources .renumber q.sources
          filter := transformOptional .renumber q.filter
          groupBy := transformExprs .renumber q.groupBy
          having := transformOptional .renumber q.having
          orderBy := transformOrder .renumber q.orderBy }) := by
  unfold Query.inner at hnodup ⊢
  obtain ⟨hcolumns, hnodup, hdisj₁⟩ := List.nodup_append'.1 hnodup
  obtain ⟨hskip, hnodup, hdisj₂⟩ := List.nodup_append'.1 hnodup
  obtain ⟨htake, hnodup, hdisj₃⟩ := List.nodup_append'.1 hnodup
  obtain ⟨hsources, hnodup, hdisj₄⟩ := List.nodup_append'.1 hnodup
  obtain ⟨hfilter, hnodup, hdisj₅⟩ := List.nodup_append'.1 hnodup
  obtain ⟨hgroupBy, hnodup, hdisj₆⟩ := List.nodup_append'.1 hnodup
  obtain ⟨hhaving, horderBy, hdisj₇⟩ := List.nodup_append'.1 hnodup
  have hrun := (columns ih.columns hcolumns).bind (fun cs =>
    (optional ih.skip hskip).bind (fun sk => (optional ih.take htake).bind (fun tk =>
      (sources ih.sources hsources).bind (fun ss => (optional ih.filter hfilter).bind (fun f =>
        (exprs ih.groupBy hgroupBy).bind (fun g => (optional ih.having hhaving).bind (fun h =>
          (order ih.orderBy horderBy).map fun o =>
            (⟨q.id, cs, q.distinct, sk, tk, ss, f, g, h, o⟩ : Query))
          hdisj₇) hdisj₆) hdisj₅) hdisj₄) hdisj₃) hdisj₂) hdisj₁
  refine hrun.mono ?_ fun _ => Iff.rfl
  rintro d _ ⟨_, rfl, _, rfl, _, rfl, ss, hss, _, rfl, _, rfl, _, rfl, rfl⟩
  exact ⟨ss, hss, by rw [Query.rename_eq]⟩

/-- The walk gives new ids to all queries and the sources of their scopes. -/
theorem closed : Tree.Closed OnExpr OnQuery OnSource where
  value l t _ := .pure _
  parameter p _ := .pure _
  field f _ := .pure _
  column c _ := .pure _
  call name t args flags ih hnodup := by
    rw [Node.declared_call] at hnodup ⊢
    simp only [Expr.transform, Expr.rename, renameExprs_eq_map]
    exact (exprs ih hnodup).map fun args => Expr.call name t args flags
  binary op left right p t n hl hr hnodup := by
    rw [Node.declared_binary] at hnodup ⊢
    obtain ⟨hleft, hright, hdisjoint⟩ := List.nodup_append'.1 hnodup
    have hboth := (hl hleft).bind (fun l => (hr hright).map fun r => Expr.binary op l r p t n)
      hdisjoint
    refine hboth.mono ?_ fun _ => Iff.rfl
    rintro d _ ⟨_, rfl, rfl⟩
    rfl
  raw format p args t ih hnodup := by
    rw [Node.declared_raw] at hnodup ⊢
    simp only [Expr.transform, Expr.rename, renameExprs_eq_map]
    exact (exprs ih hnodup).map fun args => Expr.raw format p args t
  typeName t _ := .pure _
  subquery q ih hnodup := by
    rw [Node.declared_subquery] at hnodup ⊢
    exact (ih hnodup).map Expr.subquery
  existsRow q ih hnodup := by
    rw [Node.declared_existsRow] at hnodup ⊢
    exact (ih hnodup).map Expr.existsRow
  query q ih hnodup := by
    have hperm := q.declared_perm
    obtain ⟨hid, hrest⟩ := List.nodup_cons.1 (hperm.nodup_iff.1 hnodup)
    obtain ⟨hscope, hinner, hdisjoint⟩ := List.nodup_append'.1 hrest
    have hsources : (q.allSources.map (·.id)).Nodup := by
      refine List.Nodup.of_map Ident.source ?_
      rwa [List.map_map]
    have hrun := (drawQuery q.id).bind (fun id => (drawSources hsources).bind (fun base =>
      (rebuild ih hinner).bind (fun copy =>
        .pure { copy with id, sources := numberSources base copy.sources })
        (List.disjoint_nil_right _)) (by simpa [scopeIds, Function.comp_def] using hdisjoint))
      (by simpa [scopeIds, Function.comp_def] using hid)
    rw [Query.transform_eq]
    refine hrun.mono ?_ fun i => ?_
    · rintro d _ ⟨_, rfl, base, hbase, _, ⟨ss, hss, rfl⟩, rfl⟩
      have hids : ((q.sources.map (Source.rename d {})).flatMap Source.withJoined).map (·.id) =
          (q.allSources.map (·.id)).map d.source := by
        simp [Query.allSources, List.flatMap_map, List.map_flatMap, Source.withJoined_rename,
          Function.comp_def]
      have hnumber : numberSources base ss = q.sources.map (Source.rename d {}) := by
        rw [numberSources_of_renamedBelow hss]
        exact numberSources_eq_self (hids ▸ hbase)
      rw [Query.rename_eq]
      simp only [hnumber]
    · rw [hperm.mem_iff]
      simp [scopeIds]
  source s ih hnodup := by
    rw [Source.inner_eq] at hnodup ⊢
    obtain ⟨horigin, hjoins, hdisjoint⟩ := List.nodup_append'.1 hnodup
    have hruns := (origin ih.origin horigin).bind (fun o =>
      (joins ih.joins ih.conditions hjoins).bind (fun js =>
        .pure { s with origin := o, joins := js }) (List.disjoint_nil_right _))
      (by simpa using hdisjoint)
    rw [Source.transform_eq]
    refine hruns.mono ?_ (by simp)
    rintro d _ ⟨_, rfl, js, hjs, rfl⟩
    exact .of_parts hjs

end Renumbers

/-- A copy with new ids is a renaming of the declared ids, which get distinct names that are not in
use. -/
theorem Query.renumber_spec {q : Query} (hnodup : (Node.query q).declared.Nodup) (ids : Ids) :
    Renumbering.Names (Node.query q).declared { ids } (q.renumber ids).2 ∧
      (q.renumber ids).1 = q.rename (q.renumber ids).2.names {} := by
  obtain ⟨hnames, hcopy⟩ := Renumbers.closed.onQuery q hnodup { ids }
  exact ⟨hnames, hcopy _ fun _ _ => rfl⟩

theorem Query.run_correlatedValue {q : Query} (hnodup : (Node.query q).declared.Nodup)
    (value : Expr) (target : Target) (outer : SourceId) (ids : Ids) :
    let r := (q.renumber ids).2
    (q.correlatedValue value target outer).run ids =
      (.subquery (({ q.rename r.names r.names with
        columns := [{ expr := value.rename {} r.names }], orderBy := [] }).addFilter?
          (target.table.keyEquality (r.names.source target.id) outer)), r.ids) := by
  have hcopy : (q.renumber ids).1.mapUp (q.renumber ids).2.names.reference =
      q.rename (q.renumber ids).2.names (q.renumber ids).2.names := by
    rw [(q.renumber_spec hnodup ids).2]
    exact q.mapUp_reference_rename _ _
  simp only [← hcopy, ← Expr.mapUp_reference]
  rfl

end SqlTree

import SqlTree.Proofs.Refinement
import SqlTree.Proofs.Scope
import SqlTree.Proofs.Semantics.Basic

/-! # What sources bind

Main definitions:

* `Source.offers`: the id under which a source binds a row.
* `Side.Yields`: an environment that a side of a join leads to.
* `Env.AgreeOff`: environments that differ at most in what is bound under given ids.
* `Query.InnerJoined`: all joins of the scope are inner ones.
* `Query.Extends`: a join can extend rows by NULLs for a source.
* `Env.AtRow`: an environment that holds a row of the table of a source, or NULLs for it.

Main statements:

* `Side.Yields.of_join`: the environments that a join leads to.
* `agreeOff_of_mem_bindSources`: sources bind nothing but the ids that they offer.
* `Query.atRow_of_mem_bindSources`: sources over tables bind rows of these tables, or NULLs where a
  join can extend rows by them.
* `Expr.aggregates_eq_false`: without a group there are no values of aggregates.
-/

namespace SqlTree

variable {V : Type} [DecidableEq V] {db : Database V}

/-- The id under which the source by itself binds a row. -/
def Source.offers (s : Source) : Ident :=
  match s.origin with
  | .table _ => .source s.id
  | .query q => .query q.id

theorem Source.offers_of_table {s : Source} {t : Table} (h : s.origin = .table t) :
    s.offers = .source s.id := by
  simp [offers, h]

/-- The ids under which the sources of the scope bind rows. -/
def Query.offered (q : Query) : List Ident := q.allSources.map Source.offers

/-- All joins of the scope are inner joins. -/
def Query.InnerJoined (q : Query) : Prop :=
  ∀ s ∈ q.allSources, ∀ j ∈ s.joins, j.kind = .inner

theorem Source.offers_sublist_opens (s : Source) : [s.offers].Sublist s.opens := by
  unfold offers opens
  cases s.origin <;> simp

theorem Query.offered_sublist_opens (q : Query) : q.offered.Sublist q.opens := by
  rw [offered, List.map_eq_flatMap]
  exact .flatMap_right _ fun s _ => s.offers_sublist_opens

/-- What the sources offer is declared, each id once if no id is declared twice. -/
theorem Query.offered_sublist_declared (q : Query) :
    q.offered.Sublist (Node.query q).declared :=
  q.offered_sublist_opens.trans q.opens_sublist_declared

/-! The environments that sources lead to. -/

omit [DecidableEq V] in
theorem Env.mem_of_keepIf {env b : Env V} {condition : Option Bool} {bs : List (Env V)}
    (h : env.keepIf condition = some bs) (hb : b ∈ bs) : b = env := by
  obtain ⟨holds, -, rfl⟩ := Option.map_eq_some_iff.1 h
  split at hb
  · exact List.mem_singleton.1 hb
  · simp at hb

theorem Query.mem_bindSources_of_mem_bindings {q : Query} {env b : Env V} {bs : List (Env V)}
    (h : (q.scan db).bindings env = some bs) (hb : b ∈ bs) :
    ∃ cs, bindSources db env q.sources = some cs ∧ b ∈ cs := by
  rw [Query.bindings_eq] at h
  obtain ⟨cs, c, hcs, hc, zs, hzs, hmem⟩ := mem_bind_flatMapM h hb
  exact ⟨cs, hcs, Env.mem_of_keepIf hzs hmem ▸ hc⟩

/-- A join puts NULLs for its joined source. -/
def JoinKind.nullsJoined : JoinKind → Bool
  | .left | .outerApply | .full => true
  | .inner | .right | .crossApply => false

/-- A join puts NULLs for the sources before it. -/
def JoinKind.nullsEarlier : JoinKind → Bool
  | .right | .full => true
  | .inner | .left | .crossApply | .outerApply => false

/-- The environment is one of those that the side leads to. -/
def Side.Yields (a : Side V) (env b : Env V) : Prop := ∃ bs, a.bind env = some bs ∧ b ∈ bs

namespace Side

omit [DecidableEq V]

variable {a b : Side V} {holds : Env V → Option Bool} {kind : JoinKind} {env c : Env V}
  {bs : List (Env V)}

theorem yields_of_kept (h : a.kept holds env = some bs) (hc : c ∈ bs) : a.Yields env c := by
  obtain ⟨es, e, hes, he, zs, hzs, hmem⟩ := mem_bind_flatMapM h hc
  exact ⟨es, hes, Env.mem_of_keepIf hzs hmem ▸ he⟩

theorem yields_of_matched (h : a.matched b holds env = some bs) (hc : c ∈ bs) :
    ∃ d, a.Yields env d ∧ b.Yields d c := by
  obtain ⟨es, e, hes, he, zs, hzs, hmem⟩ := mem_bind_flatMapM h hc
  exact ⟨e, ⟨es, hes, he⟩, yields_of_kept hzs hmem⟩

theorem yields_of_unmatched (h : a.unmatched b holds env = some bs) (hc : c ∈ bs) :
    ∃ d, a.Yields env d ∧ c = b.nulls d := by
  obtain ⟨es, e, hes, he, zs, hzs, hmem⟩ := mem_bind_flatMapM h hc
  obtain ⟨kept, -, hzs⟩ := Option.bind_eq_some_iff.1 hzs
  cases hzs
  split at hmem
  · exact ⟨e, ⟨es, hes, he⟩, List.mem_singleton.1 hmem⟩
  · simp at hmem

theorem yields_of_extended (h : a.extended b holds env = some bs) (hc : c ∈ bs) :
    ∃ d, a.Yields env d ∧ (b.Yields d c ∨ c = b.nulls d) := by
  obtain ⟨es, e, hes, he, zs, hzs, hmem⟩ := mem_bind_flatMapM h hc
  obtain ⟨kept, hkept, hzs⟩ := Option.bind_eq_some_iff.1 hzs
  cases hzs
  refine ⟨e, ⟨es, hes, he⟩, ?_⟩
  split at hmem
  · exact .inr (List.mem_singleton.1 hmem)
  · exact .inl (yields_of_kept hkept hmem)

/-- A join leads to environments of one side after the other, or with NULLs for the other one as far
as the kind of join has them. -/
theorem Yields.of_join (h : (a.join b holds kind).Yields env c) :
    (∃ d, a.Yields env d ∧ (b.Yields d c ∨ kind.nullsJoined = true ∧ c = b.nulls d)) ∨
      ∃ d, b.Yields env d ∧ (a.Yields d c ∨ kind.nullsEarlier = true ∧ c = a.nulls d) := by
  obtain ⟨bs, hbs, hc⟩ := h
  cases kind with
  | inner | crossApply =>
    obtain ⟨d, hd, hdc⟩ := yields_of_matched hbs hc
    exact .inl ⟨d, hd, .inl hdc⟩
  | left | outerApply =>
    obtain ⟨d, hd, hdc⟩ := yields_of_extended hbs hc
    exact .inl ⟨d, hd, hdc.imp_right fun h => ⟨rfl, h⟩⟩
  | right =>
    obtain ⟨d, hd, hdc⟩ := yields_of_extended hbs hc
    exact .inr ⟨d, hd, hdc.imp_right fun h => ⟨rfl, h⟩⟩
  | full =>
    obtain ⟨ls, hls, hbs⟩ := Option.bind_eq_some_iff.1 hbs
    obtain ⟨rs, hrs, hbs⟩ := Option.bind_eq_some_iff.1 hbs
    cases hbs
    rcases List.mem_append.1 hc with hc | hc
    · obtain ⟨d, hd, hdc⟩ := yields_of_extended hls hc
      exact .inl ⟨d, hd, hdc.imp_right fun h => ⟨rfl, h⟩⟩
    · obtain ⟨d, hd, hdc⟩ := yields_of_unmatched hrs hc
      exact .inr ⟨d, hd, .inr ⟨rfl, hdc⟩⟩

end Side

theorem mem_bindSources_cons {s : Source} {ss : List Source} {env b : Env V} {bs : List (Env V)}
    (h : bindSources db env (s :: ss) = some bs) (hb : b ∈ bs) :
    ∃ d, (s.side db).Yields env d ∧ ∃ cs, bindSources db d ss = some cs ∧ b ∈ cs := by
  unfold bindSources at h
  obtain ⟨ds, d, hds, hd, cs, hcs, hmem⟩ := mem_bind_flatMapM h hb
  exact ⟨d, ⟨ds, hds, hd⟩, cs, hcs, hmem⟩

/-! Other ids stay as they are. -/

/-- The second environment holds what the first one holds, apart from the given ids. -/
structure Env.AgreeOff (ids : List Ident) (env b : Env V) : Prop where
  source : ∀ id, .source id ∉ ids → b.source id = env.source id
  derived : ∀ id, .query id ∉ ids → b.derived id = env.derived id
  group : b.group = env.group

namespace Env.AgreeOff

omit [DecidableEq V]

theorem refl (env : Env V) : env.AgreeOff [] env := ⟨fun _ _ => rfl, fun _ _ => rfl, rfl⟩

theorem mono {l l' : List Ident} {a b : Env V} (h : a.AgreeOff l b) (hl : l ⊆ l') :
    a.AgreeOff l' b where
  source id hid := h.source id fun hmem => hid (hl hmem)
  derived id hid := h.derived id fun hmem => hid (hl hmem)
  group := h.group

theorem append {l l' : List Ident} {a b c : Env V} (h : a.AgreeOff l b) (g : b.AgreeOff l' c) :
    a.AgreeOff (l ++ l') c where
  source id hid := by
    simp only [List.mem_append, not_or] at hid
    rw [g.source id hid.2, h.source id hid.1]
  derived id hid := by
    simp only [List.mem_append, not_or] at hid
    rw [g.derived id hid.2, h.derived id hid.1]
  group := g.group.trans h.group

theorem ofBindSource (env : Env V) (id : SourceId) (x : Row V) :
    env.AgreeOff [.source id] (env.bindSource id x) where
  source i hi := by
    rw [source_bindSource, if_neg]
    simpa using hi
  derived _ _ := rfl
  group := rfl

theorem ofBindDerived (env : Env V) (id : QueryId) (vs : List V) :
    env.AgreeOff [.query id] (env.bindDerived id vs) where
  source _ _ := rfl
  derived i hi := by
    rw [derived_bindDerived, if_neg]
    simpa using hi
  group := rfl

end Env.AgreeOff

/-- The side binds nothing but the given ids. -/
structure Side.Binds (ids : List Ident) (a : Side V) : Prop where
  yields : ∀ {env b : Env V}, a.Yields env b → env.AgreeOff ids b
  nulls : ∀ env : Env V, env.AgreeOff ids (a.nulls env)

omit [DecidableEq V] in
theorem Side.Binds.join {l l' : List Ident} {a b : Side V} (ha : a.Binds l) (hb : b.Binds l')
    (holds : Env V → Option Bool) (kind : JoinKind) : (a.join b holds kind).Binds (l ++ l') where
  yields h := by
    have hswap : l' ++ l ⊆ l ++ l' := by simp
    rcases h.of_join with ⟨d, hd, hc | ⟨-, rfl⟩⟩ | ⟨d, hd, hc | ⟨-, rfl⟩⟩
    · exact (ha.yields hd).append (hb.yields hc)
    · exact (ha.yields hd).append (hb.nulls d)
    · exact ((hb.yields hd).append (ha.yields hc)).mono hswap
    · exact ((hb.yields hd).append (ha.nulls d)).mono hswap
  nulls env := (ha.nulls env).append (hb.nulls _)

theorem Source.binds_origin (s : Source) : (s.origin.side db s.id).Binds [s.offers] := by
  unfold Source.offers
  cases s.origin with
  | table t =>
    refine ⟨?_, fun env => .ofBindSource ..⟩
    rintro env b ⟨bs, hbs, hb⟩
    obtain ⟨rows, -, rfl⟩ := Option.map_eq_some_iff.1 hbs
    obtain ⟨x, -, rfl⟩ := List.mem_map.1 hb
    exact .ofBindSource ..
  | query q =>
    refine ⟨?_, fun env => .ofBindDerived ..⟩
    rintro env b ⟨bs, hbs, hb⟩
    obtain ⟨rows, -, rfl⟩ := Option.map_eq_some_iff.1 hbs
    obtain ⟨vs, -, rfl⟩ := List.mem_map.1 hb
    exact .ofBindDerived ..

theorem binds_joinSides {js : List Join}
    (hjs : ∀ j ∈ js, (j.source.side db).Binds (j.source.withJoined.map Source.offers))
    {a : Side V} {l : List Ident} (ha : a.Binds l) :
    (joinSides db a js).Binds
      (l ++ (js.flatMap fun j => j.source.withJoined).map Source.offers) := by
  induction js generalizing a l with
  | nil => simpa [joinSides] using ha
  | cons j js ih =>
    unfold joinSides
    rw [Join.side_eq, List.flatMap_cons, List.map_append, ← List.append_assoc]
    exact ih (fun j hj => hjs j (List.mem_cons_of_mem _ hj))
      (ha.join (hjs j List.mem_cons_self) _ _)

/-- A source binds nothing but the ids that it and the sources joined to it offer. -/
theorem Source.binds_side :
    ∀ s : Source, (s.side db).Binds (s.withJoined.map offers) := by
  refine Source.joinInduction fun s ih => ?_
  rw [side_eq, withJoined_eq, List.map_cons]
  exact binds_joinSides ih s.binds_origin

/-- Sources bind nothing but the ids that they offer. -/
theorem agreeOff_of_mem_bindSources {ss : List Source} {env b : Env V} {bs : List (Env V)}
    (h : bindSources db env ss = some bs) (hb : b ∈ bs) :
    env.AgreeOff ((ss.flatMap Source.withJoined).map Source.offers) b := by
  induction ss generalizing env bs with
  | nil =>
    cases h
    rw [List.mem_singleton.1 hb]
    exact .refl env
  | cons s ss ih =>
    obtain ⟨d, hd, cs, hcs, hmem⟩ := mem_bindSources_cons h hb
    rw [List.flatMap_cons, List.map_append]
    exact (s.binds_side.yields hd).append (ih hcs hmem)

/-! Rows of tables. -/

/-- The row with NULL under every name. -/
def Row.nulls {V : Type} (null : V) : Row V := fun _ => some null

/-- If the source is over a table, the environment holds a row of the table for it, or NULLs if the
source is one of those that meet `N`. -/
def Env.AtRow (db : Database V) (N : SourceId → Prop) (b : Env V) (s : Source) : Prop :=
  ∀ t, s.origin = .table t → ∃ x, b.source s.id = some x ∧
    ((∃ rows, db.tables t.name = some rows ∧ x ∈ rows) ∨ (x = .nulls db.engine.null ∧ N s.id))

/-- If the source is over a table, the environment holds NULLs for it. -/
def Env.AtNulls (db : Database V) (b : Env V) (s : Source) : Prop :=
  ∀ t, s.origin = .table t → b.source s.id = some (.nulls db.engine.null)

variable {N : SourceId → Prop}

section

omit [DecidableEq V]

variable {s : Source} {ids : List Ident} {b c : Env V}

theorem Env.AtRow.mono (h : b.AtRow db N s) (hbc : b.AgreeOff ids c) (hs : s.offers ∉ ids) :
    c.AtRow db N s := by
  intro t ht
  obtain ⟨x, hbx, hx⟩ := h t ht
  rw [Source.offers_of_table ht] at hs
  exact ⟨x, (hbc.source _ hs).trans hbx, hx⟩

theorem Env.AtNulls.mono (h : b.AtNulls db s) (hbc : b.AgreeOff ids c) (hs : s.offers ∉ ids) :
    c.AtNulls db s := by
  intro t ht
  rw [Source.offers_of_table ht] at hs
  exact (hbc.source _ hs).trans (h t ht)

theorem Env.AtNulls.atRow (h : b.AtNulls db s) (hs : N s.id) : b.AtRow db N s :=
  fun t ht => ⟨_, h t ht, .inr ⟨rfl, hs⟩⟩

end

/-- In a list without repetitions, what is offered in one part is not offered in the other. -/
theorem offers_disjoint {ss ss' : List Source} (h : ((ss ++ ss').map Source.offers).Nodup) :
    (∀ s ∈ ss, s.offers ∉ ss'.map Source.offers) ∧ ∀ s ∈ ss', s.offers ∉ ss.map Source.offers := by
  rw [List.map_append, List.nodup_append] at h
  exact ⟨fun s hs hs' => h.2.2 _ (List.mem_map_of_mem hs) _ hs' rfl,
    fun s hs hs' => h.2.2 _ hs' _ (List.mem_map_of_mem hs) rfl⟩

/-- The side has rows for the sources `ss`, where those that meet `N` can be NULL, and NULLs for all
of them. -/
structure Side.Covers (db : Database V) (N : SourceId → Prop) (ss : List Source) (a : Side V) :
    Prop where
  binds : a.Binds (ss.map Source.offers)
  atRow : ∀ {env b : Env V}, a.Yields env b → ∀ s ∈ ss, b.AtRow db N s
  atNulls : ∀ env, ∀ s ∈ ss, (a.nulls env).AtNulls db s

namespace Side.Covers

omit [DecidableEq V]

variable {ss ss' : List Source} {a b : Side V} (ha : a.Covers db N ss) (hb : b.Covers db N ss')

include ha hb

/-- The rows of one side after those of the other one. -/
theorem atRow_of_yields (hne : ∀ s ∈ ss, s.offers ∉ ss'.map Source.offers) {nulls : Prop}
    (hnulls : nulls → ∀ s ∈ ss', N s.id) {env d c : Env V} (hd : a.Yields env d)
    (hc : b.Yields d c ∨ nulls ∧ c = b.nulls d) {s : Source} (hs : s ∈ ss ∨ s ∈ ss') :
    c.AtRow db N s := by
  rcases hc with hc | ⟨hnull, rfl⟩
  · rcases hs with hs | hs
    · exact (ha.atRow hd s hs).mono (hb.binds.yields hc) (hne s hs)
    · exact hb.atRow hc s hs
  · rcases hs with hs | hs
    · exact (ha.atRow hd s hs).mono (hb.binds.nulls d) (hne s hs)
    · exact (hb.atNulls d s hs).atRow (hnulls hnull s hs)

theorem join (hnodup : ((ss ++ ss').map Source.offers).Nodup) (holds : Env V → Option Bool)
    {kind : JoinKind} (hjoined : kind.nullsJoined = true → ∀ s ∈ ss', N s.id)
    (hearlier : kind.nullsEarlier = true → ∀ s ∈ ss, N s.id) :
    (a.join b holds kind).Covers db N (ss ++ ss') where
  binds := by
    rw [List.map_append]
    exact ha.binds.join hb.binds holds kind
  atRow h s hs := by
    obtain ⟨hne, hne'⟩ := offers_disjoint hnodup
    rcases h.of_join with ⟨d, hd, hc⟩ | ⟨d, hd, hc⟩
    · exact ha.atRow_of_yields hb hne hjoined hd hc (List.mem_append.1 hs)
    · exact hb.atRow_of_yields ha hne' hearlier hd hc (List.mem_append.1 hs).symm
  atNulls env s hs := by
    rcases List.mem_append.1 hs with hs | hs
    · exact (ha.atNulls env s hs).mono (hb.binds.nulls _) ((offers_disjoint hnodup).1 s hs)
    · exact hb.atNulls _ s hs

end Side.Covers

theorem Source.covers_origin (s : Source) : (s.origin.side db s.id).Covers db N [s] := by
  refine ⟨s.binds_origin, fun h => ?_, fun env => ?_⟩
  · simp only [List.forall_mem_singleton]
    intro t ht
    obtain ⟨bs, hbs, hb⟩ := h
    rw [ht] at hbs
    obtain ⟨rows, hrows, rfl⟩ := Option.map_eq_some_iff.1 hbs
    obtain ⟨x, hx, rfl⟩ := List.mem_map.1 hb
    exact ⟨x, by simp, .inl ⟨rows, hrows, hx⟩⟩
  · simp only [List.forall_mem_singleton]
    intro t ht
    rw [ht]
    exact Env.source_bindSource_self ..

/-- The sources for which a join can put NULLs, where `ss` are joined already, meet `N`. -/
def Join.NullsFor (N : SourceId → Prop) (ss : List Source) (j : Join) : Prop :=
  (j.kind.nullsJoined = true → ∀ s ∈ j.source.withJoined, N s.id) ∧
    (j.kind.nullsEarlier = true → ∀ s ∈ ss, N s.id)

theorem covers_joinSides {js : List Join}
    (hjs : ∀ j ∈ js, (j.source.side db).Covers db N j.source.withJoined) {a : Side V}
    {ss : List Source} (ha : a.Covers db N ss)
    (hnodup : ((ss ++ js.flatMap fun j => j.source.withJoined).map Source.offers).Nodup)
    (hnulls : ∀ pre j post, js = pre ++ j :: post →
      j.NullsFor N (ss ++ pre.flatMap fun j => j.source.withJoined)) :
    (joinSides db a js).Covers db N (ss ++ js.flatMap fun j => j.source.withJoined) := by
  induction js generalizing a ss with
  | nil => simpa [joinSides] using ha
  | cons j js ih =>
    rw [List.flatMap_cons, ← List.append_assoc] at hnodup ⊢
    unfold joinSides
    rw [Join.side_eq]
    obtain ⟨hjoined, hearlier⟩ := hnulls [] j js rfl
    rw [List.flatMap_nil, List.append_nil] at hearlier
    have hfirst : ((ss ++ j.source.withJoined).map Source.offers).Nodup := by
      rw [List.map_append] at hnodup
      exact hnodup.of_append_left
    refine ih (fun j hj => hjs j (List.mem_cons_of_mem _ hj))
      (ha.join (hjs j List.mem_cons_self) hfirst _ hjoined hearlier) hnodup
      fun pre j' post hjs' => ?_
    have hnulls' := hnulls (j :: pre) j' post (congrArg (List.cons j) hjs')
    rwa [List.flatMap_cons, ← List.append_assoc] at hnulls'

/-- A join of the source can put NULLs for a source. -/
def Source.Extends (s : Source) (id : SourceId) : Prop :=
  ∃ pre j post, s.joins = pre ++ j :: post ∧
    (j.kind.nullsJoined = true ∧ (∃ s' ∈ j.source.withJoined, s'.id = id) ∨
      j.kind.nullsEarlier = true ∧
        ∃ s' ∈ s :: pre.flatMap fun j => j.source.withJoined, s'.id = id)

theorem Source.covers_side :
    ∀ s : Source, (∀ s' ∈ s.withJoined, ∀ id, s'.Extends id → N id) →
      (s.withJoined.map offers).Nodup → (s.side db).Covers db N s.withJoined := by
  refine Source.joinInduction fun s ih hextends hnodup => ?_
  have hself := hextends s s.mem_withJoined_self
  rw [withJoined_eq] at hextends hnodup ⊢
  rw [side_eq]
  refine covers_joinSides (fun j hj => ih j hj ?_ ?_) s.covers_origin hnodup
    fun pre j post hjs => ⟨fun hkind s' hs' => ?_, fun hkind s' hs' => ?_⟩
  · intro s' hs'
    exact hextends s' (List.mem_cons_of_mem _ (List.mem_flatMap.2 ⟨j, hj, hs'⟩))
  · have htail := (List.nodup_cons.1 hnodup).2
    refine htail.sublist (List.Sublist.map offers ?_)
    rw [List.flatMap_def]
    exact List.sublist_flatten_of_mem (List.mem_map.2 ⟨j, hj, rfl⟩)
  · exact hself s'.id ⟨pre, j, post, hjs, .inl ⟨hkind, s', hs', rfl⟩⟩
  · exact hself s'.id ⟨pre, j, post, hjs, .inr ⟨hkind, s', hs', rfl⟩⟩

theorem atRow_of_mem_bindSources {ss : List Source}
    (hextends : ∀ s ∈ ss.flatMap Source.withJoined, ∀ id, s.Extends id → N id)
    (hnodup : ((ss.flatMap Source.withJoined).map Source.offers).Nodup)
    {env b : Env V} {bs : List (Env V)} (h : bindSources db env ss = some bs) (hb : b ∈ bs) :
    ∀ s ∈ ss.flatMap Source.withJoined, b.AtRow db N s := by
  induction ss generalizing env bs with
  | nil => simp
  | cons s ss ih =>
    obtain ⟨d, hd, cs, hcs, hmem⟩ := mem_bindSources_cons h hb
    rw [List.flatMap_cons] at hextends hnodup ⊢
    have hnodup' := hnodup
    rw [List.map_append] at hnodup'
    have hcovers : (s.side db).Covers db N s.withJoined :=
      s.covers_side (fun s' hs' => hextends s' (List.mem_append_left _ hs')) hnodup'.of_append_left
    intro s' hs'
    rcases List.mem_append.1 hs' with hs' | hs'
    · exact (hcovers.atRow hd s' hs').mono (agreeOff_of_mem_bindSources hcs hmem)
        ((offers_disjoint hnodup).1 s' hs')
    · exact ih (fun s hs => hextends s (List.mem_append_right _ hs)) hnodup'.of_append_right hcs
        hmem s' hs'

/-- A join of the scope can extend rows by NULLs for the source. -/
def Query.Extends (q : Query) (id : SourceId) : Prop := ∃ s ∈ q.allSources, s.Extends id

theorem Query.InnerJoined.not_extends {q : Query} (h : q.InnerJoined) (id : SourceId) :
    ¬ q.Extends id := by
  rintro ⟨s, hs, pre, j, post, hjs, hnulls⟩
  have hinner : j.kind = .inner := h s hs j (by simp [hjs])
  simp [hinner, JoinKind.nullsJoined, JoinKind.nullsEarlier] at hnulls

/-- The sources of a query over tables bind rows of these tables, or NULLs where a join can extend
rows by them. -/
theorem Query.atRow_of_mem_bindSources {q : Query} (hnodup : q.offered.Nodup) {env b : Env V}
    {bs : List (Env V)} (h : bindSources db env q.sources = some bs) (hb : b ∈ bs) :
    ∀ s ∈ q.allSources, b.AtRow db q.Extends s :=
  SqlTree.atRow_of_mem_bindSources (fun s hs _ hid => ⟨s, hs, hid⟩) hnodup h hb

/-! Values outside of a group. -/

section

variable {env : Env V}

theorem anyAggregates_of_evalExprs {es : List Expr} {vs : List V}
    (h : ∀ e ∈ es, ∀ v, e.eval db env = some v → e.aggregates = false)
    (hvs : evalExprs db env es = some vs) : anyAggregates es = false := by
  rw [evalExprs_eq_mapM] at hvs
  rw [anyAggregates_eq_any, List.any_eq_false]
  intro e he
  obtain ⟨v, hv⟩ := exists_of_mapM hvs he
  simp [h e he v hv]

theorem Tree.aggregates_closed (hgroup : env.group = none) :
    Tree.Closed (fun e => ∀ v, e.eval db env = some v → e.aggregates = false)
      (fun _ => True) (fun _ => True) where
  value _ _ _ _ := rfl
  parameter _ _ _ := rfl
  field _ _ _ := rfl
  column _ _ _ := rfl
  call name t args flags ih v h := by
    rw [Expr.eval, hgroup] at h
    split at h
    · cases h
    · rename_i haggregate
      obtain ⟨vs, hvs, -⟩ := Option.bind_eq_some_iff.1 h
      rw [Expr.aggregates, anyAggregates_of_evalExprs ih hvs, Bool.or_false]
      simpa using haggregate
  binary op l r p t n ihl ihr v h := by
    obtain ⟨a, ha, h⟩ := Option.bind_eq_some_iff.1 h
    obtain ⟨b, hb, -⟩ := Option.bind_eq_some_iff.1 h
    rw [Expr.aggregates, ihl a ha, ihr b hb, Bool.or_false]
  raw format p args t ih v h := by
    rw [Expr.eval] at h
    split at h
    · cases h
    · obtain ⟨vs, hvs, -⟩ := Option.bind_eq_some_iff.1 h
      rw [Expr.aggregates, anyAggregates_of_evalExprs ih hvs]
  typeName _ _ _ := rfl
  subquery _ _ _ _ := rfl
  existsRow _ _ _ _ := rfl
  query _ _ := trivial
  source _ _ := trivial

/-- An aggregate has a value only in a group. -/
theorem Expr.aggregates_eq_false (e : Expr) (hgroup : env.group = none) {v : V}
    (h : e.eval db env = some v) : e.aggregates = false :=
  (Tree.aggregates_closed hgroup).onExpr e v h

end

end SqlTree

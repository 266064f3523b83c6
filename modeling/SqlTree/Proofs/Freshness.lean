import SqlTree.Proofs.Ident
import Mathlib.Data.List.Induction
import Mathlib.Order.Bounds.Defs

/-! # Runs of a numbering

The ids of trees are reserved and new ids are drawn in any order. The next numbers are then the
first ones past all ids that were reserved or drawn, also if a tree with smaller ids is reserved
late.

Main definitions:

* `Ids.Request`, `Ids.Event`: what is asked of a numbering, and what came of it.
* `Ids.Session`: a numbering with the log of its events.
* `Session.InRange`: no number past the largest id has come up.
* `Session.beyond`: the numbers past all ids that some events take.

Main statements:

* `Ids.next_serve_le_iff`: what one request does to the next numbers.
* `Session.exact_ofRequests`: after every run, the next numbers are given by the log.
* `Session.fresh_ofRequests`: the ids that are drawn in a run.
-/

namespace SqlTree

namespace Ids

/-- A new id of a kind, and the ids after it. -/
def draw (ids : Ids) : Ident.Kind → Ident × Ids
  | .source => ids.drawSource.map .source id
  | .query => ids.drawQuery.map .query id

@[simp] theorem kind_draw (ids : Ids) (k : Ident.Kind) : (ids.draw k).1.kind = k := by
  cases k <;> rfl

@[simp] theorem val_draw (ids : Ids) (k : Ident.Kind) : (ids.draw k).1.val = ids.next k := by
  cases k <;> rfl

theorem next_draw (ids : Ids) (k l : Ident.Kind) :
    (ids.draw k).2.next l = if l = k then ids.next k + 1 else ids.next l := by
  cases k <;> cases l <;> rfl

/-- Pass over the ids of a tree, or give out a new id. -/
inductive Request where
  | reserve (n : Node)
  | draw (k : Ident.Kind)

inductive Event where
  | reserved (n : Node)
  | drawn (i : Ident)

namespace Event

/-- The request that led to the event. -/
def request : Event → Request
  | .reserved n => .reserve n
  | .drawn i => .draw i.kind

/-- The ids that must not be given out after the event. -/
def taken : Event → List Ident
  | .reserved n => n.declared
  | .drawn i => [i]

/-- The number that was given out, if it is one of the kind. -/
def number? (k : Ident.Kind) : Event → Option Nat
  | .reserved _ => none
  | .drawn i => if i.kind = k then some i.val else none

theorem number?_eq_some_iff {e : Event} {k : Ident.Kind} {m : Nat} :
    e.number? k = some m ↔ ∃ i, e = .drawn i ∧ i.kind = k ∧ i.val = m := by
  cases e <;> simp [number?]

end Event

def serve (ids : Ids) : Request → Event × Ids
  | .reserve n => (.reserved n, ids.reserve n)
  | .draw k => (.drawn (ids.draw k).1, (ids.draw k).2)

@[simp] theorem request_serve (ids : Ids) (q : Request) : (ids.serve q).1.request = q := by
  cases q <;> simp [serve, Event.request]

/-- A request moves the next numbers past the ids that it takes, and no further. -/
theorem next_serve_le_iff {ids : Ids} {q : Request}
    (hrange : ∀ k, (ids.serve q).2.next k ≤ maxId) {k : Ident.Kind} {m : Nat} :
    (ids.serve q).2.next k ≤ m ↔
      ids.next k ≤ m ∧ ∀ i ∈ (ids.serve q).1.taken, i.kind = k → succ i.val ≤ m := by
  cases q with
  | reserve n => exact next_reserve_le_iff ids n
  | draw l =>
    have hlast := hrange l
    simp only [serve, next_draw, if_pos] at hlast
    simp only [serve, next_draw, Event.taken, List.mem_singleton, forall_eq, kind_draw, val_draw,
      succ_le_iff]
    by_cases hkind : k = l
    · subst hkind
      simp only [if_pos, forall_const]
      omega
    · simp [hkind, Ne.symm hkind]

/-- A numbering with the log of its events so far. -/
structure Session where
  log : List Event := []
  ids : Ids := {}

namespace Session

def serve (s : Session) (q : Request) : Session where
  log := s.log ++ [(s.ids.serve q).1]
  ids := (s.ids.serve q).2

/-- Numbers from one on, or those after a tree. -/
def start : Option Node → Session
  | none => {}
  | some n => { log := [.reserved n], ids := after n }

def ofRequests (root : Option Node) (qs : List Request) : Session := qs.foldl serve (start root)

theorem ofRequests_concat (root : Option Node) (qs : List Request) (q : Request) :
    ofRequests root (qs ++ [q]) = (ofRequests root qs).serve q := by
  rw [ofRequests, List.foldl_append]
  rfl

/-- The numbers of a kind that were given out, in order. -/
def drawn (s : Session) (k : Ident.Kind) : List Nat := s.log.filterMap (Event.number? k)

/-- Neither of the next numbers has run past the largest id. -/
def InRange (s : Session) : Prop := ∀ k, s.ids.next k ≤ maxId

theorem InRange.of_serve {s : Session} {q : Request} (h : (s.serve q).InRange) : s.InRange := by
  intro k
  have hle : s.ids.next k ≤ (s.serve q).ids.next k :=
    ((next_serve_le_iff h).1 (Nat.le_refl _)).1
  exact Nat.le_trans hle (h k)

/-- The next numbers are those that the log calls for. -/
def Exact (s : Session) : Prop :=
  ∀ k m, s.ids.next k ≤ m ↔
    0 < m ∧ ∀ i ∈ s.log.flatMap Event.taken, i.kind = k → succ i.val ≤ m

theorem exact_start (root : Option Node) : (start root).Exact := by
  intro k m
  have hnew : ({} : Ids).next k ≤ m ↔ 0 < m := by cases k <;> rfl
  cases root with
  | none => simpa [start] using hnew
  | some n => simp [start, after, next_reserve_le_iff, hnew, Event.taken]

theorem Exact.serve {s : Session} (h : s.Exact) {q : Request} (hrange : (s.serve q).InRange) :
    (s.serve q).Exact := by
  intro k m
  rw [Session.serve, next_serve_le_iff hrange, h k m]
  simp [or_imp, forall_and, and_assoc]

/-- After every run, the log tells the next numbers. -/
theorem exact_ofRequests {root : Option Node} {qs : List Request}
    (hrange : (ofRequests root qs).InRange) : (ofRequests root qs).Exact := by
  induction qs using List.reverseRecOn with
  | nil => exact exact_start root
  | append_singleton qs q ih =>
    rw [ofRequests_concat] at hrange ⊢
    exact (ih hrange.of_serve).serve hrange

/-! The ids that are drawn on the way. -/

/-- The numbers past all ids of the kind that the events take. -/
def beyond (es : List Event) (k : Ident.Kind) : Set Nat :=
  {m | 0 < m ∧ ∀ i ∈ es.flatMap Event.taken, i.kind = k → i.val < m}

theorem Exact.isLeast_next {s : Session} (h : s.Exact) {k : Ident.Kind}
    (hroom : s.ids.next k < maxId) : IsLeast (beyond s.log k) (s.ids.next k) := by
  constructor
  · obtain ⟨hpos, htaken⟩ := (h k _).1 (Nat.le_refl _)
    refine ⟨hpos, fun i hi hk => ?_⟩
    exact (succ_le_iff.1 (htaken i hi hk)).resolve_right (Nat.not_le.2 hroom)
  · rintro m ⟨hpos, htaken⟩
    exact (h k m).2 ⟨hpos, fun i hi hk => succ_le_iff.2 (.inl (htaken i hi hk))⟩

/-- An id is drawn as the first one past what was taken before. -/
theorem isLeast_of_drawn {root : Option Node} {qs : List Request}
    (hrange : (ofRequests root qs).InRange) {before : List Event} {i : Ident}
    (hbefore : before ++ [.drawn i] <+: (ofRequests root qs).log) :
    IsLeast (beyond before i.kind) i.val := by
  induction qs using List.reverseRecOn with
  | nil =>
    have hmem : .drawn i ∈ (start root).log := hbefore.subset (by simp)
    cases root <;> simp [start] at hmem
  | append_singleton qs q ih =>
    rw [ofRequests_concat] at hrange hbefore
    rcases List.prefix_concat_iff.1 hbefore with hlast | hbefore
    · obtain ⟨rfl, hevent⟩ := List.append_inj' hlast rfl
      cases q with
      | reserve n => simp [Ids.serve] at hevent
      | draw k =>
        obtain rfl : i = ((ofRequests root qs).ids.draw k).1 := by simpa [Ids.serve] using hevent
        have hroom : (ofRequests root qs).ids.next k + 1 ≤ maxId := by
          simpa [Session.serve, Ids.serve, next_draw] using hrange k
        rw [kind_draw, val_draw]
        exact (exact_ofRequests hrange.of_serve).isLeast_next hroom
    · exact ih hrange.of_serve hbefore

theorem pairwise_drawn {s : Session} {k : Ident.Kind}
    (h : ∀ before i, before ++ [.drawn i] <+: s.log → i.val ∈ beyond before i.kind) :
    (s.drawn k).Pairwise (· < ·) := by
  rw [drawn, List.pairwise_filterMap]
  generalize s.log = log at h
  induction log using List.reverseRecOn with
  | nil => exact .nil
  | append_singleton log e ih =>
    rw [List.pairwise_append]
    refine ⟨ih fun before i hi => h before i (hi.trans (List.prefix_append _ _)),
      List.pairwise_singleton _ _, ?_⟩
    intro e' he' e'' hlast m' hm' m hm
    obtain rfl := List.mem_singleton.1 hlast
    obtain ⟨i', rfl, hkind', rfl⟩ := Event.number?_eq_some_iff.1 hm'
    obtain ⟨i, rfl, hkind, rfl⟩ := Event.number?_eq_some_iff.1 hm
    refine (h log i (List.prefix_refl _)).2 i' ?_ (hkind'.trans hkind.symm)
    exact List.mem_flatMap_of_mem he' (List.mem_singleton_self i')

theorem map_request_log (root : Option Node) (qs : List Request) :
    (ofRequests root qs).log.map Event.request = root.toList.map .reserve ++ qs := by
  induction qs using List.reverseRecOn with
  | nil => cases root <;> rfl
  | append_singleton qs q ih =>
    rw [ofRequests_concat, Session.serve, List.map_append, ih, List.append_assoc]
    simp

/-- The ids that are drawn in any run of requests, from the number one or after a tree, as long as
the numbers last. All requests are met in their order. The numbers of each kind are strictly
increasing, and each is greater than all ids of its kind that are declared at any depth of the trees
that were reserved before. No number is left out: it is the first one past the ids that were
reserved or drawn before. -/
theorem fresh_ofRequests (root : Option Node) (qs : List Request)
    (hrange : (ofRequests root qs).InRange) :
    (ofRequests root qs).log.map Event.request = root.toList.map .reserve ++ qs ∧
      (∀ k, ((ofRequests root qs).drawn k).Pairwise (· < ·)) ∧
      ∀ before i, before ++ [.drawn i] <+: (ofRequests root qs).log →
        (∀ n, .reserved n ∈ before → ∀ j ∈ n.declared, j.kind = i.kind → j.val < i.val) ∧
          IsLeast (beyond before i.kind) i.val := by
  refine ⟨map_request_log root qs, fun k => ?_, fun before i hbefore => ?_⟩
  · exact pairwise_drawn fun before i hbefore => (isLeast_of_drawn hrange hbefore).1
  · have hleast := isLeast_of_drawn hrange hbefore
    refine ⟨fun n hn j hj hkind => hleast.1.2 j ?_ hkind, hleast⟩
    exact List.mem_flatMap.2 ⟨.reserved n, hn, hj⟩

end Session

end Ids

namespace Sample

open Ids Session

/-- A merge with ids in its target, in a derived table and a join of its query, in its condition and
in one of its operations. -/
def mergeStock : Node := .statement (.merge
  { id := ⟨12⟩, origin := .table { name := "stock" } }
  { id := ⟨2⟩
    sources := [
      { id := ⟨5⟩
        origin := .query { id := ⟨7⟩ }
        joins := [
          { kind := .left, source := { id := ⟨3⟩, origin := .table { name := "orders" } } }] }] }
  (some (.existsRow
    { id := ⟨4⟩, sources := [{ id := ⟨20⟩, origin := .table { name := "stock" } }] }))
  [{ kind := .update, items := [{ column := "amount", expr := .subquery { id := ⟨11⟩ } }] }])

/-- Two queries and a source, with a tree of smaller ids in between. -/
def mergeRequests : List Request :=
  [.draw .query, .reserve (.query { id := ⟨3⟩ }), .draw .query, .draw .source]

theorem ofRequests_merge : ofRequests (some mergeStock) mergeRequests =
    { log := [.reserved mergeStock, .drawn (.query ⟨12⟩), .reserved (.query { id := ⟨3⟩ }),
        .drawn (.query ⟨13⟩), .drawn (.source ⟨21⟩)]
      ids := ⟨14, 22⟩ } := by
  simp only [ofRequests, mergeRequests, start, after, reserve_eq_foldl, List.foldl_cons,
    List.foldl_nil, Session.serve, Ids.serve]
  rfl

theorem fresh_ofRequests_merge :
    (ofRequests (some mergeStock) mergeRequests).InRange ∧
      (ofRequests (some mergeStock) mergeRequests).drawn .query = [12, 13] ∧
      (ofRequests (some mergeStock) mergeRequests).drawn .source = [21] ∧
      [12, 13].Pairwise (· < ·) ∧
      ∀ j ∈ mergeStock.declared, j.kind = .source → j.val < 21 := by
  have hrange : (ofRequests (some mergeStock) mergeRequests).InRange := by
    rw [ofRequests_merge]
    intro k
    cases k <;> decide
  have hquery : (ofRequests (some mergeStock) mergeRequests).drawn .query = [12, 13] := by
    rw [ofRequests_merge]
    rfl
  have hsource : (ofRequests (some mergeStock) mergeRequests).drawn .source = [21] := by
    rw [ofRequests_merge]
    rfl
  obtain ⟨-, hincreasing, hfresh⟩ := fresh_ofRequests (some mergeStock) mergeRequests hrange
  have hbefore : [.reserved mergeStock, .drawn (.query ⟨12⟩), .reserved (.query { id := ⟨3⟩ }),
      .drawn (.query ⟨13⟩)] ++ [.drawn (.source ⟨21⟩)] <+:
        (ofRequests (some mergeStock) mergeRequests).log := by
    rw [ofRequests_merge]
    exact List.prefix_refl _
  refine ⟨hrange, hquery, hsource, hquery ▸ hincreasing .query, ?_⟩
  exact (hfresh _ _ hbefore).1 mergeStock List.mem_cons_self

end Sample

end SqlTree

import SqlTree.Dialect.Registry
import Mathlib.Data.List.Forall2
import Mathlib.Data.List.Induction

/-! # Runs of the registry

Dialects are registered, unregistered and looked up in any order, and some of the requests fail.
Which dialect has a name after that can be read off the requests and their answers: a built-in one,
or else the one that was registered last and not unregistered since.

Main definitions:

* `DialectKind.HasName`: the names of the built-in dialects, in any case of ASCII letters.
* `Registry.Request`, `Registry.Answer`: what is asked of a registry and what it answers.
* `Registry.Session`: a registry with the log of what it was asked and what it answered.
* `Registry.Standing`: the dialects that are registered, by the log.

Main statements:

* `Capabilities.exists_change`: every adjustment of capabilities is a change of them.
* `DialectKind.ofName?_eq_some_iff`: a built-in dialect is found by its names and by no others.
* `Registry.Session.faithful_ofRequests`: the registry and the log agree after every run.
* `Registry.Session.answers_ofRequests`: the answers after every run.
-/

namespace SqlTree

/-- The capabilities that any adjustment of a base leaves can be set over the base. -/
theorem Capabilities.exists_change (adjust : Capabilities → Capabilities) (c : Capabilities) :
    ∃ d, c.change d = adjust c := by
  obtain ⟨offsetFetch, inFunctions, inInsert, multiTable⟩ := adjust c
  exact ⟨⟨some offsetFetch, some inFunctions, some inInsert, some multiTable⟩, rfl⟩

/-! Names of the built-in dialects. -/

namespace DialectKind

/-- The names of a built-in dialect, in lower case. -/
def names : DialectKind → List String
  | .generic => ["generic"]
  | .sqlCe => ["sqlce", "sql_ce", "sqlserverce"]

/-- The text is a name of the built-in dialect up to the case of ASCII letters. -/
def HasName (k : DialectKind) (name : String) : Prop :=
  ∃ n ∈ k.names, List.Forall₂ (fun c l => c = l ∨ c = l.toUpper) name.toList n.toList

theorem eq_toLower_or_eq_toUpper (c : Char) : c = c.toLower ∨ c = c.toLower.toUpper := by
  by_cases hascii : c.toNat < 128
  · have hall : ∀ n < 128, Char.ofNat n = (Char.ofNat n).toLower ∨
        Char.ofNat n = (Char.ofNat n).toLower.toUpper := by decide +kernel
    simpa using hall c.toNat hascii
  · left
    have hupper : ¬ (c.val ≥ 'A'.val ∧ c.val ≤ 'Z'.val) := by
      rintro ⟨-, hle⟩
      have hle : c.toNat ≤ 90 := UInt32.le_iff_toNat_le.1 hle
      omega
    have hlower : c.toLower = c := dif_neg hupper
    exact hlower.symm

/-- A letter of a name is written in one of two ways. -/
theorem toLower_eq_iff {c l : Char} (hlower : l.toLower = l) (hupper : l.toUpper.toLower = l) :
    c.toLower = l ↔ c = l ∨ c = l.toUpper := by
  constructor
  · rintro rfl
    exact eq_toLower_or_eq_toUpper c
  · rintro (rfl | rfl)
    · exact hlower
    · exact hupper

theorem toList_toLower (s : String) : s.toLower.toList = s.toList.map Char.toLower :=
  String.toList_map

theorem toLower_name_eq_iff {name n : String}
    (h : ∀ l ∈ n.toList, l.toLower = l ∧ l.toUpper.toLower = l) :
    name.toLower = n ↔ List.Forall₂ (fun c l => c = l ∨ c = l.toUpper) name.toList n.toList := by
  rw [← String.toList_inj, toList_toLower, ← List.forall₂_eq_eq_eq, List.forall₂_map_left_iff]
  generalize name.toList = cs
  generalize n.toList = ls at h
  induction cs generalizing ls with
  | nil => cases ls <;> simp
  | cons c cs ih =>
    cases ls with
    | nil => simp
    | cons l ls =>
      obtain ⟨hl, hls⟩ := List.forall_mem_cons.1 h
      rw [List.forall₂_cons, List.forall₂_cons, ih ls hls, toLower_eq_iff hl.1 hl.2]

theorem hasName_iff {name : String} {k : DialectKind} :
    k.HasName name ↔ name.toLower ∈ k.names := by
  have hletters : ∀ n ∈ k.names, ∀ l ∈ n.toList, l.toLower = l ∧ l.toUpper.toLower = l := by
    cases k <;> simp [names]
  constructor
  · rintro ⟨n, hn, hname⟩
    rwa [(toLower_name_eq_iff (hletters n hn)).2 hname]
  · exact fun h => ⟨_, h, (toLower_name_eq_iff (hletters _ h)).1 rfl⟩

theorem ofName?_eq_some_iff {name : String} {k : DialectKind} :
    ofName? name = some k ↔ k.HasName name := by
  rw [hasName_iff]
  unfold ofName?
  split
  all_goals cases k <;> simp_all [names]

theorem ofName?_eq_none_iff {name : String} :
    ofName? name = none ↔ ∀ k : DialectKind, ¬ k.HasName name := by
  simp only [← ofName?_eq_some_iff, Option.eq_none_iff_forall_ne_some, ne_eq]

end DialectKind

namespace Registry

inductive Request where
  | register (c : CustomDialect)
  | unregister (name : String)
  | find (name : String)

inductive Answer where
  | registered
  | refused (e : Error)
  | unregistered (found : Bool)
  | found (d : Option Dialect)

/-- The answer to a request and the registry after it. -/
def serve (r : Registry) : Request → Answer × Registry
  | .register c =>
    match r.register c with
    | .ok r' => (.registered, r')
    | .error e => (.refused e, r)
  | .unregister name => ((r.unregister name).map .unregistered id)
  | .find name => (.found (r.find? name), r)

/-- A registry with the log of the requests and their answers so far. -/
structure Session where
  log : List (Request × Answer) := []
  registry : Registry := {}

def Session.serve (s : Session) (q : Request) : Session where
  log := s.log ++ [(q, (s.registry.serve q).1)]
  registry := (s.registry.serve q).2

/-- The session that starts with an empty registry. -/
def Session.ofRequests (qs : List Request) : Session := qs.foldl Session.serve {}

/-- The entry of a log registers or unregisters the name. -/
inductive Settles (name : String) : Request × Answer → Prop
  | register {c : CustomDialect} (h : c.name = name) : Settles name (.register c, .registered)
  | unregister (a : Answer) : Settles name (.unregister name, a)

/-- By the log, the dialect was registered, and nothing has been done to its name since. -/
def Standing (log : List (Request × Answer)) (c : CustomDialect) : Prop :=
  ∃ before after, log = before ++ (.register c, .registered) :: after ∧
    ∀ entry ∈ after, ¬ Settles c.name entry

theorem standing_concat {log : List (Request × Answer)} {entry : Request × Answer}
    {c : CustomDialect} :
    Standing (log ++ [entry]) c ↔
      entry = (.register c, .registered) ∨ Standing log c ∧ ¬ Settles c.name entry := by
  constructor
  · rintro ⟨before, after, hlog, hafter⟩
    rcases List.eq_nil_or_concat after with rfl | ⟨after, last, rfl⟩
    · exact .inl (List.append_inj_right' hlog rfl |> List.singleton_inj.1)
    · rw [List.concat_eq_append, ← List.cons_append, ← List.append_assoc] at hlog
      obtain ⟨hbefore, hlast⟩ := List.append_inj' hlog rfl
      rw [List.singleton_inj.1 hlast]
      exact .inr ⟨⟨before, after, hbefore, fun x hx => hafter x (by simp [hx])⟩,
        hafter last (by simp)⟩
  · rintro (rfl | ⟨⟨before, after, rfl, hafter⟩, hentry⟩)
    · exact ⟨log, [], rfl, by simp⟩
    · refine ⟨before, after ++ [entry], by simp, ?_⟩
      exact List.forall_mem_append.2 ⟨hafter, by simpa using hentry⟩

/-- An entry that does nothing to any name. -/
theorem standing_concat_idle {log : List (Request × Answer)} {entry : Request × Answer}
    (hentry : ∀ name, ¬ Settles name entry) {c : CustomDialect} :
    Standing (log ++ [entry]) c ↔ Standing log c := by
  rw [standing_concat]
  constructor
  · rintro (rfl | ⟨h, -⟩)
    · exact absurd (.register rfl) (hentry c.name)
    · exact h
  · exact fun h => .inr ⟨h, hentry _⟩

theorem standing_concat_register {log : List (Request × Answer)} {c d : CustomDialect} :
    Standing (log ++ [(.register d, .registered)]) c ↔
      c = d ∨ Standing log c ∧ c.name ≠ d.name := by
  have hsettles : Settles c.name (.register d, .registered) ↔ c.name = d.name := by
    constructor
    · rintro ⟨h⟩
      exact h.symm
    · exact fun h => .register h.symm
  rw [standing_concat, hsettles]
  simp [eq_comm]

theorem standing_concat_unregister {log : List (Request × Answer)} {name : String} {a : Answer}
    {c : CustomDialect} :
    Standing (log ++ [(.unregister name, a)]) c ↔ Standing log c ∧ c.name ≠ name := by
  have hsettles : Settles c.name (.unregister name, a) ↔ c.name = name := by
    constructor
    · intro h
      cases h
      rfl
    · rintro rfl
      exact .unregister a
  rw [standing_concat, hsettles]
  simp

/-! One request. -/

theorem lookup_cons_eq_ite {β : Type} (key n : String) (value : β) (entries : List (String × β)) :
    ((key, value) :: entries).lookup n = if n = key then some value else entries.lookup n := by
  by_cases hn : n = key
  · simp [hn]
  · simp [List.lookup_cons, beq_false_of_ne hn, hn]

theorem lookup_filter_ne {β : Type} (name n : String) (entries : List (String × β)) :
    (entries.filter fun e => e.1 != name).lookup n =
      if n = name then none else entries.lookup n := by
  induction entries with
  | nil => simp
  | cons e entries ih =>
    obtain ⟨key, value⟩ := e
    by_cases hkey : key = name
    · rw [List.filter_cons_of_neg (by simpa using hkey), ih, lookup_cons_eq_ite, hkey]
      split <;> rfl
    · rw [List.filter_cons_of_pos (by simpa using hkey), lookup_cons_eq_ite, lookup_cons_eq_ite, ih]
      grind

variable {r : Registry} {c : CustomDialect}

theorem register_eq_ok_iff {r' : Registry} :
    r.register c = .ok r' ↔ DialectKind.ofName? c.name = none ∧ r.entries.lookup c.name = none ∧
      r' = ⟨(c.name, c.dialect) :: r.entries⟩ := by
  unfold register contains
  cases DialectKind.ofName? c.name with
  | some k => simp
  | none =>
    cases r.entries.lookup c.name with
    | some d => simp
    | none => simp [eq_comm]

theorem serve_of_ok {r' : Registry} (h : r.register c = .ok r') :
    r.serve (.register c) = (.registered, r') := by
  rw [serve, h]

theorem serve_of_error {e : Error} (h : r.register c = .error e) :
    r.serve (.register c) = (.refused e, r) := by
  rw [serve, h]

namespace Session

/-- The registry holds the dialects that are registered by the log, under names of their own. -/
structure Faithful (s : Session) : Prop where
  lookup : ∀ n d, s.registry.entries.lookup n = some d ↔
    ∃ c, Standing s.log c ∧ c.name = n ∧ c.dialect = d
  free : ∀ c, Standing s.log c → DialectKind.ofName? c.name = none

theorem Faithful.lookup_eq_none_iff {s : Session} (h : s.Faithful) {n : String} :
    s.registry.entries.lookup n = none ↔ ∀ c, Standing s.log c → c.name ≠ n := by
  simp only [Option.eq_none_iff_forall_ne_some, ne_eq, h.lookup]
  constructor
  · exact fun hnone c hc hname => hnone c.dialect ⟨c, hc, hname, rfl⟩
  · rintro hnone d ⟨c, hc, hname, -⟩
    exact hnone c hc hname

/-! What each request does to the agreement. -/

theorem Faithful.idle {s : Session} (h : s.Faithful) {entry : Request × Answer}
    (hentry : ∀ name, ¬ Settles name entry) : Faithful ⟨s.log ++ [entry], s.registry⟩ := by
  constructor
  · simpa only [standing_concat_idle hentry] using h.lookup
  · simpa only [standing_concat_idle hentry] using h.free

theorem Faithful.unregister {s : Session} (h : s.Faithful) (name : String) (a : Answer) :
    Faithful ⟨s.log ++ [(.unregister name, a)], (s.registry.unregister name).2⟩ := by
  constructor
  · intro n d
    simp only [Registry.unregister, lookup_filter_ne, standing_concat_unregister]
    by_cases hn : n = name
    · rw [if_pos hn]
      constructor
      · intro hnone
        cases hnone
      · rintro ⟨c, ⟨-, hne⟩, hname, -⟩
        exact absurd (hname.trans hn) hne
    · rw [if_neg hn, h.lookup]
      refine exists_congr fun c => ⟨?_, ?_⟩
      · rintro ⟨hc, hname, hdialect⟩
        exact ⟨⟨hc, hname ▸ hn⟩, hname, hdialect⟩
      · rintro ⟨⟨hc, -⟩, hname, hdialect⟩
        exact ⟨hc, hname, hdialect⟩
  · intro c hc
    exact h.free c (standing_concat_unregister.1 hc).1

theorem Faithful.register {s : Session} (h : s.Faithful) {r : Registry}
    (hregister : s.registry.register c = .ok r) :
    Faithful ⟨s.log ++ [(.register c, .registered)], r⟩ := by
  obtain ⟨hfree, hnew, rfl⟩ := register_eq_ok_iff.1 hregister
  -- No dialect with this name stands, so the new one replaces none.
  have hothers := h.lookup_eq_none_iff.1 hnew
  constructor
  · intro n d
    simp only [lookup_cons_eq_ite, standing_concat_register]
    by_cases hn : n = c.name
    · rw [if_pos hn, Option.some.injEq]
      constructor
      · exact fun hd => ⟨c, .inl rfl, hn.symm, hd⟩
      · rintro ⟨c', rfl | ⟨-, hne⟩, hname, hdialect⟩
        · exact hdialect
        · exact absurd (hname.trans hn) hne
    · rw [if_neg hn, h.lookup]
      refine exists_congr fun c' => ⟨?_, ?_⟩
      · rintro ⟨hc', hname, hdialect⟩
        exact ⟨.inr ⟨hc', hothers c' hc'⟩, hname, hdialect⟩
      · rintro ⟨rfl | ⟨hc', -⟩, hname, hdialect⟩
        · exact absurd hname.symm hn
        · exact ⟨hc', hname, hdialect⟩
  · intro c' hc'
    rcases standing_concat_register.1 hc' with rfl | ⟨hc', -⟩
    · exact hfree
    · exact h.free c' hc'

theorem Faithful.serve {s : Session} (h : s.Faithful) (q : Request) : (s.serve q).Faithful := by
  cases q with
  | find name => exact h.idle fun n hn => by cases hn
  | unregister name => exact h.unregister name _
  | register c =>
    cases hregister : s.registry.register c with
    | error e =>
      rw [Session.serve, serve_of_error hregister]
      exact h.idle fun n hn => by cases hn
    | ok r =>
      rw [Session.serve, serve_of_ok hregister]
      exact h.register hregister

/-- After every run, the registry holds what the log says. -/
theorem faithful_ofRequests (qs : List Request) : (ofRequests qs).Faithful := by
  induction qs using List.reverseRecOn with
  | nil =>
    have hnone : ∀ c, ¬ Standing [] c := by
      rintro c ⟨before, after, hlog, -⟩
      simp at hlog
    exact ⟨fun n d => by simp [ofRequests, hnone], fun c hc => absurd hc (hnone c)⟩
  | append_singleton qs q ih =>
    rw [ofRequests, List.foldl_append]
    exact ih.serve q

variable {s : Session}

theorem Faithful.contains_iff (h : s.Faithful) {n : String} :
    s.registry.contains n = true ↔ ∃ c, Standing s.log c ∧ c.name = n := by
  rw [contains, Option.isSome_iff_exists]
  simp only [h.lookup]
  constructor
  · rintro ⟨d, c, hc, hname, -⟩
    exact ⟨c, hc, hname⟩
  · rintro ⟨c, hc, hname⟩
    exact ⟨c.dialect, c, hc, hname, rfl⟩

theorem find?_of_not_builtIn {n : String} (h : DialectKind.ofName? n = none) :
    r.find? n = r.entries.lookup n := by
  rw [find?, h]

theorem Faithful.find?_eq_some (h : s.Faithful) (hc : Standing s.log c) :
    s.registry.find? c.name = some c.dialect := by
  rw [find?_of_not_builtIn (h.free c hc), h.lookup]
  exact ⟨c, hc, rfl, rfl⟩

theorem find?_unregister_of_ne {n m : String} (h : m ≠ n) :
    (r.unregister n).2.find? m = r.find? m := by
  rw [find?, find?, unregister, lookup_filter_ne, if_neg h]

/-- What the registry answers after every run from the empty one, by the log of the run. A dialect
can be registered exactly if its name is no built-in one and no dialect stands under it, and a
registration that is refused changes nothing. A built-in name finds the built-in dialect, and any
other name the dialect that stands under it, with the capabilities of its base as it changes them.
Unregistering tells whether a dialect stood under the name and leaves all other names alone. No
dialect that stands is hidden by a built-in one. -/
theorem answers_ofRequests (qs : List Request) :
    let s := ofRequests qs
    (∀ c, (∃ r, s.registry.register c = .ok r) ↔
        (∀ k : DialectKind, ¬ k.HasName c.name) ∧ ∀ c', Standing s.log c' → c'.name ≠ c.name) ∧
      (∀ c e, s.registry.register c = .error e →
        (s.serve (.register c)).registry = s.registry) ∧
      (∀ (k : DialectKind) n, k.HasName n → s.registry.find? n = some k.dialect) ∧
      (∀ n, (∀ k : DialectKind, ¬ k.HasName n) → ∀ d, s.registry.find? n = some d ↔
        ∃ c, Standing s.log c ∧ c.name = n ∧ c.dialect = d ∧
          d.capabilities = c.base.dialect.capabilities.change c.capabilities) ∧
      (∀ n, (s.registry.unregister n).1 = true ↔ ∃ c, Standing s.log c ∧ c.name = n) ∧
      (∀ n m, m ≠ n → (s.registry.unregister n).2.find? m = s.registry.find? m) ∧
      ∀ c, Standing s.log c → (∀ k : DialectKind, ¬ k.HasName c.name) ∧
        s.registry.find? c.name = some c.dialect := by
  intro s
  have h : s.Faithful := faithful_ofRequests qs
  refine ⟨fun c => ?_, fun c e he => ?_, fun k n hname => ?_, fun n hname d => ?_, fun n => ?_,
    fun n m hne => find?_unregister_of_ne hne, fun c hc => ?_⟩
  · simp only [register_eq_ok_iff, exists_and_left, exists_eq, and_true,
      DialectKind.ofName?_eq_none_iff, h.lookup_eq_none_iff]
  · rw [Session.serve, serve_of_error he]
  · rw [find?, DialectKind.ofName?_eq_some_iff.2 hname]
  · rw [find?_of_not_builtIn (DialectKind.ofName?_eq_none_iff.2 hname), h.lookup]
    refine exists_congr fun c => and_congr_right fun _ => and_congr_right fun _ => ?_
    exact ⟨fun hd => ⟨hd, hd ▸ rfl⟩, And.left⟩
  · exact h.contains_iff
  · exact ⟨DialectKind.ofName?_eq_none_iff.1 (h.free c hc), h.find?_eq_some hc⟩

end Session

end Registry

end SqlTree

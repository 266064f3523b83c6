import SqlTree.Proofs.Number.Digits
import SqlTree.Text.Blank

/-! # Numerals

A numeral has digits after an optional sign. Integers are read from numerals between blanks and from
nothing else, unsigned ones from those without a minus sign.

Main definitions:

* `Decimal.Numeral`: the numerals of an integer.
* `Text.Denotes`: a numeral between blanks.

Main statements:

* `Text.trim_append`, `Text.exists_eq_trim`: what is left of a text without the blanks around it.
* `Decimal.integer?_eq_some_iff`, `Decimal.unsigned?_eq_some_iff`: texts that are read.
* `Decimal.numeral_integer`: the text of an integer is a numeral of it.
* `Text.denotes_iff`: blanks do not matter.
-/

namespace SqlTree

/-! Blanks. -/

namespace Text

variable {before cs after : List Char}

/-- The text between the blanks is left if it has none itself. -/
theorem trim_append (hbefore : ∀ c ∈ before, isBlank c = true)
    (hafter : ∀ c ∈ after, isBlank c = true) (hne : cs ≠ []) (hcs : ∀ c ∈ cs, isBlank c = false) :
    trim (before ++ (cs ++ after)) = cs := by
  have hfirst : Stops isBlank (cs ++ after) := by
    obtain ⟨c, cs', rfl⟩ := List.exists_cons_of_ne_nil hne
    exact Stops.cons (hcs c (by simp))
  have hlast : Stops isBlank cs.reverse := fun c hc =>
    hcs c (List.mem_reverse.1 (List.mem_of_mem_head? hc))
  rw [trim, hfirst.dropWhile_append hbefore, List.reverse_append,
    hlast.dropWhile_append (by simpa using hafter), List.reverse_reverse]

theorem exists_eq_trim (cs : List Char) :
    ∃ before after, (∀ c ∈ before, isBlank c = true) ∧ (∀ c ∈ after, isBlank c = true) ∧
      cs = before ++ (trim cs ++ after) := by
  refine ⟨cs.takeWhile isBlank, ((cs.dropWhile isBlank).reverse.takeWhile isBlank).reverse,
    fun c hc => ?_, fun c hc => ?_, ?_⟩
  · exact List.all_eq_true.1 List.all_takeWhile c hc
  · exact List.all_eq_true.1 List.all_takeWhile c (List.mem_reverse.1 hc)
  · rw [trim, ← List.reverse_append, List.takeWhile_append_dropWhile, List.reverse_reverse,
      List.takeWhile_append_dropWhile]

end Text

namespace Decimal

/-- Digits after an optional sign, and the integer that they stand for. -/
inductive Numeral : List Char → Int → Prop
  | plain {ds : List Char} (hne : ds ≠ []) (hds : ∀ c ∈ ds, c.isDigit = true) :
      Numeral ds (Nat.ofDigitChars 10 ds 0)
  | plus {ds : List Char} (hne : ds ≠ []) (hds : ∀ c ∈ ds, c.isDigit = true) :
      Numeral ('+' :: ds) (Nat.ofDigitChars 10 ds 0)
  | minus {ds : List Char} (hne : ds ≠ []) (hds : ∀ c ∈ ds, c.isDigit = true) :
      Numeral ('-' :: ds) (-(Nat.ofDigitChars 10 ds 0 : Int))

variable {cs : List Char} {n : Int}

theorem natural?_of_isDigit (hne : cs ≠ []) (hcs : ∀ c ∈ cs, c.isDigit = true) :
    natural? cs = some (Nat.ofDigitChars 10 cs 0) :=
  natural?_eq_some.2 ⟨hne, hcs, rfl⟩

theorem integer?_minus (cs : List Char) :
    integer? ('-' :: cs) = (natural? cs).map fun n : Nat => -(n : Int) := by
  cases h : natural? cs with
  | none => simp [integer?, h]
  | some n => simp [integer?, h]

theorem integer?_eq_some_iff : integer? cs = some n ↔ Numeral cs n := by
  constructor
  · intro h
    unfold integer? at h
    split at h
    next ds =>
      rw [← integer?.eq_1 ds, integer?_minus] at h
      obtain ⟨m, hm, rfl⟩ := Option.map_eq_some_iff.1 h
      obtain ⟨hne, hcs, rfl⟩ := natural?_eq_some.1 hm
      exact .minus hne hcs
    · obtain ⟨m, hm, rfl⟩ := Option.map_eq_some_iff.1 h
      obtain ⟨hne, hcs, rfl⟩ := natural?_eq_some.1 hm
      exact .plus hne hcs
    · obtain ⟨m, hm, rfl⟩ := Option.map_eq_some_iff.1 h
      obtain ⟨hne, hcs, rfl⟩ := natural?_eq_some.1 hm
      exact .plain hne hcs
  · intro h
    cases h with
    | plain hne hcs =>
      unfold integer?
      split
      · cases hcs '-' (by simp)
      · cases hcs '+' (by simp)
      · rw [natural?_of_isDigit hne hcs]
        rfl
    | plus hne hcs =>
      rw [integer?, natural?_of_isDigit hne hcs]
      rfl
    | minus hne hcs =>
      rw [integer?_minus, natural?_of_isDigit hne hcs]
      rfl

/-- Unsigned numbers are read from the numerals without a minus sign. -/
theorem unsigned?_eq_some_iff {m : Nat} :
    unsigned? cs = some m ↔ Numeral cs m ∧ cs.head? ≠ some '-' := by
  constructor
  · intro h
    unfold unsigned? at h
    split at h
    · obtain ⟨hne, hcs, rfl⟩ := natural?_eq_some.1 h
      exact ⟨.plus hne hcs, by simp⟩
    · obtain ⟨hne, hcs, rfl⟩ := natural?_eq_some.1 h
      refine ⟨.plain hne hcs, fun hhead => ?_⟩
      cases hcs '-' (List.mem_of_mem_head? hhead)
  · rintro ⟨h, hhead⟩
    generalize hn : (m : Int) = n at h
    cases h with
    | plain hne hcs =>
      obtain rfl := Int.ofNat.inj hn
      unfold unsigned?
      split
      · cases hcs '+' (by simp)
      · exact natural?_of_isDigit hne hcs
    | plus hne hcs =>
      obtain rfl := Int.ofNat.inj hn
      exact natural?_of_isDigit hne hcs
    | minus => exact absurd rfl hhead

/-- The text of an integer is a numeral of it. -/
theorem numeral_integer (n : Int) : Numeral (integer n).toList n := by
  have hdigits : ∀ c ∈ digits n.natAbs, c.isDigit = true := fun c hc => isDigit_of_mem_digits hc
  rw [integer, String.toList_ofList]
  split
  · have hminus := Numeral.minus (digits_ne_nil n.natAbs) hdigits
    rwa [ofDigitChars_digits, show -(n.natAbs : Int) = n by omega] at hminus
  · have hplain := Numeral.plain (digits_ne_nil n.natAbs) hdigits
    rwa [ofDigitChars_digits, show (n.natAbs : Int) = n by omega] at hplain

theorem head?_integer_ne {n : Int} (h : 0 ≤ n) : (integer n).toList.head? ≠ some '-' := by
  obtain ⟨m, rfl⟩ := Int.eq_ofNat_of_zero_le h
  obtain ⟨d, ds, hds, hd⟩ := exists_digits m
  rw [toList_integer, ← digits, hds]
  rintro ⟨⟩
  cases hd

theorem Numeral.ne_nil (h : Numeral cs n) : cs ≠ [] := by
  cases h with
  | plain hne => exact hne
  | plus => simp
  | minus => simp

theorem isBlank_of_isDigit {c : Char} (h : c.isDigit = true) : Text.isBlank c = false := by
  have hc : 48 ≤ c.toNat ∧ c.toNat ≤ 57 := Char.isDigit_iff_toNat.1 h
  grind [Text.isBlank]

theorem Numeral.isBlank (h : Numeral cs n) : ∀ c ∈ cs, Text.isBlank c = false := by
  cases h with
  | plain _ hcs => exact fun c hc => isBlank_of_isDigit (hcs c hc)
  | plus _ hcs => exact List.forall_mem_cons.2 ⟨rfl, fun c hc => isBlank_of_isDigit (hcs c hc)⟩
  | minus _ hcs => exact List.forall_mem_cons.2 ⟨rfl, fun c hc => isBlank_of_isDigit (hcs c hc)⟩

theorem Numeral.unique {m : Int} (hm : Numeral cs m) (hn : Numeral cs n) : m = n := by
  have hread : some m = some n :=
    (integer?_eq_some_iff.2 hm).symm.trans (integer?_eq_some_iff.2 hn)
  exact Option.some.inj hread

end Decimal

/-- A numeral of the integer between blanks. -/
def Text.Denotes (cs : List Char) (n : Int) : Prop :=
  ∃ before ds after, (∀ c ∈ before, isBlank c = true) ∧ (∀ c ∈ after, isBlank c = true) ∧
    cs = before ++ (ds ++ after) ∧ Decimal.Numeral ds n

theorem Text.denotes_iff {cs : List Char} {n : Int} :
    Denotes cs n ↔ Decimal.Numeral (trim cs) n := by
  constructor
  · rintro ⟨before, ds, after, hbefore, hafter, rfl, hds⟩
    rwa [trim_append hbefore hafter hds.ne_nil hds.isBlank]
  · intro h
    obtain ⟨before, after, hbefore, hafter, hcs⟩ := exists_eq_trim cs
    exact ⟨before, trim cs, after, hbefore, hafter, hcs, h⟩

theorem Text.Denotes.unique {cs : List Char} {m n : Int} (hm : Denotes cs m) (hn : Denotes cs n) :
    m = n :=
  (denotes_iff.1 hm).unique (denotes_iff.1 hn)

end SqlTree

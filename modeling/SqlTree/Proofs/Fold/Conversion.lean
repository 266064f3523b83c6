import SqlTree.Proofs.Fold.Completeness
import SqlTree.Proofs.Number.Numeral
import SqlTree.Proofs.Number.Whole

/-! # Conversions of integers

A conversion to an integer type yields the integer in a value if a word of 64 bits holds it, so only
the types of 64 bits are sure to hold the result. A text between the two is read as what it was.

Main definitions:

* `DataType.Holds`: the integers of a type.
* `Kind.word?`: the literal of an integer.
* `Literal.IsWhole`: the integer in a value, which for a double is what is left of the fraction.

Main statements:

* `Literal.toInt64?_eq_some_iff`, `Literal.toUInt64?_eq_some_iff`: the values that have a word.
* `Expr.fold?_convert_integer`: conversions to integers.
* `Expr.fold?_convert_text`: integers as texts and back.
-/

namespace SqlTree

namespace DataType

/-- The words in which an integer type is computed. -/
def kind (t : DataType) : Kind := if t = .uint64 then .unsigned else .signed

/-- The integer is a value of the type. -/
def Holds (n : Int) : DataType → Prop
  | .byte => 0 ≤ n ∧ n < UInt8.size
  | .int16 => Int16.minValue.toInt ≤ n ∧ n ≤ Int16.maxValue.toInt
  | .int32 => Int32.minValue.toInt ≤ n ∧ n ≤ Int32.maxValue.toInt
  | .int64 => Kind.signed.Fits n
  | .uint64 => Kind.unsigned.Fits n
  | _ => False

end DataType

/-- The type of all words of the kind. -/
def Kind.dataType : Kind → DataType
  | .signed => .int64
  | .unsigned => .uint64

namespace Kind

theorem isInteger_dataType (k : Kind) : k.dataType.isInteger = true := by
  cases k <;> rfl

theorem kind_dataType (k : Kind) : k.dataType.kind = k := by
  cases k <;> rfl

/-- The literal of the kind for an integer. -/
def word? : Kind → Int → Option Literal
  | .signed, n => (Word.signed? n).map .int
  | .unsigned, n => (Word.unsigned? n).map .uint

variable {k : Kind} {n : Int} {v w : Literal}

theorem word?_eq_some_iff : k.word? n = some w ↔ w.datum? = some (.integer k n) := by
  constructor
  · intro h
    cases k with
    | signed =>
      obtain ⟨x, hx, rfl⟩ := Option.map_eq_some_iff.1 h
      rw [Literal.datum?, Word.toInt_of_signed? hx]
    | unsigned =>
      obtain ⟨x, hx, rfl⟩ := Option.map_eq_some_iff.1 h
      rw [Literal.datum?, Word.toNat_of_unsigned? hx]
  · intro h
    rcases Literal.eq_of_datum?_integer h with ⟨rfl, x, rfl, rfl⟩ | ⟨rfl, x, rfl, rfl⟩
    · rw [word?, Word.signed?_toInt]
      rfl
    · rw [word?, Word.unsigned?_toNat]
      rfl

theorem isSome_word?_iff : (k.word? n).isSome ↔ k.Fits n := by
  cases k with
  | signed => rw [word?, Option.isSome_map, Word.isSome_signed?_iff]
  | unsigned => rw [word?, Option.isSome_map, Word.isSome_unsigned?_iff]

theorem exists_datum?_eq (h : k.Fits n) : ∃ w : Literal, w.datum? = some (.integer k n) := by
  obtain ⟨w, hw⟩ := Option.isSome_iff_exists.1 (isSome_word?_iff.2 h)
  exact ⟨w, word?_eq_some_iff.1 hw⟩

theorem eq_of_datum?_eq (hv : v.datum? = some (.integer k n))
    (hw : w.datum? = some (.integer k n)) : v = w := by
  have hword : some v = some w := (word?_eq_some_iff.2 hv).symm.trans (word?_eq_some_iff.2 hw)
  exact Option.some.inj hword

end Kind

namespace Literal

/-- The integer in a value, with the fraction of a double cut off and the blanks around a text
ignored. Doubles less than zero, texts with a minus sign and truth values are not unsigned. -/
def IsWhole (k : Kind) (n : Int) : Literal → Prop
  | .int x => x.toInt = n
  | .uint x => x.toNat = n
  | .float x =>
    x.isFinite = true ∧ (k = .unsigned → ¬ Binary64.BelowZero x) ∧ Binary64.truncate x = n
  | .boolean b => k = .signed ∧ (if b then 1 else 0) = n
  | .string s =>
    Text.Denotes s.toList n ∧ (k = .unsigned → (Text.trim s.toList).head? ≠ some '-')
  | _ => False

variable {k : Kind} {m n : Int} {v w : Literal}

theorem IsWhole.unique (hm : v.IsWhole k m) (hn : v.IsWhole k n) : m = n := by
  cases v with
  | int _ | uint _ => exact hm.symm.trans hn
  | float _ => exact hm.2.2.symm.trans hn.2.2
  | boolean _ => exact hm.2.symm.trans hn.2
  | string _ => exact hm.1.unique hn.1
  | _ => cases hm

theorem IsWhole.signed (h : v.IsWhole k n) : v.IsWhole .signed n := by
  cases v with
  | float _ => exact ⟨h.1, by simp, h.2.2⟩
  | boolean _ => exact ⟨rfl, h.2⟩
  | string _ => exact ⟨h.1, by simp⟩
  | _ => exact h

theorem IsWhole.isNull (h : v.IsWhole k n) : v.isNull = false := by
  cases v with
  | null => cases h
  | _ => rfl

/-- The signed word of a value is that of the integer in it. -/
theorem toInt64?_eq_some_iff :
    v.toInt64? = some w ↔ ∃ n, v.IsWhole .signed n ∧ w.datum? = some (.integer .signed n) := by
  simp only [← Kind.word?_eq_some_iff, Kind.word?]
  cases v with
  | int x => simp [toInt64?, IsWhole, Word.signed?_toInt]
  | uint x => simp [toInt64?, IsWhole]
  | float x =>
    constructor
    · intro h
      rw [toInt64?] at h
      split at h
      next hbetween =>
        have hfinite := ((Binary64.between_iff_signed x).1 hbetween).1
        exact ⟨_, ⟨hfinite, by simp, rfl⟩, h⟩
      next => cases h
    · rintro ⟨n, ⟨hfinite, -, rfl⟩, h⟩
      have hfits := fits_of_datum? (Kind.word?_eq_some_iff (k := .signed).1 h)
      rw [toInt64?, if_pos ((Binary64.between_iff_signed x).2 ⟨hfinite, hfits⟩)]
      exact h
  | boolean b =>
    have hword : Word.signed? (if b then 1 else 0) = some (if b then 1 else 0) := by
      cases b <;> rfl
    simp [toInt64?, IsWhole, hword]
  | string s =>
    simp [toInt64?, IsWhole, Text.denotes_iff, ← Decimal.integer?_eq_some_iff,
      Option.bind_eq_some_iff]
  | _ => simp [toInt64?, IsWhole]

/-- The unsigned word of a value is that of the integer in it. -/
theorem toUInt64?_eq_some_iff :
    v.toUInt64? = some w ↔ ∃ n, v.IsWhole .unsigned n ∧ w.datum? = some (.integer .unsigned n) := by
  simp only [← Kind.word?_eq_some_iff, Kind.word?]
  cases v with
  | int x => simp [toUInt64?, IsWhole]
  | uint x => simp [toUInt64?, IsWhole, Word.unsigned?_toNat]
  | float x =>
    constructor
    · intro h
      rw [toUInt64?] at h
      split at h
      next hbetween =>
        obtain ⟨hfinite, hsign, -⟩ := (Binary64.between_iff_unsigned x).1 hbetween
        exact ⟨_, ⟨hfinite, fun _ => hsign, rfl⟩, h⟩
      next => cases h
    · rintro ⟨n, ⟨hfinite, hsign, rfl⟩, h⟩
      have hfits := fits_of_datum? (Kind.word?_eq_some_iff (k := .unsigned).1 h)
      rw [toUInt64?, if_pos ((Binary64.between_iff_unsigned x).2 ⟨hfinite, hsign rfl, hfits⟩)]
      exact h
  | string s =>
    have hread : toUInt64? (.string s) = (Decimal.unsigned? (Text.trim s.toList)).bind fun m =>
        (Word.unsigned? m).map .uint := by
      rw [toUInt64?]
      refine congrArg (Option.bind _) (funext fun m => ?_)
      cases Word.unsigned? (m : Int) <;> rfl
    rw [hread, Option.bind_eq_some_iff]
    simp only [IsWhole, Text.denotes_iff, forall_const]
    constructor
    · rintro ⟨m, hm, h⟩
      exact ⟨m, Decimal.unsigned?_eq_some_iff.1 hm, h⟩
    · rintro ⟨n, hnumeral, h⟩
      have hfits := fits_of_datum? (Kind.word?_eq_some_iff (k := .unsigned).1 h)
      obtain ⟨m, rfl⟩ := Int.eq_ofNat_of_zero_le hfits.1
      exact ⟨m, Decimal.unsigned?_eq_some_iff.2 hnumeral, h⟩
  | _ => simp [toUInt64?, IsWhole]

/-- A conversion to an integer type finds the word of the integer in a value. -/
theorem convert?_eq_some_iff {t : DataType} (ht : t.isInteger = true) (hv : v.isNull = false) :
    v.convert? t = some w ↔ ∃ n, v.IsWhole t.kind n ∧ w.datum? = some (.integer t.kind n) := by
  unfold convert? DataType.kind
  rw [hv, ht]
  by_cases hunsigned : t = .uint64
  · simp only [hunsigned, if_true]
    exact toUInt64?_eq_some_iff
  · simp only [hunsigned, if_false]
    exact toInt64?_eq_some_iff

theorem convert?_eq_toText? {t : DataType} (ht : t.isText = true) (hv : v.isNull = false) :
    v.convert? t = v.toText? := by
  have hother : t ≠ .uint64 ∧ t.isInteger = false ∧ t.isFloat = false := by
    revert ht
    cases t <;> decide
  simp [convert?, hv, hother, ht]

end Literal

namespace Expr

variable {ctx : Context} {e : Expr} {v w : Literal} {t : DataType} {k : Kind} {n : Int}

theorem fold?_convert (ctx : Context) (t : DataType) (e : Expr) :
    fold? ctx (.convert t e) = (e.fold? ctx).bind (Literal.convert? t) := by
  have hname : "Convert".toLower = "convert" := by decide +kernel
  have hcall : fold? ctx (.convert t e) =
      foldCall? "Convert" [.typeName t, e] [none, e.fold? ctx] := by
    rw [convert, function, fold?, foldEach?, foldEach?, foldEach?, fold?]
    rfl
  rw [hcall]
  unfold foldCall?
  rw [hname]
  cases e.fold? ctx <;> rfl

section

variable (ht : t.isInteger = true) (he : e.fold? ctx = some v)

include ht he

/-- A conversion to an integer type folds to the integer in the value if a word holds it. -/
theorem exists_fold?_convert_iff :
    (∃ w, fold? ctx (.convert t e) = some w ∧ w.datum? = some (.integer k n)) ↔
      k = t.kind ∧ v.IsWhole k n ∧ k.Fits n := by
  rw [fold?_convert, he, Option.bind_some]
  cases hv : v.isNull with
  | true =>
    have hconvert : v.convert? t = some .null := if_pos hv
    have hwhole : ¬ v.IsWhole k n := by
      cases v with
      | null => exact id
      | _ => cases hv
    rw [hconvert]
    refine iff_of_false ?_ fun h => hwhole h.2.1
    rintro ⟨w, ⟨⟩, h⟩
    cases h
  | false =>
    simp only [Literal.convert?_eq_some_iff ht hv]
    constructor
    · rintro ⟨w, ⟨m, hwhole, hm⟩, hn⟩
      cases hm.symm.trans hn
      exact ⟨rfl, hwhole, Literal.fits_of_datum? hn⟩
    · rintro ⟨rfl, hwhole, hfits⟩
      obtain ⟨w, hw⟩ := Kind.exists_datum?_eq hfits
      exact ⟨w, ⟨n, hwhole, hw⟩, hw⟩

theorem fold?_convert_eq_none (hwhole : v.IsWhole .signed n) (hfits : ¬ t.kind.Fits n) :
    fold? ctx (.convert t e) = none := by
  rw [fold?_convert, he, Option.bind_some, Option.eq_none_iff_forall_ne_some]
  intro w hw
  obtain ⟨m, hm, hdatum⟩ := (Literal.convert?_eq_some_iff ht hwhole.isNull).1 hw
  rw [hwhole.unique hm.signed] at hfits
  exact hfits (Literal.fits_of_datum? hdatum)

end

/-- A conversion to an integer folds to the integer in the value if there is a word for it, and not
if there is none. So the result is one of the type if the type is one of 64 bits, and otherwise only
for values of the type or without a word: narrow types do not bound what is converted. -/
theorem fold?_convert_integer (ht : t.isInteger = true) (he : e.fold? ctx = some v) :
    (∀ k n, (∃ w, fold? ctx (.convert t e) = some w ∧ w.datum? = some (.integer k n)) ↔
      k = t.kind ∧ v.IsWhole k n ∧ k.Fits n) ∧
    (∀ n, v.IsWhole .signed n → ¬ t.kind.Fits n → fold? ctx (.convert t e) = none) ∧
    ((∀ w k n, fold? ctx (.convert t e) = some w → w.datum? = some (.integer k n) → t.Holds n) ↔
      t = .int64 ∨ t = .uint64 ∨ ∀ n, v.IsWhole .signed n → Kind.signed.Fits n → t.Holds n) := by
  refine ⟨fun k n => exists_fold?_convert_iff ht he, fun n => fold?_convert_eq_none ht he, ?_⟩
  constructor
  · intro h
    by_cases hunsigned : t = .uint64
    · exact .inr (.inl hunsigned)
    · refine .inr (.inr fun n hwhole hfits => ?_)
      have hkind : Kind.signed = t.kind := (if_neg hunsigned).symm
      obtain ⟨w, hw, hdatum⟩ := (exists_fold?_convert_iff ht he).2 ⟨hkind, hwhole, hfits⟩
      exact h w .signed n hw hdatum
  · intro h w k n hw hdatum
    obtain ⟨hk, hwhole, hfits⟩ := (exists_fold?_convert_iff ht he).1 ⟨w, hw, hdatum⟩
    by_cases hunsigned : t = .uint64
    · subst hunsigned hk
      exact hfits
    · obtain rfl : k = .signed := hk.trans (if_neg hunsigned)
      rcases h with rfl | h | h
      · exact hfits
      · exact absurd h hunsigned
      · exact h n hwhole hfits

theorem fold?_convert_of_isText (ht : t.isText = true) (he : e.fold? ctx = some v)
    (hv : v.datum? = some (.integer k n)) :
    fold? ctx (.convert t e) = some (.string (Decimal.integer n)) := by
  rw [fold?_convert, he, Option.bind_some]
  rcases Literal.eq_of_datum?_integer hv with ⟨-, x, rfl, rfl⟩ | ⟨-, x, rfl, rfl⟩
  · exact Literal.convert?_eq_toText? ht rfl
  · exact Literal.convert?_eq_toText? ht rfl

/-- The text of an integer between blanks is read as the integer. -/
theorem fold?_convert_string {s : String} {before after : List Char}
    (he : e.fold? ctx = some (.string s)) (hbefore : ∀ c ∈ before, Text.isBlank c = true)
    (hafter : ∀ c ∈ after, Text.isBlank c = true)
    (hs : s.toList = before ++ ((Decimal.integer n).toList ++ after))
    (hv : v.datum? = some (.integer k n)) : fold? ctx (.convert k.dataType e) = some v := by
  have hnumeral := Decimal.numeral_integer n
  have hfits : k.Fits n := Literal.fits_of_datum? hv
  have hwhole : (Literal.string s).IsWhole k n := by
    refine ⟨⟨before, _, after, hbefore, hafter, hs, hnumeral⟩, ?_⟩
    rintro rfl
    rw [hs, Text.trim_append hbefore hafter hnumeral.ne_nil hnumeral.isBlank]
    exact Decimal.head?_integer_ne hfits.1
  obtain ⟨w, hw, hdatum⟩ := (exists_fold?_convert_iff k.isInteger_dataType he).2
    ⟨k.kind_dataType.symm, hwhole, hfits⟩
  rw [hw, Kind.eq_of_datum?_eq hdatum hv]

/-- An integer becomes a text that is read as the integer again, with any blanks around it. A text
of an integer without a word is not converted. -/
theorem fold?_convert_text (ht : t.isText = true) (he : e.fold? ctx = some v)
    (hv : v.datum? = some (.integer k n)) :
    fold? ctx (.convert t e) = some (.string (Decimal.integer n)) ∧
    fold? ctx (.convert k.dataType (.convert t e)) = some v ∧
    (∀ e' s before after, e'.fold? ctx = some (.string s) →
      (∀ c ∈ before, Text.isBlank c = true) → (∀ c ∈ after, Text.isBlank c = true) →
      s.toList = before ++ ((Decimal.integer n).toList ++ after) →
      fold? ctx (.convert k.dataType e') = some v) ∧
    ∀ e' s m, e'.fold? ctx = some (.string s) → Text.Denotes s.toList m → ¬ k.Fits m →
      fold? ctx (.convert k.dataType e') = none := by
  have htext := fold?_convert_of_isText ht he hv
  refine ⟨htext, ?_, ?_, ?_⟩
  · have hs : (Decimal.integer n).toList = [] ++ ((Decimal.integer n).toList ++ []) := by simp
    exact fold?_convert_string htext (List.forall_mem_nil _) (List.forall_mem_nil _) hs hv
  · intro e' s before after he' hbefore hafter hs
    exact fold?_convert_string he' hbefore hafter hs hv
  · intro e' s m he' hm hfits
    rw [← k.kind_dataType] at hfits
    exact fold?_convert_eq_none k.isInteger_dataType he' ⟨hm, by simp⟩ hfits

end Expr

namespace Sample

/-- The first double that is too great for a signed word. -/
def firstBeyond : Literal := .float 9223372036854775808.0

/-- It has an integer in it and no word. -/
theorem fold?_firstBeyond :
    firstBeyond.IsWhole .signed 9223372036854775808 ∧
      (Expr.convert .int64 (.literal firstBeyond)).fold? {} = none := by
  have hwhole : firstBeyond.IsWhole .signed 9223372036854775808 := ⟨rfl, by simp, rfl⟩
  have he : (Expr.literal firstBeyond).fold? {} = some firstBeyond := rfl
  have hfits : ¬ Kind.signed.Fits 9223372036854775808 := fun h => absurd h.2 (by decide)
  exact ⟨hwhole, (Expr.fold?_convert_integer (t := .int64) rfl he).2.1 _ hwhole hfits⟩

/-- The first integer past the bytes as one of them. -/
def pastBytes : Expr := .convert .byte (.literal (.int 256))

/-- The conversion folds to an integer that is no byte. -/
theorem fold?_pastBytes :
    pastBytes.fold? {} = some (.int 256) ∧ ¬ DataType.byte.Holds 256 := by
  refine ⟨?_, fun h => absurd h.2 (by decide)⟩
  rw [pastBytes, Expr.fold?_convert]
  rfl

/-- The least signed word. -/
def leastWord : Literal := .int Int64.minValue

/-- Its text between a wide space and a line feed. -/
def spacedWord : String :=
  String.ofList (['\u2003'] ++ ((Decimal.integer Int64.minValue.toInt).toList ++ ['\n']))

/-- The least signed word as a text and back, also between blanks, and the text of the integer
below it. -/
theorem fold?_leastWord :
    (Expr.convert .int64 (.convert .nVarChar (.literal leastWord))).fold? {} = some leastWord ∧
      (Expr.convert .int64 (.string spacedWord)).fold? {} = some leastWord ∧
      (Expr.convert .int64 (.string (Decimal.integer (Int64.minValue.toInt - 1)))).fold? {} =
        none := by
  have he : (Expr.literal leastWord).fold? {} = some leastWord := rfl
  have hv : leastWord.datum? = some (.integer .signed Int64.minValue.toInt) := rfl
  have hbelow : Text.Denotes (Decimal.integer (Int64.minValue.toInt - 1)).toList
      (Int64.minValue.toInt - 1) :=
    ⟨[], _, [], by simp, by simp, by simp, Decimal.numeral_integer _⟩
  have hfits : ¬ Kind.signed.Fits (Int64.minValue.toInt - 1) := fun h => absurd h.1 (by decide)
  obtain ⟨-, hback, hblank, hnone⟩ := Expr.fold?_convert_text (t := .nVarChar) rfl he hv
  refine ⟨hback, ?_, hnone _ _ _ rfl hbelow hfits⟩
  exact hblank _ spacedWord ['\u2003'] ['\n'] rfl (List.forall_mem_singleton.2 rfl)
    (List.forall_mem_singleton.2 rfl) String.toList_ofList

end Sample

end SqlTree

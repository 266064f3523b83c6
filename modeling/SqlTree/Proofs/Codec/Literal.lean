import Mathlib
import SqlTree.Codec.Literal
import SqlTree.Proofs.Json.Text
import SqlTree.Proofs.Time.Interval
import SqlTree.Proofs.Time.Text

/-! # Literals in JSON

A literal survives being written and read, whatever its kind, unless it is not a number. Not every
literal comes from JSON: an instant has a clock in range, and an interval a whole number of
milliseconds.

Main definitions:

* `Literal.Limited`: the limits of literals in JSON.
* `Literal.isNaN`: a double that is not a number.

Main statements:

* `Json.choice?_tag`: reading a name of a list of named values.
* `doubleOfJson?_doubleToJson`: doubles keep their bits.
* `Literal.limited_of_ofJson?`: literals that are read are within the limits.
* `Literal.ofJson?_toJson`: literals within the limits are read as they were written.
-/

namespace SqlTree

/-! Named values and numbers. -/

namespace Json

/-- A name is read as the value that has it, if no two values have one name. -/
theorem choice?_tag {α : Type} {all : List α} {tag : α → String} (htags : (all.map tag).Nodup)
    {a : α} (ha : a ∈ all) :
    choice? (fun s => all.find? (tag · == s)) (.string (tag a)) = some a := by
  have hfound : (all.find? (tag · == tag a)).isSome :=
    List.find?_isSome.2 ⟨a, ha, beq_self_eq_true (tag a)⟩
  obtain ⟨b, hb⟩ := Option.isSome_iff_exists.1 hfound
  have htag : tag b = tag a := by simpa using List.find?_some hb
  have heq : b = a := List.inj_on_of_nodup_map htags (List.mem_of_find?_eq_some hb) ha htag
  rw [heq] at hb
  exact hb

theorem bounded?_int {low high n : Int} (hlow : low ≤ n) (hhigh : n ≤ high) :
    (int n).bounded? low high = some n :=
  if_pos ⟨hlow, hhigh⟩

theorem bounded?_eq_some {low high n : Int} {j : Json} (h : j.bounded? low high = some n) :
    low ≤ n ∧ n ≤ high := by
  simp only [bounded?, Option.bind_eq_bind, Option.bind_eq_some_iff, Option.ite_none_right_eq_some]
    at h
  obtain ⟨m, -, hm, hmn⟩ := h
  cases hmn
  exact hm

theorem natural?_nat {high n : Nat} (h : n ≤ high) : (nat n).natural? high = some n := by
  rw [natural?, nat, bounded?_int (by omega) (by omega)]
  rfl

theorem natural?_le {high n : Nat} {j : Json} (h : j.natural? high = some n) : n ≤ high := by
  obtain ⟨m, hm, rfl⟩ := Option.map_eq_some_iff.1 h
  have := bounded?_eq_some hm
  omega

theorem length_hexDigits (width n : Nat) : (hexDigits width n).length = width := by
  induction width generalizing n with
  | zero => rfl
  | succ width ih => simp [hexDigits, ih]

end Json

@[simp] theorem DataType.ofJson?_toJson (t : DataType) : ofJson? t.toJson = some t :=
  Json.choice?_tag (by decide) (by cases t <;> decide)

/-- A double keeps its bits, unless it is not a number. -/
theorem doubleOfJson?_doubleToJson {x : Float} (hx : x.isNaN = false) :
    doubleOfJson? (doubleToJson x) = some x := by
  have htext : doubleToJson x = .string (String.ofList (Json.hexDigits 16 x.toBits.toNat)) :=
    if_neg (Bool.eq_false_iff.1 hx)
  have hhex : Json.hex? (Json.hexDigits 16 x.toBits.toNat) = some x.toBits.toNat :=
    Json.hex?_hexDigits x.toBits.toNat_lt
  simp [htext, doubleOfJson?, Json.length_hexDigits, hhex, Float.ofBits_toBits]

/-! Literals. -/

namespace Literal

/-- The limits of literals in JSON: the clock of an instant is in range, and an interval is a whole
number of milliseconds. -/
def Limited : Literal → Prop
  | .dateTimeOffset t => t.Shown
  | .interval d => d.Whole
  | _ => True

instance : DecidablePred Limited
  | .dateTimeOffset t => inferInstanceAs (Decidable (InRange t.localNanos))
  | .interval d => inferInstanceAs (Decidable d.Whole)
  | .null | .boolean _ | .int _ | .uint _ | .float _ | .string _ | .date _ | .dateTime _ =>
    .isTrue trivial

/-- The literal is a double that is not a number. -/
def isNaN : Literal → Bool
  | .float x => x.isNaN
  | _ => false

theorem limited_of_ofTagged? {tag : String} {j : Json} {l : Literal}
    (h : ofTagged? tag j = some l) : l.Limited := by
  unfold ofTagged? at h
  split at h
  case h_8 =>
    simp only [Option.bind_eq_bind, Option.bind_eq_some_iff] at h
    obtain ⟨s, -, t, ht, h⟩ := h
    cases h
    exact OffsetDateTime.shown_of_ofText? ht
  case h_9 =>
    simp only [Option.bind_eq_bind, Option.bind_eq_some_iff] at h
    obtain ⟨n, -, d, hd, h⟩ := h
    cases h
    exact Interval.whole_of_ofMillis? hd
  case h_10 => split at h <;> cases h; trivial
  case h_11 => cases h
  all_goals
    simp only [Option.bind_eq_bind, Option.bind_eq_some_iff, Option.map_eq_some_iff] at h
    grind [Limited]

theorem limited_of_ofJson? {j : Json} {l : Literal} (h : ofJson? j = some l) : l.Limited := by
  unfold ofJson? at h
  split at h
  · obtain ⟨tag, -, h⟩ := Option.bind_eq_some_iff.1 h
    split at h
    · exact limited_of_ofTagged? h
    · split at h
      · cases h
        trivial
      · cases h
  · exact limited_of_ofTagged? h
  · cases h

theorem ofJson?_tagged (tag : String) (j : Json) : ofJson? (tagged tag j) = ofTagged? tag j := by
  simp [ofJson?, tagged, Json.required, Json.choice?, List.lookup_cons]

/-- A literal within the limits is read as it was written, unless it is not a number. -/
theorem ofJson?_toJson {l : Literal} (hl : l.Limited) (hnan : l.isNaN = false) :
    ofJson? l.toJson = some l := by
  cases l with
  | null => rfl
  | int n =>
    have hn := Json.bounded?_int n.minValue_le_toInt n.toInt_le
    rw [toJson, ofJson?_tagged]
    simp only [ofTagged?, hn, Option.map_some, Int64.ofInt_toInt]
  | uint n =>
    have hn : (Json.int n.toNat).bounded? 0 (UInt64.size - 1) = some (n.toNat : Int) :=
      Json.bounded?_int (by omega) (Int.le_sub_one_of_lt (Int.ofNat_lt.2 n.toNat_lt))
    rw [toJson, ofJson?_tagged]
    simp only [ofTagged?, hn, Option.map_some, Int.toNat_natCast, UInt64.ofNat_toNat]
  | float x =>
    rw [toJson, ofJson?_tagged]
    exact congrArg (Option.map float) (doubleOfJson?_doubleToJson hnan)
  | boolean b => rw [toJson, ofJson?_tagged]; rfl
  | string s => rw [toJson, ofJson?_tagged]; rfl
  | date d => simp [toJson, ofJson?_tagged, ofTagged?, Json.string?, Date.ofText?_text]
  | dateTime t => simp [toJson, ofJson?_tagged, ofTagged?, Json.string?, DateTime.ofText?_text]
  | dateTimeOffset t =>
    simp [toJson, ofJson?_tagged, ofTagged?, Json.string?, OffsetDateTime.ofText?_text hl]
  | interval d =>
    have hn := Json.bounded?_int hl.minValue_le_wholeMillis hl.wholeMillis_le
    rw [toJson, ofJson?_tagged]
    simp only [ofTagged?, hn, Option.bind_eq_bind, Option.bind_some,
      Interval.ofMillis?_wholeMillis hl, Option.pure_def]

end Literal

end SqlTree

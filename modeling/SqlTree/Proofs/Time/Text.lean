import SqlTree.Proofs.Number.Digits
import SqlTree.Proofs.Time.Calendar
import SqlTree.Time.Date

/-! # Texts of dates and points in time

Each reading gets back what the text was written from, whatever follows it. A text is followed by
something that it cannot go on with.

Main definitions:

* `OffsetDateTime.Shown`: the clock at the offset is in the range of dates.

Main statements:

* `Date.ofText?_text`, `DateTime.ofText?_text`, `OffsetDateTime.ofText?_text`: texts are read as
  what they were written from.
* `OffsetDateTime.shown_of_ofText?`: only clocks in range are read.
-/

namespace SqlTree

/-! Numbers. -/

theorem natural?_padded (width n : Nat) : Decimal.natural? (padded width n) = some n := by
  refine Decimal.natural?_eq_some.2 ⟨?_, ?_, ?_⟩
  · simp [padded, Decimal.digits_ne_nil]
  · intro c hc
    rcases List.mem_append.1 hc with hc | hc
    · rw [List.eq_of_mem_replicate hc]
      rfl
    · exact Decimal.isDigit_of_mem_digits hc
  · simp [padded, Nat.ofDigitChars_append]

theorem length_padded {width n : Nat} (hwidth : 0 < width) (hn : n < 10 ^ width) :
    (padded width n).length = width := by
  have hle : (Decimal.digits n).length ≤ width :=
    (Nat.length_toDigits_le_iff (by decide) hwidth).2 hn
  simp only [padded, List.length_append, List.length_replicate]
  omega

/-- Digits are read as a number if the width ends there, or if no digit follows. -/
theorem readNumber?_append {width n : Nat} {ds cs : List Char} (hds : Decimal.natural? ds = some n)
    (hwidth : ds.length ≤ width) (hcs : ds.length = width ∨ Stops Char.isDigit cs) :
    readNumber? width (ds ++ cs) = some (n, cs) := by
  have hdigits := (Decimal.natural?_eq_some.1 hds).2.1
  have hstops : Stops Char.isDigit (cs.take (width - ds.length)) := by
    rcases hcs with hlength | hcs
    · simp [hlength, Stops.nil]
    · cases width - ds.length with
      | zero => simp [Stops.nil]
      | succ k =>
        cases cs with
        | nil => exact Stops.nil
        | cons c cs => exact Stops.cons (hcs c rfl)
  have htake : ((ds ++ cs).take width).takeWhile Char.isDigit = ds := by
    rw [List.take_append, List.take_of_length_le hwidth]
    exact hstops.takeWhile_append hdigits
  simp [readNumber?, htake, hds]

theorem readNumber?_padded {width n : Nat} (hwidth : 0 < width) (hn : n < 10 ^ width)
    (cs : List Char) : readNumber? width (padded width n ++ cs) = some (n, cs) :=
  readNumber?_append (natural?_padded width n) (Nat.le_of_eq (length_padded hwidth hn))
    (.inl (length_padded hwidth hn))

theorem readNumber?_pair {n : Nat} (hn : n < 100) (cs : List Char) :
    readNumber? 2 (padded 2 n ++ cs) = some (n, cs) :=
  readNumber?_padded (by decide) hn cs

/-! Dates. -/

theorem readYear?_of_isDigit {c : Char} (hc : c.isDigit = true) (cs : List Char) :
    readYear? (c :: cs) = (readNumber? 4 (c :: cs)).map fun (n, cs) => ((n : Int), cs) := by
  unfold readYear?
  split
  · rename_i heq
    cases heq
    cases hc
  · rename_i heq
    cases heq
    cases hc
  · rfl

/-- A year is read where a dash follows. -/
theorem readYear?_yearText (year : Int) (cs : List Char) :
    readYear? (yearText year ++ '-' :: cs) = some (year, '-' :: cs) := by
  have hread : ∀ ds, Decimal.natural? ds = some year.natAbs →
      readNumber? (ds ++ '-' :: cs).length (ds ++ '-' :: cs) = some (year.natAbs, '-' :: cs) :=
    fun ds hds => readNumber?_append hds (by simp) (.inr (Stops.cons rfl))
  unfold yearText
  split
  · have hyear : -(year.natAbs : Int) = year := by omega
    simp only [List.cons_append, readYear?, hread _ (natural?_padded 4 _), Option.map_some, hyear]
  · have hyear : (year.natAbs : Int) = year := by omega
    split
    · obtain ⟨hne, hdigits, -⟩ := Decimal.natural?_eq_some.1 (natural?_padded 4 year.natAbs)
      have hpadded : readNumber? 4 (padded 4 year.natAbs ++ '-' :: cs) =
          some (year.natAbs, '-' :: cs) := readNumber?_padded (by decide) (by omega) _
      obtain ⟨d, ds, hds⟩ := List.exists_cons_of_ne_nil hne
      rw [hds, List.cons_append] at hpadded ⊢
      simp only [readYear?_of_isDigit (hdigits d (by simp [hds])), hpadded, Option.map_some, hyear]
    · simp only [List.cons_append, readYear?, hread _ (natural?_padded 4 _), Option.map_some, hyear]

theorem readDate?_civilText {c : Civil} {d : Date} (hmonth : c.month < 100) (hday : c.day < 100)
    (hdate : Date.ofCivil? c = some d) (cs : List Char) :
    readDate? (civilText c ++ cs) = some (d, cs) := by
  have hyear := readYear?_yearText c.year (padded 2 c.month ++ '-' :: (padded 2 c.day ++ cs))
  simp only [civilText, List.append_assoc, List.cons_append]
  simp [readDate?, hyear, readChar?, readNumber?_pair hmonth, readNumber?_pair hday, hdate]

/-- A day in range is the one of its date. -/
theorem Date.ofCivil?_ofDay (d : Date) : Date.ofCivil? (Civil.ofDay d.day) = some d := by
  simp [Date.ofCivil?, Civil.valid_ofDay, Civil.toDay_ofDay, Date.ofDay?, d.inRange]

theorem readDate?_ofDay (d : Date) (cs : List Char) :
    readDate? (civilText (Civil.ofDay d.day) ++ cs) = some (d, cs) := by
  obtain ⟨-, hmonth, -, hday⟩ := Civil.valid_ofDay d.day
  have hlength : Civil.daysInMonth (Civil.ofDay d.day).year (Civil.ofDay d.day).month ≤ 31 := by
    unfold Civil.daysInMonth
    split
    · split <;> decide
    all_goals decide
  exact readDate?_civilText (by omega) (by omega) d.ofCivil?_ofDay cs

theorem Date.ofText?_text (d : Date) : Date.ofText? d.text = some d := by
  have hread := readDate?_ofDay d []
  rw [List.append_nil] at hread
  simp [Date.ofText?, Date.text, hread, complete?]

/-! Times of day. -/

/-- What a time of day does not go on with. -/
def inTime (c : Char) : Bool := c.isDigit || c == '.'

theorem readFraction?_fractionText {nanos : Nat} (hnanos : nanos < 1000000000) {cs : List Char}
    (hcs : Stops inTime cs) : readFraction? (fractionText nanos ++ cs) = some (nanos, cs) := by
  have hdigits : Stops Char.isDigit cs := fun c hc => (Bool.or_eq_false_iff.1 (hcs c hc)).1
  have hread : ∀ width n, 0 < width → width ≤ 9 → n < 10 ^ width →
      readFraction? ('.' :: padded width n ++ cs) = some (n * 10 ^ (9 - width), cs) := by
    intro width n hwidth hle hn
    have hnatural := natural?_padded width n
    have hlength := length_padded hwidth hn
    have htake : (padded width n ++ cs).takeWhile Char.isDigit = padded width n :=
      hdigits.takeWhile_append (Decimal.natural?_eq_some.1 hnatural).2.1
    have hnine : (padded width n).take 9 = padded width n := List.take_of_length_le (by omega)
    simp [readFraction?, htake, hnine, hnatural, hlength]
  unfold fractionText
  split
  · rename_i hzero
    rw [List.nil_append, hzero]
    unfold readFraction?
    split
    · cases hcs '.' rfl
    · rfl
  · split
    · rw [hread 3 _ (by decide) (by decide) (by omega)]
      simp
      omega
    · split
      · rw [hread 6 _ (by decide) (by decide) (by omega)]
        simp
        omega
      · rw [hread 9 _ (by decide) (by decide) (by omega)]
        simp

/-- A second of a minute, or the leap second after the last one. -/
theorem readTime?_timeText {n : Nat} (hn : n < 86400000000000) {leap : Bool}
    (hleap : leap = true → n / 1000000000 % 60 = 59) {cs : List Char} (hcs : Stops inTime cs) :
    readTime? (timeText n leap ++ cs) = some ((n, leap), cs) := by
  have hhour : n / 1000000000 / 3600 < 24 := by omega
  have hminute : n / 1000000000 / 60 % 60 < 60 := by omega
  have hsecond : n / 1000000000 % 60 + leap.toNat ≤ 60 ∧
      (n / 1000000000 % 60 + leap.toNat = 60 ↔ leap = true) := by
    cases leap with
    | false =>
      simp only [Bool.toNat_false, Bool.false_eq_true, iff_false]
      omega
    | true =>
      have hlast := hleap rfl
      simp only [Bool.toNat_true, iff_true]
      omega
  have hfraction := readFraction?_fractionText (Nat.mod_lt n (by decide : 0 < 1000000000)) hcs
  have htotal : ((n / 1000000000 / 3600 * 60 + n / 1000000000 / 60 % 60) * 60 +
      n / 1000000000 % 60) * 1000000000 + n % 1000000000 = n := by omega
  simp only [timeText, List.append_assoc, List.cons_append]
  simp [readTime?, readChar?, readNumber?_pair (Nat.lt_trans hhour (by decide)),
    readNumber?_pair (Nat.lt_trans hminute (by decide)),
    readNumber?_pair (Nat.lt_of_le_of_lt hsecond.1 (by decide)), hfraction, htotal, hhour, hminute,
    hsecond]

/-! Points in time. -/

/-- The nanoseconds are in the range of points in time. -/
def InRange (n : Int) : Prop := minDay * nanosPerDay ≤ n ∧ n < (maxDay + 1) * nanosPerDay

instance : DecidablePred InRange := fun n =>
  inferInstanceAs (Decidable (minDay * nanosPerDay ≤ n ∧ n < (maxDay + 1) * nanosPerDay))

theorem readPoint?_pointText {n : Int} (hn : InRange n) {leap : Bool}
    (hleap : leap = true → n / 1000000000 % 60 = 59) {cs : List Char} (hcs : Stops inTime cs) :
    readPoint? (pointText 'T' n leap ++ cs) = some ((n, leap), cs) := by
  obtain ⟨hlow, hhigh⟩ := hn
  simp only [minDay, maxDay, nanosPerDay] at hlow hhigh
  have hday : minDay ≤ n / nanosPerDay ∧ n / nanosPerDay ≤ maxDay := by
    simp only [minDay, maxDay, nanosPerDay]
    omega
  have hlast : leap = true → (n % nanosPerDay).toNat / 1000000000 % 60 = 59 := by
    intro h
    have := hleap h
    simp only [nanosPerDay]
    omega
  have htime := readTime?_timeText (n := (n % nanosPerDay).toNat)
    (by simp only [nanosPerDay]; omega) hlast hcs
  have hdate := readDate?_ofDay ⟨n / nanosPerDay, hday⟩
    ('T' :: (timeText (n % nanosPerDay).toNat leap ++ cs))
  have htotal : n / nanosPerDay * nanosPerDay + (n % nanosPerDay).toNat = n := by
    simp only [nanosPerDay]
    omega
  simp only [pointText, List.append_assoc, List.cons_append]
  simpa [readPoint?, hdate, readChar?, htime] using htotal

/-- A point in time is the one with its count and its mark. -/
theorem DateTime.of?_nanos (t : DateTime) : of? t.nanos t.leap = some t :=
  dif_pos ⟨t.inRange, t.second_eq⟩

theorem DateTime.ofText?_text (t : DateTime) : DateTime.ofText? (t.text 'T') = some t := by
  have hread : readPoint? (pointText 'T' t.nanos t.leap ++ []) = some ((t.nanos, t.leap), []) :=
    readPoint?_pointText t.inRange t.second_eq Stops.nil
  rw [List.append_nil] at hread
  simp [DateTime.ofText?, DateTime.text, hread, complete?, t.of?_nanos]

/-! Instants. -/

/-- The clock at the offset of the instant is in range. -/
def OffsetDateTime.Shown (t : OffsetDateTime) : Prop := InRange t.localNanos

theorem readPair?_padded {n : Nat} (hn : n < 100) (cs : List Char) :
    readPair? (padded 2 n ++ cs) = some (n, cs) := by
  have hlength : (padded 2 n).length = 2 := length_padded (by decide) hn
  have hnatural := natural?_padded 2 n
  rcases hds : padded 2 n with _ | ⟨a, _ | ⟨b, _ | ⟨c, ds⟩⟩⟩
  case cons.cons.nil =>
    rw [hds] at hnatural
    simp [readPair?, hnatural]
  all_goals simp [hds] at hlength

/-- Hours and minutes after a sign. -/
theorem readOffset?_cons {sign : Char} {hours minutes : Nat} {cs cs₁ cs₂ : List Char}
    (hsign : sign ≠ 'Z') (hhours : readPair? cs = some (hours, ':' :: cs₁))
    (hminutes : readPair? cs₁ = some (minutes, cs₂)) (hlt : minutes < 60) :
    readOffset? (sign :: cs) =
      if sign = '+' then some (((hours * 60 + minutes : Nat) : Int), cs₂)
      else if sign = '-' then some (-((hours * 60 + minutes : Nat) : Int), cs₂) else none := by
  unfold readOffset?
  split
  · rename_i heq
    cases heq
    exact absurd rfl hsign
  · rename_i heq
    cases heq
    simp [hhours, readChar?, hminutes, Nat.not_le.2 hlt]
  · rename_i heq
    cases heq

theorem readOffset?_offsetText {offset : Int} (h : offset.natAbs < 1440) :
    readOffset? (offsetText offset) = some (offset, []) := by
  have hhours := readPair?_padded (n := offset.natAbs / 60) (by omega)
    (':' :: padded 2 (offset.natAbs % 60))
  have hminutes := readPair?_padded (n := offset.natAbs % 60) (by omega) []
  rw [List.append_nil] at hminutes
  have hlt : offset.natAbs % 60 < 60 := by omega
  have htotal : offset.natAbs / 60 * 60 + offset.natAbs % 60 = offset.natAbs := by omega
  unfold offsetText
  split
  · have hoffset : -(offset.natAbs : Int) = offset := by omega
    rw [readOffset?_cons (by decide) hhours hminutes hlt, htotal, hoffset]
    rfl
  · have hoffset : (offset.natAbs : Int) = offset := by omega
    rw [readOffset?_cons (by decide) hhours hminutes hlt, htotal, hoffset]
    rfl

/-- A zero offset has a letter of its own. -/
theorem readOffset?_zone {offset : Int} (h : offset.natAbs < 1440) :
    readOffset? (if offset = 0 then ['Z'] else offsetText offset) = some (offset, []) := by
  split
  · rename_i hzero
    rw [hzero]
    rfl
  · exact readOffset?_offsetText h

theorem stops_zone (offset : Int) :
    Stops inTime (if offset = 0 then ['Z'] else offsetText offset) := by
  split
  · exact Stops.cons rfl
  · unfold offsetText
    split <;> exact Stops.cons rfl

theorem OffsetDateTime.ofText?_text {t : OffsetDateTime} (ht : t.Shown) :
    OffsetDateTime.ofText? (t.text true) = some t := by
  -- An offset of whole minutes leaves the second of the minute as it is.
  have hleap : t.utc.leap = true → t.localNanos / 1000000000 % 60 = 59 := by
    intro h
    have := t.utc.second_eq h
    simp only [OffsetDateTime.localNanos]
    omega
  have hpoint := readPoint?_pointText ht hleap (stops_zone t.offset)
  have hutc : t.localNanos - t.offset * 60000000000 = t.utc.nanos := by
    simp only [OffsetDateTime.localNanos]
    omega
  simp [OffsetDateTime.ofText?, OffsetDateTime.text, hpoint, readOffset?_zone t.offset_lt,
    complete?, hutc, t.utc.of?_nanos, t.offset_lt]

/-! What is read. -/

theorem lt_of_readFraction? {cs cs' : List Char} {n : Nat} (h : readFraction? cs = some (n, cs')) :
    n < 1000000000 := by
  unfold readFraction? at h
  split at h
  · rename_i ds
    obtain ⟨m, hm, h⟩ := Option.bind_eq_some_iff.1 h
    obtain ⟨-, hdigits, hvalue⟩ := Decimal.natural?_eq_some.1 hm
    have hlt := Decimal.ofDigitChars_lt hdigits
    rw [hvalue, List.length_take] at hlt
    cases h
    generalize (ds.takeWhile Char.isDigit).length = length at hlt ⊢
    have hsum : min 9 length + (9 - length) = 9 := by omega
    calc m * 10 ^ (9 - length)
      _ < 10 ^ min 9 length * 10 ^ (9 - length) :=
        Nat.mul_lt_mul_of_pos_right hlt (Nat.pow_pos (by decide))
      _ = 10 ^ 9 := by rw [← Nat.pow_add, hsum]
  · cases h
    decide

theorem lt_of_readTime? {cs cs' : List Char} {time : Nat × Bool}
    (h : readTime? cs = some (time, cs')) : time.1 < 86400000000000 := by
  simp only [readTime?, Option.bind_eq_bind, Option.bind_eq_some_iff] at h
  obtain ⟨⟨hour, _⟩, -, _, -, ⟨minute, _⟩, -, _, -, ⟨second, _⟩, -, ⟨nanos, _⟩, hnanos, h⟩ := h
  have hlt := lt_of_readFraction? hnanos
  split at h
  · rename_i hparts
    -- The leap second counts as the last one.
    have hcounted : second - (decide (second = 60)).toNat < 60 := by
      by_cases hsecond : second = 60
      · simp [hsecond]
      · simp only [hsecond, decide_false, Bool.toNat_false]
        omega
    cases h
    dsimp only at *
    omega
  · cases h

theorem inRange_of_readPoint? {cs cs' : List Char} {point : Int × Bool}
    (h : readPoint? cs = some (point, cs')) : InRange point.1 := by
  simp only [readPoint?, Option.bind_eq_bind, Option.bind_eq_some_iff] at h
  obtain ⟨⟨date, _⟩, -, _, -, ⟨time, _⟩, htime, h⟩ := h
  have hlt := lt_of_readTime? htime
  have hdate := date.inRange
  cases h
  simp only [InRange, minDay, maxDay, nanosPerDay] at *
  omega

/-- Only clocks in range are read. -/
theorem OffsetDateTime.shown_of_ofText? {s : String} {t : OffsetDateTime}
    (h : OffsetDateTime.ofText? s = some t) : t.Shown := by
  simp only [OffsetDateTime.ofText?, Option.bind_eq_bind, Option.bind_eq_some_iff] at h
  obtain ⟨⟨point, _⟩, hpoint, offset, -, utc, hutc, h⟩ := h
  have hrange := inRange_of_readPoint? hpoint
  unfold DateTime.of? at hutc
  split at hutc
  · cases hutc
    split at h
    · cases h
      simpa [Shown, localNanos] using hrange
    · cases h
  · cases hutc

end SqlTree

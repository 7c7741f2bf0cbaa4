import Blokwork.Timestamp
import Mathlib.Algebra.Group.Nat.Defs

/-!
# Timestamps are read back from their text

`parse_text` reads the written form of a time within the calendar back as that time. The calendar's
side of it is `civilFromDays_spec`: the day of a number of days is a day of its month, and the days
up to it are that number. Every era of 400 years is taken apart into centuries, blocks of four
years, years and days (`split_era`); leap days stand at the end of these parts, which is where the
parts have unequal lengths.
-/

namespace Blokwork

namespace Timestamp

/-! ## The calendar -/

/-- A day of an era, by its century, block of four years, year in the block and day of the year.
The last day of a leap year ends a block, and ends a century only if it ends the era. -/
structure EraDay (dayOfEra century block yearOfBlock dayOfYear : Int) : Prop where
  sum : dayOfEra = 36524 * century + 1461 * block + 365 * yearOfBlock + dayOfYear
  century_bounds : 0 ≤ century ∧ century ≤ 3
  block_bounds : 0 ≤ block ∧ block ≤ 24
  yearOfBlock_bounds : 0 ≤ yearOfBlock ∧ yearOfBlock ≤ 3
  dayOfYear_bounds : 0 ≤ dayOfYear ∧ dayOfYear ≤ 365
  leap : dayOfYear = 365 → yearOfBlock = 3 ∧ (block = 24 → century = 3)

/-- Every day of an era can be taken apart. -/
theorem split_era (d : Int) (h0 : 0 ≤ d) (h1 : d ≤ 146096) :
    ∃ century block year day, EraDay d century block year day := by
  have hcentury : ∃ q r : Int, d = 36524 * q + r ∧ 0 ≤ q ∧ q ≤ 3 ∧ 0 ≤ r ∧ r ≤ 36524 ∧
      (r = 36524 → q = 3) := by
    by_cases h : d = 146096
    · exact ⟨3, 36524, by omega⟩
    · exact ⟨d / 36524, d % 36524, by omega⟩
  obtain ⟨q, r, rfl, hq0, hq3, hr0, hr1, hr⟩ := hcentury
  have hblock : ∃ k s : Int, r = 1461 * k + s ∧ 0 ≤ k ∧ k ≤ 24 ∧ 0 ≤ s ∧ s ≤ 1460 ∧
      (s = 1460 → k = 24 → q = 3) :=
    ⟨r / 1461, r % 1461, by omega⟩
  obtain ⟨k, s, rfl, hk0, hk1, hs0, hs1, hs⟩ := hblock
  by_cases h : s = 1460
  · exact ⟨q, k, 3, 365, by constructor <;> omega⟩
  · exact ⟨q, k, s / 365, s % 365, by constructor <;> omega⟩

section
variable {d century block year day : Int}

/-- The year of an era, computed from the day as `civilFromDays` does. -/
theorem EraDay.yearOfEra (h : EraDay d century block year day) :
    (d - d / 1460 + d / 36524 - d / 146096) / 365 = 100 * century + 4 * block + year := by
  obtain ⟨hsum, ⟨hq0, hq3⟩, ⟨hk0, hk24⟩, ⟨hz0, hz3⟩, ⟨hw0, hw⟩, hleap⟩ := h
  have hblocks : d / 1460 = 25 * century + block ∨ d / 1460 = 25 * century + block + 1 := by omega
  have hcenturies : (d = 146096 ∧ d / 36524 = 4 ∧ d / 146096 = 1) ∨
      (d / 36524 = century ∧ d / 146096 = 0) := by omega
  rcases hcenturies with ⟨hd, -, -⟩ | ⟨hc, he⟩
  · subst hd; omega
  · rw [hc, he]
    rcases hblocks with hb | hb <;> rw [hb] <;> omega

/-- The day of the year, computed from the year of the era. -/
theorem EraDay.dayOfYear (h : EraDay d century block year day) :
    d - (365 * (100 * century + 4 * block + year) + (100 * century + 4 * block + year) / 4 -
      (100 * century + 4 * block + year) / 100) = day := by
  obtain ⟨hsum, ⟨hq0, hq3⟩, ⟨hk0, hk24⟩, ⟨hz0, hz3⟩, ⟨hw0, hw⟩, hleap⟩ := h
  omega

end

/-- A day of the year that starts in March, as month and day of the civil calendar; `leap` says
whether that year ends in a 29th of February. -/
theorem month_day_bounds {w : Int} (h0 : 0 ≤ w) (h1 : w ≤ 365) :
    let mp := (5 * w + 2) / 153
    let day := w - (153 * mp + 2) / 5 + 1
    0 ≤ mp ∧ mp ≤ 11 ∧ 1 ≤ day ∧ day ≤ 31 ∧
      ((mp = 1 ∨ mp = 3 ∨ mp = 6 ∨ mp = 8) → day ≤ 30) ∧ (mp = 11 → day ≤ 29) ∧
      (mp = 11 → day = 29 → w = 365) := by
  intro mp day
  have hmp : mp = 0 ∨ mp = 1 ∨ mp = 2 ∨ mp = 3 ∨ mp = 4 ∨ mp = 5 ∨ mp = 6 ∨ mp = 7 ∨ mp = 8 ∨
      mp = 9 ∨ mp = 10 ∨ mp = 11 := by omega
  have hlow : 153 * mp ≤ 5 * w + 2 := by omega
  have hhigh : 5 * w + 2 < 153 * mp + 153 := by omega
  clear_value mp
  rcases hmp with rfl | rfl | rfl | rfl | rfl | rfl | rfl | rfl | rfl | rfl | rfl | rfl <;> omega

/-- The days up to a day of an era, from the calendar's year, month and day of it; `mp` counts
months from March. -/
theorem EraDay.daysFromCivil {d q k y w : Int} (h : EraDay d q k y w) (era mp : Int)
    (hmp : mp = (5 * w + 2) / 153) {month : Nat} {year : Int}
    (hmonth : (month : Int) = if mp < 10 then mp + 3 else mp - 9)
    (hyear : year = 100 * q + 4 * k + y + era * 400 + if month ≤ 2 then 1 else 0) :
    Timestamp.daysFromCivil year month (w - (153 * mp + 2) / 5 + 1).toNat =
      era * 146097 + d - 719468 := by
  have hw := h.dayOfYear_bounds
  have hbounds := month_day_bounds hw.1 hw.2
  simp only [← hmp] at hbounds
  have hyoe : 0 ≤ 100 * q + 4 * k + y ∧ 100 * q + 4 * k + y ≤ 399 := by
    have := h.century_bounds
    have := h.block_bounds
    have := h.yearOfBlock_bounds
    omega
  have hdoy := h.dayOfYear
  have hmarch : (if month ≤ 2 then year - 1 else year) = 100 * q + 4 * k + y + era * 400 := by
    split at hyear <;> split <;> omega
  have hera : Int.fdiv (100 * q + 4 * k + y + era * 400) 400 = era := by
    rw [Int.fdiv_eq_ediv_of_nonneg _ (by decide)]; omega
  have hfrom : (if 2 < month then (month : Int) - 3 else (month : Int) + 9) = mp := by
    split at hmonth <;> split <;> omega
  have hday : ((w - (153 * mp + 2) / 5 + 1).toNat : Int) = w - (153 * mp + 2) / 5 + 1 := by omega
  have hsub : 100 * q + 4 * k + y + era * 400 - era * 400 = 100 * q + 4 * k + y := by omega
  simp only [Timestamp.daysFromCivil, hmarch, hera, hfrom, hday, hsub]
  generalize 100 * q + 4 * k + y = yoe at hyoe hdoy
  omega

/-- The day is a day of its month. -/
theorem EraDay.day_le {d q k y w : Int} (h : EraDay d q k y w) (era mp : Int)
    (hmp : mp = (5 * w + 2) / 153) {month : Nat} {year : Int}
    (hmonth : (month : Int) = if mp < 10 then mp + 3 else mp - 9)
    (hyear : year = 100 * q + 4 * k + y + era * 400 + if month ≤ 2 then 1 else 0) :
    (w - (153 * mp + 2) / 5 + 1).toNat ≤ daysInMonth year month := by
  have hw := h.dayOfYear_bounds
  obtain ⟨hmp0, hmp11, hd1, hd31, hd30, hd29, hfeb⟩ := month_day_bounds hw.1 hw.2
  simp only [← hmp] at hmp0 hmp11 hd1 hd31 hd30 hd29 hfeb
  by_cases h2 : month = 2
  · -- the last day of a leap year is the 29th of February
    subst h2
    have hmp : mp = 11 := by split at hmonth <;> omega
    have hleap : w - (153 * mp + 2) / 5 + 1 = 29 → isLeapYear year = true := by
      intro h29
      obtain ⟨hy, hk⟩ := h.leap (hfeb hmp h29)
      have := h.century_bounds
      have := h.block_bounds
      rw [if_pos (Nat.le_refl 2)] at hyear
      have h4 : year % 4 = 0 := by omega
      have h100 : year % 100 ≠ 0 ∨ year % 400 = 0 := by
        by_cases hk24 : k = 24
        · have := hk hk24; omega
        · omega
      simpa [isLeapYear, h4] using h100
    have := hd29 hmp
    simp only [daysInMonth, ↓reduceIte]
    split
    · omega
    · next hno =>
      have : w - (153 * mp + 2) / 5 + 1 ≠ 29 := fun h29 => hno (hleap h29)
      omega
  · simp only [daysInMonth, h2, ↓reduceIte, Bool.or_eq_true, decide_eq_true_eq]
    split
    · have : mp = 1 ∨ mp = 3 ∨ mp = 6 ∨ mp = 8 := by split at hmonth <;> omega
      have := hd30 this
      omega
    · omega

/-- The day of a number of days is a day of its month, and that many days after 1970. -/
theorem civilFromDays_spec (days : Int) :
    ∃ year month day, civilFromDays days = (year, month, day) ∧ 1 ≤ month ∧ month ≤ 12 ∧
      1 ≤ day ∧ day ≤ daysInMonth year month ∧ daysFromCivil year month day = days := by
  obtain ⟨z, hz⟩ : ∃ z, z = days + 719468 := ⟨_, rfl⟩
  obtain ⟨era, hera⟩ : ∃ era, era = Int.fdiv z 146097 := ⟨_, rfl⟩
  have hdiv : era = z / 146097 := by
    rw [hera, Int.fdiv_eq_ediv_of_nonneg z (by decide)]
  obtain ⟨q, k, y, w, h⟩ := split_era (z - era * 146097) (by omega) (by omega)
  obtain ⟨mp, hmp⟩ : ∃ mp, mp = (5 * w + 2) / 153 := ⟨_, rfl⟩
  obtain ⟨m, hm⟩ : ∃ m : Int, m = if mp < 10 then mp + 3 else mp - 9 := ⟨_, rfl⟩
  have hw := h.dayOfYear_bounds
  have hbounds := month_day_bounds hw.1 hw.2
  simp only [← hmp] at hbounds
  have hmonth : (m.toNat : Int) = if mp < 10 then mp + 3 else mp - 9 := by
    split at hm <;> split <;> omega
  have hyear : (if m ≤ 2 then 100 * q + 4 * k + y + era * 400 + 1
      else 100 * q + 4 * k + y + era * 400) =
      100 * q + 4 * k + y + era * 400 + if m.toNat ≤ 2 then 1 else 0 := by
    split <;> split <;> omega
  refine ⟨_, m.toNat, (w - (153 * mp + 2) / 5 + 1).toNat, ?_, ?_, ?_, ?_,
    h.day_le era mp hmp hmonth rfl, ?_⟩
  · simp only [civilFromDays, ← hz, ← hera, h.yearOfEra, h.dayOfYear, ← hmp, ← hm, hyear]
  · split at hm <;> omega
  · split at hm <;> omega
  · omega
  · rw [h.daysFromCivil era mp hmp hmonth rfl]; omega

/-! ## Numbers in the text -/

/-- The digits of a padded number: at least one and as many as asked for or needed, and their
value is the number. -/
theorem padded_digits (width n : Nat) :
    (padded width n).toList ≠ [] ∧ (∀ c ∈ (padded width n).toList, c.isDigit = true) ∧
      (padded width n).toList.length = max width (Nat.toDigits 10 n).length ∧
      (padded width n).toList.foldl (fun v c => v * 10 + (c.toNat - '0'.toNat)) 0 = n := by
  have htext : (padded width n).toList =
      List.replicate (width - (Nat.toDigits 10 n).length) '0' ++ Nat.toDigits 10 n := by
    simp [padded, Nat.repr_eq_ofList_toDigits]
  have hvalue : ∀ (cs : List Char) (v : Nat),
      cs.foldl (fun v c => v * 10 + (c.toNat - '0'.toNat)) v = Nat.ofDigitChars 10 cs v := by
    intro cs v
    rw [Nat.ofDigitChars_eq_foldl]
    simp only [Nat.mul_comm]
  refine ⟨?_, ?_, ?_, ?_⟩
  · simp [htext, Nat.toDigits_ne_nil]
  · intro c hc
    rw [htext, List.mem_append] at hc
    rcases hc with hc | hc
    · rw [(List.mem_replicate.1 hc).2]; decide
    · exact Nat.isDigit_of_mem_toDigits (by decide) (by decide) hc
  · rw [htext, List.length_append, List.length_replicate]; omega
  · rw [htext, hvalue, Nat.ofDigitChars_append, Nat.ofDigitChars_replicate_zero, Nat.mul_zero,
      Nat.ofDigitChars_ten_toDigits]

/-- A number within its width is padded to the width. -/
theorem length_padded {width n : Nat} (hw : 0 < width) (hn : n < 10 ^ width) :
    (padded width n).toList.length = width := by
  rw [(padded_digits width n).2.2.1]
  have := (Nat.length_toDigits_le_iff (b := 10) (by decide) hw).2 hn
  omega

/-- Digits are read as their value, up to the most that are asked for or to what is no digit. -/
theorem number_of_digits {most : Nat} {ds rest : List Char} (hne : ds ≠ [])
    (hds : ∀ c ∈ ds, c.isDigit = true) (hmost : ds.length ≤ most)
    (hend : ds.length = most ∨ ∀ c ∈ rest.head?, c.isDigit = false)
    (hvalue : ds.foldl (fun v c => v * 10 + (c.toNat - '0'.toNat)) 0 < 0x8000000000000000) :
    number most (ds ++ rest) =
      .ok (ds.foldl (fun v c => v * 10 + (c.toNat - '0'.toNat)) 0, rest) := by
  have htake : ((ds ++ rest).take most).takeWhile Char.isDigit = ds := by
    obtain ⟨more, rfl⟩ : ∃ k, most = ds.length + k := ⟨most - ds.length, by omega⟩
    rw [List.take_length_add_append, List.takeWhile_append_of_pos hds]
    rcases hend with h | h
    · have : more = 0 := by omega
      simp [this]
    · cases rest with
      | nil => simp
      | cons c rest =>
        cases more with
        | zero => simp
        | succ more => simp [h c rfl]
  obtain ⟨d, ds', rfl⟩ := List.exists_cons_of_ne_nil hne
  simp only [number, htake, List.drop_left]
  rw [if_neg (by omega)]

/-- A padded number is read back. -/
theorem number_padded {width most n : Nat} {rest : List Char} (hw : 0 < width)
    (hn : n < 10 ^ width) (hwm : width ≤ most) (hsmall : n < 0x8000000000000000)
    (hend : width = most ∨ ∀ c ∈ rest.head?, c.isDigit = false) :
    number most ((padded width n).toList ++ rest) = .ok (n, rest) := by
  obtain ⟨hne, hds, -, hvalue⟩ := padded_digits width n
  have hlen := length_padded hw hn
  rw [number_of_digits hne hds (by omega) (hend.imp_left fun h => by omega) (by omega), hvalue]

/-- A digit is no blank. -/
theorem isBlankChar_of_isDigit {c : Char} (h : c.isDigit = true) :
    Text.isBlankChar c = false := by
  simp only [Char.isDigit, Bool.and_eq_true, decide_eq_true_eq] at h
  have h1 : 48 ≤ c.toNat := h.1
  have h2 : c.toNat ≤ 57 := h.2
  simp only [Text.isBlankChar, Text.blankRanges, List.any_cons, List.any_nil, Bool.or_false,
    Bool.or_eq_false_iff, Bool.and_eq_false_iff, decide_eq_false_iff_not]
  omega

theorem skipBlank_cons {c : Char} (cs : List Char) (h : Text.isBlankChar c = false) :
    skipBlank (c :: cs) = c :: cs := by
  simp [skipBlank, h]

/-- There is no blank in front of a padded number. -/
theorem skipBlank_padded (width n : Nat) (rest : List Char) :
    skipBlank ((padded width n).toList ++ rest) = (padded width n).toList ++ rest := by
  obtain ⟨hne, hds, -, -⟩ := padded_digits width n
  obtain ⟨d, ds, hcons⟩ := List.exists_cons_of_ne_nil hne
  rw [hcons, List.cons_append]
  exact skipBlank_cons _ (isBlankChar_of_isDigit (hds d (by simp [hcons])))

/-! ## The parts of the text -/

/-- A number of two digits between its bounds is read back. -/
theorem numberBetween_padded {low high n : Nat} (rest : List Char) (hl : low ≤ n) (hh : n ≤ high)
    (hn : n < 100) : numberBetween low high ((padded 2 n).toList ++ rest) = .ok (n, rest) := by
  rw [numberBetween, skipBlank_padded,
    number_padded (by decide) (by omega) (by decide) (by omega) (.inl rfl)]
  simp [bind, Except.bind, pure, Except.pure, hl, hh]

theorem separator_cons {c : Char} (rest : List Char) (h : Text.isBlankChar c = false) :
    separator c (c :: rest) = .ok ((), rest) := by
  simp [separator, skipBlank_cons rest h]

/-- A year is read back, four digits or more behind a sign. -/
theorem year_yearText {y : Int} (rest : List Char) (hlow : firstYear ≤ y) (hhigh : y ≤ lastYear) :
    year ((yearText y).toList ++ '-' :: rest) = .ok (y, '-' :: rest) := by
  simp only [firstYear, lastYear] at hlow hhigh
  have hrange : -0x80000000 ≤ y ∧ y < 0x80000000 := by omega
  have hdash : ∀ c ∈ ('-' :: rest).head?, c.isDigit = false := by simp
  by_cases hplain : 0 ≤ y ∧ y ≤ 9999
  · have hread : number 4 ((padded 4 y.toNat).toList ++ '-' :: rest) =
        .ok (y.toNat, '-' :: rest) :=
      number_padded (by decide) (by omega) (by decide) (by omega) (.inl rfl)
    obtain ⟨hne, hds, -, -⟩ := padded_digits 4 y.toNat
    obtain ⟨d, ds, hcons⟩ := List.exists_cons_of_ne_nil hne
    have hd := hds d (by simp [hcons])
    rw [yearText, if_pos hplain, year, skipBlank_padded]
    rw [hcons, List.cons_append] at hread ⊢
    split
    · next heq => cases heq; exact absurd hd (by decide)
    · next heq => cases heq; exact absurd hd (by decide)
    · have : ((y.toNat : Nat) : Int) = y := by omega
      simp [hread, Except.map, bind, Except.bind, pure, Except.pure, this, hrange]
  · obtain ⟨hne, hds, hlen, hvalue⟩ := padded_digits 4 y.natAbs
    have hread : ∀ most, (padded 4 y.natAbs).toList.length ≤ most →
        number most ((padded 4 y.natAbs).toList ++ '-' :: rest) =
          .ok (y.natAbs, '-' :: rest) := by
      intro most hmost
      rw [number_of_digits hne hds hmost (.inr hdash) (by omega), hvalue]
    rw [yearText, if_neg hplain]
    by_cases hneg : y < 0
    · have hsign : (-(y.natAbs : Int)) = y := by omega
      simp only [hneg, ↓reduceIte, String.toList_append, List.append_assoc]
      generalize y.natAbs = n at hread hsign ⊢
      rw [year]
      simp [skipBlank_cons _ (show Text.isBlankChar '-' = false by decide), hread, Except.map,
        bind, Except.bind, pure, Except.pure, hsign, hrange]
    · have hsign : (y.natAbs : Int) = y := by omega
      simp only [hneg, ↓reduceIte, String.toList_append, List.append_assoc]
      generalize y.natAbs = n at hread hsign ⊢
      rw [year]
      simp [skipBlank_cons _ (show Text.isBlankChar '+' = false by decide), hread, Except.map,
        bind, Except.bind, pure, Except.pure, hsign, hrange]

/-- A fraction of the written digits is read back. -/
theorem fraction_padded {width n : Nat} (hw : 0 < width) (hw9 : width ≤ 9) (hn : n < 10 ^ width) :
    fraction ('.' :: ((padded width n).toList ++ ['Z'])) =
      .ok (n * 10 ^ (9 - width), ['Z']) := by
  have hsmall : n < 10 ^ 9 :=
    Nat.lt_of_lt_of_le hn (Nat.pow_le_pow_right (by decide) hw9)
  have hz : 'Z'.isDigit = false := by decide
  rw [fraction, number_padded hw hn hw9 (by omega) (.inr (by simp))]
  simp [bind, Except.bind, pure, Except.pure, length_padded hw hn, hz]

/-- The fraction is read back. -/
theorem fraction_fractionText {nanos : Nat} (h : nanos < 1000000000) :
    fraction ((fractionText nanos).toList ++ ['Z']) = .ok (nanos, ['Z']) := by
  have hdot (width n : Nat) : ("." ++ padded width n).toList ++ ['Z'] =
      '.' :: ((padded width n).toList ++ ['Z']) := by simp
  unfold fractionText
  split
  · next h0 => subst h0; simp [fraction]
  split
  · have hscale : nanos / 1000000 * 10 ^ (9 - 3) = nanos := by omega
    rw [hdot, fraction_padded (by decide) (by decide) (by omega), hscale]
  split
  · have hscale : nanos / 1000 * 10 ^ (9 - 6) = nanos := by omega
    rw [hdot, fraction_padded (by decide) (by decide) (by omega), hscale]
  · have hscale : nanos * 10 ^ (9 - 9) = nanos := by omega
    rw [hdot, fraction_padded (by decide) (by decide) (by omega), hscale]

/-- The time is within a second that is no leap second, and its year is one of the calendar. -/
def InCalendar (t : Timestamp) : Prop :=
  t.nanoseconds < 1000000000 ∧
    firstYear ≤ (civilFromDays (Int.fdiv t.seconds 86400)).1 ∧
    (civilFromDays (Int.fdiv t.seconds 86400)).1 ≤ lastYear

instance (t : Timestamp) : Decidable t.InCalendar := inferInstanceAs (Decidable (_ ∧ _))

/-- A time of the calendar is read back from its text. -/
theorem parse_text {t : Timestamp} (h : t.InCalendar) : parse t.text = .ok t := by
  obtain ⟨hnanos, hlow, hhigh⟩ := h
  obtain ⟨y, m, d, hciv, hm1, hm12, hd1, hd, hdays⟩ :=
    civilFromDays_spec (Int.fdiv t.seconds 86400)
  rw [hciv] at hlow hhigh
  have hd31 : d ≤ 31 := by
    refine Nat.le_trans hd ?_
    unfold daysInMonth
    split
    · split <;> omega
    · split <;> omega
  have hfdiv : Int.fdiv t.seconds 86400 = t.seconds / 86400 :=
    Int.fdiv_eq_ediv_of_nonneg _ (by decide)
  obtain ⟨inDay, hin⟩ : ∃ n, n = (t.seconds - Int.fdiv t.seconds 86400 * 86400).toNat := ⟨_, rfl⟩
  have hday : inDay < 86400 := by omega
  have hleap : ¬ 1000000000 ≤ t.nanoseconds := by omega
  have htext : t.text.toList = (yearText y).toList ++ '-' :: ((padded 2 m).toList ++
      '-' :: ((padded 2 d).toList ++ 'T' :: ((padded 2 (inDay / 3600)).toList ++
        ':' :: ((padded 2 (inDay / 60 % 60)).toList ++ ':' :: ((padded 2 (inDay % 60)).toList ++
          ((fractionText t.nanoseconds).toList ++ ['Z'])))))) := by
    simp [text, hciv, ← hin, hleap]
  have hdash (rest : List Char) : separator '-' ('-' :: rest) = .ok ((), rest) :=
    separator_cons rest (by decide)
  have hcolon (rest : List Char) : separator ':' (':' :: rest) = .ok ((), rest) :=
    separator_cons rest (by decide)
  have hmonth (rest : List Char) := numberBetween_padded rest hm1 hm12 (by omega)
  have hdayOf (rest : List Char) := numberBetween_padded rest hd1 hd31 (by omega)
  have hhour (rest : List Char) := numberBetween_padded (n := inDay / 3600) rest (Nat.zero_le _)
    (show _ ≤ 23 by omega) (by omega)
  have hminute (rest : List Char) := numberBetween_padded (n := inDay / 60 % 60) rest
    (Nat.zero_le _) (show _ ≤ 59 by omega) (by omega)
  have hsecond (rest : List Char) := numberBetween_padded (n := inDay % 60) rest
    (Nat.zero_le _) (show _ ≤ 60 by omega) (by omega)
  have hdate (rest : List Char) : dateEnd ('T' :: rest) = .ok ((), rest) := by simp [dateEnd]
  have hzone : offset (skipBlank ['Z']) = .ok (0, []) := by
    rw [skipBlank_cons _ (by decide)]; simp [offset]
  have hend : skipBlank [] = [] := rfl
  have hyear : ¬ (y < firstYear ∨ lastYear < y) := by simp only at hlow hhigh; omega
  have h60 : inDay % 60 ≠ 60 := by omega
  simp only [parse, htext, bind, Except.bind, year_yearText _ hlow hhigh, hdash, hcolon, hmonth,
    hdayOf, hhour, hminute, hsecond, hdate, fraction_fractionText hnanos, hzone, hend, hyear]
  have hsum : inDay / 3600 * 3600 + inDay / 60 % 60 * 60 + inDay % 60 = inDay := by omega
  rw [if_neg (by simp), if_neg (by simp), if_neg (by omega), if_neg (by omega)]
  have hseconds : Int.fdiv t.seconds 86400 * 86400 + (inDay : Int) - 0 = t.seconds := by omega
  simp only [h60, hdays, hsum, hseconds, pure, Except.pure, ↓reduceIte]

end Timestamp

end Blokwork

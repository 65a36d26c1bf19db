import Accrual.Timestamp

/-!
# The calendar counts days

Days are counted from the first of January of the year 1.  The date of a day is
one of the calendar (`Day.isDate_ofNumber`), the number is found again from the
date (`Day.toNumber_ofNumber`), and later days have later dates
(`Day.isBefore_ofNumber`).

The year is found by dividing by the cycles of 400, 100 and 4 years
(`Day.exists_parts`).  What is left over is a day of that year, for the only
quotients that are cut are those of the last century and the last year of a
cycle, and these are one day longer just where there is a leap day.
-/

namespace Accrual.Day

/-! ### Years -/

theorem isLeapYear_iff {year : Int} :
    isLeapYear year = true ↔ year % 4 = 0 ∧ (year % 100 ≠ 0 ∨ year % 400 = 0) := by
  simp [isLeapYear]

def yearLength (year : Int) : Nat := if isLeapYear year then 366 else 365

theorem sum_monthLengths (year : Int) :
    (monthLengths year).foldr (· + ·) 0 = yearLength year := by
  unfold monthLengths yearLength
  split <;> rfl

/-- **A year begins when the one before it is over.** -/
theorem daysBeforeYear_succ (year : Int) :
    daysBeforeYear (year + 1) = daysBeforeYear year + yearLength year := by
  unfold daysBeforeYear yearLength
  split
  next h =>
    have hleap := isLeapYear_iff.mp h
    omega
  next h =>
    have hleap := mt isLeapYear_iff.mpr h
    omega

theorem daysBeforeYear_mono {year year' : Int} (h : year ≤ year') :
    daysBeforeYear year ≤ daysBeforeYear year' := by
  unfold daysBeforeYear
  omega

/-- A year by its place in the cycles of 400, 100 and 4 years. -/
structure Parts where
  cycle : Int
  century : Int
  quad : Int
  single : Int
  century_bounds : 0 ≤ century ∧ century ≤ 3
  quad_bounds : 0 ≤ quad ∧ quad ≤ 24
  single_bounds : 0 ≤ single ∧ single ≤ 3

namespace Parts

def year (p : Parts) : Int := 400 * p.cycle + 100 * p.century + 4 * p.quad + p.single + 1

def days (p : Parts) : Int :=
  146097 * p.cycle + 36524 * p.century + 1461 * p.quad + 365 * p.single

theorem daysBeforeYear_eq (p : Parts) : daysBeforeYear p.year = p.days := by
  obtain ⟨c, e, q, s, he, hq, hs⟩ := p
  have hquads : (400 * c + 100 * e + 4 * q + s) / 4 = 100 * c + 25 * e + q := by omega
  have hcenturies : (400 * c + 100 * e + 4 * q + s) / 100 = 4 * c + e := by omega
  have hcycles : (400 * c + 100 * e + 4 * q + s) / 400 = c := by omega
  simp only [year, days, daysBeforeYear, Int.add_sub_cancel, hquads, hcenturies, hcycles]
  omega

theorem isLeapYear_iff (p : Parts) :
    isLeapYear p.year = true ↔ p.single = 3 ∧ (p.quad ≠ 24 ∨ p.century = 3) := by
  obtain ⟨c, e, q, s, he, hq, hs⟩ := p
  have hquad : (400 * c + 100 * e + 4 * q + s + 1) % 4 = (s + 1) % 4 := by omega
  have hcentury : (400 * c + 100 * e + 4 * q + s + 1) % 100 = (4 * q + s + 1) % 100 := by omega
  have hcycle : (400 * c + 100 * e + 4 * q + s + 1) % 400 = (100 * e + 4 * q + s + 1) % 400 := by
    omega
  simp only [Day.isLeapYear_iff, year, hquad, hcentury, hcycle]
  omega

end Parts

/-- **The year of a day** is found part by part, and the days left over are days of that year. -/
theorem exists_parts (n : Int) : ∃ (p : Parts) (k : Nat), splitYears n = (p.year, k) ∧
    n = p.days + k ∧ (k < 365 ∨ k = 365 ∧ p.single = 3 ∧ (p.quad ≠ 24 ∨ p.century = 3)) := by
  obtain ⟨e, he⟩ : ∃ e, e = min (n % 146097 / 36524) 3 := ⟨_, rfl⟩
  obtain ⟨r, hr⟩ : ∃ r, r = n % 146097 - e * 36524 := ⟨_, rfl⟩
  obtain ⟨s, hs⟩ : ∃ s, s = min (r % 1461 / 365) 3 := ⟨_, rfl⟩
  have hcentury : 0 ≤ e ∧ e ≤ 3 := by omega
  have hrest : 0 ≤ r ∧ (r < 36524 ∨ r = 36524 ∧ e = 3) := by omega
  have hquad : 0 ≤ r / 1461 ∧ r / 1461 ≤ 24 := by omega
  have hsingle : 0 ≤ s ∧ s ≤ 3 := by omega
  have hday : 0 ≤ r % 1461 - s * 365 := by omega
  refine ⟨⟨n / 146097, e, r / 1461, s, hcentury, hquad, hsingle⟩, (r % 1461 - s * 365).toNat,
    ?_, ?_, ?_⟩
  · simp only [splitYears, Parts.year, ← he, ← hr, ← hs]
  · simp only [Parts.days]
    omega
  · simp only
    omega

theorem splitYears_spec (n : Int) :
    daysBeforeYear (splitYears n).1 + (splitYears n).2 = n ∧
      (splitYears n).2 < yearLength (splitYears n).1 := by
  obtain ⟨p, k, hsplit, hn, hk⟩ := exists_parts n
  rw [hsplit]
  refine ⟨?_, ?_⟩
  · rw [p.daysBeforeYear_eq, hn]
  · simp only [yearLength, p.isLeapYear_iff]
    split <;> omega

/-- **Later days are in later years**, or later in the same year. -/
theorem splitYears_lt {n n' : Int} (h : n < n') :
    (splitYears n).1 < (splitYears n').1 ∨
      (splitYears n).1 = (splitYears n').1 ∧ (splitYears n).2 < (splitYears n').2 := by
  obtain ⟨hn, -⟩ := splitYears_spec n
  obtain ⟨hn', hk'⟩ := splitYears_spec n'
  by_cases hyear : (splitYears n').1 < (splitYears n).1
  · have hmono : daysBeforeYear ((splitYears n').1 + 1) ≤ daysBeforeYear (splitYears n).1 :=
      daysBeforeYear_mono hyear
    rw [daysBeforeYear_succ] at hmono
    omega
  · obtain hlt | heq := Int.lt_or_eq_of_le (Int.not_lt.mp hyear)
    · exact .inl hlt
    · rw [heq] at hn
      exact .inr ⟨heq, by omega⟩

/-! ### Months -/

/-- **The days before the month and the day in it** make up the day of the year. -/
theorem splitMonths_sum (lengths : List Nat) (n : Nat) :
    1 ≤ (splitMonths lengths n).1 ∧
      (lengths.take ((splitMonths lengths n).1 - 1)).foldr (· + ·) 0 +
        (splitMonths lengths n).2 = n + 1 := by
  induction lengths generalizing n with
  | nil => simp [splitMonths]
  | cons length rest ih =>
      unfold splitMonths
      split
      next => simp
      next h =>
        obtain ⟨hmonth, hsum⟩ := ih (n - length)
        obtain ⟨month, hmonth'⟩ := Nat.exists_eq_add_of_le' hmonth
        simp only [hmonth', Nat.add_sub_cancel] at hsum ⊢
        rw [List.take_succ_cons, List.foldr_cons]
        omega

/-- A day of the year is a day of one of its months. -/
theorem splitMonths_bounds {lengths : List Nat} {n : Nat} (h : n < lengths.foldr (· + ·) 0) :
    1 ≤ (splitMonths lengths n).2 ∧ ∃ length ∈ lengths[(splitMonths lengths n).1 - 1]?,
      (splitMonths lengths n).2 ≤ length := by
  induction lengths generalizing n with
  | nil => exact absurd h (Nat.not_lt_zero n)
  | cons length rest ih =>
      unfold splitMonths
      split
      next hn => exact ⟨Nat.le_add_left 1 n, length, rfl, hn⟩
      next hn =>
        have hrest : n - length < rest.foldr (· + ·) 0 := by
          rw [List.foldr_cons] at h
          omega
        obtain ⟨hday, length', hlength, hle⟩ := ih hrest
        obtain ⟨month, hmonth⟩ := Nat.exists_eq_add_of_le' (splitMonths_sum rest (n - length)).1
        refine ⟨hday, length', ?_, hle⟩
        rw [hmonth] at hlength ⊢
        exact hlength

/-- **Later days of a year are in later months**, or later in the same month. -/
theorem splitMonths_lt (lengths : List Nat) {n n' : Nat} (h : n < n') :
    (splitMonths lengths n).1 < (splitMonths lengths n').1 ∨
      (splitMonths lengths n).1 = (splitMonths lengths n').1 ∧
        (splitMonths lengths n).2 < (splitMonths lengths n').2 := by
  induction lengths generalizing n n' with
  | nil => exact .inr ⟨rfl, Nat.succ_lt_succ h⟩
  | cons length rest ih =>
      have hmonth := (splitMonths_sum rest (n' - length)).1
      unfold splitMonths
      by_cases hn : n < length
      · rw [if_pos hn]
        split
        next => exact .inr ⟨rfl, Nat.succ_lt_succ h⟩
        next => exact .inl (Nat.lt_succ_of_le hmonth)
      · have hrest : n - length < n' - length := by omega
        rw [if_neg hn, if_neg (by omega)]
        obtain hlt | ⟨heq, hlt⟩ := ih hrest
        · exact .inl (Nat.succ_lt_succ hlt)
        · exact .inr ⟨congrArg Nat.succ heq, hlt⟩

/-! ### Dates -/

structure IsDate (d : Day) : Prop where
  month : 1 ≤ d.month
  day : 1 ≤ d.day
  day_le : ∃ length ∈ (monthLengths d.year)[d.month - 1]?, d.day ≤ length

instance (d : Day) : Decidable d.IsDate :=
  decidable_of_iff
    (1 ≤ d.month ∧ 1 ≤ d.day ∧ ∃ length ∈ (monthLengths d.year)[d.month - 1]?, d.day ≤ length)
    ⟨fun ⟨hmonth, hday, hle⟩ => ⟨hmonth, hday, hle⟩, fun h => ⟨h.month, h.day, h.day_le⟩⟩

def IsBefore (d e : Day) : Prop :=
  d.year < e.year ∨ d.year = e.year ∧ (d.month < e.month ∨ d.month = e.month ∧ d.day < e.day)

theorem ofNumber_eq (n : Int) :
    ofNumber n =
      ⟨(splitYears n).1, (splitMonths (monthLengths (splitYears n).1) (splitYears n).2).1,
        (splitMonths (monthLengths (splitYears n).1) (splitYears n).2).2⟩ := by
  rw [ofNumber]

/-- **The number of a day** is found from its date. -/
theorem toNumber_ofNumber (n : Int) : (ofNumber n).toNumber = n := by
  obtain ⟨hn, -⟩ := splitYears_spec n
  obtain ⟨-, hsum⟩ := splitMonths_sum (monthLengths (splitYears n).1) (splitYears n).2
  rw [ofNumber_eq, toNumber]
  simp only
  omega

/-- **Each day has a date of the calendar.** -/
theorem isDate_ofNumber (n : Int) : (ofNumber n).IsDate := by
  obtain ⟨-, hk⟩ := splitYears_spec n
  rw [← sum_monthLengths] at hk
  obtain ⟨hday, hlength⟩ := splitMonths_bounds hk
  rw [ofNumber_eq]
  exact ⟨(splitMonths_sum _ _).1, hday, hlength⟩

/-- **Later days have later dates.** -/
theorem isBefore_ofNumber {n n' : Int} (h : n < n') : (ofNumber n).IsBefore (ofNumber n') := by
  rw [ofNumber_eq, ofNumber_eq]
  obtain hyear | ⟨hyear, hk⟩ := splitYears_lt h
  · exact .inl hyear
  · refine .inr ⟨hyear, ?_⟩
    rw [hyear]
    exact splitMonths_lt _ hk

theorem IsDate.month_le {d : Day} (h : d.IsDate) : d.month ≤ 12 := by
  obtain ⟨length, hlength, -⟩ := h.day_le
  have hlt := (List.getElem?_eq_some_iff.mp hlength).1
  have hcount : (monthLengths d.year).length = 12 := rfl
  omega

theorem IsDate.day_le_31 {d : Day} (h : d.IsDate) : d.day ≤ 31 := by
  obtain ⟨length, hlength, hle⟩ := h.day_le
  have hmem := List.mem_of_getElem? hlength
  have hall : ∀ length ∈ monthLengths d.year, length ≤ 31 := by
    unfold monthLengths
    split <;> simp
  exact Nat.le_trans hle (hall length hmem)

end Accrual.Day

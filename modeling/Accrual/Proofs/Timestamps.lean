import Accrual.Proofs.Calendar

/-!
# Timestamps are read back and stand in order

Each number of a timestamp has a fixed width, so it is read from its first
characters alone (`readDecimal?_padded`), and of two timestamps the first number
in which they differ decides (`padded_lt`).  Read number by number, the text of
a moment gives the moment back (`Moment.ofIsoText?_isoText`), and of two moments
the later one has the later text (`Moment.isoText_lt`).  The fraction does not
break this order where it is left out: the sign of the offset that follows then
comes before the point.
-/

namespace Accrual

namespace Text

/-! ### Numerals of a fixed width -/

/-- The last decimal digits of a number, as many as the width. -/
def digits : Nat → Nat → List Char
  | 0, _ => []
  | width + 1, n => digits width (n / 10) ++ [(n % 10).digitChar]

theorem length_digits (width n : Nat) : (digits width n).length = width := by
  induction width generalizing n with
  | zero => rfl
  | succ width ih => rw [digits, List.length_append, ih]; rfl

theorem div_ten_lt {width n : Nat} (h : n < Nat.pow 10 (width + 1)) :
    n / 10 < Nat.pow 10 width := by
  change n < Nat.pow 10 width * 10 at h
  omega

theorem decimal_of_lt {n : Nat} (h : n < 10) : decimal n = [(n % 10).digitChar] := by
  rw [Nat.mod_eq_of_lt h]
  exact Nat.toDigits_of_lt_base h

theorem padded_decimal_succ {width : Nat} (hw : 0 < width) (n : Nat) :
    padded (width + 1) (decimal n) = padded width (decimal (n / 10)) ++ [(n % 10).digitChar] := by
  obtain ⟨width, rfl⟩ := Nat.exists_eq_add_of_lt hw
  by_cases hn : n < 10
  · have hzero : decimal (n / 10) = ['0'] := by
      rw [Nat.div_eq_of_lt hn]
      rfl
    rw [hzero, decimal_of_lt hn]
    simp [padded, List.replicate_succ']
  · have hdigits : decimal n = decimal (n / 10) ++ [(n % 10).digitChar] := by
      rw [decimal, Nat.toDigits_eq_if (by decide), if_neg hn]
      rfl
    simp [padded, hdigits]

/-- A number that fits into the width is written with just its last digits. -/
theorem padded_decimal {width n : Nat} (hw : 0 < width) (h : n < Nat.pow 10 width) :
    padded width (decimal n) = digits width n := by
  induction width generalizing n with
  | zero => exact absurd hw (Nat.lt_irrefl 0)
  | succ width ih =>
      obtain rfl | hwidth := Nat.eq_zero_or_pos width
      · rw [decimal_of_lt h]
        rfl
      · rw [padded_decimal_succ hwidth, digits, ih hwidth (div_ten_lt h)]

theorem length_padded_decimal {width n : Nat} (hw : 0 < width) (h : n < Nat.pow 10 width) :
    (padded width (decimal n)).length = width := by
  rw [padded_decimal hw h, length_digits]

theorem isDigit_of_mem_digits {width n : Nat} {c : Char} (h : c ∈ digits width n) :
    c.isDigit = true := by
  induction width generalizing n with
  | zero => exact absurd h List.not_mem_nil
  | succ width ih =>
      obtain h | h := List.mem_append.mp h
      · exact ih h
      · rw [List.mem_singleton.mp h]
        exact (by decide : ∀ d < 10, d.digitChar.isDigit = true) _ (Nat.mod_lt n (by decide))

theorem ofDecimal_digits {width n : Nat} (h : n < Nat.pow 10 width) :
    ofDecimal (digits width n) = n := by
  induction width generalizing n with
  | zero => exact (Nat.lt_one_iff.mp h).symm
  | succ width ih =>
      have hdigit : (n % 10).digitChar.toNat - '0'.toNat = n % 10 :=
        (by decide : ∀ d < 10, d.digitChar.toNat - '0'.toNat = d) _ (Nat.mod_lt n (by decide))
      rw [digits, ofDecimal, Nat.ofDigitChars_append, ← ofDecimal, ih (div_ten_lt h),
        Nat.ofDigitChars_cons,
        Nat.ofDigitChars_nil, hdigit]
      exact Nat.div_add_mod n 10

theorem digitChar_lt {d e : Nat} (h : d < e) (he : e < 10) : d.digitChar < e.digitChar :=
  (by decide : ∀ e < 10, ∀ d < e, d.digitChar < e.digitChar) e he d h

/-- **The smaller number comes first**, whatever follows. -/
theorem digits_lt {width m n : Nat} (h : m < n) (hn : n < Nat.pow 10 width) (xs ys : List Char) :
    digits width m ++ xs < digits width n ++ ys := by
  induction width generalizing m n xs ys with
  | zero =>
      have hzero : n < 1 := hn
      omega
  | succ width ih =>
      rw [digits, digits, List.append_assoc, List.append_assoc]
      obtain hlt | heq := Nat.lt_or_eq_of_le (Nat.div_le_div_right (c := 10) (Nat.le_of_lt h))
      · exact ih hlt (div_ten_lt hn) _ _
      · rw [heq]
        have hlast : m % 10 < n % 10 := by omega
        exact List.append_left_lt
          (List.cons_lt_cons_iff.mpr (.inl (digitChar_lt hlast (Nat.mod_lt n (by decide)))))

/-- The smaller number comes first, and what follows decides between equal ones. -/
theorem padded_lt {width m n : Nat} (hw : 0 < width) (hn : n < Nat.pow 10 width) {xs ys : List Char}
    (h : m < n ∨ m = n ∧ xs < ys) :
    padded width (decimal m) ++ xs < padded width (decimal n) ++ ys := by
  obtain hlt | ⟨rfl, hrest⟩ := h
  · rw [padded_decimal hw hn, padded_decimal hw (Nat.lt_trans hlt hn)]
    exact digits_lt hlt hn xs ys
  · exact List.append_left_lt hrest

/-! ### Reading numbers and marks -/

/-- The number that the first characters tell, as many as the width and all of them digits. -/
def readDecimal? (width : Nat) (cs : List Char) : Option (Nat × List Char) :=
  if width ≤ cs.length ∧ (cs.take width).all Char.isDigit then
    some (ofDecimal (cs.take width), cs.drop width)
  else none

def skip? (mark : Char) : List Char → Option (List Char)
  | [] => none
  | c :: rest => if c = mark then some rest else none

/-- **A number is read from its first characters**, whatever follows. -/
theorem readDecimal?_padded {width n : Nat} (hw : 0 < width) (h : n < Nat.pow 10 width)
    (rest : List Char) :
    readDecimal? width (padded width (decimal n) ++ rest) = some (n, rest) := by
  have hlength := length_padded_decimal hw h
  have hdigits : (padded width (decimal n)).all Char.isDigit = true := by
    rw [padded_decimal hw h, List.all_eq_true]
    exact fun c hc => isDigit_of_mem_digits hc
  have hnumber : ofDecimal (padded width (decimal n)) = n := by
    rw [padded_decimal hw h, ofDecimal_digits h]
  rw [readDecimal?, List.take_left' hlength, List.drop_left' hlength, hnumber, if_pos]
  exact ⟨by rw [List.length_append, hlength]; exact Nat.le_add_right _ _, hdigits⟩

theorem skip?_cons (mark : Char) (rest : List Char) : skip? mark (mark :: rest) = some rest :=
  if_pos rfl

end Text

namespace Moment

open Text

/-! ### Moments -/

/-- A moment that has a written form: a date of the calendar in the years from 1 to 9999, and a time
of day before the day is over. -/
structure IsWritten (m : Moment) : Prop where
  isDate : m.day.IsDate
  year_pos : 1 ≤ m.day.year
  year_le : m.day.year ≤ 9999
  micros_lt : m.micros < microsPerDay

def InWrittenYears (time : Int) : Prop :=
  toTime ⟨⟨1, 1, 1⟩, 0⟩ ≤ time ∧ time < toTime ⟨⟨10000, 1, 1⟩, 0⟩

instance (time : Int) : Decidable (InWrittenYears time) :=
  inferInstanceAs (Decidable (_ ∧ _))

theorem micros_ofTime (time : Int) : ((ofTime time).micros : Int) = time % microsPerDay :=
  Int.toNat_of_nonneg (Int.emod_nonneg time (by decide))

/-- **The time is found from its moment.** -/
theorem toTime_ofTime (time : Int) : (ofTime time).toTime = time := by
  have hday : (ofTime time).day.toNumber = time / microsPerDay + Day.epoch :=
    Day.toNumber_ofNumber _
  rw [toTime, hday, micros_ofTime, Int.add_sub_cancel]
  exact Int.ediv_mul_add_emod time microsPerDay

/-- The years of the days from the first one of the year 1 to the last one of the year 9999. -/
theorem year_ofNumber {n : Int} (h : 0 ≤ n) (h' : n < 3652059) :
    1 ≤ (Day.ofNumber n).year ∧ (Day.ofNumber n).year ≤ 9999 := by
  obtain ⟨hn, hk⟩ := Day.splitYears_spec n
  rw [Day.ofNumber_eq]
  refine ⟨Int.not_lt.mp fun hyear => ?_, Int.not_lt.mp fun hyear => ?_⟩
  · have hmono : Day.daysBeforeYear ((Day.splitYears n).1 + 1) ≤ Day.daysBeforeYear 1 :=
      Day.daysBeforeYear_mono hyear
    have hone : Day.daysBeforeYear 1 = 0 := rfl
    rw [Day.daysBeforeYear_succ] at hmono
    omega
  · have hmono : Day.daysBeforeYear 10000 ≤ Day.daysBeforeYear (Day.splitYears n).1 :=
      Day.daysBeforeYear_mono hyear
    have hlast : Day.daysBeforeYear 10000 = 3652059 := rfl
    omega

/-- **A time of these years has a moment that is written.** -/
theorem isWritten_ofTime {time : Int} (h : InWrittenYears time) : (ofTime time).IsWritten := by
  have hfirst : toTime ⟨⟨1, 1, 1⟩, 0⟩ = -719162 * microsPerDay := rfl
  have hlast : toTime ⟨⟨10000, 1, 1⟩, 0⟩ = (3652059 - 719162) * microsPerDay := rfl
  obtain ⟨hle, hlt⟩ := h
  rw [hfirst] at hle
  rw [hlast] at hlt
  have hyears := year_ofNumber (n := time / microsPerDay + Day.epoch)
    (by unfold microsPerDay Day.epoch at *; omega) (by unfold microsPerDay Day.epoch at *; omega)
  refine ⟨Day.isDate_ofNumber _, hyears.1, hyears.2, ?_⟩
  rw [micros_ofTime]
  exact Int.emod_lt_of_pos time (by decide)

theorem momentOf_eq {time : Int} (h : InWrittenYears time) : momentOf time = .ok (ofTime time) :=
  if_pos ⟨(isWritten_ofTime h).year_pos, (isWritten_ofTime h).year_le⟩

def IsBefore (m m' : Moment) : Prop :=
  m.day.IsBefore m'.day ∨ m.day = m'.day ∧ m.micros < m'.micros

/-- **Later times have later moments.** -/
theorem isBefore_ofTime {time time' : Int} (h : time < time') :
    (ofTime time).IsBefore (ofTime time') := by
  have hle : time / microsPerDay ≤ time' / microsPerDay :=
    Int.ediv_le_ediv (by decide) (Int.le_of_lt h)
  obtain hlt | heq := Int.lt_or_eq_of_le hle
  · exact .inl (Day.isBefore_ofNumber (Int.add_lt_add_right hlt _))
  · refine .inr ⟨congrArg (fun n => Day.ofNumber (n + Day.epoch)) heq, ?_⟩
    have hm := micros_ofTime time
    have hm' := micros_ofTime time'
    unfold microsPerDay at *
    omega

theorem minute_lt (m : Moment) : m.minute < 60 := Nat.mod_lt _ (by decide)

theorem second_lt (m : Moment) : m.second < 60 := Nat.mod_lt _ (by decide)

section

variable {m : Moment} (h : m.IsWritten)
include h

theorem IsWritten.year_lt : m.day.year.toNat < Nat.pow 10 4 :=
  Nat.lt_of_le_of_lt (Int.toNat_le.mpr h.year_le) (by decide : 9999 < Nat.pow 10 4)

theorem IsWritten.month_lt : m.day.month < Nat.pow 10 2 :=
  Nat.lt_of_le_of_lt h.isDate.month_le (by decide)

theorem IsWritten.day_lt : m.day.day < Nat.pow 10 2 :=
  Nat.lt_of_le_of_lt h.isDate.day_le_31 (by decide)

theorem IsWritten.hour_lt : m.hour < 24 := by
  have hmicros := h.micros_lt
  unfold hour
  unfold microsPerDay at hmicros
  omega

/-- Hours, minutes and seconds have two digits. -/
theorem IsWritten.clock_lt :
    m.hour < Nat.pow 10 2 ∧ m.minute < Nat.pow 10 2 ∧ m.second < Nat.pow 10 2 :=
  ⟨Nat.lt_trans h.hour_lt (by decide), Nat.lt_trans m.minute_lt (by decide),
    Nat.lt_trans m.second_lt (by decide)⟩

end

theorem fraction_lt (m : Moment) : m.fraction < Nat.pow 10 6 := Nat.mod_lt _ (by decide)

/-- The time of day is made up of its parts. -/
theorem micros_eq (m : Moment) :
    m.micros = ((m.hour * 60 + m.minute) * 60 + m.second) * 1000000 + m.fraction := by
  unfold hour minute second fraction
  omega

/-! ### Reading a moment -/

def readDate? (cs : List Char) : Option (Day × List Char) := do
  let (year, cs) ← readDecimal? 4 cs
  let cs ← skip? '-' cs
  let (month, cs) ← readDecimal? 2 cs
  let cs ← skip? '-' cs
  let (day, cs) ← readDecimal? 2 cs
  let date : Day := ⟨year, month, day⟩
  if date.IsDate then some (date, cs) else none

/-- The whole seconds of a day that hours, minutes and seconds tell. -/
def readClock? (cs : List Char) : Option (Nat × List Char) := do
  let (hour, cs) ← readDecimal? 2 cs
  let cs ← skip? ':' cs
  let (minute, cs) ← readDecimal? 2 cs
  let cs ← skip? ':' cs
  let (second, cs) ← readDecimal? 2 cs
  if hour < 24 ∧ minute < 60 ∧ second < 60 then some ((hour * 60 + minute) * 60 + second, cs)
  else none

/-- Six places after a point, or zero where there is no point. -/
def readFraction? (cs : List Char) : Option (Nat × List Char) :=
  match skip? '.' cs with
  | some cs => readDecimal? 6 cs
  | none => some (0, cs)

/-- The moment that a whole text tells in the international notation, in universal time. -/
def ofIsoText? (cs : List Char) : Option Moment := do
  let (day, cs) ← readDate? cs
  let cs ← skip? 'T' cs
  let (seconds, cs) ← readClock? cs
  let (fraction, cs) ← readFraction? cs
  if cs = "+00:00".toList then some ⟨day, seconds * 1000000 + fraction⟩ else none

theorem readDate?_dateText {m : Moment} (h : m.IsWritten) (rest : List Char) :
    readDate? (m.dateText ++ rest) = some (m.day, rest) := by
  have hyear : ((m.day.year.toNat : Nat) : Int) = m.day.year :=
    Int.toNat_of_nonneg (Int.le_trans (by decide) h.year_pos)
  simp only [readDate?, dateText, List.append_assoc, List.cons_append,
    readDecimal?_padded (by decide) h.year_lt, readDecimal?_padded (by decide) h.month_lt,
    readDecimal?_padded (by decide) h.day_lt, skip?_cons, Option.bind_eq_bind, Option.bind_some,
    hyear]
  exact if_pos h.isDate

theorem readClock?_clockText {m : Moment} (h : m.IsWritten) (rest : List Char) :
    readClock? (m.clockText ++ rest) =
      some ((m.hour * 60 + m.minute) * 60 + m.second, rest) := by
  obtain ⟨hhour, hminute, hsecond⟩ := h.clock_lt
  simp only [readClock?, clockText, List.append_assoc, List.cons_append,
    readDecimal?_padded (by decide) hhour, readDecimal?_padded (by decide) hminute,
    readDecimal?_padded (by decide) hsecond, skip?_cons, Option.bind_eq_bind, Option.bind_some]
  exact if_pos ⟨h.hour_lt, m.minute_lt, m.second_lt⟩

theorem readFraction?_fractionText (m : Moment) (rest : List Char) :
    readFraction? (m.fractionText ++ '+' :: rest) = some (m.fraction, '+' :: rest) := by
  unfold fractionText
  split
  next hzero =>
    rw [hzero]
    rfl
  next =>
    simp only [readFraction?, List.cons_append, skip?_cons]
    exact readDecimal?_padded (by decide) m.fraction_lt _

/-- **The text of a moment tells the moment.** -/
theorem ofIsoText?_isoText {m : Moment} (h : m.IsWritten) : ofIsoText? m.isoText = some m := by
  have hoffset : "+00:00".toList = '+' :: "00:00".toList := rfl
  simp only [ofIsoText?, isoText, hoffset, List.append_assoc, List.cons_append,
    readDate?_dateText h, skip?_cons, readClock?_clockText h, readFraction?_fractionText,
    Option.bind_eq_bind, Option.bind_some, if_pos, ← micros_eq]

/-- The year 1900 has no leap day. -/
example : ofIsoText? "1900-02-29T00:00:00+00:00".toList = none := by decide +kernel

/-- **A time of these years has a text.** -/
theorem isoText_momentOf {time : Int} (h : InWrittenYears time) :
    isoText <$> momentOf time = .ok (ofTime time).isoText := by
  rw [momentOf_eq h]
  rfl

/-- **The text of a time tells the time.** -/
theorem toTime_ofIsoText? {time : Int} (h : InWrittenYears time) :
    toTime <$> ofIsoText? (ofTime time).isoText = some time := by
  rw [ofIsoText?_isoText (isWritten_ofTime h), Option.map_eq_map, Option.map_some, toTime_ofTime]

/-! ### The order of texts -/

section

variable {m m' : Moment}

theorem dateText_lt (h' : m'.IsWritten) (hday : m.day.IsBefore m'.day) (hyear : 1 ≤ m.day.year)
    (xs ys : List Char) : m.dateText ++ xs < m'.dateText ++ ys := by
  simp only [dateText, List.append_assoc, List.cons_append]
  refine padded_lt (by decide) h'.year_lt ?_
  obtain hlt | ⟨heq, hrest⟩ := hday
  · exact .inl (by omega)
  refine .inr ⟨congrArg Int.toNat heq, List.cons_lt_cons_self.mpr ?_⟩
  refine padded_lt (by decide) h'.month_lt (hrest.imp_right fun ⟨heq, hlt⟩ => ⟨heq, ?_⟩)
  exact List.cons_lt_cons_self.mpr (padded_lt (by decide) h'.day_lt (.inl hlt))

/-- Without a fraction the sign of the offset follows, which comes before the point. -/
theorem fractionText_lt (h : m.fraction < m'.fraction) :
    m.fractionText ++ "+00:00".toList < m'.fractionText ++ "+00:00".toList := by
  have hpoint : m'.fractionText = '.' :: padded 6 (decimal m'.fraction) :=
    if_neg (Nat.ne_zero_of_lt h)
  rw [hpoint]
  unfold fractionText
  split
  next => exact List.cons_lt_cons_iff.mpr (.inl (by decide))
  next => exact List.cons_lt_cons_self.mpr (padded_lt (by decide) m'.fraction_lt (.inl h))

/-- The whole seconds decide, and what follows decides within one second. -/
theorem clockText_lt (h' : m'.IsWritten) {xs ys : List Char}
    (h : m.micros / 1000000 < m'.micros / 1000000 ∨
      m.micros / 1000000 = m'.micros / 1000000 ∧ xs < ys) :
    m.clockText ++ xs < m'.clockText ++ ys := by
  obtain ⟨hhour, hminute, hsecond⟩ := h'.clock_lt
  have hle : m.micros / 1000000 ≤ m'.micros / 1000000 := by
    rcases h with hlt | ⟨heq, -⟩
    · exact Nat.le_of_lt hlt
    · exact Nat.le_of_eq heq
  have hparts : m.hour < m'.hour ∨ m.hour = m'.hour ∧ (m.minute < m'.minute ∨
      m.minute = m'.minute ∧ (m.second < m'.second ∨
        m.second = m'.second ∧ ¬m.micros / 1000000 < m'.micros / 1000000)) := by
    unfold hour minute second
    omega
  simp only [clockText, List.append_assoc, List.cons_append]
  refine padded_lt (by decide) hhour (hparts.imp_right fun ⟨heq, hparts⟩ => ⟨heq, ?_⟩)
  refine List.cons_lt_cons_self.mpr ?_
  refine padded_lt (by decide) hminute (hparts.imp_right fun ⟨heq, hparts⟩ => ⟨heq, ?_⟩)
  refine List.cons_lt_cons_self.mpr ?_
  exact padded_lt (by decide) hsecond
    (hparts.imp_right fun ⟨heq, hsame⟩ => ⟨heq, (h.resolve_left hsame).2⟩)

/-- **Later moments have later texts.** -/
theorem isoText_lt (h : m.IsWritten) (h' : m'.IsWritten) (hbefore : m.IsBefore m') :
    m.isoText < m'.isoText := by
  simp only [isoText, List.append_assoc, List.cons_append]
  obtain hday | ⟨hday, hmicros⟩ := hbefore
  · exact dateText_lt h' hday h.year_pos _ _
  · have hdate : m.dateText = m'.dateText := by rw [dateText, dateText, hday]
    have hparts : m.micros / 1000000 < m'.micros / 1000000 ∨
        m.micros / 1000000 = m'.micros / 1000000 ∧ m.fraction < m'.fraction := by
      unfold fraction
      omega
    rw [hdate]
    exact List.append_left_lt (List.cons_lt_cons_self.mpr (clockText_lt h'
      (hparts.imp_right fun ⟨heq, hfraction⟩ => ⟨heq, fractionText_lt hfraction⟩)))

end

/-- **Times of these years stand in the order of their texts.** -/
theorem lt_iff_isoText_lt {time time' : Int} (h : InWrittenYears time)
    (h' : InWrittenYears time') :
    time < time' ↔ (ofTime time).isoText < (ofTime time').isoText := by
  have hw := isWritten_ofTime h
  have hw' := isWritten_ofTime h'
  refine ⟨fun hlt => isoText_lt hw hw' (isBefore_ofTime hlt), fun hlt => ?_⟩
  obtain htime | rfl | htime := Int.lt_trichotomy time time'
  · exact htime
  · exact absurd hlt (List.lt_irrefl _)
  · exact absurd (isoText_lt hw' hw (isBefore_ofTime htime)) (List.lt_asymm hlt)

end Moment

end Accrual

import Accrual.Log.Entry
import Accrual.Proofs.Timestamps

/-!
# The two clocks agree

An entry shows its time in two ways: with the date, and with a fraction of six
places where there is one, or by the time of day alone, with three places.  The
second text is made up of characters of the first one (`humanText_eq`).  Its
three places are the first of the six, so that the time of day is cut and never
rounded up: the text is read as the whole thousandths of a second that are over
since midnight (`ofHumanText?_humanText`), also before 1970.  Within a day the
texts are therefore in the order of the times (`lt_iff_humanText_lt`).
-/

namespace Accrual

namespace Text

/-- **The first digits** are those of a number that is cut. -/
theorem take_digits (width places n : Nat) :
    (digits (width + places) n).take width = digits width (n / Nat.pow 10 places) := by
  induction places generalizing n with
  | zero =>
      have hone : n / Nat.pow 10 0 = n := Nat.div_one n
      rw [hone]
      exact List.take_of_length_le (Nat.le_of_eq (length_digits width n))
  | succ places ih =>
      have hpow : Nat.pow 10 (places + 1) = 10 * Nat.pow 10 places := Nat.mul_comm _ _
      have hle : width ≤ (digits (width + places) (n / 10)).length := by
        rw [length_digits]
        omega
      rw [← Nat.add_assoc, digits, List.take_append_of_le_length hle, ih, Nat.div_div_eq_div_mul,
        hpow]

end Text

namespace Moment

open Text

/-! ### The parts of the long text -/

def isoClock (iso : List Char) : List Char := (iso.drop 11).take 8

/-- The six places of the fraction, which are zeros where it is left out. -/
def isoPlaces (iso : List Char) : List Char :=
  ((skip? '.' (iso.drop 19)).map fun places => places.take 6).getD (List.replicate 6 '0')

theorem millis_lt (m : Moment) : m.fraction / 1000 < Nat.pow 10 3 :=
  Nat.div_lt_of_lt_mul m.fraction_lt

section

variable {m : Moment} (h : m.IsWritten)
include h

theorem length_dateText : m.dateText.length = 10 := by
  simp [dateText, length_padded_decimal _ h.year_lt, length_padded_decimal _ h.month_lt,
    length_padded_decimal _ h.day_lt]

theorem length_clockText : m.clockText.length = 8 := by
  obtain ⟨hhour, hminute, hsecond⟩ := h.clock_lt
  simp [clockText, length_padded_decimal _ hhour, length_padded_decimal _ hminute,
    length_padded_decimal _ hsecond]

theorem drop_isoText :
    m.isoText.drop 11 = m.clockText ++ (m.fractionText ++ "+00:00".toList) := by
  have hdate : (m.dateText ++ ['T']).length = 11 := by
    rw [List.length_append, length_dateText h]
    rfl
  have htext : m.isoText =
      (m.dateText ++ ['T']) ++ (m.clockText ++ (m.fractionText ++ "+00:00".toList)) := by
    simp [isoText]
  rw [htext, List.drop_left' hdate]

theorem isoClock_isoText : isoClock m.isoText = m.clockText := by
  rw [isoClock, drop_isoText h, List.take_left' (length_clockText h)]

theorem isoPlaces_isoText : isoPlaces m.isoText = padded 6 (decimal m.fraction) := by
  have hdrop : m.isoText.drop 19 = m.fractionText ++ "+00:00".toList := by
    rw [show 19 = 11 + 8 from rfl, ← List.drop_drop, drop_isoText h,
      List.drop_left' (length_clockText h)]
  rw [isoPlaces, hdrop, fractionText]
  by_cases hzero : m.fraction = 0
  · rw [if_pos hzero, hzero]
    rfl
  · rw [if_neg hzero]
    exact List.take_left' (length_padded_decimal (by decide) m.fraction_lt)

/-! ### The short text -/

/-- **The short text is made up of parts of the long one**: its clock, and the first three places of
its fraction. -/
theorem humanText_eq :
    m.humanText = isoClock m.isoText ++ '.' :: (isoPlaces m.isoText).take 3 := by
  rw [isoClock_isoText h, isoPlaces_isoText h, padded_decimal (by decide) m.fraction_lt,
    take_digits 3 3, humanText, padded_decimal (by decide) m.millis_lt]

theorem length_humanText : m.humanText.length = 12 := by
  rw [humanText, List.length_append, length_clockText h, List.length_cons,
    length_padded_decimal (by decide) m.millis_lt]

/-- The whole thousandths of a second since midnight that a text tells: hours below 24, minutes and
seconds below 60, each of two digits, and three digits behind a point. -/
def ofHumanText? (cs : List Char) : Option Nat := do
  let (seconds, cs) ← readClock? cs
  let cs ← skip? '.' cs
  let (millis, cs) ← readDecimal? 3 cs
  if cs = [] then some (seconds * 1000 + millis) else none

/-- **The short text tells the time of day**, cut to thousandths of a second. -/
theorem ofHumanText?_humanText : ofHumanText? m.humanText = some (m.micros / 1000) := by
  have hmillis := readDecimal?_padded (by decide) m.millis_lt []
  rw [List.append_nil] at hmillis
  have hparts : ((m.hour * 60 + m.minute) * 60 + m.second) * 1000 + m.fraction / 1000 =
      m.micros / 1000 := by
    have hmicros := m.micros_eq
    omega
  simp only [ofHumanText?, humanText, readClock?_clockText h, skip?_cons, hmillis,
    Option.bind_eq_bind, Option.bind_some, if_pos, hparts]

end

/-! ### The order of the short texts -/

section

variable {m m' : Moment}

theorem humanText_lt (h' : m'.IsWritten) (h : m.micros / 1000 < m'.micros / 1000) :
    m.humanText < m'.humanText := by
  have hparts : m.micros / 1000000 < m'.micros / 1000000 ∨
      m.micros / 1000000 = m'.micros / 1000000 ∧ m.fraction / 1000 < m'.fraction / 1000 := by
    unfold fraction
    omega
  refine clockText_lt h' (hparts.imp_right fun ⟨heq, hmillis⟩ => ⟨heq, ?_⟩)
  have hplaces : padded 3 (decimal (m.fraction / 1000)) ++ [] <
      padded 3 (decimal (m'.fraction / 1000)) ++ [] :=
    padded_lt (by decide) m'.millis_lt (.inl hmillis)
  rw [List.append_nil, List.append_nil] at hplaces
  exact List.cons_lt_cons_self.mpr hplaces

theorem humanText_congr (h : m.micros / 1000 = m'.micros / 1000) : m.humanText = m'.humanText := by
  have hhour : m.hour = m'.hour := by unfold hour; omega
  have hminute : m.minute = m'.minute := by unfold minute; omega
  have hsecond : m.second = m'.second := by unfold second; omega
  have hmillis : m.fraction / 1000 = m'.fraction / 1000 := by unfold fraction; omega
  rw [humanText, humanText, clockText, clockText, hhour, hminute, hsecond, hmillis]

end

/-- Times with the same date are of the same day, for no two days have one date. -/
theorem ediv_eq_of_day_eq {time time' : Int} (h : (ofTime time).day = (ofTime time').day) :
    time / microsPerDay = time' / microsPerDay := by
  have hnumber : time / microsPerDay + Day.epoch = time' / microsPerDay + Day.epoch :=
    (Day.toNumber_ofNumber _).symm.trans ((congrArg Day.toNumber h).trans (Day.toNumber_ofNumber _))
  omega

/-- **Times of one day stand in the order of their short texts**, as far as thousandths of a second
tell them apart. -/
theorem lt_iff_humanText_lt {time time' : Int} (h : InWrittenYears time)
    (h' : InWrittenYears time') (hday : (ofTime time).day = (ofTime time').day) :
    time / 1000 < time' / 1000 ↔ (ofTime time).humanText < (ofTime time').humanText := by
  have hdays := ediv_eq_of_day_eq hday
  have hm := micros_ofTime time
  have hm' := micros_ofTime time'
  have hmillis : time / 1000 < time' / 1000 ↔
      (ofTime time).micros / 1000 < (ofTime time').micros / 1000 := by
    unfold microsPerDay at *
    omega
  rw [hmillis]
  refine ⟨humanText_lt (isWritten_ofTime h'), fun hlt => ?_⟩
  rcases Nat.lt_trichotomy ((ofTime time).micros / 1000) ((ofTime time').micros / 1000) with
    hless | heq | hmore
  · exact hless
  · rw [humanText_congr heq] at hlt
    exact absurd hlt (List.lt_irrefl _)
  · exact absurd (humanText_lt (isWritten_ofTime h) hmore) (List.lt_asymm hlt)

/-- The two texts of a time, which every entry of this time shows.  The short one has twelve
characters, which tell the whole thousandths of a second since midnight, and it is made up of the
clock of the long one and the first three places of its fraction. -/
structure ShowsClock (time : Int) (iso human : List Char) : Prop where
  isoText : Moment.isoText <$> momentOf time = .ok iso
  humanText : Moment.humanText <$> momentOf time = .ok human
  entry : ∀ entry : LogEntry, entry.time.micros = time →
    entry.isoTime = .ok iso ∧ entry.humanTime = .ok human
  length : human.length = 12
  read : ofHumanText? human = some (time % microsPerDay / 1000).toNat
  agree : human = isoClock iso ++ '.' :: (isoPlaces iso).take 3

theorem humanText_momentOf {time : Int} (h : InWrittenYears time) :
    Moment.humanText <$> momentOf time = .ok (ofTime time).humanText := by
  rw [momentOf_eq h]
  rfl

theorem showsClock {time : Int} (h : InWrittenYears time) :
    ShowsClock time (ofTime time).isoText (ofTime time).humanText := by
  have hw := isWritten_ofTime h
  have hiso := isoText_momentOf h
  have hhuman := humanText_momentOf h
  have hmillis : (ofTime time).micros / 1000 = (time % microsPerDay / 1000).toNat := by
    rw [← micros_ofTime]
    omega
  refine ⟨hiso, hhuman, ?_, length_humanText hw, ?_, humanText_eq hw⟩
  · rintro entry rfl
    exact ⟨hiso, hhuman⟩
  · rw [ofHumanText?_humanText hw, hmillis]

/-- **The two clocks agree.**  A time in the years from 1 to 9999, before or after 1970, has two
texts.  The short one tells hours, minutes, seconds and thousandths of a second since midnight,
where the thousandths are cut; all its characters but the point are those that stand in the long
text at these places, or zeros where the fraction is left out.  Of two times with the same date, the
later one never has the short text that comes first. -/
theorem clocks_agree {time time' : Int} (h : InWrittenYears time) (h' : InWrittenYears time') :
    ∃ iso human iso' human', ShowsClock time iso human ∧ ShowsClock time' iso' human' ∧
      ((ofTime time).day = (ofTime time').day → time ≤ time' → ¬human' < human) := by
  refine ⟨_, _, _, _, showsClock h, showsClock h', fun hday hle hlt => ?_⟩
  have hearlier := (lt_iff_humanText_lt h' h hday.symm).mpr hlt
  omega

/-- The first and the last microsecond of the last day before 1970: one without a fraction, and one
that is not rounded up to the next day. -/
theorem clocks_agree_before_1970 :
    InWrittenYears (-86400000000) ∧ InWrittenYears (-1) ∧
    (ofTime (-86400000000)).day = (ofTime (-1)).day ∧
    ShowsClock (-86400000000) "1969-12-31T00:00:00+00:00".toList "00:00:00.000".toList ∧
    ShowsClock (-1) "1969-12-31T23:59:59.999999+00:00".toList "23:59:59.999".toList ∧
    ¬"23:59:59.999".toList < "00:00:00.000".toList := by
  have hfirst : InWrittenYears (-86400000000) := by decide
  have hlast : InWrittenYears (-1) := by decide
  have hday : (ofTime (-86400000000)).day = (ofTime (-1)).day := by decide +kernel
  obtain ⟨iso, human, iso', human', hshows, hshows', horder⟩ := clocks_agree hfirst hlast
  obtain rfl := Except.ok.inj (hshows.isoText.symm.trans (isoText_momentOf hfirst))
  obtain rfl := Except.ok.inj (hshows.humanText.symm.trans (humanText_momentOf hfirst))
  obtain rfl := Except.ok.inj (hshows'.isoText.symm.trans (isoText_momentOf hlast))
  obtain rfl := Except.ok.inj (hshows'.humanText.symm.trans (humanText_momentOf hlast))
  have hiso : (ofTime (-86400000000)).isoText = "1969-12-31T00:00:00+00:00".toList := by
    decide +kernel
  have hhuman : (ofTime (-86400000000)).humanText = "00:00:00.000".toList := by decide +kernel
  have hiso' : (ofTime (-1)).isoText = "1969-12-31T23:59:59.999999+00:00".toList := by
    decide +kernel
  have hhuman' : (ofTime (-1)).humanText = "23:59:59.999".toList := by decide +kernel
  rw [hiso, hhuman] at hshows
  rw [hiso', hhuman'] at hshows'
  rw [hhuman, hhuman'] at horder
  exact ⟨hfirst, hlast, hday, hshows, hshows', horder hday (by decide)⟩

end Moment

end Accrual

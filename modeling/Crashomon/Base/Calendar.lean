import Mathlib.Algebra.Order.Ring.Nat

/-! The Gregorian calendar, carried on in both directions: the dates of the days before and
after the first of January 1970. A year is taken to begin in March, so that a leap day ends one. -/

namespace Crashomon.Calendar

structure Date where
  year : Int
  month : Nat
  day : Nat
  monthBounds : 1 ≤ month ∧ month ≤ 12
  dayBounds : 1 ≤ day ∧ day ≤ 31
  deriving DecidableEq, Repr

/-- Days from the first of March of the year 0 to 1970. -/
def epoch : Int := 719468

/-- Four centuries have 146097 days. -/
def era (days : Int) : Int := (days + epoch) / 146097
def dayOfEra (days : Int) : Nat := ((days + epoch) % 146097).toNat

section Era
variable {doe doy : Nat}

/-- The last century of four is a day longer, as is the last year. -/
def century (doe : Nat) : Nat := min (doe / 36524) 3
def dayOfCentury (doe : Nat) : Nat := doe - 36524 * century doe
def fourYears (doe : Nat) : Nat := dayOfCentury doe / 1461
def dayOfFour (doe : Nat) : Nat := dayOfCentury doe % 1461
def yearOfFour (doe : Nat) : Nat := min (dayOfFour doe / 365) 3
def dayOfYear (doe : Nat) : Nat := dayOfFour doe - 365 * yearOfFour doe
def yearOfEra (doe : Nat) : Nat := 100 * century doe + 4 * fourYears doe + yearOfFour doe

/-- Months from March on. -/
def marchMonth (doy : Nat) : Nat := (5 * doy + 2) / 153

def dayOfMonth (doy : Nat) : Nat := doy - (153 * marchMonth doy + 2) / 5

theorem dayOfEra_lt (days : Int) : dayOfEra days < 146097 := by
  unfold dayOfEra
  omega

theorem dayOfCentury_bounds (inside : doe < 146097) : century doe ≤ 3 ∧ dayOfCentury doe ≤ 36524 ∧ 36524 * century doe ≤ doe := by
  unfold dayOfCentury century
  omega

theorem fourYears_bounds (inside : doe < 146097) :
    fourYears doe ≤ 24 ∧ dayOfFour doe ≤ 1460 ∧ 1461 * fourYears doe + dayOfFour doe = dayOfCentury doe := by
  have century := dayOfCentury_bounds inside
  unfold fourYears dayOfFour
  omega

theorem dayOfYear_bounds (inside : doe < 146097) :
    yearOfFour doe ≤ 3 ∧ dayOfYear doe ≤ 365 ∧ 365 * yearOfFour doe + dayOfYear doe = dayOfFour doe := by
  have four := fourYears_bounds inside
  unfold dayOfYear yearOfFour
  omega

theorem marchMonth_bounds (inside : doy ≤ 365) : marchMonth doy ≤ 11 ∧ dayOfMonth doy ≤ 30 ∧ (153 * marchMonth doy + 2) / 5 ≤ doy := by
  unfold dayOfMonth marchMonth
  omega

end Era

/-- Days since the first of March, and the year that began there. -/
def marchDay (days : Int) : Nat := dayOfYear (dayOfEra days)
def marchYear (days : Int) : Int := 400 * era days + yearOfEra (dayOfEra days)

theorem marchDay_month (days : Int) :
    marchMonth (marchDay days) ≤ 11 ∧ dayOfMonth (marchDay days) ≤ 30 ∧ (153 * marchMonth (marchDay days) + 2) / 5 ≤ marchDay days :=
  marchMonth_bounds (dayOfYear_bounds (dayOfEra_lt days)).2.1

/-- The date of the day so many days after the first of January 1970. -/
def dateOf (days : Int) : Date :=
  have bounds := marchDay_month days
  if spring : marchMonth (marchDay days) < 10 then
    ⟨marchYear days, marchMonth (marchDay days) + 3, dayOfMonth (marchDay days) + 1, by omega, by omega⟩
  else
    ⟨marchYear days + 1, marchMonth (marchDay days) - 9, dayOfMonth (marchDay days) + 1, by omega, by omega⟩

/-- Days from the first of January 1970 to a date. -/
def Date.days (date : Date) : Int :=
  let march := if date.month ≤ 2 then date.year - 1 else date.year
  let month := if date.month ≤ 2 then date.month + 9 else date.month - 3
  365 * march + march / 4 - march / 100 + march / 400 + ((153 * month + 2) / 5 + (date.day - 1) : Nat) - epoch

theorem days_before_year (era : Int) {century four year : Nat} (centuries : century ≤ 3) (fours : four ≤ 24) (years : year ≤ 3) {march : Int}
    (same : march = 400 * era + (100 * century + 4 * four + year : Nat)) :
    365 * march + march / 4 - march / 100 + march / 400 = 146097 * era + 36524 * century + 1461 * four + 365 * year := by
  omega

theorem marchDay_days (days : Int) :
    365 * marchYear days + marchYear days / 4 - marchYear days / 100 + marchYear days / 400 + marchDay days = days + epoch := by
  have doe := dayOfEra_lt days
  have centuries := dayOfCentury_bounds doe
  have fours := fourYears_bounds doe
  have years := dayOfYear_bounds doe
  have split : days + epoch = 146097 * era days + dayOfEra days := by
    unfold era dayOfEra
    omega
  have rest : dayOfEra days = 36524 * century (dayOfEra days) + dayOfCentury (dayOfEra days) := by
    unfold dayOfCentury
    omega
  rw [@days_before_year (era days) _ _ _ centuries.1 fours.1 years.1 (marchYear days) rfl, split, marchDay]
  omega

/-- A date counts back to its day. -/
theorem days_dateOf (days : Int) : (dateOf days).days = days := by
  have bounds := marchDay_month days
  have counted := marchDay_days days
  have day : (153 * marchMonth (marchDay days) + 2) / 5 + dayOfMonth (marchDay days) = marchDay days := by
    unfold dayOfMonth
    omega
  unfold dateOf
  split
  next spring =>
    have month : ¬ marchMonth (marchDay days) + 3 ≤ 2 := by omega
    simp only [Date.days, if_neg month, Nat.add_sub_cancel, day]
    omega
  next winter =>
    have month : marchMonth (marchDay days) - 9 ≤ 2 := by omega
    have back : marchMonth (marchDay days) - 9 + 9 = marchMonth (marchDay days) := by omega
    simp only [Date.days, if_pos month, back, Nat.add_sub_cancel, add_sub_cancel_right, day]
    omega

end Crashomon.Calendar

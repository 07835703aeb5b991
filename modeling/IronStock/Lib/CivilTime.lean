import Mathlib.Data.Int.Order.Basic
import Mathlib.Tactic.NormNum

/-!
# Dates and times of the Gregorian calendar

A date and a time of day with their instant, in microseconds since 1970. Every
instant has a date and a time of day.
-/
namespace CivilTime

/-! ## The calendar -/

def isLeap (year : Int) : Bool := year % 4 = 0 ∧ (year % 100 ≠ 0 ∨ year % 400 = 0)

def daysIn (year : Int) (month : Nat) : Nat :=
  if month = 2 then if isLeap year then 29 else 28
  else if month = 4 ∨ month = 6 ∨ month = 9 ∨ month = 11 then 30
  else 31

/-- The days of the year before a month. -/
def daysBefore (year : Int) : Nat → Nat
  | 0 | 1 => 0
  | m + 2 => daysBefore year (m + 1) + daysIn year (m + 1)

/-- The days from the first of January of year 1. -/
def daysBeforeYear (year : Int) : Int :=
  365 * (year - 1) + (year - 1) / 4 - (year - 1) / 100 + (year - 1) / 400

/-- The days since the first of January of 1970. -/
def days (year : Int) (month day : Nat) : Int :=
  daysBeforeYear year + daysBefore year month + day - 719163

/-- A day of the calendar. -/
def IsDate (year : Int) (month day : Nat) : Prop :=
  1 ≤ month ∧ month ≤ 12 ∧ 1 ≤ day ∧ day ≤ daysIn year month

theorem daysBeforeYear_succ (year : Int) :
    daysBeforeYear (year + 1) = daysBeforeYear year + 365 + (isLeap year).toNat := by
  have hfour : year / 4 = (year - 1) / 4 + if year % 4 = 0 then 1 else 0 := by
    split <;> omega
  have hcentury : year / 100 = (year - 1) / 100 + if year % 100 = 0 then 1 else 0 := by
    split <;> omega
  have hfourth : year / 400 = (year - 1) / 400 + if year % 400 = 0 then 1 else 0 := by
    split <;> omega
  have hleap : ((isLeap year).toNat : Int) = (if year % 4 = 0 then 1 else 0) -
      (if year % 100 = 0 then 1 else 0) + if year % 400 = 0 then 1 else 0 := by
    rw [isLeap]
    split <;> split <;> split <;> simp [*] <;> omega
  rw [daysBeforeYear, daysBeforeYear, hleap, Int.add_sub_cancel, hfour, hcentury, hfourth]
  omega

theorem daysBefore_twelve (year : Int) :
    daysBefore year 12 + daysIn year 12 = 365 + (isLeap year).toNat := by
  cases hleap : isLeap year <;> simp [daysBefore, daysIn, hleap]

theorem daysIn_pos (year : Int) (month : Nat) : 1 ≤ daysIn year month := by
  unfold daysIn
  split <;> split <;> omega

theorem daysIn_le (year : Int) (month : Nat) : daysIn year month ≤ 31 := by
  unfold daysIn
  split <;> split <;> omega

theorem days_succ_month {year : Int} {month : Nat} (h : 1 ≤ month) :
    days year (month + 1) 1 = days year month (daysIn year month) + 1 := by
  obtain ⟨m, rfl⟩ := Nat.exists_eq_add_of_le' h
  simp only [days, daysBefore, Nat.cast_add, Nat.cast_one]
  omega

theorem days_succ_year (year : Int) :
    days (year + 1) 1 1 = days year 12 (daysIn year 12) + 1 := by
  have htwelve := daysBefore_twelve year
  simp only [days, daysBeforeYear_succ]
  have hone : daysBefore (year + 1) 1 = 0 := rfl
  rw [hone]
  omega

theorem days_succ (year : Int) (month day : Nat) :
    days year month (day + 1) = days year month day + 1 := by
  simp only [days, Nat.cast_add, Nat.cast_one]
  omega

/-- Every number of days is that of a date; tomorrow and yesterday have one each. -/
theorem exists_date (n : Int) :
    ∃ year month day, IsDate year month day ∧ days year month day = n := by
  induction n using Int.induction_on with
  | zero => exact ⟨1970, 1, 1, ⟨by decide, by decide, by decide, by decide⟩, by decide⟩
  | succ n ih =>
    obtain ⟨year, month, day, ⟨hmonth, htwelve, hday, hlast⟩, hn⟩ := ih
    rcases Nat.lt_or_ge day (daysIn year month) with hlt | hge
    · exact ⟨year, month, day + 1, ⟨hmonth, htwelve, by omega, hlt⟩, by rw [days_succ, hn]⟩
    · obtain rfl : day = daysIn year month := Nat.le_antisymm hlast hge
      rcases Nat.lt_or_ge month 12 with hlt | hge
      · refine ⟨year, month + 1, 1, ⟨by omega, hlt, Nat.le_refl 1, daysIn_pos _ _⟩, ?_⟩
        rw [days_succ_month hmonth, hn]
      · obtain rfl : month = 12 := Nat.le_antisymm htwelve hge
        refine ⟨year + 1, 1, 1, ⟨Nat.le_refl 1, by omega, Nat.le_refl 1, daysIn_pos _ _⟩, ?_⟩
        rw [days_succ_year, hn]
  | pred n ih =>
    obtain ⟨year, month, day, ⟨hmonth, htwelve, hday, hlast⟩, hn⟩ := ih
    rcases Nat.lt_or_ge 1 day with hlt | hge
    · refine ⟨year, month, day - 1, ⟨hmonth, htwelve, by omega, by omega⟩, ?_⟩
      have hstep := days_succ year month (day - 1)
      rw [Nat.sub_add_cancel hday, hn] at hstep
      omega
    · obtain rfl : day = 1 := Nat.le_antisymm hge hday
      rcases Nat.lt_or_ge 1 month with hlt | hge
      · refine ⟨year, month - 1, daysIn year (month - 1),
          ⟨by omega, by omega, daysIn_pos _ _, Nat.le_refl _⟩, ?_⟩
        have hstep : days year (month - 1 + 1) 1 =
            days year (month - 1) (daysIn year (month - 1)) + 1 := days_succ_month (by omega)
        rw [Nat.sub_add_cancel hmonth, hn] at hstep
        omega
      · obtain rfl : month = 1 := Nat.le_antisymm hge hmonth
        refine ⟨year - 1, 12, daysIn (year - 1) 12,
          ⟨by omega, Nat.le_refl 12, daysIn_pos _ _, Nat.le_refl _⟩, ?_⟩
        have hstep := days_succ_year (year - 1)
        rw [Int.sub_add_cancel, hn] at hstep
        omega

/-! ## Dates with a time of day -/

structure DateTime where
  year : Int
  month : Nat
  day : Nat
  hour : Nat
  minute : Nat
  second : Nat
  micro : Nat
  isDate : IsDate year month day
  hour_lt : hour < 24
  minute_lt : minute < 60
  second_lt : second < 60
  micro_lt : micro < 1000000

/-- The seconds since the start of 1970. -/
def seconds (days : Int) (hour minute second : Nat) : Int :=
  ((days * 24 + hour) * 60 + minute) * 60 + second

namespace DateTime

def seconds (c : DateTime) : Int :=
  CivilTime.seconds (days c.year c.month c.day) c.hour c.minute c.second

/-- The microseconds since the start of 1970. -/
def micros (c : DateTime) : Int := c.seconds * 1000000 + c.micro

/-- Every instant has a date and a time of day. -/
theorem exists_micros (t : Int) : ∃ c : DateTime, c.micros = t := by
  obtain ⟨year, month, day, hdate, hdays⟩ := exists_date (t / 86400000000)
  refine ⟨⟨year, month, day, (t / 3600000000 % 24).toNat, (t / 60000000 % 60).toNat,
    (t / 1000000 % 60).toNat, (t % 1000000).toNat, hdate, ?_, ?_, ?_, ?_⟩, ?_⟩
  · omega
  · omega
  · omega
  · omega
  · have hminutes : t / 60000000 = t / 1000000 / 60 := by omega
    have hhours : t / 3600000000 = t / 60000000 / 60 := by omega
    have hdaily : t / 86400000000 = t / 3600000000 / 24 := by omega
    simp only [micros, seconds, CivilTime.seconds, hdays]
    -- each unit is carved out of the next smaller one
    have hhour : t / 86400000000 * 24 + (t / 3600000000 % 24).toNat = t / 3600000000 := by omega
    have hminute : t / 3600000000 * 60 + (t / 60000000 % 60).toNat = t / 60000000 := by omega
    have hsecond : t / 60000000 * 60 + (t / 1000000 % 60).toNat = t / 1000000 := by omega
    rw [hhour, hminute, hsecond]
    omega

end DateTime

end CivilTime

import IronStock.Lib.CivilTime
import IronStock.Lib.Decimals

/-!
# Timestamps with time zone as text

What PostgreSQL prints of a `timestamptz` under `DateStyle` ISO: the date and time
of day in the zone of the session, the fraction without zeros at its end, and the
offset of the zone by its hours, with minutes and seconds only where there are any.
-/
namespace TimestampText

open CivilTime Decimals

/-- An instant as a session shows it, with the offset of its zone in seconds. -/
structure Zoned where
  wall : DateTime
  offset : Int
  offset_lt : offset.natAbs < 16 * 3600

/-- The microseconds since the start of 1970. -/
def Zoned.instant (z : Zoned) : Int := z.wall.micros - z.offset * 1000000

/-! ## The parts of the text -/

/-- The year as it is counted before and after the start of the era. -/
def yearOfEra (year : Int) : Nat := if 0 < year then year.toNat else (1 - year).toNat

def fractionText (micro : Nat) : List Char := if micro = 0 then [] else '.' :: trimmed 6 micro

def offsetText (offset : Int) : List Char :=
  (if offset < 0 then '-' else '+') ::
    (zeropad 2 (offset.natAbs / 3600) ++
      if offset.natAbs % 60 ≠ 0 then
        ':' :: (zeropad 2 (offset.natAbs / 60 % 60) ++ ':' :: zeropad 2 (offset.natAbs % 60))
      else if offset.natAbs / 60 % 60 ≠ 0 then ':' :: zeropad 2 (offset.natAbs / 60 % 60)
      else [])

def eraText (year : Int) : List Char := if 0 < year then [] else [' ', 'B', 'C']

def Zoned.text (z : Zoned) : List Char :=
  zeropad 4 (yearOfEra z.wall.year) ++ '-' ::
    (zeropad 2 z.wall.month ++ '-' :: (zeropad 2 z.wall.day ++ ' ' ::
      (zeropad 2 z.wall.hour ++ ':' :: (zeropad 2 z.wall.minute ++ ':' ::
        (zeropad 2 z.wall.second ++
          (fractionText z.wall.micro ++ (offsetText z.offset ++ eraText z.wall.year)))))))

/-! ## Sessions -/

/-- The time zone of a session: how it shows each instant. -/
structure SessionZone where
  shown : Int → Zoned
  instant_shown : ∀ t, (shown t).instant = t

/-- A value of the type `timestamptz`. -/
inductive Timestamptz
  | finite (micros : Int)
  | infinity
  | negInfinity
deriving DecidableEq

namespace Timestamptz

def text (zone : SessionZone) : Timestamptz → List Char
  | finite t => (zone.shown t).text
  | infinity => "infinity".toList
  | negInfinity => "-infinity".toList

@[simp] theorem text_finite (zone : SessionZone) (t : Int) :
    (finite t).text zone = (zone.shown t).text := rfl

@[simp] theorem text_infinity (zone : SessionZone) : infinity.text zone = "infinity".toList := rfl

@[simp] theorem text_negInfinity (zone : SessionZone) :
    negInfinity.text zone = "-infinity".toList := rfl

/-- The value lies before an instant in nanoseconds. -/
def Before : Timestamptz → Int → Prop
  | finite t, now => t * 1000 < now
  | infinity, _ => False
  | negInfinity, _ => True

instance (t : Timestamptz) (now : Int) : Decidable (t.Before now) := by
  cases t
  · exact inferInstanceAs (Decidable (_ < _))
  · exact inferInstanceAs (Decidable False)
  · exact inferInstanceAs (Decidable True)

end Timestamptz

/-- An offset of its own for each instant makes a time zone. -/
theorem exists_sessionZone (offset : Int → Int) (h : ∀ t, (offset t).natAbs < 16 * 3600) :
    ∃ zone : SessionZone, ∀ t, (zone.shown t).offset = offset t := by
  choose wall hwall using fun t => DateTime.exists_micros (t + offset t * 1000000)
  refine ⟨⟨fun t => ⟨wall t, offset t, h t⟩, fun t => ?_⟩, fun t => rfl⟩
  simp only [Zoned.instant, hwall]
  omega

/-- Whatever a date, a time of day and an offset are together, some session shows it. -/
theorem exists_shown (z : Zoned) : ∃ zone : SessionZone, zone.shown z.instant = z := by
  obtain ⟨zone, -⟩ := exists_sessionZone (fun _ => 0) (fun _ => by decide)
  refine ⟨⟨fun t => if t = z.instant then z else zone.shown t, fun t => ?_⟩, if_pos rfl⟩
  split
  case isTrue h => exact h.symm
  case isFalse => exact zone.instant_shown t

/-! ## What the text starts and ends with -/

theorem yearOfEra_of_pos {year : Int} (h : 0 < year) : yearOfEra year = year.toNat := if_pos h

theorem offset_hours_lt (z : Zoned) : z.offset.natAbs / 3600 < 16 := by
  have h := z.offset_lt
  omega

/-- The offset starts with a sign. -/
theorem offsetText_eq_cons (offset : Int) :
    ∃ sign rest, (sign = '+' ∨ sign = '-') ∧ offsetText offset = sign :: rest := by
  unfold offsetText
  split
  · exact ⟨_, _, Or.inr rfl, rfl⟩
  · exact ⟨_, _, Or.inl rfl, rfl⟩

end TimestampText

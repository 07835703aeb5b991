import Mathlib.Order.MinMax
import Mathlib.Algebra.Order.Ring.Int

/-!
# Instants with a last second

An instant is a number of seconds that fits 64 bits, with nanoseconds. A sum that
leaves the range stays in its first or last second, a difference that no duration
can hold becomes the shortest or the longest one.
-/
namespace Instants

def minSec : Int := -2 ^ 63
def maxSec : Int := 2 ^ 63 - 1
def second : Int := 1000000000
def hour : Int := 3600 * second

structure Instant where
  sec : Int
  nsec : Int
  sec_range : minSec ≤ sec ∧ sec ≤ maxSec
  nsec_range : 0 ≤ nsec ∧ nsec < second

/-- A number that leaves the range of 64 bits becomes the nearest one in it. -/
def clamp (n : Int) : Int := max minSec (min n maxSec)

theorem clamp_range (n : Int) : minSec ≤ clamp n ∧ clamp n ≤ maxSec := by
  simp only [clamp, minSec, maxSec]
  omega

theorem clamp_of_range {n : Int} (h : minSec ≤ n ∧ n ≤ maxSec) : clamp n = n := by
  simp only [clamp, minSec, maxSec] at *
  omega

namespace Instant

variable (t u : Instant)

/-- The distance from the origin. -/
def nanos : Int := t.sec * second + t.nsec

/-- `Time.Before`. -/
def before : Bool := t.sec < u.sec ∨ (t.sec = u.sec ∧ t.nsec < u.nsec)

/-- `Time.Add`. -/
def add (d : Int) : Instant where
  sec := clamp (t.sec + (t.nsec + d) / second)
  nsec := (t.nsec + d) % second
  sec_range := clamp_range _
  nsec_range := ⟨Int.emod_nonneg _ (by decide), Int.emod_lt_of_pos _ (by decide)⟩

/-- `Time.Sub`. -/
def sub : Int := clamp (t.nanos - u.nanos)

/-- An instant of a whole number of microseconds. -/
def ofMicros (n : Int) (h : minSec ≤ n / 1000000 ∧ n / 1000000 ≤ maxSec) : Instant where
  sec := n / 1000000
  nsec := n % 1000000 * 1000
  sec_range := h
  nsec_range := by
    simp only [second]
    omega

variable {t u}

theorem before_iff : t.before u = true ↔ t.nanos < u.nanos := by
  have ht := t.nsec_range
  have hu := u.nsec_range
  simp only [before, nanos, second, decide_eq_true_eq] at *
  omega

theorem nanos_add {d : Int} (h : minSec ≤ t.sec + (t.nsec + d) / second)
    (h' : t.sec + (t.nsec + d) / second ≤ maxSec) : (t.add d).nanos = t.nanos + d := by
  have hclamp := clamp_of_range ⟨h, h'⟩
  simp only [nanos, add, hclamp]
  simp only [second]
  omega

/-- An instant well before the last second is told from a sum as from the sum of
the integers, be the sum in the range or not. -/
theorem before_add {d : Int} (hd : 0 ≤ d) (hlast : t.sec < maxSec) :
    t.before (u.add d) = true ↔ t.nanos < u.nanos + d := by
  have hu := u.nsec_range
  have hsec := u.sec_range
  have hdiv : 0 ≤ (u.nsec + d) / second := Int.ediv_nonneg (by omega) (by decide)
  by_cases hfit : u.sec + (u.nsec + d) / second ≤ maxSec
  · rw [before_iff, nanos_add (by omega) hfit]
  · have hclamp : (u.add d).sec = maxSec := by
      simp only [add, clamp]
      simp only [minSec, maxSec] at *
      omega
    constructor
    · intro _
      have ht := t.nsec_range
      simp only [nanos, second] at *
      omega
    · intro _
      simp [before, hclamp, hlast]

/-- A bound that a duration can hold is exceeded by the difference if and only if
it is by the difference of the integers. -/
theorem lt_sub_iff {d : Int} (h : minSec ≤ d) (h' : d < maxSec) :
    d < t.sub u ↔ d < t.nanos - u.nanos := by
  simp only [sub, clamp, minSec, maxSec] at *
  omega

end Instant

end Instants

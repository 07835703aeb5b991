import IronStock.Lib.SlidingWindow

/-!
# Counters that lock

A counter of failures with a limit. The failure that reaches the limit clears the
counter and locks it for a fixed time, and a locked counter lets no failure in. No
window up to that time long then sees more failures than the limit.
-/
namespace LockingCounter

open SlidingWindow

structure Counter where
  failures : Nat
  lockedUntil : Option Int

namespace Counter

def isLocked (c : Counter) (now : Int) : Bool := c.lockedUntil.any (now < ·)

def fail (limit : Nat) (pause now : Int) (c : Counter) : Counter :=
  if limit ≤ c.failures + 1 then ⟨0, some (now + pause)⟩
  else ⟨c.failures + 1, c.lockedUntil⟩

end Counter

/-- A window is over before the lock is, or the counter still shows all the
failures in it. -/
def Shows (limit : Nat) (pause : Int) (c : Counter) (log : List Int) : Prop :=
  ∀ start len, len ≤ pause →
    ((within len start log).length ≤ c.failures ∧ (within len start log).length < limit) ∨
      ((within len start log).length ≤ limit ∧ ∃ t, c.lockedUntil = some t ∧ start + len ≤ t)

variable {limit : Nat} {pause now : Int} {c : Counter} {log : List Int}

theorem shows_nil (hlimit : 0 < limit) : Shows limit pause c [] :=
  fun _ _ _ => .inl ⟨Nat.zero_le _, hlimit⟩

theorem Shows.within_le (h : Shows limit pause c log) {start len : Int} (hlen : len ≤ pause) :
    (within len start log).length ≤ limit := by
  rcases h start len hlen with ⟨-, hlt⟩ | ⟨hle, -⟩
  · exact Nat.le_of_lt hlt
  · exact hle

/-- A window that starts after the newest failure is empty. -/
theorem within_of_before {start len : Int} (hpast : ∀ t ∈ log, t ≤ now) (hstart : now < start) :
    within len start log = [] := by
  apply List.filter_eq_nil_iff.mpr
  intro t ht
  have hle := hpast t ht
  simp only [decide_eq_true_eq]
  omega

/-- A failure that an unlocked counter lets in. -/
theorem Shows.fail (h : Shows limit pause c log) (hlimit : 0 < limit)
    (hpast : ∀ t ∈ log, t ≤ now) (hopen : c.isLocked now = false) :
    Shows limit pause (c.fail limit pause now) (now :: log) := by
  intro start len hlen
  have hover : ∀ t, c.lockedUntil = some t → t ≤ now := by
    intro t ht
    simpa [Counter.isLocked, ht] using hopen
  by_cases hin : start ≤ now ∧ now < start + len
  · have hcons : within len start (now :: log) = now :: within len start log :=
      List.filter_cons_of_pos (by simpa using hin)
    rw [hcons, List.length_cons, Counter.fail]
    rcases h start len hlen with ⟨hcount, hlt⟩ | ⟨-, t, ht, hend⟩
    · split
      · exact .inr ⟨hlt, _, rfl, by omega⟩
      · exact .inl ⟨Nat.succ_le_succ hcount, by omega⟩
    · -- the window had closed before the counter was let go
      have hle := hover t ht
      omega
  · have hcons : within len start (now :: log) = within len start log :=
      List.filter_cons_of_neg (by simpa using hin)
    rw [hcons, Counter.fail]
    by_cases hstart : now < start
    · rw [within_of_before hpast hstart]
      exact .inl ⟨Nat.zero_le _, hlimit⟩
    · rcases h start len hlen with ⟨hcount, hlt⟩ | ⟨hle, t, ht, hend⟩
      · split
        · exact .inr ⟨Nat.le_of_lt hlt, _, rfl, by omega⟩
        · exact .inl ⟨Nat.le_succ_of_le hcount, hlt⟩
      · split
        · exact .inr ⟨hle, _, rfl, by omega⟩
        · exact .inr ⟨hle, t, ht, hend⟩

end LockingCounter

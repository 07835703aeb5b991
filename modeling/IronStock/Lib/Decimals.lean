import Mathlib.Data.Nat.Log
import Mathlib.Tactic.IntervalCases

/-!
# Decimal digits of a fixed width

A number is written with leading zeros up to a width, and a fraction without its
zeros at the end; reading the digits gives the number again.
-/
namespace Decimals

def digit (d : Nat) : Char := Char.ofNat (48 + d)

def value (c : Char) : Nat := c.toNat - 48

/-- The last digits of a number, as many as the width. -/
def digits : (width : Nat) → Nat → List Char
  | 0, _ => []
  | w + 1, n => digits w (n / 10) ++ [digit (n % 10)]

def number (cs : List Char) : Nat := cs.foldl (fun n c => 10 * n + value c) 0

theorem isDigit_digit {d : Nat} (h : d < 10) : (digit d).isDigit = true := by
  interval_cases d <;> rfl

theorem value_digit {d : Nat} (h : d < 10) : value (digit d) = d := by
  interval_cases d <;> rfl

theorem digit_eq_zero {d : Nat} (h : d < 10) : digit d = '0' ↔ d = 0 := by
  interval_cases d <;> decide

@[simp] theorem length_digits (w n : Nat) : (digits w n).length = w := by
  induction w generalizing n with
  | zero => rfl
  | succ w ih => simp only [digits, List.length_append, ih, List.length_singleton]

theorem digits_two (n : Nat) : digits 2 n = [digit (n / 10 % 10), digit (n % 10)] := rfl

theorem isDigit_of_mem_digits {w n : Nat} {c : Char} (h : c ∈ digits w n) : c.isDigit = true := by
  induction w generalizing n with
  | zero => exact absurd h List.not_mem_nil
  | succ w ih =>
    rcases List.mem_append.mp h with h | h
    · exact ih h
    · rw [List.mem_singleton.mp h]
      exact isDigit_digit (Nat.mod_lt _ (by omega))

theorem number_concat (cs : List Char) (c : Char) :
    number (cs ++ [c]) = 10 * number cs + value c := by
  simp only [number, List.foldl_append, List.foldl_cons, List.foldl_nil]

theorem number_digits {w n : Nat} (h : n < 10 ^ w) : number (digits w n) = n := by
  induction w generalizing n with
  | zero =>
    rw [pow_zero, Nat.lt_one_iff] at h
    rw [h]
    rfl
  | succ w ih =>
    have hdiv : n / 10 < 10 ^ w := by
      rw [pow_succ] at h
      omega
    rw [digits, number_concat, ih hdiv, value_digit (Nat.mod_lt _ (by omega))]
    exact Nat.div_add_mod n 10

/-! ## Leading zeros -/

/-- All digits of a number, and zeros before them up to a width. -/
def zeropad (minwidth n : Nat) : List Char := digits (max minwidth (Nat.log 10 n + 1)) n

theorem zeropad_eq_digits {w n : Nat} (hw : 0 < w) (h : n < 10 ^ w) :
    zeropad w n = digits w n := by
  have hlog : Nat.log 10 n < w := Nat.log_lt_of_lt_pow' (Nat.pos_iff_ne_zero.mp hw) h
  rw [zeropad, Nat.max_eq_left hlog]

/-- A number that outgrows the width is written with more digits. -/
theorem lt_length_zeropad {w n : Nat} (h : 10 ^ w ≤ n) : w < (zeropad w n).length := by
  have hn : n ≠ 0 := by
    have hpos := Nat.pow_pos (n := w) (show 0 < 10 by omega)
    omega
  have hlog : w ≤ Nat.log 10 n := Nat.le_log_of_pow_le (by omega) h
  rw [zeropad, length_digits]
  omega

theorem isDigit_of_mem_zeropad {w n : Nat} {c : Char} (h : c ∈ zeropad w n) :
    c.isDigit = true :=
  isDigit_of_mem_digits h

/-! ## Fractions -/

/-- The digits of a fraction up to its last one that is not zero. -/
def trimmed : (width : Nat) → Nat → List Char
  | 0, _ => []
  | w + 1, n => if n % 10 = 0 then trimmed w (n / 10) else digits (w + 1) n

attribute [local simp] trimmed

theorem length_trimmed_le (w n : Nat) : (trimmed w n).length ≤ w := by
  induction w generalizing n with
  | zero => exact Nat.le_refl 0
  | succ w ih =>
    rw [trimmed]
    split
    · have hle := ih (n / 10)
      omega
    · rw [length_digits]

theorem isDigit_of_mem_trimmed {w n : Nat} {c : Char} (h : c ∈ trimmed w n) :
    c.isDigit = true := by
  induction w generalizing n with
  | zero => exact absurd h List.not_mem_nil
  | succ w ih =>
    rw [trimmed] at h
    split at h
    · exact ih h
    · exact isDigit_of_mem_digits h

theorem trimmed_ne_nil {w n : Nat} (h : n < 10 ^ w) (hn : n ≠ 0) : trimmed w n ≠ [] := by
  induction w generalizing n with
  | zero =>
    rw [pow_zero] at h
    omega
  | succ w ih =>
    rw [pow_succ] at h
    rw [trimmed]
    split
    case isTrue hzero => exact ih (by omega) (by omega)
    case isFalse => simp only [digits, ne_eq, List.append_eq_nil_iff, List.cons_ne_nil,
      and_false, not_false_eq_true]

/-- The zeros that were left out come back by the length. -/
theorem number_trimmed {w n : Nat} (h : n < 10 ^ w) :
    number (trimmed w n) * 10 ^ (w - (trimmed w n).length) = n := by
  induction w generalizing n with
  | zero =>
    rw [pow_zero, Nat.lt_one_iff] at h
    rw [h]
    rfl
  | succ w ih =>
    rw [trimmed]
    split
    case isTrue hzero =>
      have hdiv : n / 10 < 10 ^ w := by
        rw [pow_succ] at h
        omega
      have hle := length_trimmed_le w (n / 10)
      have hlast : n / 10 * 10 = n := by omega
      calc number (trimmed w (n / 10)) * 10 ^ (w + 1 - (trimmed w (n / 10)).length)
          = number (trimmed w (n / 10)) * 10 ^ (w - (trimmed w (n / 10)).length) * 10 := by
            rw [Nat.succ_sub hle, pow_succ, mul_assoc]
        _ = n := by rw [ih hdiv, hlast]
    case isFalse =>
      rw [length_digits, Nat.sub_self, pow_zero, mul_one, number_digits h]

end Decimals

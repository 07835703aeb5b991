import Mathlib.Data.List.Basic

/-!
# A retried append

A client appends a row to a log over a connection that may lose the statement
or only its reply. It sees an error in both cases, and sends the statement once
more. What the log gains depends on the two deliveries alone: a lost reply is
told from a lost statement by nobody.
-/
namespace RetriedAppend

/-- What becomes of a statement the log would accept. -/
inductive Delivery
  | answered
  | lost
  | failed
deriving DecidableEq

/-- Whether the statement takes effect. -/
def Delivery.effect : Delivery → Nat
  | .answered | .lost => 1
  | .failed => 0

/-- The deliveries of the statement and of its retry. -/
structure Link where
  first : Delivery
  second : Delivery
deriving DecidableEq

/-- A connection that loses nothing. -/
def Link.sound : Link := ⟨.answered, .answered⟩

namespace Link
variable (l : Link)

/-- How often the row ends up in the log. -/
def copies : Nat := if l.first = .answered then 1 else l.first.effect + l.second.effect

/-- The first statement is answered, or one of the two takes effect. -/
def Once : Prop :=
  l.first = .answered ∨ (l.first = .lost ∧ l.second = .failed) ∨
    (l.first = .failed ∧ l.second ≠ .failed)

/-- Neither statement takes effect. -/
def Never : Prop := l.first = .failed ∧ l.second = .failed

instance : Decidable l.Once := inferInstanceAs (Decidable (_ ∨ _))
instance : Decidable l.Never := inferInstanceAs (Decidable (_ ∧ _))

theorem copies_eq_one_iff : l.copies = 1 ↔ l.Once := by
  obtain ⟨first, second⟩ := l
  cases first <;> cases second <;> decide

theorem copies_eq_zero_iff : l.copies = 0 ↔ l.Never := by
  obtain ⟨first, second⟩ := l
  cases first <;> cases second <;> decide

@[simp] theorem copies_sound : sound.copies = 1 := rfl

end Link

variable {α : Type*}

/-- One statement: the log after it, and whether the client was answered
without an error. A row the log does not accept is an error on every path. -/
def append (log : List α) : Option α → Delivery → List α × Bool
  | none, _ => (log, false)
  | some row, .answered => (log ++ [row], true)
  | some row, .lost => (log ++ [row], false)
  | some _, .failed => (log, false)

@[simp] theorem append_none (log : List α) (d : Delivery) : append log none d = (log, false) := rfl

theorem append_log (log : List α) (row : α) (d : Delivery) :
    (append log (some row) d).1 = log ++ List.replicate d.effect row := by
  cases d <;> simp [append, Delivery.effect]

theorem append_answered (log : List α) (row : α) (d : Delivery) :
    (append log (some row) d).2 = true ↔ d = .answered := by
  cases d <;> simp [append]

end RetriedAppend

import Mathlib.Data.List.Basic

/-!
# Statements without a transaction

A program sends its statements one by one and stops at the first that it gets no
answer to. Each takes effect by itself: one that the server refuses or that never
reaches it has none, and one whose answer is lost has its own.
-/
namespace Autocommit

variable {σ : Type*}

/-- What becomes of a statement on the way. -/
inductive Delivery
  | answered
  | notRun
  | replyLost
deriving DecidableEq

/-- The state after a statement, nothing where the server refuses it, and whether
the program gets a good answer. -/
def Delivery.exec (d : Delivery) (effect : Option σ) (s : σ) : σ × Bool :=
  match d, effect with
  | answered, some s' => (s', true)
  | replyLost, some s' => (s', false)
  | _, _ => (s, false)

theorem Delivery.exec_eq_true {d : Delivery} {effect : Option σ} {s s' : σ} :
    d.exec effect s = (s', true) ↔ d = answered ∧ effect = some s' := by
  cases d <;> cases effect <;> simp [exec]

/-- A statement, told its place in the sequence. -/
abbrev Statement (σ : Type*) := Nat → σ → Option σ

/-- The statements from the n-th on, up to the first without a good answer. -/
def run (deliveries : Nat → Delivery) (n : Nat) : List (Statement σ) → σ → σ × Bool
  | [], s => (s, true)
  | st :: rest, s =>
    match (deliveries n).exec (st n s) s with
    | (s', false) => (s', false)
    | (s', true) => run deliveries (n + 1) rest s'

/-- All of the statements, where the server refuses none. -/
def effects (n : Nat) : List (Statement σ) → σ → Option σ
  | [], s => some s
  | st :: rest, s => (st n s).bind (effects (n + 1) rest)

variable {deliveries : Nat → Delivery}

theorem run_eq_true {n : Nat} {sts : List (Statement σ)} {s s' : σ} :
    run deliveries n sts s = (s', true) ↔
      (∀ i < sts.length, deliveries (n + i) = .answered) ∧ effects n sts s = some s' := by
  induction sts generalizing n s with
  | nil => simp [run, effects]
  | cons st rest ih =>
    have hall : (∀ i < (st :: rest).length, deliveries (n + i) = .answered) ↔
        deliveries n = .answered ∧ ∀ i < rest.length, deliveries (n + 1 + i) = .answered := by
      constructor
      · intro h
        refine ⟨h 0 (Nat.succ_pos _), fun i hi => ?_⟩
        have hi' := h (i + 1) (Nat.succ_lt_succ hi)
        rwa [show n + (i + 1) = n + 1 + i by omega] at hi'
      · rintro ⟨h0, h⟩ (_ | i) hi
        · exact h0
        · have hi' := h i (Nat.lt_of_succ_lt_succ hi)
          rwa [show n + 1 + i = n + (i + 1) by omega] at hi'
    rw [hall, run, effects]
    split
    · next s₁ hexec =>
      constructor
      · intro h
        cases h
      · rintro ⟨⟨h0, -⟩, heff⟩
        obtain ⟨s₂, hs₂, -⟩ := Option.bind_eq_some_iff.mp heff
        rw [Delivery.exec_eq_true.mpr ⟨h0, hs₂⟩] at hexec
        cases hexec
    · next s₁ hexec =>
      obtain ⟨h0, hs₁⟩ := Delivery.exec_eq_true.mp hexec
      rw [ih, hs₁, Option.bind_some, and_assoc, and_iff_right h0]

/-- What every statement keeps, the run keeps. -/
theorem run_keeps {I : σ → Prop} {sts : List (Statement σ)}
    (hstep : ∀ st ∈ sts, ∀ n s s', I s → st n s = some s' → I s') {n : Nat} {s : σ} (hs : I s) :
    I (run deliveries n sts s).1 := by
  induction sts generalizing n s with
  | nil => exact hs
  | cons st rest ih =>
    rw [List.forall_mem_cons] at hstep
    have hexec : I ((deliveries n).exec (st n s) s).1 := by
      unfold Delivery.exec
      split
      · next heff => exact hstep.1 n s _ hs heff
      · next heff => exact hstep.1 n s _ hs heff
      · exact hs
    rw [run]
    split
    · next heq =>
      rw [heq] at hexec
      exact hexec
    · next heq =>
      rw [heq] at hexec
      exact ih hstep.2 hexec

end Autocommit

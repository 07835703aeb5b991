import Mathlib.Data.List.Basic
import Mathlib.Order.Basic
import Mathlib.Order.Lattice

/-!
# Vouchers

A voucher is issued with a number of uses and a deadline, and may be
withdrawn. A history, newest event first, is lawful if every use is of a
voucher issued before it, not withdrawn, in time and not used up.
-/
namespace Vouchers

variable {T : Type*}

/-- Good for `limit` uses, each before the deadline. -/
structure Terms (T : Type*) where
  limit : Nat
  deadline : T

inductive Event (T : Type*)
  | issued (n : Nat) (terms : Terms T)
  | used (n : Nat) (time : T)
  | withdrawn (n : Nat)

def Event.isUse (n : Nat) : Event T → Bool
  | .used m _ => n = m
  | _ => false

attribute [local simp] Event.isUse

/-- How often voucher `n` has been used. -/
def uses (n : Nat) (es : List (Event T)) : Nat := es.countP (Event.isUse n)

@[simp] theorem uses_nil (n : Nat) : uses n ([] : List (Event T)) = 0 := rfl
@[simp] theorem uses_issued (n m : Nat) (terms : Terms T) (es : List (Event T)) :
    uses n (.issued m terms :: es) = uses n es := by simp [uses, Event.isUse]
@[simp] theorem uses_withdrawn (n m : Nat) (es : List (Event T)) :
    uses n (.withdrawn m :: es) = uses n es := by simp [uses, Event.isUse]
@[simp] theorem uses_used_self (n : Nat) (t : T) (es : List (Event T)) :
    uses n (.used n t :: es) = uses n es + 1 := by simp [uses, Event.isUse]
theorem uses_used_of_ne {n m : Nat} (h : n ≠ m) (t : T) (es : List (Event T)) :
    uses n (.used m t :: es) = uses n es := by simp [uses, Event.isUse, h]

theorem uses_eq_zero {n : Nat} {es : List (Event T)} :
    uses n es = 0 ↔ ∀ t, .used n t ∉ es := by
  rw [uses, List.countP_eq_zero]
  constructor
  · intro h t hmem
    simpa [Event.isUse] using h _ hmem
  · intro h e he
    cases e with
    | issued => simp [Event.isUse]
    | withdrawn => simp [Event.isUse]
    | used m t =>
      simp only [Event.isUse, decide_eq_true_eq]
      rintro rfl
      exact h t he

variable [LinearOrder T]

inductive Lawful : List (Event T) → Prop
  | nil : Lawful []
  | issued {es : List (Event T)} {n : Nat} {terms : Terms T} (h : Lawful es)
      (hfresh : ∀ terms', .issued n terms' ∉ es) : Lawful (.issued n terms :: es)
  | used {es : List (Event T)} {n : Nat} {terms : Terms T} {t : T} (h : Lawful es)
      (hissued : .issued n terms ∈ es) (hopen : .withdrawn n ∉ es) (htime : t < terms.deadline)
      (hleft : uses n es < terms.limit) : Lawful (.used n t :: es)
  | withdrawn {es : List (Event T)} {n : Nat} (h : Lawful es) : Lawful (.withdrawn n :: es)

namespace Lawful

variable {es : List (Event T)} {n : Nat} {terms terms' : Terms T} {t : T}

/-- A voucher is issued once. -/
theorem issued_unique (h : Lawful es) (hterms : .issued n terms ∈ es)
    (hterms' : .issued n terms' ∈ es) : terms = terms' := by
  induction h with
  | nil => cases hterms
  | issued h hfresh ih =>
    rcases List.mem_cons.mp hterms with heq | hmem
    · cases heq
      rcases List.mem_cons.mp hterms' with heq' | hmem'
      · cases heq'
        rfl
      · exact absurd hmem' (hfresh _)
    · rcases List.mem_cons.mp hterms' with heq' | hmem'
      · cases heq'
        exact absurd hmem (hfresh _)
      · exact ih hmem hmem'
  | used h _ _ _ _ ih => exact ih (by simpa using hterms) (by simpa using hterms')
  | withdrawn h ih => exact ih (by simpa using hterms) (by simpa using hterms')

/-- A voucher that has been used had been issued, and the use was in time. -/
theorem used_in_time (h : Lawful es) (hused : .used n t ∈ es) :
    ∃ terms, .issued n terms ∈ es ∧ t < terms.deadline := by
  induction h with
  | nil => cases hused
  | issued h hfresh ih =>
    obtain ⟨terms, hmem, ht⟩ := ih (by simpa using hused)
    exact ⟨terms, List.mem_cons_of_mem _ hmem, ht⟩
  | used h hissued hopen htime hleft ih =>
    rcases List.mem_cons.mp hused with heq | hmem
    · cases heq
      exact ⟨_, List.mem_cons_of_mem _ hissued, htime⟩
    · obtain ⟨terms, hmem, ht⟩ := ih hmem
      exact ⟨terms, List.mem_cons_of_mem _ hmem, ht⟩
  | withdrawn h ih =>
    obtain ⟨terms, hmem, ht⟩ := ih (by simpa using hused)
    exact ⟨terms, List.mem_cons_of_mem _ hmem, ht⟩

/-- No voucher is used more often than it was issued for. -/
theorem uses_le (h : Lawful es) (hissued : .issued n terms ∈ es) : uses n es ≤ terms.limit := by
  induction h with
  | nil => cases hissued
  | @issued es m terms₀ h hfresh ih =>
    rw [uses_issued]
    rcases List.mem_cons.mp hissued with heq | hmem
    · cases heq
      have hzero : uses n es = 0 := by
        rw [uses_eq_zero]
        intro t ht
        obtain ⟨terms', hmem', -⟩ := h.used_in_time ht
        exact hfresh terms' hmem'
      omega
    · exact ih hmem
  | @used es m terms₀ t h hissued₀ hopen htime hleft ih =>
    have hmem : .issued n terms ∈ es := by simpa using hissued
    by_cases hnm : n = m
    · subst hnm
      rw [uses_used_self, h.issued_unique hmem hissued₀]
      omega
    · rw [uses_used_of_ne hnm]
      exact ih hmem
  | withdrawn h ih =>
    rw [uses_withdrawn]
    exact ih (by simpa using hissued)

/-- A withdrawn voucher is not used again. -/
theorem not_used_after {later earlier : List (Event T)}
    (h : Lawful (later ++ .withdrawn n :: earlier)) : .used n t ∉ later := by
  induction later with
  | nil => simp
  | cons e later ih =>
    have hmem : .withdrawn n ∈ later ++ .withdrawn n :: earlier := by simp
    rw [List.cons_append] at h
    cases h with
    | issued h _ => simpa using ih h
    | withdrawn h => simpa using ih h
    | used h _ hopen _ _ =>
      rw [List.mem_cons, not_or]
      refine ⟨?_, ih h⟩
      intro heq
      cases heq
      exact hopen hmem

end Lawful

end Vouchers

import Mathlib.Order.Basic

/-!
# Loops that select what is left to do

A loop selects a batch, works on it and selects again until a batch is empty.
What a batch does to an invariant and to a measure says what the loop returns
and that it returns.
-/
namespace Reselection

variable {σ α : Type*}

/-- The loop from its n-th batch on, for as many batches as there is fuel. -/
def run (select : Nat → σ → List α) (work : Nat → List α → σ → σ) :
    (fuel n : Nat) → σ → Option σ
  | 0, _, _ => none
  | fuel + 1, n, s =>
    if (select n s).isEmpty then some s
    else run select work fuel (n + 1) (work n (select n s) s)

variable {select : Nat → σ → List α} {work : Nat → List α → σ → σ} {I : σ → Prop}

/-- A batch keeps the invariant. -/
def Keeps (select : Nat → σ → List α) (work : Nat → List α → σ → σ) (I : σ → Prop) : Prop :=
  ∀ n s, I s → select n s ≠ [] → I (work n (select n s) s)

/-- What the loop returns has the invariant, and its last batch was empty. -/
theorem of_run (hkeep : Keeps select work I) {fuel n : Nat} {s out : σ}
    (hs : I s) (h : run select work fuel n s = some out) : I out ∧ ∃ m, select m out = [] := by
  induction fuel generalizing n s with
  | zero => exact nomatch h
  | succ fuel ih =>
    rw [run] at h
    split at h
    · next hempty =>
      obtain rfl := Option.some.inj h
      exact ⟨hs, n, List.isEmpty_iff.mp hempty⟩
    · next hsome => exact ih (hkeep n s hs (hsome ∘ List.isEmpty_iff.mpr)) h

/-- A loop whose every batch lowers the measure returns. -/
theorem run_isSome (hkeep : Keeps select work I) {size : σ → Nat}
    (hless : ∀ n s, I s → select n s ≠ [] → size (work n (select n s) s) < size s)
    {fuel n : Nat} {s : σ} (hs : I s) (hfuel : size s < fuel) :
    (run select work fuel n s).isSome = true := by
  induction fuel generalizing n s with
  | zero => omega
  | succ fuel ih =>
    rw [run]
    split
    · rfl
    · next hsome =>
      have hne : select n s ≠ [] := hsome ∘ List.isEmpty_iff.mpr
      have hlt := hless n s hs hne
      exact ih (hkeep n s hs hne) (by omega)

/-- A loop whose invariant leaves something to select never returns. -/
theorem run_eq_none (hkeep : Keeps select work I) (hmore : ∀ n s, I s → select n s ≠ [])
    (fuel n : Nat) {s : σ} (hs : I s) : run select work fuel n s = none := by
  cases h : run select work fuel n s with
  | none => rfl
  | some out =>
    obtain ⟨hout, m, hempty⟩ := of_run hkeep hs h
    exact absurd hempty (hmore m out hout)

end Reselection

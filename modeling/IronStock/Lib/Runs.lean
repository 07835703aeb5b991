import Mathlib.Data.List.Basic

/-!
# Runs of a transition function

A system is a total function taking a state and an input to the next state.
Refused or blocked inputs leave the state as it is, so every list of inputs is
a run. A property of the states reached is `Along`, a property of the inputs
fired (each judged in the state it fires in) is `Every`.
-/
namespace Runs

variable {σ ι : Type*}

def run (step : σ → ι → σ) : σ → List ι → σ
  | s, [] => s
  | s, i :: is => run step (step s i) is

@[simp] theorem run_nil (step : σ → ι → σ) (s : σ) : run step s [] = s := rfl
@[simp] theorem run_cons (step : σ → ι → σ) (s : σ) (i : ι) (is : List ι) :
    run step s (i :: is) = run step (step s i) is := rfl

theorem run_append (step : σ → ι → σ) (s : σ) (is js : List ι) :
    run step s (is ++ js) = run step (run step s is) js := by
  induction is generalizing s with
  | nil => rfl
  | cons i is ih => exact ih (step s i)

/-- Every input of the run satisfies `C` in the state it is fired in. -/
def Every (step : σ → ι → σ) (C : σ → ι → Prop) : σ → List ι → Prop
  | _, [] => True
  | s, i :: is => C s i ∧ Every step C (step s i) is

@[simp] theorem every_nil (step : σ → ι → σ) (C : σ → ι → Prop) (s : σ) :
    Every step C s [] := trivial
@[simp] theorem every_cons (step : σ → ι → σ) (C : σ → ι → Prop) (s : σ) (i : ι) (is : List ι) :
    Every step C s (i :: is) ↔ C s i ∧ Every step C (step s i) is := Iff.rfl

theorem every_append (step : σ → ι → σ) (C : σ → ι → Prop) (s : σ) (is js : List ι) :
    Every step C s (is ++ js) ↔ Every step C s is ∧ Every step C (run step s is) js := by
  induction is generalizing s with
  | nil => simp
  | cons i is ih => rw [List.cons_append, every_cons, ih, every_cons, and_assoc, run_cons]

/-- A condition on the inputs alone. -/
theorem every_const (step : σ → ι → σ) (C : ι → Prop) (s : σ) (is : List ι) :
    Every step (fun _ i => C i) s is ↔ ∀ i ∈ is, C i := by
  induction is generalizing s with
  | nil => simp
  | cons i is ih => rw [every_cons, ih, List.forall_mem_cons]

/-- Every state of the run, the first and the last included, satisfies `P`. -/
def Along (step : σ → ι → σ) (P : σ → Prop) : σ → List ι → Prop
  | s, [] => P s
  | s, i :: is => P s ∧ Along step P (step s i) is

@[simp] theorem along_nil (step : σ → ι → σ) (P : σ → Prop) (s : σ) :
    Along step P s [] ↔ P s := Iff.rfl
@[simp] theorem along_cons (step : σ → ι → σ) (P : σ → Prop) (s : σ) (i : ι) (is : List ι) :
    Along step P s (i :: is) ↔ P s ∧ Along step P (step s i) is := Iff.rfl

theorem Along.head {step : σ → ι → σ} {P : σ → Prop} {s : σ} {is : List ι}
    (h : Along step P s is) : P s := by
  cases is with
  | nil => exact h
  | cons i is => exact h.1

theorem Along.last {step : σ → ι → σ} {P : σ → Prop} {s : σ} {is : List ι}
    (h : Along step P s is) : P (run step s is) := by
  induction is generalizing s with
  | nil => exact h
  | cons i is ih => exact ih h.2

theorem Along.mono {step : σ → ι → σ} {P Q : σ → Prop} {s : σ} {is : List ι}
    (h : Along step P s is) (hPQ : ∀ s, P s → Q s) : Along step Q s is := by
  induction is generalizing s with
  | nil => exact hPQ s h
  | cons i is ih => exact ⟨hPQ s h.1, ih h.2⟩

theorem Every.mono {step : σ → ι → σ} {C D : σ → ι → Prop} {s : σ} {is : List ι}
    (h : Every step C s is) (hCD : ∀ s i, C s i → D s i) : Every step D s is := by
  induction is generalizing s with
  | nil => trivial
  | cons i is ih => exact ⟨hCD s i h.1, ih h.2⟩

/-- An invariant kept by every step that meets its condition holds along every
run whose steps all meet theirs. -/
theorem along_of_every {step : σ → ι → σ} {I : σ → Prop} {C : σ → ι → Prop}
    (hstep : ∀ s i, I s → C s i → I (step s i)) {s : σ} {is : List ι}
    (hs : I s) (hC : Every step C s is) : Along step I s is := by
  induction is generalizing s with
  | nil => exact hs
  | cons i is ih => exact ⟨hs, ih (hstep s i hs hC.1) hC.2⟩

/-- What the invariant gives at each step, collected over the run. -/
theorem every_of_along {step : σ → ι → σ} {I : σ → Prop} {C D : σ → ι → Prop}
    (hout : ∀ s i, I s → C s i → D s i) {s : σ} {is : List ι}
    (hI : Along step I s is) (hC : Every step C s is) : Every step D s is := by
  induction is generalizing s with
  | nil => trivial
  | cons i is ih => exact ⟨hout s i hI.1 hC.1, ih hI.2 hC.2⟩

/-- Suppose every input fired is admissible, and admissible inputs keep `J`.
When under `J` an admissible input keeps `I` exactly if it meets `C`, a run
keeps `I` throughout exactly if all its inputs meet `C`. -/
theorem along_iff_every {step : σ → ι → σ} {I J : σ → Prop} {A C : σ → ι → Prop}
    (hJ : ∀ s i, J s → A s i → J (step s i))
    (hstep : ∀ s i, J s → I s → A s i → (I (step s i) ↔ C s i)) {s : σ} (is : List ι)
    (hJs : J s) (hs : I s) (hA : Every step A s is) :
    Along step I s is ↔ Every step C s is := by
  induction is generalizing s with
  | nil => simpa using hs
  | cons i is ih =>
    obtain ⟨hi, his⟩ := hA
    have hJ' := hJ s i hJs hi
    constructor
    · intro h
      have hI' : I (step s i) := h.2.head
      exact ⟨(hstep s i hJs hs hi).mp hI', (ih hJ' hI' his).mp h.2⟩
    · intro h
      have hI' := (hstep s i hJs hs hi).mpr h.1
      exact ⟨hs, (ih hJ' hI' his).mpr h.2⟩

/-- A property that no step can restore holds along a run that ends in it. -/
theorem along_of_last {step : σ → ι → σ} {I J : σ → Prop}
    (hJ : ∀ s i, J s → J (step s i)) (hback : ∀ s i, J s → I (step s i) → I s) {s : σ}
    {is : List ι} (hs : J s) (h : I (run step s is)) : Along step I s is := by
  induction is generalizing s with
  | nil => exact h
  | cons i is ih =>
    have hrest := ih (hJ s i hs) h
    exact ⟨hback s i hs hrest.head, hrest⟩

/-- An invariant of every step holds at the end of every run. -/
theorem run_invariant {step : σ → ι → σ} {J : σ → Prop} (hJ : ∀ s i, J s → J (step s i)) {s : σ}
    (hs : J s) (is : List ι) : J (run step s is) := by
  induction is generalizing s with
  | nil => exact hs
  | cons i is ih => exact ih (hJ s i hs)

/-- An invariant of every step holds along every run. -/
theorem along_invariant {step : σ → ι → σ} {J : σ → Prop} (hJ : ∀ s i, J s → J (step s i)) {s : σ}
    (hs : J s) (is : List ι) : Along step J s is := by
  induction is generalizing s with
  | nil => exact hs
  | cons i is ih => exact ⟨hs, ih (hJ s i hs)⟩

/-- What an invariant of every step gives at each of them. -/
theorem every_of_invariant {step : σ → ι → σ} {J : σ → Prop} {D : σ → ι → Prop}
    (hJ : ∀ s i, J s → J (step s i)) (hout : ∀ s i, J s → D s i) {s : σ} (hs : J s)
    (is : List ι) : Every step D s is := by
  induction is generalizing s with
  | nil => trivial
  | cons i is ih => exact ⟨hout s i hs, ih (hJ s i hs)⟩

/-! ## Runs that can be evaluated -/

instance decidableEvery (step : σ → ι → σ) (C : σ → ι → Prop) [∀ s i, Decidable (C s i)] :
    (s : σ) → (is : List ι) → Decidable (Every step C s is)
  | _, [] => .isTrue trivial
  | s, i :: is =>
    have := decidableEvery step C (step s i) is
    inferInstanceAs (Decidable (C s i ∧ Every step C (step s i) is))

end Runs

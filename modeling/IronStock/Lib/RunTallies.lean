import IronStock.Lib.Runs

/-!
# Tallies over a run

Each input of a run is given a weight in the state it fires in. The weights of
a run add up to one exactly when one input weighs one and all the others weigh
nothing.
-/
namespace Runs

variable {σ ι α : Type*}

/-- The sum of the weights of the inputs fired. -/
def tally (step : σ → ι → σ) (weight : σ → ι → Nat) : σ → List ι → Nat
  | _, [] => 0
  | s, i :: is => weight s i + tally step weight (step s i) is

@[simp] theorem tally_nil (step : σ → ι → σ) (weight : σ → ι → Nat) (s : σ) :
    tally step weight s [] = 0 := rfl
@[simp] theorem tally_cons (step : σ → ι → σ) (weight : σ → ι → Nat) (s : σ) (i : ι)
    (is : List ι) :
    tally step weight s (i :: is) = weight s i + tally step weight (step s i) is := rfl

/-- One input satisfies `C` in the state it fires in, and every other one `D`. -/
def ExactlyOne (step : σ → ι → σ) (C D : σ → ι → Prop) : σ → List ι → Prop
  | _, [] => False
  | s, i :: is => (C s i ∧ Every step D (step s i) is) ∨ (D s i ∧ ExactlyOne step C D (step s i) is)

@[simp] theorem exactlyOne_nil (step : σ → ι → σ) (C D : σ → ι → Prop) (s : σ) :
    ExactlyOne step C D s [] ↔ False := Iff.rfl
@[simp] theorem exactlyOne_cons (step : σ → ι → σ) (C D : σ → ι → Prop) (s : σ) (i : ι)
    (is : List ι) :
    ExactlyOne step C D s (i :: is) ↔
      (C s i ∧ Every step D (step s i) is) ∨ (D s i ∧ ExactlyOne step C D (step s i) is) := Iff.rfl

theorem tally_eq_zero_iff {step : σ → ι → σ} {weight : σ → ι → Nat} {D : σ → ι → Prop}
    (hD : ∀ s i, weight s i = 0 ↔ D s i) (s : σ) (is : List ι) :
    tally step weight s is = 0 ↔ Every step D s is := by
  induction is generalizing s with
  | nil => simp
  | cons i is ih => rw [tally_cons, every_cons, Nat.add_eq_zero_iff, hD, ih]

theorem tally_eq_one_iff {step : σ → ι → σ} {weight : σ → ι → Nat} {C D : σ → ι → Prop}
    (hC : ∀ s i, weight s i = 1 ↔ C s i) (hD : ∀ s i, weight s i = 0 ↔ D s i) (s : σ)
    (is : List ι) :
    tally step weight s is = 1 ↔ ExactlyOne step C D s is := by
  induction is generalizing s with
  | nil => simp
  | cons i is ih =>
    have hrest : tally step weight (step s i) is = 0 ↔ Every step D (step s i) is :=
      tally_eq_zero_iff hD (step s i) is
    rw [tally_cons, exactlyOne_cons, Nat.add_eq_one_iff, hD, hC, hrest, ih]
    exact or_comm

/-- Once an input has weighed something, an invariant holds under which none does. -/
theorem tally_le_one {step : σ → ι → σ} {weight : σ → ι → Nat} {J : σ → Prop}
    (hone : ∀ s i, weight s i ≤ 1) (hfired : ∀ s i, weight s i ≠ 0 → J (step s i))
    (hJ : ∀ s i, J s → J (step s i)) (hzero : ∀ s i, J s → weight s i = 0) (s : σ)
    (is : List ι) : tally step weight s is ≤ 1 := by
  have hrest : ∀ s is, J s → tally step weight s is = 0 := by
    intro s is hs
    apply (@tally_eq_zero_iff _ _ step weight _ (fun _ _ => Iff.rfl) s is).mpr
    exact every_of_invariant hJ hzero hs is
  induction is generalizing s with
  | nil => simp
  | cons i is ih =>
    rw [tally_cons]
    by_cases h : weight s i = 0
    · rw [h, Nat.zero_add]
      exact ih _
    · rw [hrest _ is (hfired s i h)]
      exact hone s i

/-- A log to which every step only appends, counted by its weights. -/
theorem exists_append_countP {step : σ → ι → σ} {log : σ → List α} {p : α → Bool}
    {weight : σ → ι → Nat}
    (hstep : ∀ s i, ∃ new, log (step s i) = log s ++ new ∧ new.countP p = weight s i) (s : σ)
    (is : List ι) :
    ∃ new, log (run step s is) = log s ++ new ∧ new.countP p = tally step weight s is := by
  induction is generalizing s with
  | nil => exact ⟨[], by simp⟩
  | cons i is ih =>
    obtain ⟨first, hfirst, hcount⟩ := hstep s i
    obtain ⟨rest, hrest, htally⟩ := ih (step s i)
    refine ⟨first ++ rest, ?_, ?_⟩
    · rw [run_cons, hrest, hfirst, List.append_assoc]
    · rw [List.countP_append, hcount, htally, tally_cons]

end Runs

import Mathlib.Data.List.Basic

/-!
# One promise at a time

A program keeps the promise that is under way in a slot and begins the next one
only while the slot is empty. The promises are a list that grows, and `flags`
tells which of them are under way.
-/
namespace SingleFlight

variable {α : Type*} {busy : α → Bool} {promises : List α}

/-! ## How flags change -/

/-- A change that leaves alone what is looked at. -/
theorem map_modify_of_eq {β : Type*} {g : α → β} {k : Nat} {f : α → α}
    (hf : ∀ p, promises[k]? = some p → g (f p) = g p) :
    (promises.modify k f).map g = promises.map g := by
  apply List.ext_getElem?
  intro j
  rw [List.getElem?_map, List.getElem?_map, List.getElem?_modify]
  cases hp : promises[j]? with
  | none => rfl
  | some p =>
    simp only [Option.map_eq_map, Option.map_some]
    by_cases hk : k = j
    · rw [← hk] at hp
      rw [if_pos hk, hf p hp]
    · rw [if_neg hk]

/-- A change that ends a promise. -/
theorem flags_end {f : α → α} (hf : ∀ p, busy (f p) = false) (promises : List α) (k : Nat) :
    (promises.modify k f).map busy = (promises.map busy).set k false := by
  apply List.ext_getElem?
  intro j
  rw [List.getElem?_map, List.getElem?_modify, List.getElem?_set, List.length_map,
    List.getElem?_map]
  by_cases hk : k = j
  · simp only [hk, if_true]
    by_cases hlt : j < promises.length
    · rw [if_pos hlt, List.getElem?_eq_getElem hlt]
      simp only [Option.map_eq_map, Option.map_some, hf]
    · rw [if_neg hlt, List.getElem?_eq_none (Nat.le_of_not_lt hlt)]
      rfl
  · simp only [if_neg hk]
    cases promises[j]? <;> rfl

/-! ## The slot -/

/-- A promise under way is the one in the slot. -/
def Guarded (slot : Option Nat) (flags : List Bool) : Prop :=
  ∀ k : Nat, flags[k]? = some true → slot = some k

variable {slot : Option Nat} {flags : List Bool}

theorem guarded_of_not_mem (h : true ∉ flags) : Guarded slot flags :=
  fun _ hk => absurd (List.mem_of_getElem? hk) h

theorem Guarded.not_mem_of_none (h : Guarded none flags) : true ∉ flags := by
  intro hmem
  obtain ⟨k, hk⟩ := List.getElem?_of_mem hmem
  cases h k hk

/-- With the promise under way ended, none is left. -/
theorem Guarded.not_mem_set (h : Guarded slot flags) {k : Nat} (hk : flags[k]? = some true) :
    true ∉ flags.set k false := by
  intro hmem
  obtain ⟨j, hj⟩ := List.getElem?_of_mem hmem
  rw [List.getElem?_set] at hj
  split at hj
  · split at hj <;> cases hj
  · next hne =>
    have hsame := (h j hj).symm.trans (h k hk)
    exact hne (Option.some.inj hsame).symm

/-- The next promise takes the slot. -/
theorem guarded_append (h : true ∉ flags) (b : Bool) :
    Guarded (some flags.length) (flags ++ [b]) := by
  intro k hk
  rw [List.getElem?_append] at hk
  split at hk
  · exact absurd (List.mem_of_getElem? hk) h
  · next hge =>
    have hlt := (List.getElem?_eq_some_iff.mp hk).1
    rw [List.length_singleton] at hlt
    congr 1
    omega

/-- At most one promise is under way. -/
theorem Guarded.count_le_one (h : Guarded slot flags) : flags.count true ≤ 1 := by
  have hsame : ∀ j k : Nat, flags[j]? = some true → flags[k]? = some true → j = k :=
    fun j k hj hk => Option.some.inj ((h j hj).symm.trans (h k hk))
  clear h
  induction flags with
  | nil => exact Nat.zero_le 1
  | cons b flags ih =>
    have hrest := ih fun j k hj hk => Nat.succ.inj (hsame (j + 1) (k + 1) hj hk)
    cases b with
    | false => simpa using hrest
    | true =>
      have hzero : flags.count true = 0 := by
        rw [List.count_eq_zero]
        intro hmem
        obtain ⟨k, hk⟩ := List.getElem?_of_mem hmem
        cases hsame 0 (k + 1) rfl hk
      exact Nat.le_of_eq (by rw [List.count_cons_self, hzero])

end SingleFlight

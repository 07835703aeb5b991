import Mathlib.Order.Bounds.Basic

/-!
# The strongest level of a set

Levels are the elements of a linear order with a least one. Several sources
each give some levels, and the level that counts is the greatest of them, or
the least element where no source gives any.
-/
namespace Strongest

variable {α : Type*} [LinearOrder α] [OrderBot α]

/-- `p` is the greatest level of `s`, the least element where `s` is empty. -/
def IsStrongest (s : Set α) (p : α) : Prop := IsGreatest (insert ⊥ s) p

theorem isStrongest_iff {s : Set α} {p : α} :
    IsStrongest s p ↔ (p = ⊥ ∨ p ∈ s) ∧ ∀ q ∈ s, q ≤ p := by
  constructor
  · intro h
    exact ⟨Set.mem_insert_iff.mp h.1, fun q hq => h.2 (Set.mem_insert_of_mem ⊥ hq)⟩
  · rintro ⟨hp, hle⟩
    refine ⟨Set.mem_insert_iff.mpr hp, ?_⟩
    rintro q (rfl | hq)
    · exact bot_le
    · exact hle q hq

/-- A set has one strongest level at most. -/
theorem IsStrongest.unique {s : Set α} {p q : α} (hp : IsStrongest s p) (hq : IsStrongest s q) :
    p = q :=
  IsGreatest.unique hp hq

/-- Where every level of `s` has its match in `t`, the result of `t` is as
strong. -/
theorem IsStrongest.le {s t : Set α} {p q : α} (hp : IsStrongest s p) (hq : IsStrongest t q)
    (hst : ∀ a ∈ s, ∃ b ∈ t, a ≤ b) : p ≤ q := by
  rcases (isStrongest_iff.mp hp).1 with rfl | hmem
  · exact bot_le
  · obtain ⟨b, hb, hpb⟩ := hst p hmem
    exact hpb.trans ((isStrongest_iff.mp hq).2 b hb)

/-- More levels, a stronger result. -/
theorem IsStrongest.mono {s t : Set α} {p q : α} (hp : IsStrongest s p) (hq : IsStrongest t q)
    (hst : s ⊆ t) : p ≤ q :=
  hp.le hq fun a ha => ⟨a, hst ha, le_refl a⟩

/-- The result is more than nothing where some level is. -/
theorem IsStrongest.ne_bot_iff {s : Set α} {p : α} (hp : IsStrongest s p) :
    p ≠ ⊥ ↔ ∃ q ∈ s, q ≠ ⊥ := by
  rw [isStrongest_iff] at hp
  constructor
  · intro hne
    exact ⟨p, hp.1.resolve_left hne, hne⟩
  · rintro ⟨q, hq, hne⟩ rfl
    exact hne (le_bot_iff.mp (hp.2 q hq))

@[simp] theorem isStrongest_empty : IsStrongest (∅ : Set α) ⊥ := by
  rw [isStrongest_iff]
  simp

/-- Two sources are as strong as the stronger of the two. -/
theorem IsStrongest.union {s t : Set α} {p q : α} (hp : IsStrongest s p)
    (hq : IsStrongest t q) : IsStrongest (s ∪ t) (max p q) := by
  rw [IsStrongest, Set.insert_union_distrib]
  exact IsGreatest.union hp hq

/-- Nothing beats the greatest level. -/
theorem isStrongest_top [OrderTop α] {s : Set α} (h : ⊤ ∈ s) : IsStrongest s ⊤ :=
  isStrongest_iff.mpr ⟨.inr h, fun _ _ => le_top⟩

end Strongest

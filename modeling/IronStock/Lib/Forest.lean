import Mathlib.Data.Finset.Card
import Mathlib.Data.Fintype.Card
import Mathlib.Logic.Relation
import Mathlib.Logic.Function.Basic

/-!
# Forests of parent pointers

A parent pointer is a function `next : α → Option α`. Following it from `a`
either ends at a root or goes on forever. The walk with a round limit is what
a recursive query computes, the predicate `Ends` is what it ought to compute,
and on a finite carrier one round for each element decides between the two.
-/
namespace Forest

variable {α : Type*}

/-- One step up. -/
def Up (next : α → Option α) (a b : α) : Prop := next a = some b

/-- `b` is `a` itself or above `a`. -/
def Above (next : α → Option α) (a b : α) : Prop := Relation.ReflTransGen (Up next) a b

/-- `b` is above `a`, one step at least. -/
def StrictlyAbove (next : α → Option α) (a b : α) : Prop := Relation.TransGen (Up next) a b

/-- Following `next` from `a` reaches a root in finitely many steps. -/
inductive Ends (next : α → Option α) : α → Prop
  | root {a : α} (h : next a = none) : Ends next a
  | step {a b : α} (h : next a = some b) (hb : Ends next b) : Ends next a

/-- Every element has a root above it. -/
def IsForest (next : α → Option α) : Prop := ∀ a, Ends next a

theorem Above.refl (next : α → Option α) (a : α) : Above next a a := Relation.ReflTransGen.refl

theorem Above.head {next : α → Option α} {a b c : α} (h : next a = some b)
    (hbc : Above next b c) : Above next a c := Relation.ReflTransGen.head h hbc

theorem above_cases {next : α → Option α} {a c : α} (h : Above next a c) :
    a = c ∨ ∃ b, next a = some b ∧ Above next b c := by
  rcases Relation.ReflTransGen.cases_head h with h | ⟨b, hab, hbc⟩
  · exact .inl h
  · exact .inr ⟨b, hab, hbc⟩

/-- A chain that comes back to where it started has no end. -/
theorem not_ends_of_cycle {next : α → Option α} {a b : α} (h : next a = some b)
    (hba : Above next b a) : ¬ Ends next a := by
  intro ha
  induction ha generalizing b with
  | root hr => simp [hr] at h
  | @step a c hc hb ih =>
    have he : b = c := by simpa using h.symm.trans hc
    subst he
    rcases above_cases hba with rfl | ⟨d, hd, hda⟩
    · exact ih hc (Above.refl _ _)
    · exact ih hd (Relation.ReflTransGen.tail hda hc)

/-! ## The walk a recursive query makes -/

/-- Collect the chain from `a`, giving up after `n` rounds. -/
def walk (next : α → Option α) : Nat → α → Option (List α)
  | 0, _ => none
  | n + 1, a =>
    match next a with
    | none => some [a]
    | some b => (walk next n b).map (a :: ·)

attribute [local simp] walk

theorem walk_root {next : α → Option α} {a : α} (h : next a = none) (n : Nat) :
    walk next (n + 1) a = some [a] := by simp [walk, h]

theorem walk_step {next : α → Option α} {a b : α} (h : next a = some b) (n : Nat) :
    walk next (n + 1) a = (walk next n b).map (a :: ·) := by simp [walk, h]

theorem ends_of_walk {next : α → Option α} {n : Nat} {a : α} {l : List α}
    (h : walk next n a = some l) : Ends next a := by
  induction n generalizing a l with
  | zero => simp [walk] at h
  | succ n ih =>
    cases hn : next a with
    | none => exact .root hn
    | some b =>
      rw [walk_step hn, Option.map_eq_some_iff] at h
      obtain ⟨l', hl', _⟩ := h
      exact .step hn (ih hl')

/-- The walk lists exactly what lies above its start. -/
theorem mem_walk_iff {next : α → Option α} {n : Nat} {a : α} {l : List α}
    (h : walk next n a = some l) (b : α) : b ∈ l ↔ Above next a b := by
  induction n generalizing a l with
  | zero => simp [walk] at h
  | succ n ih =>
    cases hn : next a with
    | none =>
      rw [walk_root hn] at h
      cases h
      constructor
      · intro hb
        rw [List.mem_singleton] at hb
        exact hb ▸ Above.refl _ _
      · intro hb
        rcases above_cases hb with rfl | ⟨c, hc, _⟩
        · simp
        · simp [hn] at hc
    | some c =>
      rw [walk_step hn, Option.map_eq_some_iff] at h
      obtain ⟨l', hl', rfl⟩ := h
      rw [List.mem_cons, ih hl']
      constructor
      · rintro (rfl | hb)
        · exact Above.refl _ _
        · exact Above.head hn hb
      · intro hb
        rcases above_cases hb with rfl | ⟨d, hd, hdb⟩
        · exact .inl rfl
        · have he : c = d := by simpa using hn.symm.trans hd
          exact .inr (he ▸ hdb)

theorem not_strictlyAbove_of_root {next : α → Option α} {a b : α} (h : next a = none) :
    ¬ StrictlyAbove next a b := by
  intro hab
  obtain ⟨c, hac, _⟩ := Relation.TransGen.head'_iff.mp hab
  rw [Up, h] at hac
  cases hac

/-- The walk begins at its start and goes on with what is strictly above. -/
theorem walk_cons {next : α → Option α} {n : Nat} {a : α} {l : List α}
    (h : walk next n a = some l) :
    ∃ rest, l = a :: rest ∧ ∀ b, b ∈ rest ↔ StrictlyAbove next a b := by
  cases n with
  | zero => simp [walk] at h
  | succ n =>
    cases hn : next a with
    | none =>
      rw [walk_root hn] at h
      cases h
      refine ⟨[], rfl, fun b => ?_⟩
      simp [not_strictlyAbove_of_root hn]
    | some c =>
      rw [walk_step hn, Option.map_eq_some_iff] at h
      obtain ⟨rest, hrest, rfl⟩ := h
      refine ⟨rest, rfl, fun b => ?_⟩
      rw [mem_walk_iff hrest]
      constructor
      · intro hcb
        exact Relation.TransGen.head'_iff.mpr ⟨c, hn, hcb⟩
      · intro hab
        obtain ⟨d, had, hdb⟩ := Relation.TransGen.head'_iff.mp hab
        have hcd : c = d := by simpa using hn.symm.trans had
        exact hcd ▸ hdb

/-- More rounds do not change a walk that has ended. -/
theorem walk_mono {next : α → Option α} {n m : Nat} {a : α} {l : List α}
    (h : walk next n a = some l) (hnm : n ≤ m) : walk next m a = some l := by
  induction n generalizing a l m with
  | zero => simp [walk] at h
  | succ n ih =>
    obtain ⟨m, rfl⟩ : ∃ k, m = k + 1 := ⟨m - 1, by omega⟩
    cases hn : next a with
    | none =>
      rw [walk_root hn] at h ⊢
      exact h
    | some b =>
      rw [walk_step hn, Option.map_eq_some_iff] at h
      obtain ⟨l', hl', rfl⟩ := h
      rw [walk_step hn, ih hl' (by omega)]
      rfl

theorem walk_of_ends {next : α → Option α} {a : α} (h : Ends next a) :
    ∃ n l, walk next n a = some l := by
  induction h with
  | root h => exact ⟨1, _, walk_root h 0⟩
  | @step a b h _ ih =>
    obtain ⟨n, l, hl⟩ := ih
    exact ⟨n + 1, a :: l, by rw [walk_step h, hl]; rfl⟩

theorem walk_length {next : α → Option α} {n : Nat} {a : α} {l : List α}
    (h : walk next n a = some l) : walk next l.length a = some l := by
  induction n generalizing a l with
  | zero => simp [walk] at h
  | succ n ih =>
    cases hn : next a with
    | none =>
      rw [walk_root hn] at h
      cases h
      exact walk_root hn 0
    | some b =>
      rw [walk_step hn, Option.map_eq_some_iff] at h
      obtain ⟨l', hl', rfl⟩ := h
      rw [List.length_cons, walk_step hn, ih hl']
      rfl

/-- An ended walk visits nothing twice. -/
theorem walk_nodup {next : α → Option α} {n : Nat} {a : α} {l : List α}
    (h : walk next n a = some l) : l.Nodup := by
  induction n generalizing a l with
  | zero => simp [walk] at h
  | succ n ih =>
    have ha := ends_of_walk h
    cases hn : next a with
    | none =>
      rw [walk_root hn] at h
      cases h
      simp
    | some b =>
      rw [walk_step hn, Option.map_eq_some_iff] at h
      obtain ⟨l', hl', rfl⟩ := h
      rw [List.nodup_cons]
      refine ⟨?_, ih hl'⟩
      intro hmem
      exact not_ends_of_cycle hn ((mem_walk_iff hl' a).mp hmem) ha

/-- The round limit that decides: one round for each element that has a parent,
and one for the root. -/
theorem ends_iff_walk [DecidableEq α] {next : α → Option α} {dom : List α}
    (hdom : ∀ a b, next a = some b → a ∈ dom) {n : Nat} (hn : dom.length < n) (a : α) :
    Ends next a ↔ (walk next n a).isSome := by
  constructor
  · intro h
    obtain ⟨m, l, hl⟩ := walk_of_ends h
    -- all but the root of the chain have a parent, so they lie in `dom`
    have hsub : ∀ x ∈ l.dropLast, x ∈ dom := by
      clear hn h
      induction m generalizing a l with
      | zero => simp [walk] at hl
      | succ m ih =>
        cases hp : next a with
        | none =>
          rw [walk_root hp] at hl
          cases hl
          simp
        | some b =>
          rw [walk_step hp, Option.map_eq_some_iff] at hl
          obtain ⟨l', hl', rfl⟩ := hl
          intro x hx
          cases l' with
          | nil => simp at hx
          | cons c l' =>
            rw [List.dropLast_cons_cons, List.mem_cons] at hx
            rcases hx with rfl | hx
            · exact hdom _ _ hp
            · exact ih b _ hl' x hx
    have hnodup : l.dropLast.Nodup := (walk_nodup hl).sublist (List.dropLast_sublist l)
    have hlen : l.dropLast.length ≤ dom.length :=
      (List.subperm_of_subset hnodup hsub).length_le
    rw [List.length_dropLast] at hlen
    have hw := walk_mono (walk_length hl) (show l.length ≤ n by omega)
    simp [hw]
  · intro h
    obtain ⟨l, hl⟩ := Option.isSome_iff_exists.mp h
    exact ends_of_walk hl

/-! ## Moving a subtree -/

section Move
variable [DecidableEq α]

theorem ends_update_of_not_above {next : α → Option α} {x : α} {v : Option α} {a : α}
    (ha : Ends next a) (hx : ¬ Above next a x) : Ends (Function.update next x v) a := by
  induction ha with
  | @root a h =>
    have hne : a ≠ x := by
      rintro rfl
      exact hx (Above.refl _ _)
    exact .root (by rw [Function.update_of_ne hne]; exact h)
  | @step a b h _ ih =>
    have hne : a ≠ x := by
      rintro rfl
      exact hx (Above.refl _ _)
    refine .step (b := b) (by rw [Function.update_of_ne hne]; exact h) (ih ?_)
    exact fun hb => hx (Above.head h hb)

/-- The part of an old chain up to the first `x` is still there. -/
theorem above_update_self {next : α → Option α} {x : α} {v : Option α} {a : α}
    (h : Above next a x) : Above (Function.update next x v) a x := by
  induction h using Relation.ReflTransGen.head_induction_on with
  | refl => exact Above.refl _ _
  | @head a c hac _ ih =>
    by_cases hax : a = x
    · exact hax ▸ Above.refl _ _
    · exact Above.head (by rw [Function.update_of_ne hax]; exact hac) ih

/-- Replacing the parent of `x` keeps every chain finite as soon as the chain
of `x` itself stays finite. -/
theorem isForest_update {next : α → Option α} (hf : IsForest next) {x : α} {v : Option α}
    (hx : Ends (Function.update next x v) x) : IsForest (Function.update next x v) := by
  intro a
  induction hf a with
  | @root a h =>
    by_cases hax : a = x
    · exact hax ▸ hx
    · exact .root (by rw [Function.update_of_ne hax]; exact h)
  | @step a b h _ ih =>
    by_cases hax : a = x
    · exact hax ▸ hx
    · exact .step (b := b) (by rw [Function.update_of_ne hax]; exact h) ih

/-- Cutting a subtree off, to make `x` a root, keeps a forest. -/
theorem isForest_update_none {next : α → Option α} (hf : IsForest next) (x : α) :
    IsForest (Function.update next x none) :=
  isForest_update hf (.root (Function.update_self ..))

/-- Moving `x` under `p` keeps a forest exactly when `x` is not `p` and not
above `p`. -/
theorem isForest_update_iff {next : α → Option α} (hf : IsForest next) (x p : α) :
    IsForest (Function.update next x (some p)) ↔ ¬ Above next p x := by
  constructor
  · intro h hpx
    have hpx' := above_update_self (v := some p) hpx
    exact not_ends_of_cycle (Function.update_self ..) hpx' (h x)
  · intro h
    exact isForest_update hf
      (.step (Function.update_self ..) (ends_update_of_not_above (hf p) h))

end Move

end Forest

import Mathlib.Data.List.Basic
import IronStock.Lib.Interleaving

/-!
# A lock and what it protects

Calls take a lock with one statement and give it back with another. While the lock
is free the shared state satisfies a resource invariant; while a call holds it, the
call has an assertion about the state instead, which no other call disturbs.
-/
namespace Interleaving

variable {σ ι κ ρ τ : Type*}

structure Lock (σ κ : Type*) where
  isTaken : σ → Bool
  /-- a call under way holds it; a finished one does not -/
  holds : κ → Bool

namespace Lock

def heldBy (L : Lock σ κ) : κ ⊕ ρ → Bool
  | .inl k => L.holds k
  | .inr _ => false

/-- The lock is taken only when it is free, and given back only by its holder. -/
structure Respected (L : Lock σ κ) (P : Program σ ι κ ρ τ) : Prop where
  enter : ∀ r, L.holds (P.enter r) = false
  outside : ∀ t s k, L.holds k = false →
    (L.heldBy (P.exec t s k).2 = false ∧ L.isTaken (P.exec t s k).1 = L.isTaken s) ∨
      (L.heldBy (P.exec t s k).2 = true ∧ L.isTaken s = false ∧
        L.isTaken (P.exec t s k).1 = true)
  inside : ∀ t s k, L.holds k = true → L.isTaken s = true →
    L.isTaken (P.exec t s k).1 = L.heldBy (P.exec t s k).2

/-- What a call relies on, if it is still under way. -/
def Relies (A : σ → κ → Prop) (s : σ) (c : κ ⊕ ρ) : Prop := ∀ k, c = .inl k → A s k

/-- `J` is what the free lock guarantees, `A` what a call relies on. A statement of
the holder need not respect what another holder would rely on. -/
structure Protects (L : Lock σ κ) (P : Program σ ι κ ρ τ) (J : σ → Prop) (A : σ → κ → Prop) :
    Prop where
  enter : ∀ s r, A s (P.enter r)
  outside : ∀ t s k, L.holds k = false → A s k → L.heldBy (P.exec t s k).2 = false →
    (J s → J (P.exec t s k).1) ∧ Relies A (P.exec t s k).1 (P.exec t s k).2 ∧
      ∀ k', A s k' → A (P.exec t s k).1 k'
  take : ∀ t s k, L.holds k = false → A s k → L.heldBy (P.exec t s k).2 = true → J s →
    Relies A (P.exec t s k).1 (P.exec t s k).2 ∧
      ∀ k', L.holds k' = false → A s k' → A (P.exec t s k).1 k'
  inside : ∀ t s k, L.holds k = true → A s k →
    (L.heldBy (P.exec t s k).2 = false → J (P.exec t s k).1) ∧
      Relies A (P.exec t s k).1 (P.exec t s k).2 ∧
      ∀ k', L.holds k' = false → A s k' → A (P.exec t s k).1 k'

/-- One holder if the lock is taken and none if it is free; the resource invariant
while it is free, and what each call relies on. -/
structure Guards (L : Lock σ κ) (J : σ → Prop) (A : σ → κ → Prop) (s : System σ κ ρ) : Prop where
  holders : s.calls.countP L.heldBy = (L.isTaken s.shared).toNat
  free : L.isTaken s.shared = false → J s.shared
  relies : ∀ c ∈ s.calls, Relies A s.shared c

theorem guards_start (L : Lock σ κ) {J : σ → Prop} (A : σ → κ → Prop) {x : σ}
    (hfree : L.isTaken x = false) (hJ : J x) : L.Guards (ρ := ρ) J A ⟨x, []⟩ where
  holders := by simp [hfree]
  free _ := hJ
  relies := by simp

/-- What one call holds and what the others hold. -/
theorem countP_around (L : Lock σ κ) (before after : List (κ ⊕ ρ)) (c : κ ⊕ ρ) :
    (before ++ c :: after).countP L.heldBy =
      (before ++ after).countP L.heldBy + (L.heldBy c).toNat := by
  rw [List.countP_append, List.countP_cons, List.countP_append]
  cases L.heldBy c <;> simp only [Bool.toNat_true, Bool.toNat_false, Bool.false_eq_true, if_true,
    if_false] <;> omega

/-- A call among others that hold nothing. -/
theorem holds_eq_false_of_mem {L : Lock σ κ} {calls : List (κ ⊕ ρ)} {k : κ}
    (hnone : calls.countP L.heldBy = 0) (hk : .inl k ∈ calls) : L.holds k = false := by
  have hnot := List.countP_eq_zero.mp hnone _ hk
  simpa [heldBy] using hnot

theorem mem_around {before after : List (κ ⊕ ρ)} {c c' : κ ⊕ ρ} :
    c ∈ before ++ c' :: after ↔ c = c' ∨ c ∈ before ++ after := by
  simp [or_left_comm]

section Step

variable {L : Lock σ κ} {P : Program σ ι κ ρ τ} {J : σ → Prop} {A : σ → κ → Prop}
  {s : System σ κ ρ} {i : Nat} {t : τ} {k : κ}

theorem guards_begin (hresp : L.Respected P) (hprot : L.Protects P J A) (h : L.Guards J A s)
    (r : ι) : L.Guards J A { s with calls := s.calls ++ [.inl (P.enter r)] } where
  holders := by
    rw [List.countP_append, List.countP_singleton, heldBy, hresp.enter]
    exact h.holders
  free := h.free
  relies c hc := by
    rcases List.mem_append.mp hc with hc | hc
    · exact h.relies c hc
    · intro k hk
      obtain rfl := Sum.inl.inj (hk.symm.trans (List.mem_singleton.mp hc))
      exact hprot.enter s.shared r

/-- A statement of a call that does not hold the lock. -/
theorem guards_outside (hresp : L.Respected P) (hprot : L.Protects P J A) (h : L.Guards J A s)
    (hcall : s.calls[i]? = some (.inl k)) (hk : L.holds k = false) :
    L.Guards J A (s.put i (P.exec t s.shared k)) := by
  obtain ⟨before, after, hcalls, hset⟩ := Program.split_calls hcall
  have hown : A s.shared k := h.relies _ (List.mem_of_getElem? hcall) k rfl
  have hcount := h.holders
  rw [hcalls, countP_around, heldBy, hk, Bool.toNat_false, Nat.add_zero] at hcount
  have hothers {c : κ ⊕ ρ} (hc : c ∈ before ++ after) : Relies A s.shared c :=
    h.relies c (hcalls ▸ mem_around.mpr (.inr hc))
  rcases hresp.outside t s.shared k hk with ⟨hnone, hsame⟩ | ⟨htook, hwas, hnow⟩
  · obtain ⟨hfree, hrelies, hframe⟩ := hprot.outside t s.shared k hk hown hnone
    constructor
    · rw [System.put_calls, System.put_shared, hset, countP_around, hnone, hsame]
      simpa using hcount
    · intro hopen
      rw [System.put_shared, hsame] at hopen
      exact hfree (h.free hopen)
    · intro c hc
      rw [System.put_calls, hset] at hc
      rcases mem_around.mp hc with rfl | hc
      · exact hrelies
      · exact fun k' hk' => hframe k' (hothers hc k' hk')
  · rw [hwas] at hcount
    obtain ⟨hrelies, hframe⟩ := hprot.take t s.shared k hk hown htook (h.free hwas)
    constructor
    · rw [System.put_calls, System.put_shared, hset, countP_around, htook, hnow, hcount]
      rfl
    · intro hopen
      rw [System.put_shared, hnow] at hopen
      cases hopen
    · intro c hc
      rw [System.put_calls, hset] at hc
      rcases mem_around.mp hc with rfl | hc
      · exact hrelies
      · exact fun k' hk' =>
          hframe k' (holds_eq_false_of_mem hcount (hk' ▸ hc)) (hothers hc k' hk')

/-- A statement of the holder: no other call holds the lock. -/
theorem guards_inside (hresp : L.Respected P) (hprot : L.Protects P J A) (h : L.Guards J A s)
    (hcall : s.calls[i]? = some (.inl k)) (hk : L.holds k = true) :
    L.Guards J A (s.put i (P.exec t s.shared k)) := by
  obtain ⟨before, after, hcalls, hset⟩ := Program.split_calls hcall
  have hcount := h.holders
  rw [hcalls, countP_around, heldBy, hk, Bool.toNat_true] at hcount
  have htaken : L.isTaken s.shared = true := by
    cases ht : L.isTaken s.shared with
    | true => rfl
    | false =>
      rw [ht, Bool.toNat_false] at hcount
      omega
  have hnone : (before ++ after).countP L.heldBy = 0 := by
    rw [htaken, Bool.toNat_true] at hcount
    omega
  have hsame := hresp.inside t s.shared k hk htaken
  have hown : A s.shared k := h.relies _ (List.mem_of_getElem? hcall) k rfl
  obtain ⟨hfree, hrelies, hframe⟩ := hprot.inside t s.shared k hk hown
  constructor
  · rw [System.put_calls, System.put_shared, hset, countP_around, hnone, hsame, Nat.zero_add]
  · intro hopen
    rw [System.put_shared, hsame] at hopen
    exact hfree hopen
  · intro c hc
    rw [System.put_calls, hset] at hc
    rcases mem_around.mp hc with rfl | hc
    · exact hrelies
    · intro k' hk'
      exact hframe k' (holds_eq_false_of_mem hnone (hk' ▸ hc))
        (h.relies c (hcalls ▸ mem_around.mpr (.inr hc)) k' hk')

/-- The lock guards what it protects in every interleaving. -/
theorem guards_step (hresp : L.Respected P) (hprot : L.Protects P J A) (s : System σ κ ρ)
    (m : Move ι τ) (h : L.Guards J A s) : L.Guards J A (P.step s m) := by
  obtain ⟨r, -, hstep⟩ | ⟨i, t, k, -, hcall, hstep⟩ | hstep := P.step_cases s m
  · rw [hstep]
    exact guards_begin hresp hprot h r
  · rw [hstep]
    cases hk : L.holds k with
    | false => exact guards_outside hresp hprot h hcall hk
    | true => exact guards_inside hresp hprot h hcall hk
  · rw [hstep]
    exact h

end Step

end Lock

end Interleaving

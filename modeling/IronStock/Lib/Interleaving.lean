import Mathlib.Algebra.BigOperators.Group.List.Basic
import Mathlib.Algebra.GroupWithZero.Nat
import IronStock.Lib.Runs

/-!
# Calls that interleave

A call is a sequence of atomic statements on a shared state. A system holds the
shared state and every call made so far, each still under way or finished with
its result, and a move either begins a call or runs the next statement of one.
A run of moves is thus any interleaving of any number of calls. What a
statement sees of the outside world is an argument of the move.
-/
namespace Interleaving

variable {σ ι κ ρ τ : Type*}

/-- How a request becomes a call, and what the next statement of a call does:
it leaves the rest of the call or the call's result. -/
structure Program (σ ι κ ρ τ : Type*) where
  enter : ι → κ
  exec : τ → σ → κ → σ × (κ ⊕ ρ)

/-- The place of a call in the list is its name. -/
structure System (σ κ ρ : Type*) where
  shared : σ
  calls : List (κ ⊕ ρ)

inductive Move (ι τ : Type*)
  | begin (request : ι)
  | advance (i : Nat) (t : τ)

namespace System

def put (s : System σ κ ρ) (i : Nat) (r : σ × (κ ⊕ ρ)) : System σ κ ρ :=
  ⟨r.1, s.calls.set i r.2⟩

@[simp] theorem put_shared (s : System σ κ ρ) (i : Nat) (r : σ × (κ ⊕ ρ)) :
    (s.put i r).shared = r.1 := rfl
@[simp] theorem put_calls (s : System σ κ ρ) (i : Nat) (r : σ × (κ ⊕ ρ)) :
    (s.put i r).calls = s.calls.set i r.2 := rfl

end System

namespace Program

variable (P : Program σ ι κ ρ τ)

def step (s : System σ κ ρ) : Move ι τ → System σ κ ρ
  | .begin r => { s with calls := s.calls ++ [.inl (P.enter r)] }
  | .advance i t =>
    match s.calls[i]? with
    | some (.inl k) => s.put i (P.exec t s.shared k)
    | _ => s

/-- What a move can do. -/
theorem step_cases (s : System σ κ ρ) (m : Move ι τ) :
    (∃ r, m = .begin r ∧ P.step s m = { s with calls := s.calls ++ [.inl (P.enter r)] }) ∨
      (∃ i t k, m = .advance i t ∧ s.calls[i]? = some (.inl k) ∧
        P.step s m = s.put i (P.exec t s.shared k)) ∨
      P.step s m = s := by
  cases m with
  | begin r => exact .inl ⟨r, rfl, rfl⟩
  | advance i t =>
    simp only [step]
    split
    · next k hk => exact .inr (.inl ⟨i, t, k, rfl, hk, rfl⟩)
    · exact .inr (.inr rfl)

/-- A call that runs alone for up to `n` statements. -/
def alone (t : τ) : Nat → σ → κ → σ × (κ ⊕ ρ)
  | 0, s, k => (s, .inl k)
  | n + 1, s, k =>
    match P.exec t s k with
    | (s', .inl k') => alone t n s' k'
    | r => r

variable {P}

theorem alone_inl {t : τ} {n : Nat} {s s' : σ} {k k' : κ} (h : P.exec t s k = (s', .inl k')) :
    P.alone t (n + 1) s k = P.alone t n s' k' := by
  rw [alone, h]

variable (P)

/-! ## A shared invariant and an assertion for each call -/

/-- The shared state satisfies `G` and every call its assertion `L`. -/
structure Holds (G : σ → Prop) (L : σ → κ ⊕ ρ → Prop) (s : System σ κ ρ) : Prop where
  shared : G s.shared
  calls : ∀ c ∈ s.calls, L s.shared c

/-- A statement that keeps the shared invariant, establishes the assertion of
its own call and disturbs the assertion of no other. -/
structure Keeps (G : σ → Prop) (L : σ → κ ⊕ ρ → Prop) (x : σ) (r : σ × (κ ⊕ ρ)) : Prop where
  shared : G r.1
  own : L r.1 r.2
  others : ∀ c, L x c → L r.1 c

theorem holds_step {G : σ → Prop} {L : σ → κ ⊕ ρ → Prop} (s : System σ κ ρ) (m : Move ι τ)
    (hs : Holds G L s) (hbegin : ∀ r, m = .begin r → L s.shared (.inl (P.enter r)))
    (hadvance : ∀ i t k, m = .advance i t → s.calls[i]? = some (.inl k) →
      Keeps G L s.shared (P.exec t s.shared k)) :
    Holds G L (P.step s m) := by
  obtain ⟨r, hm, h⟩ | ⟨i, t, k, hm, hk, h⟩ | h := P.step_cases s m
  · rw [h]
    refine ⟨hs.shared, fun c hc => ?_⟩
    rcases List.mem_append.mp hc with hc | hc
    · exact hs.calls c hc
    · rw [List.mem_singleton] at hc
      exact hc ▸ hbegin r hm
  · rw [h]
    have hkeeps := hadvance i t k hm hk
    refine ⟨hkeeps.shared, fun c hc => ?_⟩
    rcases List.mem_or_eq_of_mem_set hc with hc | rfl
    · exact hkeeps.others c (hs.calls c hc)
    · exact hkeeps.own
  · rw [h]
    exact hs

/-! ## What the calls hold together -/

/-- The sum of a weight over all calls. -/
def weight (w : κ ⊕ ρ → Nat) (calls : List (κ ⊕ ρ)) : Nat := (calls.map w).sum

theorem weight_append (w : κ ⊕ ρ → Nat) (calls calls' : List (κ ⊕ ρ)) :
    weight w (calls ++ calls') = weight w calls + weight w calls' := by
  simp [weight]

theorem weight_set (w : κ ⊕ ρ → Nat) {calls : List (κ ⊕ ρ)} {i : Nat} {c : κ ⊕ ρ}
    (h : calls[i]? = some c) (c' : κ ⊕ ρ) :
    weight w (calls.set i c') + w c = weight w calls + w c' := by
  induction calls generalizing i with
  | nil => simp at h
  | cons a calls ih =>
    cases i with
    | zero =>
      simp only [List.getElem?_cons_zero, Option.some.injEq] at h
      simp only [h, weight, List.set_cons_zero, List.map_cons, List.sum_cons]
      omega
    | succ i =>
      have hrest := ih (by simpa using h)
      simp only [weight, List.set_cons_succ, List.map_cons, List.sum_cons] at hrest ⊢
      omega

theorem weight_eq_countP (p : κ ⊕ ρ → Bool) (calls : List (κ ⊕ ρ)) :
    weight (fun c => if p c then 1 else 0) calls = calls.countP p := by
  induction calls with
  | nil => rfl
  | cons c calls ih =>
    simp only [weight, List.map_cons, List.sum_cons] at ih ⊢
    rw [ih, List.countP_cons]
    omega

/-- A statement adds its own result to a count. -/
theorem countP_set_le (p : κ ⊕ ρ → Bool) {calls : List (κ ⊕ ρ)} {i : Nat} {c : κ ⊕ ρ}
    (h : calls[i]? = some c) (c' : κ ⊕ ρ) :
    (calls.set i c').countP p ≤ calls.countP p + if p c' then 1 else 0 := by
  have hset := weight_set (fun c => if p c then 1 else 0) h c'
  simp only [weight_eq_countP] at hset
  omega

/-- What at most one result says is said at most once, if a result says it first
only. -/
theorem countP_set_le_one {p : κ ⊕ ρ → Bool} {calls : List (κ ⊕ ρ)} {i : Nat} {c c' : κ ⊕ ρ}
    (h : calls[i]? = some c) (hone : calls.countP p ≤ 1)
    (hfirst : p c' = true → calls.countP p = 0) : (calls.set i c').countP p ≤ 1 := by
  have hset := countP_set_le p h c'
  cases hp : p c' with
  | true =>
    rw [hp, hfirst hp] at hset
    simpa using hset
  | false =>
    rw [hp] at hset
    exact Nat.le_trans hset hone

/-- The weight of one call is part of the whole. -/
theorem le_weight (w : κ ⊕ ρ → Nat) {calls : List (κ ⊕ ρ)} {i : Nat} {c : κ ⊕ ρ}
    (h : calls[i]? = some c) : w c ≤ weight w calls := by
  induction calls generalizing i with
  | nil => simp at h
  | cons a calls ih =>
    simp only [weight, List.map_cons, List.sum_cons] at ih ⊢
    cases i with
    | zero =>
      simp only [List.getElem?_cons_zero, Option.some.injEq] at h
      subst h
      omega
    | succ i =>
      have hrest := ih (by simpa using h)
      omega

theorem weight_le_weight {w w' : κ ⊕ ρ → Nat} (h : ∀ c, w c ≤ w' c) (calls : List (κ ⊕ ρ)) :
    weight w calls ≤ weight w' calls := by
  induction calls with
  | nil => exact Nat.le_refl 0
  | cons c calls ih => exact Nat.add_le_add (h c) ih

/-- What a statement adds to the weight of its call it pays from an account of
the shared state, so the calls together never hold more than the account. -/
theorem weight_le_step (w : κ ⊕ ρ → Nat) (account : σ → Nat) (s : System σ κ ρ) (m : Move ι τ)
    (hs : weight w s.calls ≤ account s.shared)
    (hbegin : ∀ r, m = .begin r → w (.inl (P.enter r)) = 0)
    (hadvance : ∀ i t k, m = .advance i t → s.calls[i]? = some (.inl k) →
      w (P.exec t s.shared k).2 + account s.shared ≤
        w (.inl k) + account (P.exec t s.shared k).1) :
    weight w (P.step s m).calls ≤ account (P.step s m).shared := by
  obtain ⟨r, hm, h⟩ | ⟨i, t, k, hm, hk, h⟩ | h := P.step_cases s m
  · rw [h, weight_append]
    simpa [weight, hbegin r hm] using hs
  · rw [h]
    have hpay := hadvance i t k hm hk
    have hset := weight_set w hk (P.exec t s.shared k).2
    simp only [System.put_calls, System.put_shared]
    omega
  · rw [h]
    exact hs

/-! ## What the calls report -/

/-- The calls around one of them. -/
theorem split_calls {calls : List (κ ⊕ ρ)} {i : Nat} {c : κ ⊕ ρ} (h : calls[i]? = some c) :
    ∃ before after, calls = before ++ c :: after ∧
      ∀ c', calls.set i c' = before ++ c' :: after := by
  induction calls generalizing i with
  | nil => simp at h
  | cons a calls ih =>
    cases i with
    | zero =>
      obtain rfl : a = c := by simpa using h
      exact ⟨[], calls, rfl, fun c' => rfl⟩
    | succ i =>
      obtain ⟨before, after, hcalls, hset⟩ := ih (by simpa using h)
      exact ⟨a :: before, after, by rw [hcalls]; rfl, fun c' => by simp [hset]⟩

/-- What the calls hold is what the shared state has given out, in any order, if
each statement gives out and takes back on behalf of its own call. -/
theorem held_step {γ : Type*} (f : κ ⊕ ρ → Option γ) (given : σ → List γ) (s : System σ κ ρ)
    (m : Move ι τ) (hs : (given s.shared).Perm (s.calls.filterMap f))
    (hbegin : ∀ r, f (.inl (P.enter r)) = none)
    (hadvance : ∀ i t k, m = .advance i t → s.calls[i]? = some (.inl k) → ∀ rest,
      (given s.shared).Perm ((f (.inl k)).toList ++ rest) →
        (given (P.exec t s.shared k).1).Perm ((f (P.exec t s.shared k).2).toList ++ rest)) :
    (given (P.step s m).shared).Perm ((P.step s m).calls.filterMap f) := by
  have haround : ∀ (c : κ ⊕ ρ) (before after : List (κ ⊕ ρ)),
      ((before ++ c :: after).filterMap f).Perm
        ((f c).toList ++ (before.filterMap f ++ after.filterMap f)) := by
    intro c before after
    rw [List.filterMap_append, List.filterMap_cons]
    cases f c with
    | none => exact List.Perm.refl _
    | some a => exact List.perm_middle
  obtain ⟨r, -, h⟩ | ⟨i, t, k, hm, hk, h⟩ | h := P.step_cases s m
  · rw [h, List.filterMap_append]
    simpa [hbegin] using hs
  · rw [h, System.put_calls, System.put_shared]
    obtain ⟨before, after, hcalls, hset⟩ := split_calls hk
    rw [hcalls] at hs
    rw [hset]
    have hrest := hadvance i t k hm hk _ (hs.trans (haround _ before after))
    exact hrest.trans (haround _ before after).symm
  · rw [h]
    exact hs

/-- The shared state keeps a log of what the calls report, if a statement reports
what its call reported before, or is the first to report anything. -/
theorem filterMap_step {γ : Type*} (f : κ ⊕ ρ → Option γ) (log : σ → List γ) (s : System σ κ ρ)
    (m : Move ι τ) (hs : s.calls.filterMap f = log s.shared)
    (hbegin : ∀ r, f (.inl (P.enter r)) = none)
    (hadvance : ∀ (i : Nat) t k, s.calls[i]? = some (.inl k) →
      (f (P.exec t s.shared k).2 = f (.inl k) ∧ log (P.exec t s.shared k).1 = log s.shared) ∨
        (log s.shared = [] ∧
          log (P.exec t s.shared k).1 = (f (P.exec t s.shared k).2).toList)) :
    (P.step s m).calls.filterMap f = log (P.step s m).shared := by
  obtain ⟨r, -, h⟩ | ⟨i, t, k, -, hk, h⟩ | h := P.step_cases s m
  · rw [h, List.filterMap_append, hs]
    simp [hbegin]
  · rw [h, System.put_calls, System.put_shared]
    obtain ⟨before, after, hcalls, hset⟩ := split_calls hk
    rw [hcalls] at hs
    rw [hset]
    rcases hadvance i t k hk with ⟨hsame, hlog⟩ | ⟨hempty, hlog⟩
    · rw [hlog, ← hs]
      simp only [List.filterMap_append, List.filterMap_cons, hsame]
    · rw [hempty, List.filterMap_append, List.filterMap_cons, List.append_eq_nil_iff] at hs
      obtain ⟨hbefore, hafter⟩ := hs
      have hafter : after.filterMap f = [] := by
        cases hf : f (.inl k) with
        | none => simpa [hf] using hafter
        | some c => simp [hf] at hafter
      rw [hlog, List.filterMap_append, List.filterMap_cons, hbefore, hafter]
      cases f (P.exec t s.shared k).2 <;> rfl
  · rw [h]
    exact hs

/-! ## One call inside at a time -/

/-- Beside the only call inside, put anything: all others are outside. -/
theorem mem_set_of_one {p : κ ⊕ ρ → Bool} {calls : List (κ ⊕ ρ)} {i : Nat} {c c' : κ ⊕ ρ}
    (h : calls[i]? = some c) (hc : p c = true) (hone : calls.countP p ≤ 1) {d : κ ⊕ ρ}
    (hd : d ∈ calls.set i c') : d = c' ∨ p d = false := by
  obtain ⟨before, after, hcalls, hset⟩ := split_calls h
  rw [hcalls, List.countP_append, List.countP_cons, hc] at hone
  simp only [if_true] at hone
  have hbefore : before.countP p = 0 := by omega
  have hafter : after.countP p = 0 := by omega
  rw [hset] at hd
  rcases List.mem_append.mp hd with hd | hd
  · exact .inr (by simpa using List.countP_eq_zero.mp hbefore d hd)
  · rcases List.mem_cons.mp hd with rfl | hd
    · exact .inl rfl
    · exact .inr (by simpa using List.countP_eq_zero.mp hafter d hd)

/-- At most one call is inside. While none is the state satisfies `J`, and the one
that is relies on `A`. -/
structure Solo (inside : κ ⊕ ρ → Bool) (J : σ → Prop) (A : σ → κ ⊕ ρ → Prop)
    (s : System σ κ ρ) : Prop where
  one : s.calls.countP inside ≤ 1
  free : (∀ c ∈ s.calls, inside c = false) → J s.shared
  relies : ∀ c ∈ s.calls, inside c = true → A s.shared c

/-- A statement that stays outside and disturbs nothing, one that leaves, and one
that stays inside or enters while nobody is. -/
inductive Tidy (inside : κ ⊕ ρ → Bool) (J : σ → Prop) (A : σ → κ ⊕ ρ → Prop)
    (s : System σ κ ρ) (c : κ ⊕ ρ) (r : σ × (κ ⊕ ρ)) : Prop
  | outside (hc : inside c = false) (hr : inside r.2 = false) (hJ : J s.shared → J r.1)
      (hA : ∀ d, A s.shared d → A r.1 d)
  | leaves (hc : inside c = true) (hr : inside r.2 = false) (hJ : J r.1)
  | within (hc : inside c = true ∨ ∀ d ∈ s.calls, inside d = false) (hr : inside r.2 = true)
      (hA : A r.1 r.2)

theorem solo_put {inside : κ ⊕ ρ → Bool} {J : σ → Prop} {A : σ → κ ⊕ ρ → Prop}
    {s : System σ κ ρ} {i : Nat} {c : κ ⊕ ρ} {r : σ × (κ ⊕ ρ)} (h : Solo inside J A s)
    (hc : s.calls[i]? = some c) (htidy : Tidy inside J A s c r) :
    Solo inside J A (s.put i r) := by
  have hothers : ∀ c', inside c = false → (∀ d ∈ s.calls.set i c', inside d = false) →
      ∀ d ∈ s.calls, inside d = false := by
    intro c' hout hnone d hd
    obtain ⟨before, after, hcalls, hset⟩ := split_calls hc
    rw [hcalls] at hd
    rw [hset] at hnone
    rcases List.mem_append.mp hd with hd | hd
    · exact hnone d (List.mem_append_left _ hd)
    · rcases List.mem_cons.mp hd with rfl | hd
      · exact hout
      · exact hnone d (List.mem_append_right _ (List.mem_cons_of_mem c' hd))
  cases htidy with
  | outside hout hr hJ hA =>
    refine ⟨countP_set_le_one hc h.one (by simp [hr]), fun hnone => ?_, fun d hd hin => ?_⟩
    · exact hJ (h.free (hothers r.2 hout hnone))
    · rcases List.mem_or_eq_of_mem_set hd with hd | rfl
      · exact hA d (h.relies d hd hin)
      · rw [hr] at hin
        cases hin
  | leaves hin hr hJ =>
    refine ⟨countP_set_le_one hc h.one (by simp [hr]), fun _ => hJ, fun d hd hd' => ?_⟩
    rcases mem_set_of_one hc hin h.one hd with rfl | hout
    · rw [hr] at hd'
      cases hd'
    · rw [hout] at hd'
      cases hd'
  | within hin hr hA =>
    have halone : ∀ d ∈ s.calls.set i r.2, d = r.2 ∨ inside d = false := by
      intro d hd
      rcases hin with hin | hnone
      · exact mem_set_of_one hc hin h.one hd
      · exact (List.mem_or_eq_of_mem_set hd).symm.imp id (hnone d)
    have hi : i < s.calls.length := (List.getElem?_eq_some_iff.mp hc).1
    refine ⟨?_, fun hnone => ?_, fun d hd hd' => ?_⟩
    · rcases hin with hin | hnone
      · have hset := weight_set (fun c => if inside c then 1 else 0) hc r.2
        simp only [weight_eq_countP, hin, hr] at hset
        have hone := h.one
        simp only [System.put_calls]
        omega
      · exact countP_set_le_one hc h.one
          (fun _ => List.countP_eq_zero.mpr fun d hd => by simp [hnone d hd])
    · have hown := hnone r.2 (List.mem_set hi r.2)
      rw [hr] at hown
      cases hown
    · rcases halone d hd with rfl | hout
      · exact hA
      · rw [hout] at hd'
        cases hd'

theorem solo_begin {inside : κ ⊕ ρ → Bool} {J : σ → Prop} {A : σ → κ ⊕ ρ → Prop}
    {s : System σ κ ρ} (h : Solo inside J A s) {c : κ ⊕ ρ} (hc : inside c = false) :
    Solo inside J A { s with calls := s.calls ++ [c] } where
  one := by
    rw [List.countP_append, List.countP_singleton, hc]
    exact h.one
  free hnone := h.free fun d hd => hnone d (List.mem_append_left _ hd)
  relies d hd hin := by
    rcases List.mem_append.mp hd with hd | hd
    · exact h.relies d hd hin
    · rw [List.mem_singleton.mp hd, hc] at hin
      cases hin

end Program

end Interleaving

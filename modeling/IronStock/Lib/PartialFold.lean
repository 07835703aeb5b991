import Mathlib.Data.List.Basic

/-!
# Operations whose meaning may be missing

A list of operations is carried out on a stored state, one after the other. What
each of them should do to the part of the state that it is about is a partial
function: an operation without a meaning is to be refused, so that a list that is
not refused leaves the fold of the meanings.
-/
namespace PartialFold

variable {σ τ ω : Type*}

/-- `C` holds of every operation, in what the meanings of those before it leave. -/
def EveryStep (meaning : τ → ω → Option τ) (C : τ → ω → Prop) : τ → List ω → Prop
  | _, [] => True
  | t, o :: os => C t o ∧ ∀ t', meaning t o = some t' → EveryStep meaning C t' os

/-- What is stored after each initial part of a list is the fold of that part. -/
def Realizes (meaning : τ → ω → Option τ) (step : σ → ω → σ) (view : σ → τ) (s : σ)
    (os : List ω) : Prop :=
  ∀ start, start <+: os → start.foldlM meaning (view s) = some (view (start.foldl step s))

variable {meaning : τ → ω → Option τ} {step : σ → ω → σ} {view : σ → τ}

theorem Realizes.nil (s : σ) : Realizes meaning step view s [] := by
  intro start h
  rw [List.prefix_nil.1 h]
  rfl

theorem realizes_cons_iff {s : σ} {o : ω} {os : List ω} :
    Realizes meaning step view s (o :: os) ↔
      meaning (view s) o = some (view (step s o)) ∧ Realizes meaning step view (step s o) os := by
  constructor
  · intro h
    have hfirst := h [o] (by simp)
    rw [List.foldlM_cons, List.foldl_cons, List.foldl_nil] at hfirst
    have ho : meaning (view s) o = some (view (step s o)) := by
      cases hm : meaning (view s) o with
      | none => simp [hm] at hfirst
      | some t => simpa [hm] using hfirst
    refine ⟨ho, fun start hstart => ?_⟩
    have hrest := h (o :: start) ((List.prefix_cons_inj o).2 hstart)
    rw [List.foldlM_cons, ho] at hrest
    exact hrest
  · rintro ⟨ho, hrest⟩ start hstart
    cases start with
    | nil => rfl
    | cons a start =>
      obtain ⟨rfl, htail⟩ := List.cons_prefix_cons.1 hstart
      rw [List.foldlM_cons, ho]
      exact hrest start htail

/-- If `C` is what it takes for one step to do what it means, a list is realized
exactly if `C` holds of every operation in its turn. -/
theorem realizes_iff {I : σ → Prop} {C : τ → ω → Prop} (hI : ∀ s o, I s → I (step s o))
    (hstep : ∀ s o, I s → (meaning (view s) o = some (view (step s o)) ↔ C (view s) o)) {s : σ}
    (hs : I s) (os : List ω) :
    Realizes meaning step view s os ↔ EveryStep meaning C (view s) os := by
  induction os generalizing s with
  | nil => exact iff_of_true (Realizes.nil s) trivial
  | cons o os ih =>
    rw [realizes_cons_iff, EveryStep, ← hstep s o hs]
    refine and_congr_right fun ho => ?_
    rw [ih (hI s o hs)]
    constructor
    · intro h t ht
      rw [ho] at ht
      cases ht
      exact h
    · intro h
      exact h _ ho

/-! ## Lists of partial results -/

section
variable {α β : Type} {f : α → Option β}

theorem mapM_cons_eq_some {a : α} {l : List α} {bs : List β} :
    (a :: l).mapM f = some bs ↔ ∃ b rest, f a = some b ∧ l.mapM f = some rest ∧ bs = b :: rest := by
  rw [List.mapM_cons]
  cases f a with
  | none => simp
  | some b => cases l.mapM f <;> simp [eq_comm]

/-- A list that maps is mapped place by place. -/
theorem forall₂_of_mapM {l : List α} {bs : List β} (h : l.mapM f = some bs) :
    List.Forall₂ (fun a b => f a = some b) l bs := by
  induction l generalizing bs with
  | nil =>
    obtain rfl : [] = bs := Option.some.inj h
    exact List.Forall₂.nil
  | cons a l ih =>
    obtain ⟨b, rest, hb, hrest, rfl⟩ := mapM_cons_eq_some.mp h
    exact List.Forall₂.cons hb (ih hrest)

theorem exists_mem_of_mapM {l : List α} {bs : List β} (h : l.mapM f = some bs) {a : α}
    (ha : a ∈ l) : ∃ b ∈ bs, f a = some b := by
  induction l generalizing bs with
  | nil => cases ha
  | cons x l ih =>
    obtain ⟨b, rest, hx, hl, rfl⟩ := mapM_cons_eq_some.1 h
    obtain rfl | ha := List.mem_cons.1 ha
    · exact ⟨b, List.mem_cons_self, hx⟩
    · obtain ⟨c, hc, hac⟩ := ih hl ha
      exact ⟨c, List.mem_cons_of_mem _ hc, hac⟩

theorem exists_of_mem_mapM {l : List α} {bs : List β} (h : l.mapM f = some bs) {b : β}
    (hb : b ∈ bs) : ∃ a ∈ l, f a = some b := by
  induction l generalizing bs with
  | nil =>
    obtain rfl : [] = bs := Option.some.inj h
    cases hb
  | cons x l ih =>
    obtain ⟨c, rest, hx, hl, rfl⟩ := mapM_cons_eq_some.1 h
    obtain rfl | hb := List.mem_cons.1 hb
    · exact ⟨x, List.mem_cons_self, hx⟩
    · obtain ⟨a, ha, hab⟩ := ih hl hb
      exact ⟨a, List.mem_cons_of_mem _ ha, hab⟩

theorem mapM_eq_some_of_forall {l : List α} (h : ∀ a ∈ l, (f a).isSome = true) :
    ∃ bs, l.mapM f = some bs := by
  induction l with
  | nil => exact ⟨[], rfl⟩
  | cons a l ih =>
    obtain ⟨b, hb⟩ := Option.isSome_iff_exists.1 (h a List.mem_cons_self)
    obtain ⟨bs, hbs⟩ := ih fun c hc => h c (List.mem_cons_of_mem _ hc)
    exact ⟨b :: bs, mapM_cons_eq_some.2 ⟨b, bs, hb, hbs, rfl⟩⟩

end

end PartialFold

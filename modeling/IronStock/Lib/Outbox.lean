import Mathlib.Data.List.Perm.Basic

/-!
# An outbox

Entries are queued once each and wait in the order they were queued in. A
server takes an entry or refuses it, and an entry that has been refused `limit`
times is dropped. An entry is tried only after every entry waiting ahead of it
has been refused before, and one that was refused is taken only while nothing
queued behind it has been.
-/
namespace Outbox

variable {α : Type*}

structure State (α : Type*) where
  queued : List α
  /-- what waits, each with the number of its refusals -/
  waiting : List (α × Nat)
  delivered : List α
  dropped : List α
  /-- the entry of every refusal -/
  refusals : List α

def State.empty : State α := ⟨[], [], [], [], []⟩

/-- The waiting entries that have not been refused. -/
def untried (waiting : List (α × Nat)) : List α :=
  (waiting.filter fun e => e.2 = 0).map Prod.fst

inductive Step (limit : Nat) : State α → State α → Prop
  | enqueue (s : State α) (x : α) (fresh : x ∉ s.queued) :
      Step limit s { s with queued := s.queued ++ [x], waiting := s.waiting ++ [(x, 0)] }
  | deliver (s : State α) (pre post : List (α × Nat)) (x : α) (n : Nat)
      (at_x : s.waiting = pre ++ (x, n) :: post) (tried : ∀ e ∈ pre, 0 < e.2)
      (ahead : 0 < n → ∀ a ∈ s.delivered, ¬ [x, a].Sublist s.queued) :
      Step limit s { s with waiting := pre ++ post, delivered := s.delivered ++ [x] }
  | keep (s : State α) (pre post : List (α × Nat)) (x : α) (n : Nat)
      (at_x : s.waiting = pre ++ (x, n) :: post) (tried : ∀ e ∈ pre, 0 < e.2)
      (below : n + 1 < limit) :
      Step limit s
        { s with waiting := pre ++ (x, n + 1) :: post, refusals := s.refusals ++ [x] }
  | drop (s : State α) (pre post : List (α × Nat)) (x : α) (n : Nat)
      (at_x : s.waiting = pre ++ (x, n) :: post) (tried : ∀ e ∈ pre, 0 < e.2)
      (reached : limit ≤ n + 1) :
      Step limit s
        { s with
          waiting := pre ++ post
          dropped := s.dropped ++ [x]
          refusals := s.refusals ++ [x] }

/-! ## Order in a list without repetitions -/

/-- Two sublists that meet in one element are one. -/
theorem sublist_through {l as bs : List α} {x : α} (hl : l.Nodup)
    (has : (as ++ [x]).Sublist l) (hbs : (x :: bs).Sublist l) : (as ++ x :: bs).Sublist l := by
  obtain ⟨u, v, rfl, hu, hv⟩ := List.append_sublist_iff.1 has
  have hxv : x ∈ v := List.singleton_sublist.1 hv
  have hxu : x ∉ u := fun h => (List.nodup_append.1 hl).2.2 x h x hxv rfl
  apply List.Sublist.append hu
  obtain ⟨c, d, hcd, hc, hd⟩ := List.sublist_append_iff.1 hbs
  cases c with
  | nil => rwa [hcd]
  | cons y c =>
    have hy : x = y := by simpa using congrArg List.head? hcd
    exact absurd (hc.subset (hy ▸ List.mem_cons_self)) hxu

/-- A sublist none of whose elements stands behind `x` can be followed by it. -/
theorem sublist_concat {l as : List α} {x : α} (hl : l.Nodup) (hx : x ∈ l) (hxas : x ∉ as)
    (has : as.Sublist l) (ahead : ∀ a ∈ as, ¬ [x, a].Sublist l) : (as ++ [x]).Sublist l := by
  obtain ⟨u, v, rfl⟩ := List.append_of_mem hx
  obtain ⟨c, d, rfl, hc, hd⟩ := List.sublist_append_iff.1 has
  have hd' : d = [] := by
    apply List.eq_nil_iff_forall_not_mem.2
    intro a ha
    have hne : a ≠ x := fun h => hxas (List.mem_append_right _ (h ▸ ha))
    have hav : a ∈ v := by simpa [hne] using hd.subset ha
    apply ahead a (List.mem_append_right _ ha)
    exact (List.cons_sublist_cons.2 (List.singleton_sublist.2 hav)).trans
      (List.sublist_append_right _ _)
  rw [hd', List.append_nil]
  exact hc.append (List.singleton_sublist.2 List.mem_cons_self)

/-! ## Entries not yet tried -/

theorem untried_append (v w : List (α × Nat)) : untried (v ++ w) = untried v ++ untried w := by
  simp [untried]

@[simp] theorem untried_cons_zero (x : α) (w : List (α × Nat)) :
    untried ((x, 0) :: w) = x :: untried w := by
  simp [untried]

theorem untried_cons_pos (x : α) {n : Nat} (hn : 0 < n) (w : List (α × Nat)) :
    untried ((x, n) :: w) = untried w := by
  simp [untried, Nat.ne_of_gt hn]

theorem untried_eq_nil {w : List (α × Nat)} (h : ∀ e ∈ w, 0 < e.2) : untried w = [] := by
  simp only [untried, List.map_eq_nil_iff, List.filter_eq_nil_iff, decide_eq_true_eq]
  intro e he h0
  exact absurd (h e he) (by omega)

theorem untried_sublist (w : List (α × Nat)) : (untried w).Sublist (w.map Prod.fst) :=
  List.filter_sublist.map _

/-- What waits besides the entry. -/
theorem others_sublist {s : State α} {pre post : List (α × Nat)} {x : α} {n : Nat}
    (at_x : s.waiting = pre ++ (x, n) :: post) : (pre ++ post).Sublist s.waiting := by
  rw [at_x]
  exact (List.sublist_cons_self _ _).append_left pre

/-! ## The invariant -/

variable [DecidableEq α] {limit : Nat} {s t : State α}

structure Valid (limit : Nat) (s : State α) : Prop where
  /-- everything queued has been delivered or dropped or waits -/
  parts : s.queued.Perm (s.delivered ++ s.dropped ++ s.waiting.map Prod.fst)
  nodup : s.queued.Nodup
  waiting : (s.waiting.map Prod.fst).Sublist s.queued
  tried_first : s.waiting.Pairwise fun a b => 0 < b.2 → 0 < a.2
  order : (s.delivered ++ untried s.waiting).Sublist s.queued
  known : ∀ x ∈ s.refusals, x ∈ s.queued
  counted : ∀ e ∈ s.waiting, s.refusals.count e.1 = e.2 ∧ e.2 < limit
  dropped : ∀ x ∈ s.dropped, s.refusals.count x = limit

theorem valid_empty : Valid limit (State.empty : State α) := by
  constructor <;> simp [State.empty, untried]

namespace Valid

theorem delivered_sublist (h : Valid limit s) : s.delivered.Sublist s.queued :=
  (List.sublist_append_left _ _).trans h.order

theorem split_nodup (h : Valid limit s) :
    (s.delivered ++ s.dropped ++ s.waiting.map Prod.fst).Nodup := h.parts.nodup_iff.1 h.nodup

/-! ## What a step keeps -/

theorem enqueue (h : Valid limit s) (hlimit : 0 < limit) {x : α} (fresh : x ∉ s.queued) :
    Valid limit { s with queued := s.queued ++ [x], waiting := s.waiting ++ [(x, 0)] } where
  parts := by
    have hp := h.parts.append_right [x]
    simpa using hp
  nodup := by
    apply List.nodup_append.2
    simpa using ⟨h.nodup, fun a ha hax => fresh (hax ▸ ha)⟩
  waiting := by simpa using h.waiting.append_right [x]
  tried_first := by
    apply List.pairwise_append.2
    simpa using h.tried_first
  order := by simpa [untried_append, untried] using h.order.append_right [x]
  known := by
    intro y hy
    exact List.mem_append_left _ (h.known y hy)
  counted := by
    intro e he
    rcases List.mem_append.1 he with he | he
    · exact h.counted e he
    · have hex : e = (x, 0) := by simpa using he
      rw [hex]
      exact ⟨List.count_eq_zero_of_not_mem fun hx => fresh (h.known x hx), hlimit⟩
  dropped := h.dropped

section
variable {pre post : List (α × Nat)} {x : α} {n : Nat}

theorem mem_queued (h : Valid limit s) (at_x : s.waiting = pre ++ (x, n) :: post) :
    x ∈ s.queued :=
  h.waiting.subset (by simp [at_x])

/-- The entry that is tried is told from everything else. -/
theorem apart (h : Valid limit s) (at_x : s.waiting = pre ++ (x, n) :: post) :
    x ∉ s.delivered ∧ x ∉ s.dropped ∧ ∀ e ∈ pre ++ post, e.1 ≠ x := by
  have hn := h.split_nodup
  rw [at_x] at hn
  simp only [List.map_append, List.map_cons, List.nodup_append, List.nodup_cons,
    List.mem_append, List.mem_cons, List.mem_map] at hn
  grind

/-- What was not tried and stands behind the entry comes after all deliveries. -/
theorem order_behind (h : Valid limit s) (at_x : s.waiting = pre ++ (x, n) :: post)
    (tried : ∀ e ∈ pre, 0 < e.2) : (s.delivered ++ untried post).Sublist s.queued := by
  have horder := h.order
  rw [at_x, untried_append, untried_eq_nil tried, List.nil_append] at horder
  rcases Nat.eq_zero_or_pos n with rfl | hn
  · rw [untried_cons_zero] at horder
    exact ((List.sublist_cons_self _ _).append_left _).trans horder
  · rwa [untried_cons_pos x hn] at horder

theorem deliver (h : Valid limit s) (at_x : s.waiting = pre ++ (x, n) :: post)
    (tried : ∀ e ∈ pre, 0 < e.2) (ahead : 0 < n → ∀ a ∈ s.delivered, ¬ [x, a].Sublist s.queued) :
    Valid limit { s with waiting := pre ++ post, delivered := s.delivered ++ [x] } where
  parts := by
    apply h.parts.trans
    apply List.perm_iff_count.2
    intro a
    simp only [at_x, List.map_append, List.map_cons, List.count_append, List.count_cons,
      List.count_nil]
    omega
  nodup := h.nodup
  waiting := ((others_sublist at_x).map _).trans h.waiting
  tried_first := h.tried_first.sublist (others_sublist at_x)
  order := by
    have horder := h.order
    rw [at_x, untried_append, untried_eq_nil tried, List.nil_append] at horder
    rw [untried_append, untried_eq_nil tried, List.nil_append]
    simp only [List.append_assoc, List.singleton_append]
    rcases Nat.eq_zero_or_pos n with rfl | hn
    · rwa [untried_cons_zero] at horder
    · -- a retried entry stands ahead of all that was not tried
      have hx : x ∉ s.delivered := (h.apart at_x).1
      apply sublist_through h.nodup
      · exact sublist_concat h.nodup (h.mem_queued at_x) hx h.delivered_sublist (ahead hn)
      · have hpost : (x :: untried post).Sublist (s.waiting.map Prod.fst) := by
          rw [at_x, List.map_append, List.map_cons]
          exact ((untried_sublist post).cons_cons x).trans (List.sublist_append_right _ _)
        exact hpost.trans h.waiting
  known := h.known
  counted := by
    intro e he
    exact h.counted e ((others_sublist at_x).subset he)
  dropped := h.dropped

/-- One more refusal of the entry counts for it alone. -/
theorem counted_of (h : Valid limit s) (at_x : s.waiting = pre ++ (x, n) :: post) :
    (∀ e ∈ pre ++ post, (s.refusals ++ [x]).count e.1 = e.2 ∧ e.2 < limit) ∧
      (s.refusals ++ [x]).count x = n + 1 ∧
      ∀ y ∈ s.dropped, (s.refusals ++ [x]).count y = limit := by
  obtain ⟨-, hdrop, hne⟩ := h.apart at_x
  have hx := h.counted (x, n) (by simp [at_x])
  constructor
  · intro e he
    simpa [List.count_append, Ne.symm (hne e he)]
      using h.counted e ((others_sublist at_x).subset he)
  constructor
  · simpa [List.count_append] using hx.1
  · intro y hy
    have hyx : x ≠ y := fun hxy => hdrop (hxy ▸ hy)
    simpa [List.count_append, hyx] using h.dropped y hy

theorem known_of (h : Valid limit s) (at_x : s.waiting = pre ++ (x, n) :: post) :
    ∀ y ∈ s.refusals ++ [x], y ∈ s.queued := by
  intro y hy
  rcases List.mem_append.1 hy with hy | hy
  · exact h.known y hy
  · rw [List.mem_singleton.1 hy]
    exact h.mem_queued at_x

theorem keep (h : Valid limit s) (at_x : s.waiting = pre ++ (x, n) :: post)
    (tried : ∀ e ∈ pre, 0 < e.2) (below : n + 1 < limit) :
    Valid limit
      { s with waiting := pre ++ (x, n + 1) :: post, refusals := s.refusals ++ [x] } where
  parts := by simpa [at_x] using h.parts
  nodup := h.nodup
  waiting := by simpa [at_x] using h.waiting
  tried_first := by
    have hp := h.tried_first
    rw [at_x] at hp
    simp only [List.pairwise_append, List.pairwise_cons] at hp ⊢
    obtain ⟨hpre, ⟨-, hpost⟩, -⟩ := hp
    exact ⟨hpre, ⟨fun _ _ _ => Nat.succ_pos n, hpost⟩, fun a ha _ _ _ => tried a ha⟩
  order := by
    rw [untried_append, untried_eq_nil tried, List.nil_append,
      untried_cons_pos x (Nat.succ_pos n)]
    exact h.order_behind at_x tried
  known := h.known_of at_x
  counted := by
    obtain ⟨hothers, hx, -⟩ := h.counted_of at_x
    intro e he
    by_cases hex : e = (x, n + 1)
    · rw [hex]
      exact ⟨hx, below⟩
    · apply hothers e
      simp only [List.mem_append, List.mem_cons] at he ⊢
      tauto
  dropped := (h.counted_of at_x).2.2

theorem drop (h : Valid limit s) (at_x : s.waiting = pre ++ (x, n) :: post)
    (tried : ∀ e ∈ pre, 0 < e.2) (reached : limit ≤ n + 1) :
    Valid limit
      { s with
        waiting := pre ++ post
        dropped := s.dropped ++ [x]
        refusals := s.refusals ++ [x] } where
  parts := by
    apply h.parts.trans
    apply List.perm_iff_count.2
    intro a
    simp only [at_x, List.map_append, List.map_cons, List.count_append, List.count_cons,
      List.count_nil]
    omega
  nodup := h.nodup
  waiting := ((others_sublist at_x).map _).trans h.waiting
  tried_first := h.tried_first.sublist (others_sublist at_x)
  order := by
    rw [untried_append, untried_eq_nil tried, List.nil_append]
    exact h.order_behind at_x tried
  known := h.known_of at_x
  counted := (h.counted_of at_x).1
  dropped := by
    obtain ⟨-, hx, hothers⟩ := h.counted_of at_x
    have hn := (h.counted (x, n) (by simp [at_x])).2
    intro y hy
    rcases List.mem_append.1 hy with hy | hy
    · exact hothers y hy
    · rw [List.mem_singleton.1 hy, hx]
      simp only at hn
      omega

end

theorem step (h : Valid limit s) (hlimit : 0 < limit) (hst : Step limit s t) : Valid limit t := by
  cases hst with
  | enqueue x fresh => exact h.enqueue hlimit fresh
  | deliver pre post x n at_x tried ahead => exact h.deliver at_x tried ahead
  | keep pre post x n at_x tried below => exact h.keep at_x tried below
  | drop pre post x n at_x tried reached => exact h.drop at_x tried reached

end Valid

end Outbox

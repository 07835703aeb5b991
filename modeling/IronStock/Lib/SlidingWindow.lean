import Mathlib.Data.List.Basic

/-!
# Events in a sliding window

A log of events, the newest first, each with the time it happened at. The log is
paced for a limit and a length if every event found fewer than the limit in the
window that ends with it. Then no window of that length has more than the limit,
and no other log has this property.
-/
namespace SlidingWindow

/-- The events that happened less than `len` before `now`. -/
def recent (len now : Int) (log : List Int) : List Int := log.filter (now - len < ·)

/-- The events of the window of this length from `start` on. -/
def within (len start : Int) (log : List Int) : List Int :=
  log.filter fun t => start ≤ t ∧ t < start + len

/-- No event is older than the one before it. -/
def Ordered (log : List Int) : Prop := log.Pairwise fun later earlier => earlier ≤ later

/-- Every event found fewer than `limit` in the window that ends with it. -/
def Paced (limit : Nat) (len : Int) : List Int → Prop
  | [] => True
  | t :: log => (recent len t log).length < limit ∧ Paced limit len log

variable {limit : Nat} {len : Int} {log : List Int}

@[simp] theorem paced_nil : Paced limit len [] := trivial
@[simp] theorem paced_cons (t : Int) :
    Paced limit len (t :: log) ↔ (recent len t log).length < limit ∧ Paced limit len log :=
  Iff.rfl

/-- A window of a log that ends before `t + 1` sees only what is recent at `t`. -/
theorem within_sublist_recent {start t : Int} (ht : t < start + len) :
    (within len start log).Sublist (recent len t log) := by
  apply List.monotone_filter_right
  intro u hu
  simp only [decide_eq_true_eq] at hu ⊢
  omega

theorem Paced.within_le (h : Paced limit len log) (start : Int) :
    (within len start log).length ≤ limit := by
  induction log with
  | nil => exact Nat.zero_le limit
  | cons t log ih =>
    by_cases ht : start ≤ t ∧ t < start + len
    · have hcons : within len start (t :: log) = t :: within len start log :=
        List.filter_cons_of_pos (by simpa using ht)
      have hlen := (@within_sublist_recent len log start t ht.2).length_le
      rw [hcons, List.length_cons]
      have hfound := h.1
      omega
    · have hcons : within len start (t :: log) = within len start log :=
        List.filter_cons_of_neg (by simpa using ht)
      rw [hcons]
      exact ih h.2

/-- The window that ends with the newest event. -/
theorem within_newest (hlen : 0 < len) {t : Int} (h : Ordered (t :: log)) :
    within len (t - len + 1) (t :: log) = t :: recent len t log := by
  have hnewest : t - len + 1 ≤ t ∧ t < t - len + 1 + len := by omega
  have htail : within len (t - len + 1) log = recent len t log := by
    apply List.filter_congr
    intro u hu
    have hle : u ≤ t := (List.pairwise_cons.mp h).1 u hu
    rw [decide_eq_decide]
    omega
  rw [← htail]
  exact List.filter_cons_of_pos (by simpa using hnewest)

theorem paced_of_within_le (hlen : 0 < len) (hord : Ordered log)
    (h : ∀ start, (within len start log).length ≤ limit) : Paced limit len log := by
  induction log with
  | nil => trivial
  | cons t log ih =>
    constructor
    · have hnewest := h (t - len + 1)
      rw [within_newest hlen hord, List.length_cons] at hnewest
      omega
    · refine ih (List.pairwise_cons.mp hord).2 fun start => ?_
      have hsub : (within len start log).Sublist (within len start (t :: log)) :=
        (List.sublist_cons_self t log).filter _
      exact Nat.le_trans hsub.length_le (h start)

end SlidingWindow

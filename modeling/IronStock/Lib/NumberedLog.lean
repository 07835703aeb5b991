import Mathlib.Data.List.Sort

/-!
# Numbered logs

A log of entries, each with a number, where a new entry takes the number after
the greatest one in use and old entries are pruned by their number. Such a log
is consecutive: pruning by number drops a prefix, and sorting by number turns
the log around.
-/
namespace NumberedLog

variable {α : Type*} {num : α → Nat} {rows : List α}

/-- The numbers of the entries are consecutive, in the order of the list. -/
def Consecutive (num : α → Nat) (rows : List α) : Prop :=
  ∃ start, rows.map num = List.range' start rows.length

/-- The greatest number in use, 0 if there is none. -/
def last (num : α → Nat) (rows : List α) : Nat := (rows.map num).foldl max 0

@[simp] theorem last_nil (num : α → Nat) : last num [] = 0 := rfl

theorem consecutive_nil (num : α → Nat) : Consecutive num [] := ⟨0, rfl⟩

theorem foldl_max_range' (start n : Nat) :
    (List.range' start (n + 1)).foldl max 0 = start + n := by
  induction n with
  | zero => simp
  | succ n ih =>
    rw [List.range'_concat, List.foldl_append, ih]
    simp

/-- A nonempty consecutive log ends with its greatest number. -/
theorem last_eq {start : Nat} (h : rows.map num = List.range' start rows.length)
    (hne : rows ≠ []) : last num rows = start + (rows.length - 1) := by
  obtain ⟨n, hn⟩ : ∃ n, rows.length = n + 1 :=
    Nat.exists_eq_succ_of_ne_zero (by simpa using hne)
  rw [last, h, hn, foldl_max_range']
  omega

/-- The next number continues the log. -/
theorem consecutive_push (h : Consecutive num rows) {r : α} (hr : num r = last num rows + 1) :
    Consecutive num (rows ++ [r]) := by
  obtain ⟨start, hstart⟩ := h
  cases rows with
  | nil => exact ⟨num r, by simp⟩
  | cons a rest =>
    have hlast := last_eq hstart (by simp)
    refine ⟨start, ?_⟩
    rw [List.map_append, hstart, List.length_append, List.length_singleton, List.range'_concat,
      List.map_singleton, hr, hlast]
    simp only [List.length_cons, Nat.add_sub_cancel, Nat.one_mul]
    rfl

theorem last_push {r : α} (hr : num r = last num rows + 1) :
    last num (rows ++ [r]) = num r := by
  rw [last, List.map_append, List.foldl_append]
  change max (last num rows) (num r) = num r
  omega

/-- Keeping the numbers from `b` on drops a prefix. -/
theorem filter_ge {start : Nat} (h : rows.map num = List.range' start rows.length) (b : Nat) :
    rows.filter (fun r => b ≤ num r) = rows.drop (b - start) := by
  induction rows generalizing start with
  | nil => simp
  | cons r rest ih =>
    rw [List.length_cons, List.range'_succ, List.map_cons] at h
    obtain ⟨hr, hrest⟩ := List.cons.inj h
    have ihrest := ih hrest
    by_cases hb : b ≤ num r
    · have hzero : b - start = 0 := by omega
      have hzero' : b - (start + 1) = 0 := by omega
      rw [List.filter_cons_of_pos (by simpa using hb), ihrest, hzero, hzero']
      rfl
    · have hsucc : b - start = (b - (start + 1)) + 1 := by omega
      rw [List.filter_cons_of_neg (by simpa using hb), ihrest, hsucc, List.drop_succ_cons]

theorem consecutive_drop (h : Consecutive num rows) (k : Nat) :
    Consecutive num (rows.drop k) := by
  obtain ⟨start, hstart⟩ := h
  refine ⟨start + k, ?_⟩
  rw [List.map_drop, hstart, List.length_drop, List.drop_range']
  simp

/-- Pruning by number keeps the last `k` entries. -/
theorem filter_recent (h : Consecutive num rows) (k : Nat) :
    rows.filter (fun r => ¬ num r + k ≤ last num rows) = rows.drop (rows.length - k) := by
  obtain ⟨start, hstart⟩ := h
  by_cases hne : rows = []
  · simp [hne]
  · have hlast := last_eq hstart hne
    have hpos : 0 < rows.length := List.length_pos_of_ne_nil hne
    have hdrop := filter_ge hstart (last num rows + 1 - k)
    have hcount : last num rows + 1 - k - start = rows.length - k := by omega
    rw [hcount] at hdrop
    rw [← hdrop]
    apply List.filter_congr
    intro r _
    apply decide_eq_decide.mpr
    omega

/-- An entry smaller than all others is inserted at the end. -/
theorem orderedInsert_of_lt {rel : α → α → Prop} [DecidableRel rel] {a : α} {l : List α}
    (h : ∀ b ∈ l, ¬ rel a b) : l.orderedInsert rel a = l ++ [a] := by
  induction l with
  | nil => rfl
  | cons b rest ih =>
    rw [List.orderedInsert, if_neg (h b List.mem_cons_self),
      ih fun c hc => h c (List.mem_cons_of_mem b hc)]
    rfl

/-- Sorted with the greatest number first, a consecutive log is reversed. -/
theorem insertionSort_newest_first (rel : α → α → Prop) [DecidableRel rel]
    (hrel : ∀ a b, rel a b ↔ num b ≤ num a) (h : Consecutive num rows) :
    rows.insertionSort rel = rows.reverse := by
  obtain ⟨start, hstart⟩ := h
  induction rows generalizing start with
  | nil => rfl
  | cons r rest ih =>
    rw [List.length_cons, List.range'_succ, List.map_cons] at hstart
    obtain ⟨hr, hrest⟩ := List.cons.inj hstart
    rw [List.insertionSort_cons, ih (start + 1) hrest, List.reverse_cons]
    apply orderedInsert_of_lt
    intro b hb
    rw [hrel]
    have hmem : num b ∈ List.range' (start + 1) rest.length := by
      rw [← hrest]
      exact List.mem_map_of_mem (List.mem_reverse.mp hb)
    rw [List.mem_range'_1] at hmem
    omega

end NumberedLog

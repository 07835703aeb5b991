import Mathlib.Data.List.Forall2

/-!
# Tables as lists of rows

The statements a program sends to a relational database, read as functions on
a list of rows: `UPDATE`, `DELETE`, `INSERT … ON CONFLICT DO NOTHING` and
`INSERT … ON CONFLICT DO UPDATE`. A view `rows.filter p` that a statement does
not reach is left alone.
-/
namespace Table

variable {α κ : Type*}

/-- `UPDATE … SET f WHERE p`. -/
def updateWhere (p : α → Bool) (f : α → α) (rows : List α) : List α :=
  rows.map fun r => if p r then f r else r

/-- `DELETE … WHERE p`. -/
def deleteWhere (p : α → Bool) (rows : List α) : List α := rows.filter fun r => !p r

/-- `INSERT … ON CONFLICT (key) DO NOTHING`, the key given as a test. -/
def insertOrIgnore (same : α → Bool) (r : α) (rows : List α) : List α :=
  if rows.any same then rows else rows ++ [r]

/-- `INSERT … ON CONFLICT (key) DO UPDATE SET f`, the key given as a test. -/
def upsert (same : α → Bool) (f : α → α) (r : α) (rows : List α) : List α :=
  if rows.any same then updateWhere same f rows else rows ++ [r]

@[simp] theorem updateWhere_nil (p : α → Bool) (f : α → α) : updateWhere p f [] = [] := rfl

theorem updateWhere_cons (p : α → Bool) (f : α → α) (r : α) (rows : List α) :
    updateWhere p f (r :: rows) = (if p r then f r else r) :: updateWhere p f rows := rfl

theorem mem_updateWhere {p : α → Bool} {f : α → α} {rows : List α} {r : α} :
    r ∈ updateWhere p f rows ↔ ∃ r₀ ∈ rows, (if p r₀ then f r₀ else r₀) = r := by
  simp [updateWhere]

@[simp] theorem mem_deleteWhere {p : α → Bool} {rows : List α} {r : α} :
    r ∈ deleteWhere p rows ↔ r ∈ rows ∧ p r = false := by simp [deleteWhere]

/-- A row that is the whole key is there afterwards, whether it was or not. -/
theorem mem_insertOrIgnore [DecidableEq α] {r x : α} {rows : List α} :
    x ∈ insertOrIgnore (fun y => y = r) r rows ↔ x ∈ rows ∨ x = r := by
  unfold insertOrIgnore
  split
  · next hany =>
    have hr : r ∈ rows := by simpa using hany
    constructor
    · exact .inl
    · rintro (hx | rfl)
      · exact hx
      · exact hr
  · simp

/-- A deletion that matches nothing is no deletion. -/
theorem deleteWhere_eq_self {p : α → Bool} {rows : List α} (h : ∀ r ∈ rows, p r = false) :
    deleteWhere p rows = rows :=
  List.filter_eq_self.mpr fun r hr => by simp [h r hr]

theorem countP_deleteWhere_le (p q : α → Bool) (rows : List α) :
    (deleteWhere p rows).countP q ≤ rows.countP q :=
  List.filter_sublist.countP_le

/-- A row that is deleted is counted no more. -/
theorem countP_deleteWhere_lt {p q : α → Bool} {rows : List α} {r : α} (hr : r ∈ rows)
    (hp : p r = true) (hq : q r = true) : (deleteWhere p rows).countP q < rows.countP q := by
  induction rows with
  | nil => cases hr
  | cons x rows ih =>
    have hle := countP_deleteWhere_le p q rows
    simp only [deleteWhere] at ih hle ⊢
    rcases List.mem_cons.mp hr with rfl | hr
    · rw [List.filter_cons_of_neg (by simp [hp]), List.countP_cons_of_pos hq]
      omega
    · have hrest := ih hr
      rw [List.filter_cons]
      split <;> simp only [List.countP_cons] <;> omega

/-- A test that the update neither makes nor breaks counts the same rows. -/
theorem any_updateWhere {p q : α → Bool} {f : α → α} (hf : ∀ r, p r = true → q (f r) = q r)
    (rows : List α) : (updateWhere p f rows).any q = rows.any q := by
  induction rows with
  | nil => rfl
  | cons r rows ih =>
    rw [updateWhere_cons, List.any_cons, List.any_cons, ih]
    by_cases hp : p r = true
    · rw [if_pos hp, hf r hp]
    · rw [if_neg hp]

/-- A search that the update does not disturb finds the updated row. -/
theorem find?_updateWhere {p q : α → Bool} {f : α → α} (hf : ∀ r, q (f r) = q r)
    (rows : List α) :
    (updateWhere p f rows).find? q = (rows.find? q).map fun r => if p r then f r else r := by
  unfold updateWhere
  rw [List.find?_map]
  have hcomp : (q ∘ fun r => if p r = true then f r else r) = q := by
    funext r
    by_cases hp : p r = true <;> simp [hp, hf]
  rw [hcomp]

/-- An update that matches nothing is no update. -/
theorem updateWhere_eq_self {p : α → Bool} {f : α → α} {rows : List α}
    (h : ∀ r ∈ rows, p r = false) : updateWhere p f rows = rows := by
  unfold updateWhere
  rw [List.map_congr_left (g := id) (fun r hr => by rw [h r hr]; rfl), List.map_id]

/-- A view whose test the update leaves alone is the updated view. -/
theorem filter_updateWhere {p q : α → Bool} {f : α → α} (hf : ∀ r, q (f r) = q r)
    (rows : List α) : (updateWhere p f rows).filter q = updateWhere p f (rows.filter q) := by
  induction rows with
  | nil => rfl
  | cons r rows ih =>
    have hq : q (if p r then f r else r) = q r := by
      split
      · exact hf r
      · rfl
    rw [updateWhere_cons]
    by_cases hr : q r = true
    · rw [List.filter_cons_of_pos (hq.trans hr), List.filter_cons_of_pos hr, updateWhere_cons, ih]
    · rw [List.filter_cons_of_neg (by rw [hq]; exact hr), List.filter_cons_of_neg hr, ih]

/-- A column that the update leaves alone. -/
theorem map_updateWhere {p : α → Bool} {f : α → α} {g : α → κ} (hf : ∀ r, g (f r) = g r)
    (rows : List α) : (updateWhere p f rows).map g = rows.map g := by
  unfold updateWhere
  rw [List.map_map]
  apply List.map_congr_left
  intro r _
  show g (if p r then f r else r) = g r
  split
  · exact hf r
  · rfl

/-! ## Tables row by row -/

theorem exists_left_of_mem {β : Type*} {R : α → β → Prop} {l : List α} {u : List β}
    (h : List.Forall₂ R l u) {b : β} (hb : b ∈ u) : ∃ a ∈ l, R a b := by
  induction h with
  | nil => exact absurd hb List.not_mem_nil
  | cons hrow _ ih =>
    obtain rfl | hb := List.mem_cons.mp hb
    · exact ⟨_, List.mem_cons_self, hrow⟩
    · obtain ⟨a, ha, hab⟩ := ih hb
      exact ⟨a, List.mem_cons_of_mem _ ha, hab⟩

theorem exists_right_of_mem {β : Type*} {R : α → β → Prop} {l : List α} {u : List β}
    (h : List.Forall₂ R l u) {a : α} (ha : a ∈ l) : ∃ b ∈ u, R a b :=
  exists_left_of_mem h.flip ha

/-- An update sets the rows it matches and leaves the others as they are. -/
theorem forall₂_updateWhere (p : α → Bool) (f : α → α) (rows : List α) :
    List.Forall₂ (fun r r' => r' = r ∨ p r = true ∧ r' = f r) rows (updateWhere p f rows) := by
  induction rows with
  | nil => exact .nil
  | cons r rows ih =>
    rw [updateWhere_cons]
    by_cases hp : p r = true
    · exact .cons (.inr ⟨hp, by rw [if_pos hp]⟩) ih
    · exact .cons (.inl (by rw [if_neg hp])) ih

/-! ## Upserts -/

/-- An upsert that sets every column: the new row, and the rows of other keys. -/
theorem mem_upsert_const {same : α → Bool} {r : α} {rows : List α} {x : α} :
    x ∈ upsert same (fun _ => r) r rows ↔ x = r ∨ x ∈ rows ∧ same x = false := by
  unfold upsert
  split
  · next hany =>
    rw [mem_updateWhere]
    constructor
    · rintro ⟨x₀, hx₀, rfl⟩
      by_cases hsame : same x₀ = true
      · exact .inl (if_pos hsame)
      · rw [if_neg hsame]
        exact .inr ⟨hx₀, Bool.not_eq_true _ ▸ hsame⟩
    · rintro (rfl | ⟨hx, hsame⟩)
      · obtain ⟨x₀, hx₀, hsame⟩ := List.any_eq_true.mp hany
        exact ⟨x₀, hx₀, if_pos hsame⟩
      · exact ⟨x, hx, if_neg (by simp [hsame])⟩
  · next hany =>
    rw [List.mem_append, List.mem_singleton]
    constructor
    · rintro (hx | rfl)
      · exact .inr ⟨hx, by simpa using fun hsame => hany (List.any_eq_true.mpr ⟨x, hx, hsame⟩)⟩
      · exact .inl rfl
    · rintro (rfl | ⟨hx, -⟩)
      · exact .inr rfl
      · exact .inl hx

/-- An upsert on a unique key leaves it unique. -/
theorem nodup_upsert {same : α → Bool} {f : α → α} {g : α → κ} {r : α} {rows : List α}
    (hf : ∀ x, same x = true → g (f x) = g x) (hsame : ∀ x, g x = g r → same x = true)
    (h : (rows.map g).Nodup) : ((upsert same f r rows).map g).Nodup := by
  unfold upsert
  split
  · have hkeep : (updateWhere same f rows).map g = rows.map g := by
      rw [updateWhere, List.map_map]
      apply List.map_congr_left
      intro x _
      show g (if same x then f x else x) = g x
      split
      · next hx => exact hf x hx
      · rfl
    rw [hkeep]
    exact h
  · next hnone =>
    rw [List.map_append, List.map_singleton]
    refine List.nodup_append.mpr ⟨h, by simp, ?_⟩
    rintro k hk _ hr rfl
    obtain ⟨x, hx, hkey⟩ := List.mem_map.mp hk
    exact hnone (List.any_eq_true.mpr ⟨x, hx, hsame x (hkey.trans (List.mem_singleton.mp hr))⟩)

/-! ## Lookup by key -/

section Lookup

/-- The row with key `k`, the key being unique. -/
def lookup [DecidableEq κ] (key : α → κ) (k : κ) (rows : List α) : Option α :=
  rows.find? fun r => key r = k

variable [DecidableEq κ] {key : α → κ}

theorem lookup_eq_some {k : κ} {rows : List α} {r : α} (h : lookup key k rows = some r) :
    r ∈ rows ∧ key r = k := by
  refine ⟨List.mem_of_find?_eq_some h, ?_⟩
  simpa using List.find?_some h

theorem lookup_eq_none {k : κ} {rows : List α} :
    lookup key k rows = none ↔ ∀ r ∈ rows, key r ≠ k := by
  simp [lookup]

/-- Under a unique key, a row is what its key finds. -/
theorem lookup_of_mem {rows : List α} (hkey : (rows.map key).Nodup) {r : α} (hr : r ∈ rows) :
    lookup key (key r) rows = some r := by
  induction rows with
  | nil => cases hr
  | cons r₀ rows ih =>
    rw [List.map_cons, List.nodup_cons] at hkey
    rcases List.mem_cons.mp hr with rfl | hr
    · simp [lookup]
    · have hne : key r₀ ≠ key r := fun h => hkey.1 (h ▸ List.mem_map_of_mem hr)
      rw [lookup, List.find?_cons_of_neg (by simpa using hne)]
      exact ih hkey.2 hr

/-- Under a unique key, there is no other row with the key of the one found. -/
theorem eq_of_lookup {k : κ} {rows : List α} (hkey : (rows.map key).Nodup) {r r' : α}
    (h : lookup key k rows = some r) (hr' : r' ∈ rows) (hk : key r' = k) : r' = r := by
  have hlookup := lookup_of_mem hkey hr'
  rw [hk, h] at hlookup
  exact (Option.some.inj hlookup).symm

/-- Under a unique key, a row is the only one with its key. -/
theorem filter_of_mem {rows : List α} (hkey : (rows.map key).Nodup) {r : α} (hr : r ∈ rows) :
    rows.filter (fun r' => key r' = key r) = [r] := by
  induction rows with
  | nil => cases hr
  | cons r₀ rows ih =>
    rw [List.map_cons, List.nodup_cons] at hkey
    rcases List.mem_cons.mp hr with rfl | hr
    · have hrest : rows.filter (fun r' => key r' = key r) = [] := by
        apply List.filter_eq_nil_iff.mpr
        intro r' hr' hsame
        exact hkey.1 (of_decide_eq_true hsame ▸ List.mem_map_of_mem hr')
      rw [List.filter_cons_of_pos (by simp), hrest]
    · have hne : key r₀ ≠ key r := fun h => hkey.1 (h ▸ List.mem_map_of_mem hr)
      rw [List.filter_cons_of_neg (by simpa using hne)]
      exact ih hkey.2 hr

/-- Under a unique key, the order of the rows does not matter. -/
theorem lookup_perm {rows rows' : List α} (hperm : rows.Perm rows')
    (hkey : (rows.map key).Nodup) (k : κ) : lookup key k rows' = lookup key k rows := by
  have hkey' : (rows'.map key).Nodup := (hperm.map key).nodup_iff.mp hkey
  cases h : lookup key k rows with
  | none =>
    rw [lookup_eq_none] at h ⊢
    exact fun r hr => h r (hperm.mem_iff.mpr hr)
  | some r =>
    obtain ⟨hmem, rfl⟩ := lookup_eq_some h
    exact lookup_of_mem hkey' (hperm.mem_iff.mp hmem)

theorem lookup_isSome {k : κ} {rows : List α} :
    (lookup key k rows).isSome = rows.any fun r => key r = k := by
  rw [lookup, Bool.eq_iff_iff, List.find?_isSome, List.any_eq_true]

theorem lookup_append (k : κ) (rows : List α) (r : α) :
    lookup key k (rows ++ [r]) =
      (lookup key k rows).or (if key r = k then some r else none) := by
  unfold lookup
  rw [List.find?_append, List.find?_singleton]
  simp

/-- An update that leaves the keys alone is seen through the lookup. -/
theorem lookup_updateWhere {p : α → Bool} {f : α → α} (hf : ∀ r, key (f r) = key r)
    (k : κ) (rows : List α) :
    lookup key k (updateWhere p f rows) =
      (lookup key k rows).map fun r => if p r then f r else r :=
  find?_updateWhere (fun r => by rw [hf]) rows

theorem lookup_updateWhere_const {k : κ} {r : α} (hr : key r = k) {rows : List α}
    (h : rows.any (fun x => key x = k) = true) :
    lookup key k (updateWhere (fun x => key x = k) (fun _ => r) rows) = some r := by
  induction rows with
  | nil => simp at h
  | cons x rows ih =>
    rw [updateWhere_cons]
    by_cases hx : key x = k
    · simp [lookup, hx, hr]
    · have hrest := ih (by simpa [hx] using h)
      simpa [lookup, hx] using hrest

/-- Under any other key it leaves what was there. -/
theorem lookup_updateWhere_of_ne {k k' : κ} {r : α} (hr : key r = k) (hne : k' ≠ k)
    (rows : List α) :
    lookup key k' (updateWhere (fun x => key x = k) (fun _ => r) rows) = lookup key k' rows := by
  induction rows with
  | nil => rfl
  | cons x rows ih =>
    rw [updateWhere_cons]
    by_cases hx : key x = k
    · simpa [lookup, hx, hr, hne.symm] using ih
    · by_cases hx' : key x = k'
      · simp [lookup, hx', hne]
      · simpa [lookup, hx, hx'] using ih

/-- What an upsert of a row with this key leaves under it. -/
theorem lookup_upsert_self {k : κ} {r : α} (hr : key r = k) (rows : List α) :
    lookup key k (upsert (fun x => key x = k) (fun _ => r) r rows) = some r := by
  unfold upsert
  split
  · next h => exact lookup_updateWhere_const hr h
  · next h =>
    have hnone : lookup key k rows = none := by
      rw [lookup_eq_none]
      simpa using h
    rw [lookup_append, hnone, if_pos hr]
    rfl

theorem lookup_upsert_of_ne {k k' : κ} {r : α} (hr : key r = k) (hne : k' ≠ k) (rows : List α) :
    lookup key k' (upsert (fun x => key x = k) (fun _ => r) r rows) = lookup key k' rows := by
  unfold upsert
  split
  · exact lookup_updateWhere_of_ne hr hne rows
  · rw [lookup_append, if_neg (by rw [hr]; exact hne.symm), Option.or_none]

/-- A deleted key finds nothing, every other key what it found. -/
theorem lookup_deleteWhere (k k' : κ) (rows : List α) :
    lookup key k' (deleteWhere (fun x => key x = k) rows) =
      if k' = k then none else lookup key k' rows := by
  induction rows with
  | nil => simp [lookup, deleteWhere]
  | cons x rows ih =>
    simp only [lookup, deleteWhere] at ih ⊢
    by_cases hx : key x = k
    · rw [List.filter_cons_of_neg (by simp [hx]), ih]
      by_cases hk : k' = k
      · rw [if_pos hk, if_pos hk]
      · rw [if_neg hk, if_neg hk, List.find?_cons_of_neg (by simp [hx, Ne.symm hk])]
    · rw [List.filter_cons_of_pos (by simp [hx])]
      by_cases hx' : key x = k'
      · rw [if_neg (fun hk => hx (hx'.trans hk)), List.find?_cons_of_pos (by simp [hx']),
          List.find?_cons_of_pos (by simp [hx'])]
      · rw [List.find?_cons_of_neg (by simp [hx']), ih, List.find?_cons_of_neg (by simp [hx'])]

end Lookup

end Table

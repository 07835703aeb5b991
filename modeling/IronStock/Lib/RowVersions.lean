import Mathlib.Tactic

/-!
# Row versions under READ COMMITTED

The rows of a table with one key, as versions: each knows the open transaction
that inserted it and the one that deleted it. A DELETE takes the rows its
snapshot shows, an INSERT passes over a row that is there, and either waits for
a row that another open transaction has. What is committed changes at a commit
only, and one transaction that has the table to itself replaces its rows.
-/
namespace RowVersions

variable {α : Type*}

/-- `none` where no open transaction is concerned. -/
structure Version (α : Type*) where
  id : Nat
  row : α
  insertedBy : Option Nat
  deletedBy : Option Nat

structure Store (α : Type*) where
  versions : List (Version α)
  nextId : Nat

namespace Version

def isCommitted (v : Version α) : Bool := v.insertedBy.isNone

/-- Another open transaction has inserted or deleted the version. -/
def isBusy (tx : Nat) (v : Version α) : Bool :=
  v.insertedBy.any (· ≠ tx) || v.deletedBy.any (· ≠ tx)

/-- The version once the transaction has deleted it. -/
def delete (tx : Nat) (snapshot : List Nat) (v : Version α) : Version α :=
  if v.id ∈ snapshot then { v with deletedBy := some tx } else v

def commit (tx : Nat) (v : Version α) : Version α :=
  if v.insertedBy = some tx then { v with insertedBy := none } else v

def rollback (tx : Nat) (v : Version α) : Version α :=
  if v.deletedBy = some tx then { v with deletedBy := none } else v

@[simp] theorem delete_row (tx : Nat) (snapshot : List Nat) (v : Version α) :
    (v.delete tx snapshot).row = v.row := by
  simp only [delete]
  split <;> rfl

@[simp] theorem delete_isCommitted (tx : Nat) (snapshot : List Nat) (v : Version α) :
    (v.delete tx snapshot).isCommitted = v.isCommitted := by
  simp only [delete]
  split <;> rfl

@[simp] theorem rollback_row (tx : Nat) (v : Version α) : (v.rollback tx).row = v.row := by
  simp only [rollback]
  split <;> rfl

@[simp] theorem rollback_isCommitted (tx : Nat) (v : Version α) :
    (v.rollback tx).isCommitted = v.isCommitted := by
  simp only [rollback]
  split <;> rfl

end Version

namespace Store

/-- The rows that are there, numbered. -/
def holding (rows : List α) : Store α :=
  ⟨rows.mapIdx fun i a => ⟨i, a, none, none⟩, rows.length⟩

/-- What every snapshot taken now shows. -/
def committed (s : Store α) : List α := (s.versions.filter (·.isCommitted)).map (·.row)

def snapshot (s : Store α) : List Nat := (s.versions.filter (·.isCommitted)).map (·.id)

/-- `DELETE` of the rows of a snapshot, unless it waits. -/
def delete (tx : Nat) (snapshot : List Nat) (s : Store α) : Option (Store α) :=
  if s.versions.any (fun v => snapshot.contains v.id && v.isBusy tx) then none
  else some { s with versions := s.versions.map (·.delete tx snapshot) }

/-- `INSERT … ON CONFLICT DO NOTHING`, unless it waits. -/
def insertIgnore [DecidableEq α] (tx : Nat) (a : α) (s : Store α) : Option (Store α) :=
  if s.versions.any (fun v => v.row = a && v.isBusy tx) then none
  else if s.versions.any (fun v => v.row = a && v.deletedBy.isNone) then some s
  else some ⟨s.versions ++ [⟨s.nextId, a, some tx, none⟩], s.nextId + 1⟩

def commit (tx : Nat) (s : Store α) : Store α :=
  { s with versions := (s.versions.filter (·.deletedBy ≠ some tx)).map (·.commit tx) }

def rollback (tx : Nat) (s : Store α) : Store α :=
  { s with versions := (s.versions.filter (·.insertedBy ≠ some tx)).map (·.rollback tx) }

/-! ## What is committed changes at a commit only -/

theorem committed_holding (rows : List α) : (holding rows).committed = rows := by
  have hall : (rows.mapIdx fun i a => (⟨i, a, none, none⟩ : Version α)).filter (·.isCommitted) =
      rows.mapIdx fun i a => ⟨i, a, none, none⟩ := by
    rw [List.filter_eq_self]
    intro v hv
    obtain ⟨i, hi, rfl⟩ := List.mem_mapIdx.mp hv
    rfl
  rw [committed, holding, hall]
  exact List.ext_getElem (by simp) (by simp)

theorem committed_map (f : Version α → Version α) (hrow : ∀ v, (f v).row = v.row)
    (hcommitted : ∀ v, (f v).isCommitted = v.isCommitted) (vs : List (Version α)) :
    ((vs.map f).filter (·.isCommitted)).map (·.row) =
      (vs.filter (·.isCommitted)).map (·.row) := by
  induction vs with
  | nil => rfl
  | cons v vs ih =>
    rw [List.map_cons, List.filter_cons, List.filter_cons, hcommitted]
    split
    · rw [List.map_cons, List.map_cons, hrow, ih]
    · exact ih

theorem committed_delete {tx : Nat} {snapshot : List Nat} {s s' : Store α}
    (h : s.delete tx snapshot = some s') : s'.committed = s.committed := by
  simp only [delete] at h
  split at h
  · cases h
  · obtain rfl := Option.some.inj h
    exact committed_map _ (Version.delete_row tx snapshot)
      (Version.delete_isCommitted tx snapshot) s.versions

theorem committed_insertIgnore [DecidableEq α] {tx : Nat} {a : α} {s s' : Store α}
    (h : s.insertIgnore tx a = some s') : s'.committed = s.committed := by
  simp only [insertIgnore] at h
  split at h
  · cases h
  · split at h
    · rw [Option.some.inj h]
    · obtain rfl := Option.some.inj h
      simp [committed, Version.isCommitted]

theorem committed_rollback (tx : Nat) (s : Store α) :
    (s.rollback tx).committed = s.committed := by
  have hkept : (s.versions.filter (·.insertedBy ≠ some tx)).filter (·.isCommitted) =
      s.versions.filter (·.isCommitted) := by
    rw [List.filter_filter]
    refine List.filter_congr fun v _ => ?_
    cases hv : v.insertedBy <;> simp [Version.isCommitted, hv]
  rw [committed, rollback, committed_map _ (Version.rollback_row tx)
    (Version.rollback_isCommitted tx), hkept, committed]

/-! ## One transaction that has the table to itself -/

/-- No open transaction has a row. -/
def Quiet (s : Store α) : Prop := ∀ v ∈ s.versions, v.insertedBy = none ∧ v.deletedBy = none

/-- The transaction has deleted every row, and of the rows it asks for inserted
all but the rest. -/
structure Filling (tx : Nat) (rows rest : List α) (s : Store α) : Prop where
  versions : ∀ v ∈ s.versions, (v.insertedBy = none ∧ v.deletedBy = some tx) ∨
    (v.insertedBy = some tx ∧ v.deletedBy = none ∧ v.row ∈ rows)
  inserted : ∀ a ∈ rows, a ∈ rest ∨ ∃ v ∈ s.versions, v.insertedBy = some tx ∧ v.row = a

theorem quiet_holding (rows : List α) : (holding rows).Quiet := by
  intro v hv
  obtain ⟨i, hi, rfl⟩ := List.mem_mapIdx.mp hv
  exact ⟨rfl, rfl⟩

/-- A DELETE that finds the table quiet does not wait. -/
theorem Quiet.delete {s : Store α} (h : s.Quiet) (tx : Nat) (rows : List α) :
    ∃ s', s.delete tx s.snapshot = some s' ∧ s'.Filling tx rows rows := by
  have hfree : s.versions.any (fun v => s.snapshot.contains v.id && v.isBusy tx) = false := by
    rw [List.any_eq_false]
    intro v hv
    obtain ⟨hi, hd⟩ := h v hv
    simp [Version.isBusy, hi, hd]
  refine ⟨{ s with versions := s.versions.map (·.delete tx s.snapshot) }, ?_, ?_, ?_⟩
  · simp only [Store.delete, hfree, Bool.false_eq_true, if_false]
  · intro v' hv'
    obtain ⟨v, hv, rfl⟩ := List.mem_map.mp hv'
    obtain ⟨hi, hd⟩ := h v hv
    have hshown : v.id ∈ s.snapshot :=
      List.mem_map.mpr ⟨v, List.mem_filter.mpr ⟨hv, by simp [Version.isCommitted, hi]⟩, rfl⟩
    exact .inl (by simp [Version.delete, hshown, hi])
  · intro a ha
    exact .inl ha

section Filling

variable {tx : Nat} {rows rest : List α} {s : Store α}

/-- An INSERT of the transaction does not wait, and its row is there after it. -/
theorem Filling.insertIgnore [DecidableEq α] {a : α} (h : s.Filling tx rows (a :: rest))
    (ha : a ∈ rows) : ∃ s', s.insertIgnore tx a = some s' ∧ s'.Filling tx rows rest := by
  have hfree : s.versions.any (fun v => v.row = a && v.isBusy tx) = false := by
    rw [List.any_eq_false]
    intro v hv
    rcases h.versions v hv with ⟨hi, hd⟩ | ⟨hi, hd, -⟩ <;> simp [Version.isBusy, hi, hd]
  simp only [Store.insertIgnore, hfree, Bool.false_eq_true, if_false]
  cases hthere : s.versions.any (fun v => v.row = a && v.deletedBy.isNone) with
  | true =>
    obtain ⟨v, hv, hrow⟩ := List.any_eq_true.mp hthere
    simp only [Bool.and_eq_true, decide_eq_true_eq, Option.isNone_iff_eq_none] at hrow
    refine ⟨s, rfl, h.versions, fun b hb => ?_⟩
    rcases h.inserted b hb with hb | hb
    · rcases List.mem_cons.mp hb with rfl | hb
      · -- the row that is not deleted is the transaction's own
        rcases h.versions v hv with ⟨-, hd⟩ | ⟨hi, -, -⟩
        · rw [hrow.2] at hd
          cases hd
        · exact .inr ⟨v, hv, hi, hrow.1⟩
      · exact .inl hb
    · exact .inr hb
  | false =>
    refine ⟨_, rfl, fun v hv => ?_, fun b hb => ?_⟩
    · rcases List.mem_append.mp hv with hv | hv
      · exact h.versions v hv
      · rw [List.mem_singleton.mp hv]
        exact .inr ⟨rfl, rfl, ha⟩
    · rcases h.inserted b hb with hb | ⟨v, hv, hi, hrow⟩
      · rcases List.mem_cons.mp hb with rfl | hb
        · exact .inr ⟨_, List.mem_append_right _ (List.mem_singleton_self _), rfl, rfl⟩
        · exact .inl hb
      · exact .inr ⟨v, List.mem_append_left _ hv, hi, hrow⟩

theorem Filling.rollback (h : s.Filling tx rows rest) : (s.rollback tx).Quiet := by
  intro v' hv'
  obtain ⟨v, hv, rfl⟩ := List.mem_map.mp hv'
  obtain ⟨hv, hother⟩ := List.mem_filter.mp hv
  rcases h.versions v hv with ⟨hi, hd⟩ | ⟨hi, -, -⟩
  · simp [Version.rollback, hi, hd]
  · simp [hi] at hother

theorem Filling.commit (h : s.Filling tx rows []) : (s.commit tx).Quiet := by
  intro v' hv'
  obtain ⟨v, hv, rfl⟩ := List.mem_map.mp hv'
  obtain ⟨hv, hother⟩ := List.mem_filter.mp hv
  rcases h.versions v hv with ⟨-, hd⟩ | ⟨hi, hd, -⟩
  · simp [hd] at hother
  · simp [Version.commit, hi, hd]

/-- The commit leaves the rows asked for. -/
theorem Filling.mem_committed (h : s.Filling tx rows []) (a : α) :
    a ∈ (s.commit tx).committed ↔ a ∈ rows := by
  constructor
  · intro ha
    obtain ⟨v', hv', rfl⟩ := List.mem_map.mp ha
    obtain ⟨v, hv, rfl⟩ := List.mem_map.mp (List.mem_filter.mp hv').1
    obtain ⟨hv, hother⟩ := List.mem_filter.mp hv
    rcases h.versions v hv with ⟨-, hd⟩ | ⟨hi, -, hrow⟩
    · simp [hd] at hother
    · simpa [Version.commit, hi] using hrow
  · intro ha
    obtain ⟨v, hv, hi, hrow⟩ := (h.inserted a ha).resolve_left (by simp)
    rcases h.versions v hv with ⟨hi', -⟩ | ⟨-, hd, -⟩
    · rw [hi] at hi'
      cases hi'
    · refine List.mem_map.mpr ⟨v.commit tx, List.mem_filter.mpr ⟨List.mem_map.mpr
        ⟨v, List.mem_filter.mpr ⟨hv, by simp [hd]⟩, rfl⟩, ?_⟩, ?_⟩
      · simp [Version.isCommitted, Version.commit, hi]
      · simpa [Version.commit, hi] using hrow

end Filling

end Store

end RowVersions

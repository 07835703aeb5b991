import IronStock.ItemVersionHandlers
import IronStock.Lib.NumberedLog
import Mathlib.Data.List.Pairwise

/-!
# A field and its versions

What the field statements and the trigger do to one field of one item, read as
a cell: the value in the field's row and the versions recorded for the row,
newest first. Writing a cell puts a value, deleting the fields of the item
empties it, and no other cell changes.
-/
namespace IronStock

/-! ## Cells -/

/-- The value a write of `new` leaves behind, if it changes the ciphertext of a
value that is not NULL. -/
def changedFrom (old new : Option FieldValue) : List FieldValue :=
  match old with
  | none => []
  | some v => if new.map Prod.fst = some v.1 then [] else [v]

@[simp] theorem changedFrom_none (new : Option FieldValue) : changedFrom none new = [] := rfl

structure FieldCell where
  value : Option FieldValue
  versions : List FieldValue
deriving DecidableEq

/-- Writing a value into a cell that may not exist yet. -/
def FieldCell.put (cell : Option FieldCell) (value : Option FieldValue) : FieldCell :=
  match cell with
  | none => ⟨value, []⟩
  | some c => ⟨value, (changedFrom c.value value ++ c.versions).take 10⟩

/-- Writing several values one after the other. -/
def FieldCell.putAll (cell : Option FieldCell) (values : List (Option FieldValue)) :
    Option FieldCell :=
  values.foldl (fun c v => some (.put c v)) cell

/-- The versions a reader is shown. -/
def FieldCell.shown (cell : Option FieldCell) : List FieldValue :=
  (cell.map FieldCell.versions).getD []

/-- The value a reader is shown. -/
def FieldCell.current (cell : Option FieldCell) : Option FieldValue := cell.bind FieldCell.value

/-- The values that a sequence of writes to an empty cell overwrites, newest
first. -/
def overwritten (values : List (Option FieldValue)) : List FieldValue :=
  match values with
  | [] => []
  | v :: rest => go v rest []
where
  go (v : Option FieldValue) (rest : List (Option FieldValue)) (acc : List FieldValue) :
      List FieldValue :=
    match rest with
    | [] => acc
    | w :: rest => go w rest (changedFrom v w ++ acc)

theorem take_append_take {α : Type} (xs ys : List α) (n : Nat) :
    (xs ++ ys.take n).take n = (xs ++ ys).take n := by
  rw [List.take_append, List.take_append, List.take_take]
  congr 2
  omega

theorem putAll_go (v : Option FieldValue) (values : List (Option FieldValue))
    (acc : List FieldValue) :
    FieldCell.putAll (some ⟨v, acc.take 10⟩) values =
      some ⟨values.getLastD v, (overwritten.go v values acc).take 10⟩ := by
  induction values generalizing v acc with
  | nil => rfl
  | cons w rest ih =>
    rw [List.getLastD_cons, overwritten.go, ← ih w (changedFrom v w ++ acc)]
    change FieldCell.putAll (some ⟨w, (changedFrom v w ++ acc.take 10).take 10⟩) rest = _
    rw [take_append_take]

/-- Writes to an empty cell keep the values they overwrite. -/
theorem putAll_none (values : List (Option FieldValue)) :
    FieldCell.shown (FieldCell.putAll none values) = (overwritten values).take 10 ∧
      FieldCell.current (FieldCell.putAll none values) = values.getLastD none := by
  cases values with
  | nil => exact ⟨rfl, rfl⟩
  | cons v rest =>
    have h := putAll_go v rest []
    have hcell : FieldCell.putAll none (v :: rest) = _ := h
    rw [hcell, List.getLastD_cons]
    exact ⟨rfl, rfl⟩

/-! ## The tables -/

/-- The versions recorded for a field row, oldest first. -/
def DB.versionsOf (db : DB) (fieldId : Nat) : List ItemFieldVersion :=
  db.itemFieldVersions.filter (·.itemFieldId = fieldId)

/-- The cell of a field of an item, if it has a row. -/
def DB.fieldCell (db : DB) (itemID : Uuid) (fieldDefID : Int) : Option FieldCell :=
  (db.field? itemID fieldDefID).map fun f =>
    ⟨f.value, ((db.versionsOf f.id).map ItemFieldVersion.value).reverse⟩

/-- Two rows with different ids for different fields. -/
def ItemField.Apart (f g : ItemField) : Prop :=
  f.id ≠ g.id ∧ ¬ (f.itemId = g.itemId ∧ f.fieldDefinitionId = g.fieldDefinitionId)

/-- The keys of the two tables, and the numbering of the versions. -/
structure FieldsOk (db : DB) : Prop where
  unique : db.itemFields.Pairwise ItemField.Apart
  fresh : ∀ f ∈ db.itemFields, f.id < db.nextFieldId
  owned : ∀ v ∈ db.itemFieldVersions, v.itemFieldId < db.nextFieldId
  items : ∀ f ∈ db.itemFields, (db.item? f.itemId).isSome = true
  numbered : ∀ fieldId,
    NumberedLog.Consecutive ItemFieldVersion.versionNumber (db.versionsOf fieldId)
  pruned : ∀ fieldId, (db.versionsOf fieldId).length ≤ 10

instance : Std.Symm ItemField.Apart where
  symm _ _ h := ⟨h.1.symm, fun hk => h.2 ⟨hk.1.symm, hk.2.symm⟩⟩

theorem field?_eq_some {db : DB} {x : Uuid} {d : Int} {f : ItemField}
    (h : db.field? x d = some f) : f ∈ db.itemFields ∧ f.itemId = x ∧ f.fieldDefinitionId = d := by
  refine ⟨List.mem_of_find?_eq_some h, ?_⟩
  have hfor := List.find?_some h
  simpa [ItemField.isFor] using hfor

theorem FieldsOk.eq_of_id {db : DB} (h : FieldsOk db) {f g : ItemField}
    (hf : f ∈ db.itemFields) (hg : g ∈ db.itemFields) (hid : f.id = g.id) : f = g := by
  by_contra hne
  exact (h.unique.forall hf hg hne).1 hid

theorem FieldsOk.eq_of_key {db : DB} (h : FieldsOk db) {f g : ItemField}
    (hf : f ∈ db.itemFields) (hg : g ∈ db.itemFields) (hitem : f.itemId = g.itemId)
    (hdef : f.fieldDefinitionId = g.fieldDefinitionId) : f = g := by
  by_contra hne
  exact (h.unique.forall hf hg hne).2 ⟨hitem, hdef⟩

/-- An item that is not there has no cells. -/
theorem FieldsOk.fieldCell_none {db : DB} (h : FieldsOk db) {x : Uuid} (d : Int)
    (hx : db.item? x = none) : db.fieldCell x d = none := by
  rw [DB.fieldCell, Option.map_eq_none_iff]
  by_contra hne
  obtain ⟨f, hf⟩ := Option.ne_none_iff_exists'.mp hne
  obtain ⟨hmem, hitem, _⟩ := field?_eq_some hf
  have := h.items f hmem
  rw [hitem, hx] at this
  cases this

/-- The same rows, and no item removed. -/
theorem FieldsOk.congr {db db' : DB} (h : FieldsOk db) (hfields : db'.itemFields = db.itemFields)
    (hnext : db'.nextFieldId = db.nextFieldId)
    (hversions : db'.itemFieldVersions = db.itemFieldVersions)
    (hitems : ∀ x, (db.item? x).isSome = true → (db'.item? x).isSome = true) : FieldsOk db' := by
  have hof : ∀ i, db'.versionsOf i = db.versionsOf i := by
    intro i
    rw [DB.versionsOf, DB.versionsOf, hversions]
  constructor
  · rw [hfields]
    exact h.unique
  · rw [hfields, hnext]
    exact h.fresh
  · rw [hversions, hnext]
    exact h.owned
  · rw [hfields]
    intro f hf
    exact hitems _ (h.items f hf)
  · intro i
    rw [hof]
    exact h.numbered i
  · intro i
    rw [hof]
    exact h.pruned i

theorem fieldCell_congr {db db' : DB} (hfields : db'.itemFields = db.itemFields)
    (hversions : db'.itemFieldVersions = db.itemFieldVersions) :
    db'.fieldCell = db.fieldCell := by
  funext x d
  simp only [DB.fieldCell, DB.field?, DB.versionsOf, hfields, hversions]

/-- The versions query shows the versions of the cell. -/
theorem fieldVersionRows_value {db : DB} (h : FieldsOk db) (x : Uuid) (d : Int) :
    (fieldVersionRows db x d).map ItemFieldVersion.value = FieldCell.shown (db.fieldCell x d) := by
  cases hf : db.field? x d with
  | none =>
    have hnone : ∀ f ∈ db.itemFields, f.isFor x d = false := by
      simpa [DB.field?] using hf
    have hrows : (db.itemFieldVersions.filter fun v =>
        db.itemFields.any fun f => f.id = v.itemFieldId ∧ f.isFor x d) = [] := by
      rw [List.filter_eq_nil_iff]
      intro v _
      simp only [List.any_eq_true, decide_eq_true_eq, not_exists, not_and]
      intro f hmem _
      simp [hnone f hmem]
    rw [fieldVersionRows, hrows, DB.fieldCell, hf]
    rfl
  | some f =>
    obtain ⟨hmem, hitem, hdef⟩ := field?_eq_some hf
    -- the join has exactly the versions of the one row of the field
    have hrows : (db.itemFieldVersions.filter fun v =>
        db.itemFields.any fun g => g.id = v.itemFieldId ∧ g.isFor x d) = db.versionsOf f.id := by
      apply List.filter_congr
      intro v _
      rw [Bool.eq_iff_iff, List.any_eq_true, decide_eq_true_iff]
      constructor
      · rintro ⟨g, hg, hcond⟩
        simp only [ItemField.isFor, decide_eq_true_eq] at hcond
        have hgf : g = f := h.eq_of_key hg hmem (hcond.2.1.trans hitem.symm)
          (hcond.2.2.trans hdef.symm)
        rw [← hcond.1, hgf]
      · intro hv
        exact ⟨f, hmem, by simp [ItemField.isFor, hv, hitem, hdef]⟩
    have hsort := NumberedLog.insertionSort_newest_first newerFirst
      (fun _ _ => Iff.rfl) (h.numbered f.id)
    have hlen := h.pruned f.id
    rw [fieldVersionRows, hrows, hsort, List.take_of_length_le (by simpa using hlen)]
    simp [DB.fieldCell, hf, FieldCell.shown]

/-! ## One write -/

/-- The version the trigger adds when it overwrites the value of a row. -/
def newVersion (db : DB) (now : Time) (old : ItemField) (v : FieldValue) : ItemFieldVersion :=
  ⟨old.id, db.lastVersion old.id + 1, v, now⟩

/-- What the table of versions looks like once a value is recorded. -/
theorem snapshot_versions {db : DB} {now : Time} {old : ItemField} {new : Option FieldValue}
    {v : FieldValue} (hold : old.value = some v) (hnew : new.map Prod.fst ≠ some v.1) :
    (snapshotItemField db now old new).itemFieldVersions =
      (db.itemFieldVersions ++ [newVersion db now old v]).filter fun r =>
        ¬ (r.itemFieldId = old.id ∧ r.versionNumber + 10 ≤ db.lastVersion old.id + 1) := by
  simp only [snapshotItemField, hold, hnew, if_false]
  rfl

theorem snapshot_unchanged {db : DB} {now : Time} {old : ItemField} {new : Option FieldValue}
    (h : changedFrom old.value new = []) : snapshotItemField db now old new = db := by
  unfold snapshotItemField
  cases hold : old.value with
  | none => rfl
  | some v =>
    by_cases hnew : new.map Prod.fst = some v.1
    · simp only [hnew, if_true]
    · simp [changedFrom, hold, hnew] at h

/-- Versions of other rows are left alone. -/
theorem snapshot_other (db : DB) (now : Time) {old : ItemField} (new : Option FieldValue)
    {i : Nat} (hi : i ≠ old.id) :
    (snapshotItemField db now old new).versionsOf i = db.versionsOf i := by
  cases hold : old.value with
  | none => rw [snapshot_unchanged (by rw [hold]; rfl)]
  | some v =>
    by_cases hnew : new.map Prod.fst = some v.1
    · rw [snapshot_unchanged (by simp [changedFrom, hold, hnew])]
    · rw [DB.versionsOf, snapshot_versions hold hnew, List.filter_filter, List.filter_append,
        List.filter_singleton]
      have hne : (newVersion db now old v).itemFieldId ≠ i := fun h => hi h.symm
      simp only [hne, decide_false, Bool.false_and, cond_false, List.append_nil]
      apply List.filter_congr
      intro r _
      by_cases hr : r.itemFieldId = i
      · simp [hr, hi]
      · simp [hr]

/-- For the row that is overwritten the trigger adds the old value and keeps
the last ten. -/
theorem snapshot_self {db : DB} (h : FieldsOk db) (now : Time) (old : ItemField)
    (new : Option FieldValue) :
    let versions := (snapshotItemField db now old new).versionsOf old.id
    NumberedLog.Consecutive ItemFieldVersion.versionNumber versions ∧ versions.length ≤ 10 ∧
      (versions.map ItemFieldVersion.value).reverse =
        (changedFrom old.value new ++
          ((db.versionsOf old.id).map ItemFieldVersion.value).reverse).take 10 := by
  have hnum := h.numbered old.id
  have hlen := h.pruned old.id
  by_cases hsame : changedFrom old.value new = []
  · rw [snapshot_unchanged hsame, hsame]
    refine ⟨hnum, hlen, ?_⟩
    rw [List.nil_append, List.take_of_length_le (by simpa using hlen)]
  · obtain ⟨v, hold, hnew⟩ : ∃ v, old.value = some v ∧ new.map Prod.fst ≠ some v.1 := by
      cases hold : old.value with
      | none => simp [hold] at hsame
      | some v => exact ⟨v, rfl, fun hnew => hsame (by simp [changedFrom, hold, hnew])⟩
    have hchanged : changedFrom old.value new = [v] := by simp [changedFrom, hold, hnew]
    let r := newVersion db now old v
    have hr : r.versionNumber =
        NumberedLog.last ItemFieldVersion.versionNumber (db.versionsOf old.id) + 1 := rfl
    have hpush := NumberedLog.consecutive_push hnum hr
    have hlast := NumberedLog.last_push hr
    -- the rows of this field among all versions, pruned by number
    have hrows : (snapshotItemField db now old new).versionsOf old.id =
        (db.versionsOf old.id ++ [r]).drop ((db.versionsOf old.id ++ [r]).length - 10) := by
      rw [← NumberedLog.filter_recent hpush 10, hlast, DB.versionsOf, snapshot_versions hold hnew,
        List.filter_filter, DB.versionsOf]
      have hmine : db.itemFieldVersions.filter (·.itemFieldId = old.id) ++ [r] =
          (db.itemFieldVersions ++ [r]).filter (·.itemFieldId = old.id) := by
        simp [r, newVersion]
      rw [hmine, List.filter_filter]
      apply List.filter_congr
      intro q _
      by_cases hq : q.itemFieldId = old.id
      · simp [hq, r, newVersion]
      · simp [hq]
    rw [hrows]
    refine ⟨NumberedLog.consecutive_drop hpush _, ?_, ?_⟩
    · rw [List.length_drop]
      omega
    · rw [hchanged, ← List.map_reverse, ← List.map_reverse, ← List.take_reverse, List.map_take,
        List.reverse_append]
      rfl

@[simp] theorem snapshot_itemFields (db : DB) (now : Time) (old : ItemField)
    (new : Option FieldValue) :
    (snapshotItemField db now old new).itemFields = db.itemFields := by
  unfold snapshotItemField
  split
  · rfl
  · split <;> rfl

@[simp] theorem snapshot_nextFieldId (db : DB) (now : Time) (old : ItemField)
    (new : Option FieldValue) :
    (snapshotItemField db now old new).nextFieldId = db.nextFieldId := by
  unfold snapshotItemField
  split
  · rfl
  · split <;> rfl

@[simp] theorem snapshot_items (db : DB) (now : Time) (old : ItemField)
    (new : Option FieldValue) :
    (snapshotItemField db now old new).items = db.items := by
  unfold snapshotItemField
  split
  · rfl
  · split <;> rfl

theorem snapshot_mem {db : DB} {now : Time} {old : ItemField} {new : Option FieldValue}
    {r : ItemFieldVersion} (h : r ∈ (snapshotItemField db now old new).itemFieldVersions) :
    r ∈ db.itemFieldVersions ∨ r.itemFieldId = old.id := by
  cases hold : old.value with
  | none =>
    rw [snapshot_unchanged (by rw [hold]; rfl)] at h
    exact .inl h
  | some v =>
    by_cases hnew : new.map Prod.fst = some v.1
    · rw [snapshot_unchanged (by simp [changedFrom, hold, hnew])] at h
      exact .inl h
    · rw [snapshot_versions hold hnew] at h
      have hmem := (List.mem_filter.mp h).1
      rcases List.mem_append.mp hmem with hmem | hmem
      · exact .inl hmem
      · rw [List.mem_singleton.mp hmem]
        exact .inr rfl

/-- What a write of one field of an item does. -/
structure FieldWritten (db db' : DB) (y : Uuid) (d : Int) (value : Option FieldValue) : Prop where
  ok : FieldsOk db'
  items : db'.items = db.items
  cell : db'.fieldCell y d = some (.put (db.fieldCell y d) value)
  others : ∀ x e, ¬ (x = y ∧ e = d) → db'.fieldCell x e = db.fieldCell x e

section Overwrite

variable {db : DB} {y : Uuid} {d : Int} {old : ItemField}

theorem field?_overwriteField (now : Time) (old : ItemField) (value : Option FieldValue)
    (position : Int) (x : Uuid) (e : Int) :
    (db.overwriteField now y d old value position).field? x e =
      (db.field? x e).map fun r => if r.isFor y d then r.overwrite value position else r :=
  Table.find?_updateWhere (q := fun r : ItemField => r.isFor x e)
    (f := fun r : ItemField => r.overwrite value position) (fun _ => rfl) db.itemFields

theorem overwriteField_ok (h : FieldsOk db) (hmem : old ∈ db.itemFields) (now : Time)
    (value : Option FieldValue) (position : Int) :
    FieldsOk (db.overwriteField now y d old value position) := by
  obtain ⟨hnum, hlen, _⟩ := snapshot_self h now old value
  have hversions (i : Nat) : (db.overwriteField now y d old value position).versionsOf i =
      (snapshotItemField db now old value).versionsOf i := rfl
  have hitems : (db.overwriteField now y d old value position).items = db.items :=
    snapshot_items db now old value
  have hnext : (db.overwriteField now y d old value position).nextFieldId = db.nextFieldId :=
    snapshot_nextFieldId db now old value
  -- every row keeps its id and its item
  have hrow : ∀ f ∈ (db.overwriteField now y d old value position).itemFields,
      ∃ g ∈ db.itemFields, f.id = g.id ∧ f.itemId = g.itemId := by
    intro f hf
    obtain ⟨g, hg, hfg⟩ := Table.mem_updateWhere.mp hf
    refine ⟨g, hg, ?_⟩
    rw [← hfg]
    split <;> exact ⟨rfl, rfl⟩
  constructor
  · refine List.pairwise_map.mpr (h.unique.imp ?_)
    intro f g hfg
    split <;> split <;> exact hfg
  · intro f hf
    obtain ⟨g, hg, hid, _⟩ := hrow f hf
    rw [hid, hnext]
    exact h.fresh g hg
  · intro r hr
    rw [hnext]
    rcases snapshot_mem hr with hr | hr
    · exact h.owned r hr
    · rw [hr]
      exact h.fresh old hmem
  · intro f hf
    obtain ⟨g, hg, _, hitem⟩ := hrow f hf
    rw [hitem, DB.item?, hitems]
    exact h.items g hg
  · intro i
    rw [hversions]
    by_cases hi : i = old.id
    · rw [hi]
      exact hnum
    · rw [snapshot_other db now value hi]
      exact h.numbered i
  · intro i
    rw [hversions]
    by_cases hi : i = old.id
    · rw [hi]
      exact hlen
    · rw [snapshot_other db now value hi]
      exact h.pruned i

theorem overwriteField_written (h : FieldsOk db) (hold : db.field? y d = some old) (now : Time)
    (value : Option FieldValue) (position : Int) :
    FieldWritten db (db.overwriteField now y d old value position) y d value := by
  obtain ⟨hmem, hitem, hdef⟩ := field?_eq_some hold
  obtain ⟨_, _, hvalues⟩ := snapshot_self h now old value
  have hversions (i : Nat) : (db.overwriteField now y d old value position).versionsOf i =
      (snapshotItemField db now old value).versionsOf i := rfl
  refine ⟨overwriteField_ok h hmem now value position, snapshot_items db now old value, ?_, ?_⟩
  · have hself : old.isFor y d = true := by simp [ItemField.isFor, hitem, hdef]
    rw [DB.fieldCell, field?_overwriteField, hold, DB.fieldCell, hold]
    simp only [Option.map_some, hself, if_true, hversions, FieldCell.put]
    rw [← hvalues]
    rfl
  · intro x e hne
    rw [DB.fieldCell, field?_overwriteField, DB.fieldCell]
    cases hf : db.field? x e with
    | none => rfl
    | some f =>
      obtain ⟨hfmem, hfitem, hfdef⟩ := field?_eq_some hf
      have hfor : f.isFor y d = false := by
        simp only [ItemField.isFor, decide_eq_false_iff_not]
        rintro ⟨hy, hd⟩
        exact hne ⟨hfitem.symm.trans hy, hfdef.symm.trans hd⟩
      have hid : f.id ≠ old.id := by
        intro hid
        rw [h.eq_of_id hfmem hmem hid] at hfor
        simp [ItemField.isFor, hitem, hdef] at hfor
      simp only [Option.map_some, hfor, Bool.false_eq_true, if_false, hversions,
        snapshot_other db now value hid]

theorem field?_addField (value : Option FieldValue) (position : Int) (x : Uuid) (e : Int) :
    (db.addField y d value position).field? x e =
      (db.field? x e).or (if y = x ∧ d = e then
        some ⟨db.nextFieldId, y, d, value, position⟩ else none) := by
  rw [DB.field?, DB.addField, List.find?_append, List.find?_singleton]
  simp [ItemField.isFor, DB.field?]

theorem addField_ok (h : FieldsOk db) (hnone : db.field? y d = none)
    (hitem : (db.item? y).isSome = true) (value : Option FieldValue) (position : Int) :
    FieldsOk (db.addField y d value position) := by
  have hnot : ∀ f ∈ db.itemFields, f.isFor y d = false := by
    simpa [DB.field?] using hnone
  constructor
  · refine List.pairwise_append.mpr ⟨h.unique, List.pairwise_singleton _ _, ?_⟩
    intro f hf g hg
    rw [List.mem_singleton] at hg
    have hlt := h.fresh f hf
    have hfor := hnot f hf
    simp only [ItemField.isFor, decide_eq_false_iff_not] at hfor
    rw [hg]
    exact ⟨Nat.ne_of_lt hlt, hfor⟩
  · intro f hf
    change f.id < db.nextFieldId + 1
    rcases List.mem_append.mp hf with hf | hf
    · have := h.fresh f hf
      omega
    · rw [List.mem_singleton.mp hf]
      exact Nat.lt_succ_self _
  · intro v hv
    change v.itemFieldId < db.nextFieldId + 1
    have := h.owned v hv
    omega
  · intro f hf
    rcases List.mem_append.mp hf with hf | hf
    · exact h.items f hf
    · rw [List.mem_singleton.mp hf]
      exact hitem
  · exact h.numbered
  · exact h.pruned

/-- An insert of a field that has no row. -/
theorem addField_written (h : FieldsOk db) (hnone : db.field? y d = none)
    (hitem : (db.item? y).isSome = true) (value : Option FieldValue) (position : Int) :
    FieldWritten db (db.addField y d value position) y d value := by
  -- the id of the new row is not in use
  have hunused : (db.addField y d value position).versionsOf db.nextFieldId = [] := by
    refine List.filter_eq_nil_iff.mpr fun v hv => ?_
    have := h.owned v hv
    simp only [decide_eq_true_eq]
    omega
  refine ⟨addField_ok h hnone hitem value position, rfl, ?_, ?_⟩
  · rw [DB.fieldCell, field?_addField, hnone, DB.fieldCell, hnone]
    simp only [Option.none_or, and_self, if_true, Option.map_some, hunused]
    rfl
  · intro x e hne
    have hother : ¬ (y = x ∧ d = e) := fun hk => hne ⟨hk.1.symm, hk.2.symm⟩
    rw [DB.fieldCell, field?_addField, if_neg hother, Option.or_none]
    rfl

end Overwrite

/-- One field of a request that went through. -/
theorem insertItemField_written {db db' : DB} {now : Time} {y : Uuid} {f : ItemFieldInput}
    (h : FieldsOk db) (hins : insertItemField db now y f = some db') :
    ∃ value, f.value = some value ∧ FieldWritten db db' y f.fieldDefinitionID value := by
  unfold insertItemField at hins
  split at hins
  · cases hins
  · split at hins
    · cases hins
    · next value hvalue =>
      refine ⟨value, hvalue, ?_⟩
      split at hins
      · cases hins
      · split at hins
        · next old hold =>
          cases hins
          exact overwriteField_written h hold now value f.position
        · next hnone =>
          split at hins
          · next href =>
            cases hins
            simp only [DB.fieldReferencesExist, Bool.and_eq_true] at href
            exact addField_written h hnone href.1 value f.position
          · cases hins

/-- The values that a list of fields has for one definition. -/
def valuesFor (d : Int) (fields : List ItemFieldInput) : List (Option FieldValue) :=
  (fields.filter (·.fieldDefinitionID = d)).filterMap ItemFieldInput.value

/-- What writing all fields of a request to an item does. -/
structure FieldsWritten (db db' : DB) (y : Uuid) (fields : List ItemFieldInput) : Prop where
  ok : FieldsOk db'
  items : db'.items = db.items
  cell : ∀ d, db'.fieldCell y d = FieldCell.putAll (db.fieldCell y d) (valuesFor d fields)
  others : ∀ x d, x ≠ y → db'.fieldCell x d = db.fieldCell x d

theorem insertItemFields_written {db db' : DB} {now : Time} {y : Uuid}
    {fields : List ItemFieldInput} (h : FieldsOk db)
    (hins : insertItemFields db now y fields = some db') : FieldsWritten db db' y fields := by
  induction fields generalizing db with
  | nil =>
    cases hins
    exact ⟨h, rfl, fun _ => rfl, fun _ _ _ => rfl⟩
  | cons f rest ih =>
    unfold insertItemFields at hins
    split at hins
    · cases hins
    · next db₁ hfirst =>
      obtain ⟨value, hvalue, hwritten⟩ := insertItemField_written h hfirst
      have hrest := ih hwritten.ok hins
      refine ⟨hrest.ok, hrest.items.trans hwritten.items, ?_, ?_⟩
      · intro d
        rw [hrest.cell d]
        by_cases hd : f.fieldDefinitionID = d
        · subst hd
          rw [hwritten.cell, valuesFor, valuesFor, List.filter_cons_of_pos (by simp),
            List.filterMap_cons_some hvalue]
          rfl
        · rw [hwritten.others y d fun hk => hd hk.2.symm, valuesFor, valuesFor,
            List.filter_cons_of_neg (by simpa using hd)]
      · intro x d hx
        rw [hrest.others x d hx, hwritten.others x d fun hk => hx hk.1]

/-- A row either loses all its versions with the delete or keeps them. -/
theorem versionsOf_deleteItemFields (db : DB) (y : Uuid) (i : Nat) :
    (deleteItemFields db y).versionsOf i =
      if db.itemFields.any fun f => f.id = i ∧ f.itemId = y then [] else db.versionsOf i := by
  rw [DB.versionsOf, deleteItemFields, List.filter_filter]
  by_cases hi : (db.itemFields.any fun f => f.id = i ∧ f.itemId = y) = true
  · rw [if_pos hi, List.filter_eq_nil_iff]
    intro v _ hv
    simp only [Bool.and_eq_true, decide_eq_true_eq] at hv
    rw [hv.1] at hv
    exact hv.2 hi
  · rw [if_neg hi]
    apply List.filter_congr
    intro v _
    by_cases hv : v.itemFieldId = i
    · simp only [hv, decide_true, Bool.true_and]
      simpa using hi
    · simp [hv]

theorem deleteItemFields_ok {db : DB} (h : FieldsOk db) (y : Uuid) :
    FieldsOk (deleteItemFields db y) := by
  have hsub : (deleteItemFields db y).itemFields.Sublist db.itemFields := List.filter_sublist
  have hversub : (deleteItemFields db y).itemFieldVersions.Sublist db.itemFieldVersions :=
    List.filter_sublist
  constructor
  · exact h.unique.sublist hsub
  · exact fun f hf => h.fresh f (hsub.subset hf)
  · exact fun v hv => h.owned v (hversub.subset hv)
  · exact fun f hf => h.items f (hsub.subset hf)
  · intro i
    rw [versionsOf_deleteItemFields]
    split
    · exact NumberedLog.consecutive_nil _
    · exact h.numbered i
  · intro i
    rw [versionsOf_deleteItemFields]
    split
    · exact Nat.zero_le _
    · exact h.pruned i

/-- The delete empties the cells of the item, versions included. -/
theorem deleteItemFields_cells {db : DB} (h : FieldsOk db) (y : Uuid) :
    FieldsOk (deleteItemFields db y) ∧ (∀ d, (deleteItemFields db y).fieldCell y d = none) ∧
      ∀ x d, x ≠ y → (deleteItemFields db y).fieldCell x d = db.fieldCell x d := by
  refine ⟨deleteItemFields_ok h y, ?_, ?_⟩
  · intro d
    rw [DB.fieldCell, Option.map_eq_none_iff]
    simp only [DB.field?, deleteItemFields, List.find?_eq_none]
    intro f hf hfor
    have hgone := (Table.mem_deleteWhere.mp hf).2
    simp [ItemField.isFor] at hfor
    simp [hfor.1] at hgone
  · intro x d hx
    have hfield : (deleteItemFields db y).field? x d = db.field? x d := by
      rw [DB.field?, deleteItemFields, Table.deleteWhere, List.find?_filter, DB.field?]
      congr 1
      funext f
      by_cases hf : f.itemId = x
      · simp [ItemField.isFor, hf, hx]
      · simp [ItemField.isFor, hf]
    rw [DB.fieldCell, hfield, DB.fieldCell]
    cases hf : db.field? x d with
    | none => rfl
    | some f =>
      obtain ⟨hmem, hitem, _⟩ := field?_eq_some hf
      have hkept : ¬ (db.itemFields.any fun g => g.id = f.id ∧ g.itemId = y) = true := by
        rw [List.any_eq_true]
        rintro ⟨g, hg, hcond⟩
        simp only [decide_eq_true_eq] at hcond
        rw [h.eq_of_id hg hmem hcond.1, hitem] at hcond
        exact hx hcond.2
      simp only [Option.map_some, versionsOf_deleteItemFields, if_neg hkept]

end IronStock

import IronStock.ItemRows
import IronStock.Lib.Reselection
import IronStock.Lib.Table

/-!
# The backfill of plain names

`RunItemNameBackfill` runs once at startup. It selects rows without a plain name,
two hundred at a time and in no order, until a selection is empty.
-/
namespace IronStock

/-- The rows of `items`, each id once. -/
structure ItemsTable where
  rows : List Item
  keyed : (rows.map Item.id).Nodup

/-- The columns of the SELECT. -/
structure BackfillRow where
  id : Uuid
  dekWrapped : Bytes
  nameEnc : Bytes

def BackfillRow.ofItem (item : Item) : BackfillRow :=
  ⟨item.id, item.serverDekWrapped, item.nameEnc⟩

/-- The trigger of the table stamps each row that an UPDATE reaches. -/
def Item.fillName (item : Item) (name : String) (now : Time) : Item :=
  { item with namePlain := some name, updatedAt := now }

def ItemsTable.updateNamePlain (t : ItemsTable) (id : Uuid) (name : String) (now : Time) :
    ItemsTable where
  rows := Table.updateWhere (fun r => r.id = id ∧ r.namePlain = none) (·.fillName name now) t.rows
  keyed := by
    have hids := Table.map_updateWhere (p := fun r : Item => r.id = id ∧ r.namePlain = none)
      (f := (·.fillName name now)) (g := Item.id) (fun _ => rfl) t.rows
    rw [hids]
    exact t.keyed

/-- The rows that the SELECT matches. -/
def ItemsTable.unfilled (t : ItemsTable) : List BackfillRow :=
  (t.rows.filter (·.namePlain.isNone)).map .ofItem

/-! ## The loop -/

/-- The runes of a string from its i-th byte on: a byte that starts no character
is U+FFFD. -/
def runesFrom (b : ByteArray) : (fuel i : Nat) → List Char
  | 0, _ => []
  | fuel + 1, i =>
    if i < b.size then
      match b.utf8DecodeChar? i with
      | some c => c :: runesFrom b fuel (i + c.utf8Size)
      | none => '\uFFFD' :: runesFrom b fuel (i + 1)
    else []

def runes (b : Bytes) : String := String.ofList (runesFrom ⟨b.toArray⟩ b.length 0)

/-- `strings.ToLower` of the decrypted name. -/
def loweredName (svc : Service) (r : BackfillRow) : Option String :=
  (decryptItemName svc r.id.text r.dekWrapped r.nameEnc).map fun pt => svc.toLower (runes pt)

def backfillBatchSize : Nat := 200

/-- What the database does: the rows it returns for a SELECT that matches some,
the times of its UPDATEs, and the texts that the column and its indexes take. -/
structure BackfillServer where
  pick : Nat → List BackfillRow → List BackfillRow
  subperm : ∀ n rows, (pick n rows).Subperm rows
  length : ∀ n rows, (pick n rows).length = min backfillBatchSize rows.length
  now : Nat → Uuid → Time
  takes : String → Bool

section
variable (svc : Service) (pg : BackfillServer)

/-- A row that does not decrypt is skipped, and so is one that is not updated. -/
def backfillRow (n : Nat) (t : ItemsTable) (r : BackfillRow) : ItemsTable :=
  match loweredName svc r with
  | none => t
  | some name => if pg.takes name then t.updateNamePlain r.id name (pg.now n r.id) else t

/-- `RunItemNameBackfill`, for as many selections as there is fuel. -/
def runItemNameBackfill (fuel : Nat) (t : ItemsTable) : Option ItemsTable :=
  Reselection.run (fun n t => pg.pick n t.unfilled)
    (fun n batch t => batch.foldl (backfillRow svc pg n) t) fuel 0 t

/-- The name of the row decrypts and can be stored. -/
def Fillable (item : Item) : Prop :=
  ∃ name, loweredName svc (.ofItem item) = some name ∧ pg.takes name = true

/-- What a row is at any time of the loop. -/
inductive Backfilled (old : Item) : Item → Prop
  | kept : Backfilled old old
  | filled (name : String) (now : Time) (hnull : old.namePlain = none)
      (hname : loweredName svc (.ofItem old) = some name) (htakes : pg.takes name = true) :
      Backfilled old (old.fillName name now)

/-- What a row is when the loop has returned. -/
structure Finished (old new : Item) : Prop where
  kept : old.namePlain ≠ none → new = old
  filled : old.namePlain = none →
    ∃ name now, loweredName svc (.ofItem old) = some name ∧ new = old.fillName name now
end

variable {svc : Service} {pg : BackfillServer}

/-! ## One row -/

namespace Backfilled

theorem row {old new : Item} (h : Backfilled svc pg old new) :
    BackfillRow.ofItem new = .ofItem old := by
  cases h <;> rfl

/-- A row that is still without a name is as it was. -/
theorem eq_of_null {old new : Item} (h : Backfilled svc pg old new) (hnull : new.namePlain = none) :
    new = old := by
  cases h with
  | kept => rfl
  | filled name now _ _ _ => exact nomatch hnull

end Backfilled

/-- The rows of one table as the loop has left them in another. -/
def Stage (svc : Service) (pg : BackfillServer) (start t : ItemsTable) : Prop :=
  List.Forall₂ (Backfilled svc pg) start.rows t.rows

theorem Stage.refl (t : ItemsTable) : Stage svc pg t t :=
  List.forall₂_same.mpr fun _ _ => .kept

/-- A selected row is a row of the table the loop began with, as it was. -/
theorem Stage.of_mem_unfilled {start t : ItemsTable} (h : Stage svc pg start t) {r : BackfillRow}
    (hr : r ∈ t.unfilled) :
    ∃ old ∈ start.rows, old ∈ t.rows ∧ old.namePlain = none ∧ r = .ofItem old := by
  obtain ⟨new, hnew, rfl⟩ := List.mem_map.mp hr
  obtain ⟨hmem, hnull⟩ := List.mem_filter.mp hnew
  obtain ⟨old, hold, hrow⟩ := Table.exists_left_of_mem h hmem
  obtain rfl := hrow.eq_of_null (Option.isNone_iff_eq_none.mp hnull)
  exact ⟨new, hold, hmem, Option.isNone_iff_eq_none.mp hnull, rfl⟩

theorem BackfillServer.mem_unfilled {n : Nat} {t : ItemsTable} {r : BackfillRow}
    (hr : r ∈ pg.pick n t.unfilled) : r ∈ t.unfilled :=
  (pg.subperm n t.unfilled).subset hr

theorem BackfillServer.pick_eq_nil {n : Nat} {rows : List BackfillRow} :
    pg.pick n rows = [] ↔ rows = [] := by
  rw [← List.length_eq_zero_iff, pg.length, ← List.length_eq_zero_iff, backfillBatchSize]
  omega

/-- The UPDATE of a row reaches that row alone. -/
theorem Stage.row {start t : ItemsTable} (h : Stage svc pg start t) (n : Nat) {old : Item}
    (hold : old ∈ start.rows) : Stage svc pg start (backfillRow svc pg n t (.ofItem old)) := by
  unfold backfillRow
  cases hname : loweredName svc (.ofItem old) with
  | none => exact h
  | some name =>
    simp only
    split
    · next htakes =>
      have hkey : ∀ o ∈ start.rows, o.id = old.id → o = old := fun o ho hid =>
        List.inj_on_of_nodup_map start.keyed ho hold hid
      have hpairs := (List.forall₂_and_left _ _).mpr ⟨hkey, h⟩
      refine List.forall₂_map_right_iff.mpr (hpairs.imp ?_)
      rintro o new ⟨hsame, hrow⟩
      by_cases hreach : new.id = old.id ∧ new.namePlain = none
      · obtain rfl := hrow.eq_of_null hreach.2
        obtain rfl := hsame hreach.1
        simp only [BackfillRow.ofItem, hreach, and_self, decide_true, if_true]
        exact .filled name _ hreach.2 hname htakes
      · simp only [BackfillRow.ofItem, hreach, decide_false, Bool.false_eq_true, if_false]
        exact hrow
    · exact h

theorem Stage.batch {start t : ItemsTable} (h : Stage svc pg start t) (n : Nat)
    {batch : List BackfillRow} (hbatch : ∀ r ∈ batch, ∃ old ∈ start.rows, r = .ofItem old) :
    Stage svc pg start (batch.foldl (backfillRow svc pg n) t) := by
  induction batch generalizing t with
  | nil => exact h
  | cons r batch ih =>
    rw [List.forall_mem_cons] at hbatch
    obtain ⟨⟨old, hold, rfl⟩, hrest⟩ := hbatch
    exact ih (h.row n hold) hrest

/-- A batch leaves every row filled or as it was. -/
theorem stage_keeps (start : ItemsTable) :
    Reselection.Keeps (fun n t => pg.pick n (ItemsTable.unfilled t))
      (fun n batch t => batch.foldl (backfillRow svc pg n) t) (Stage svc pg start) := by
  intro n t h _
  apply h.batch n
  intro r hr
  obtain ⟨old, hold, -, -, rfl⟩ := h.of_mem_unfilled (pg.mem_unfilled hr)
  exact ⟨old, hold, rfl⟩

/-! ## Progress -/

/-- The rows still to do. -/
def ItemsTable.unfilledCount (t : ItemsTable) : Nat := t.rows.countP (·.namePlain.isNone)

theorem countP_fillName (p : Item → Bool) (name : String) (now : Time) (rows : List Item) :
    (Table.updateWhere p (·.fillName name now) rows).countP (·.namePlain.isNone) =
      (Table.deleteWhere p rows).countP (·.namePlain.isNone) := by
  induction rows with
  | nil => rfl
  | cons r rows ih =>
    rw [Table.updateWhere_cons, List.countP_cons, ih]
    by_cases hp : p r = true
    · simp [Table.deleteWhere, hp, Item.fillName]
    · simp [Table.deleteWhere, hp, List.countP_cons]

theorem unfilledCount_backfillRow_le (n : Nat) (t : ItemsTable) (r : BackfillRow) :
    (backfillRow svc pg n t r).unfilledCount ≤ t.unfilledCount := by
  unfold backfillRow
  split
  · exact le_rfl
  · split
    · exact (countP_fillName _ _ _ _).trans_le (Table.countP_deleteWhere_le _ _ _)
    · exact le_rfl

theorem unfilledCount_backfillRow_lt (n : Nat) {t : ItemsTable} {item : Item}
    (hitem : item ∈ t.rows) (hnull : item.namePlain = none) (hgood : Fillable svc pg item) :
    (backfillRow svc pg n t (.ofItem item)).unfilledCount < t.unfilledCount := by
  obtain ⟨name, hname, htakes⟩ := hgood
  rw [backfillRow, hname]
  simp only [htakes, if_true]
  exact (countP_fillName _ _ _ _).trans_lt
    (Table.countP_deleteWhere_lt hitem (by simp [BackfillRow.ofItem, hnull]) (by simp [hnull]))

theorem unfilledCount_batch_le (n : Nat) (t : ItemsTable) (batch : List BackfillRow) :
    (batch.foldl (backfillRow svc pg n) t).unfilledCount ≤ t.unfilledCount := by
  induction batch generalizing t with
  | nil => exact le_rfl
  | cons r batch ih => exact (ih _).trans (unfilledCount_backfillRow_le n t r)

/-- A batch whose rows are fillable leaves fewer to do. -/
theorem Stage.unfilledCount_lt {start t : ItemsTable} (h : Stage svc pg start t)
    (hgood : ∀ old ∈ start.rows, old.namePlain = none → Fillable svc pg old) {n : Nat}
    (hne : pg.pick n t.unfilled ≠ []) :
    ((pg.pick n t.unfilled).foldl (backfillRow svc pg n) t).unfilledCount < t.unfilledCount := by
  have hrows := fun r hr => h.of_mem_unfilled (pg.mem_unfilled (n := n) (r := r) hr)
  cases hbatch : pg.pick n t.unfilled with
  | nil => exact absurd hbatch hne
  | cons r batch =>
    obtain ⟨old, hold, hmem, hnull, rfl⟩ := hrows r (hbatch ▸ List.mem_cons_self)
    calc (batch.foldl (backfillRow svc pg n)
          (backfillRow svc pg n t (.ofItem old))).unfilledCount
        ≤ (backfillRow svc pg n t (.ofItem old)).unfilledCount := unfilledCount_batch_le n _ _
      _ < t.unfilledCount := unfilledCount_backfillRow_lt n hmem hnull (hgood old hold hnull)

/-! ## The whole loop -/

theorem finished_of_returned {start out : ItemsTable} (h : Stage svc pg start out) {m : Nat}
    (hempty : pg.pick m out.unfilled = []) :
    List.Forall₂ (Finished svc) start.rows out.rows := by
  have hnone : ∀ new ∈ out.rows, new.namePlain ≠ none := by
    intro new hnew hnull
    have hmem : BackfillRow.ofItem new ∈ out.unfilled :=
      List.mem_map_of_mem (List.mem_filter.mpr ⟨hnew, by simp [hnull]⟩)
    rw [pg.pick_eq_nil.mp hempty] at hmem
    exact absurd hmem List.not_mem_nil
  have hpairs := (List.forall₂_and_left _ _).mpr ⟨hnone, h.flip⟩
  refine (hpairs.imp ?_).flip
  rintro new old ⟨hsome, hrow⟩
  cases hrow with
  | kept => exact ⟨fun _ => rfl, fun hnull => absurd hnull hsome⟩
  | filled name now hnull hname _ =>
    exact ⟨fun hne => absurd hnull hne, fun _ => ⟨name, now, hname, rfl⟩⟩

/-- A row that cannot be filled is selected for ever. -/
theorem backfill_never_returns (start : ItemsTable) {old : Item} (hold : old ∈ start.rows)
    (hnull : old.namePlain = none) (hbad : ¬ Fillable svc pg old) (fuel : Nat) :
    runItemNameBackfill svc pg fuel start = none := by
  refine Reselection.run_eq_none (stage_keeps start) ?_ fuel 0 (Stage.refl start)
  intro n t h hempty
  obtain ⟨new, hnew, hrow⟩ := Table.exists_right_of_mem h hold
  have hmem : BackfillRow.ofItem new ∈ t.unfilled := by
    cases hrow with
    | kept => exact List.mem_map_of_mem (List.mem_filter.mpr ⟨hnew, by simp [hnull]⟩)
    | filled name now _ hname htakes => exact absurd ⟨name, hname, htakes⟩ hbad
  rw [pg.pick_eq_nil.mp hempty] at hmem
  exact absurd hmem List.not_mem_nil

theorem backfill_isSome (start : ItemsTable)
    (hgood : ∀ old ∈ start.rows, old.namePlain = none → Fillable svc pg old) :
    (runItemNameBackfill svc pg (start.unfilledCount + 1) start).isSome = true :=
  Reselection.run_isSome (stage_keeps start) (fun _ _ h hne => h.unfilledCount_lt hgood hne)
    (Stage.refl start) (Nat.lt_succ_self _)

theorem backfill_returns_iff (start : ItemsTable) :
    (∃ fuel, (runItemNameBackfill svc pg fuel start).isSome = true) ↔
      ∀ old ∈ start.rows, old.namePlain = none → Fillable svc pg old := by
  constructor
  · rintro ⟨fuel, hsome⟩ old hold hnull
    by_contra hbad
    rw [backfill_never_returns start hold hnull hbad fuel] at hsome
    exact nomatch hsome
  · exact fun hgood => ⟨_, backfill_isSome start hgood⟩

/-- A server that returns the first rows it finds. -/
def samplePg : BackfillServer where
  pick _ rows := rows.take backfillBatchSize
  subperm _ rows := (List.take_sublist _ rows).subperm
  length _ _ := List.length_take
  now _ _ := 1
  takes name := name.toList.all (· ≠ Char.ofNat 0)

def sealedItem : Item :=
  let id := (Uuid.ofNat 7).text
  let dek := List.replicate keyLength 0
  { sampleItem 7 1 2 with
    serverDekWrapped :=
      sampleService.master.sealBlob sampleNonce dek (makeAAD "items" id "server_dek")
    nameEnc := (sampleService.aes dek).sealBlob sampleNonce (bytesOf "DB-1")
      (makeAAD "items" id "name_enc") }

/-- A table of one row. -/
def tableOf (item : Item) : ItemsTable := ⟨[item], List.nodup_singleton _⟩

theorem fillable_sealedItem : Fillable sampleService samplePg sealedItem :=
  ⟨"db-1", by decide, by decide⟩

theorem not_fillable_sampleItem : ¬ Fillable sampleService samplePg (sampleItem 7 1 2) := by
  rintro ⟨name, hname, -⟩
  have hnone : loweredName sampleService (.ofItem (sampleItem 7 1 2)) = none := by decide
  exact nomatch hnone.symm.trans hname

end IronStock

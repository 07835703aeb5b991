import IronStock.FieldCells
import IronStock.Lib.Runs

/-!
# Field history over runs

Create and update requests in any order, seen through `ListFieldVersions`. An
update that sends fields deletes the field rows, and the versions with them,
before it inserts the new ones, so what a reader is shown afterwards are the
values the request itself overwrites.
-/
namespace IronStock

/-! ## Requests -/

inductive ItemOp
  | create (now : Time) (claims : Claims) (draw : EnvelopeDraw) (req : ItemRequest)
  | update (now : Time) (claims : Claims) (id : String) (draw : EnvelopeDraw) (req : ItemRequest)

namespace ItemOp

variable (svc : Service) (db : DB)

/-- The state after an accepted request. -/
def result : ItemOp → Option DB
  | create now claims draw req => (itemCreate svc db now claims draw req).toOption.map Prod.fst
  | update now claims id draw req =>
    (itemUpdate svc db now claims id draw req).toOption.map Prod.fst

/-- A refused request changes nothing. -/
def step (op : ItemOp) : DB := (op.result svc db).getD db

/-- The fields of an accepted request that writes all fields of item `x`. -/
def written (x : Uuid) (op : ItemOp) : Option (List ItemFieldInput) :=
  if (op.result svc db).isNone then none
  else match op with
    | create _ _ _ req => if castUuid req.id = some x then some (req.fields.getD []) else none
    | update _ _ id _ req => if castUuid id = some x then req.fields else none

end ItemOp

theorem withNewItem_fieldsOk {db : DB} (h : FieldsOk db) (row : Item) (dekWrapped : Bytes)
    (wrapNonce : Nonce) : FieldsOk (db.withNewItem row dekWrapped wrapNonce) := by
  refine h.congr rfl rfl rfl ?_
  intro x hx
  have hitem : (db.withNewItem row dekWrapped wrapNonce).item? x = (db.addItem row).item? x := rfl
  rw [hitem, item?_addItem, Option.isSome_or, hx, Bool.true_or]

/-- The cells of item `x` after a request: as before, or what the fields of the
request make of empty cells. -/
structure ItemOpEffect (svc : Service) (db : DB) (x : Uuid) (op : ItemOp) : Prop where
  ok : FieldsOk (op.step svc db)
  cell : ∀ d, (op.step svc db).fieldCell x d =
    match op.written svc db x with
    | none => db.fieldCell x d
    | some fields => FieldCell.putAll none (valuesFor d fields)

theorem itemOp_effect_of_refused {svc : Service} {db : DB} (h : FieldsOk db) (x : Uuid)
    {op : ItemOp} (hop : op.result svc db = none) : ItemOpEffect svc db x op := by
  have hstep : op.step svc db = db := by rw [ItemOp.step, hop]; rfl
  have hwritten : op.written svc db x = none := by simp [ItemOp.written, hop]
  refine ⟨?_, ?_⟩
  · rw [hstep]
    exact h
  · intro d
    rw [hstep, hwritten]

theorem itemOp_effect_create {svc : Service} {db db' : DB} (h : FieldsOk db) (x : Uuid)
    {now : Time} {claims : Claims} {draw : EnvelopeDraw} {req : ItemRequest} {resp : ItemResponse}
    (hop : itemCreate svc db now claims draw req = .ok (db', resp)) :
    ItemOpEffect svc db x (.create now claims draw req) := by
  obtain ⟨row, nonce, db₃, hid, _, hfree, _, _, hins, hdb'⟩ := itemCreate_eq_ok hop
  have hresult : (ItemOp.create now claims draw req).result svc db = some db' := by
    rw [ItemOp.result, hop]
    rfl
  have hstep : (ItemOp.create now claims draw req).step svc db = db' := by
    rw [ItemOp.step, hresult]
    rfl
  have hwritten : (ItemOp.create now claims draw req).written svc db x =
      if row.id = x then some (req.fields.getD []) else none := by
    simp [ItemOp.written, hresult, hid]
  have hfields := insertItemFields_written (withNewItem_fieldsOk h row _ nonce) hins
  have hcell : db'.fieldCell = db₃.fieldCell := by
    rw [hdb']
    exact fieldCell_congr rfl rfl
  refine ⟨?_, ?_⟩
  · rw [hstep, hdb']
    exact hfields.ok.congr rfl rfl rfl fun _ hx => hx
  · intro d
    rw [hstep, hwritten, hcell]
    have hbefore : (db.withNewItem row req.ownerDEKWrapped nonce).fieldCell = db.fieldCell :=
      fieldCell_congr rfl rfl
    by_cases hx : row.id = x
    · subst hx
      rw [if_pos rfl, hfields.cell, hbefore, h.fieldCell_none d hfree]
    · rw [if_neg hx, hfields.others x d fun hk => hx hk.symm, hbefore]

theorem itemOp_effect_update {svc : Service} {db db' : DB} (h : FieldsOk db) (x : Uuid)
    {now : Time} {claims : Claims} {id : String} {draw : EnvelopeDraw} {req : ItemRequest}
    {links : List Uuid} (hop : itemUpdate svc db now claims id draw req = .ok (db', links)) :
    ItemOpEffect svc db x (.update now claims id draw req) := by
  obtain ⟨existing, c, db₂, hid, _, hins, hdb'⟩ := itemUpdate_eq_ok hop
  have hresult : (ItemOp.update now claims id draw req).result svc db = some db' := by
    rw [ItemOp.result, hop]
    rfl
  have hstep : (ItemOp.update now claims id draw req).step svc db = db' := by
    rw [ItemOp.step, hresult]
    rfl
  have hwritten : (ItemOp.update now claims id draw req).written svc db x =
      if existing.id = x then req.fields else none := by
    simp [ItemOp.written, hresult, hid]
  have hcell : db'.fieldCell = db₂.fieldCell := by
    rw [hdb']
    exact fieldCell_congr rfl rfl
  -- the item statement leaves the fields alone
  let db₁ : DB := { db with items := Table.updateWhere (·.id = existing.id) (·.set c now) db.items }
  have hitems : ∀ y, (db.item? y).isSome = true → (db₁.item? y).isSome = true := by
    intro y hy
    have hlook : db₁.item? y = (db.item? y).map _ :=
      Table.lookup_updateWhere (f := (Item.set · c now)) (fun _ => rfl) y db.items
    rw [hlook, Option.isSome_map]
    exact hy
  have hok₁ : FieldsOk db₁ := h.congr rfl rfl rfl hitems
  cases hreq : req.fields with
  | none =>
    rw [hreq] at hins hwritten
    cases hins
    refine ⟨?_, ?_⟩
    · rw [hstep, hdb']
      exact hok₁.congr rfl rfl rfl fun _ hx => hx
    · intro d
      rw [hstep, hwritten, hcell, ite_self]
      rfl
  | some fields =>
    rw [hreq] at hins hwritten
    obtain ⟨hok₂, hempty, hothers⟩ := deleteItemFields_cells hok₁ existing.id
    have hfields := insertItemFields_written hok₂ hins
    refine ⟨?_, ?_⟩
    · rw [hstep, hdb']
      exact hfields.ok.congr rfl rfl rfl fun _ hx => hx
    · intro d
      rw [hstep, hwritten, hcell]
      by_cases hx : existing.id = x
      · subst hx
        rw [if_pos rfl, hfields.cell, hempty]
      · have hx' : x ≠ existing.id := fun hk => hx hk.symm
        rw [if_neg hx, hfields.others x d hx', hothers x d hx']
        rfl

theorem itemOp_effect (svc : Service) {db : DB} (h : FieldsOk db) (x : Uuid) (op : ItemOp) :
    ItemOpEffect svc db x op := by
  cases op with
  | create now claims draw req =>
    cases hop : itemCreate svc db now claims draw req with
    | error e => exact itemOp_effect_of_refused h x (by rw [ItemOp.result, hop]; rfl)
    | ok r => exact itemOp_effect_create h x hop
  | update now claims id draw req =>
    cases hop : itemUpdate svc db now claims id draw req with
    | error e => exact itemOp_effect_of_refused h x (by rw [ItemOp.result, hop]; rfl)
    | ok r => exact itemOp_effect_update h x hop

/-! ## Earlier values -/

/-- The stored value of a field, if it has one that is not NULL. -/
def DB.storedValue (db : DB) (x : Uuid) (d : Int) : Option FieldValue :=
  FieldCell.current (db.fieldCell x d)

/-- The versions on record for a field, newest first. -/
def DB.recorded (db : DB) (x : Uuid) (d : Int) : List FieldValue :=
  FieldCell.shown (db.fieldCell x d)

/-- A run together with the earlier values of one field, newest first: a
request that changes the stored value adds the value before it. -/
structure FieldRun where
  db : DB
  earlier : List FieldValue

def FieldRun.step (svc : Service) (x : Uuid) (d : Int) (s : FieldRun) (op : ItemOp) : FieldRun where
  db := op.step svc s.db
  earlier := changedFrom (s.db.storedValue x d) ((op.step svc s.db).storedValue x d) ++ s.earlier

/-- Whoever may read the item is shown the ten most recent earlier values. -/
def FaithfulHistory (svc : Service) (itemID fieldDefIDStr : String) (s : FieldRun) : Prop :=
  ∀ now claims, MayReadItem s.db now claims itemID →
    ∃ out, listFieldVersions svc s.db now claims itemID fieldDefIDStr = .ok out ∧
      out.map FieldVersionOutput.value = s.earlier.take 10

/-- A request that writes the fields of the item overwrites, within itself, the
values that make up the history after it. -/
def KeepsHistory (svc : Service) (x : Uuid) (d : Int) (s : FieldRun) (op : ItemOp) : Prop :=
  ∀ fields ∈ op.written svc s.db x,
    (overwritten (valuesFor d fields)).take 10 =
      (changedFrom (s.db.storedValue x d) ((valuesFor d fields).getLastD none) ++
        s.db.recorded x d).take 10

instance (svc : Service) (x : Uuid) (d : Int) (s : FieldRun) (op : ItemOp) :
    Decidable (KeepsHistory svc x d s op) := by
  unfold KeepsHistory
  infer_instance

/-- A request that names the field at most once keeps its history only if there
is none and the value stays. -/
theorem keepsHistory_of_single {x : Uuid} {d : Int} {db : DB} {fields : List ItemFieldInput}
    (h : (valuesFor d fields).length ≤ 1) :
    ((overwritten (valuesFor d fields)).take 10 =
      (changedFrom (db.storedValue x d) ((valuesFor d fields).getLastD none) ++
        db.recorded x d).take 10) ↔
      changedFrom (db.storedValue x d) ((valuesFor d fields).getLastD none) = [] ∧
        db.recorded x d = [] := by
  have hnone : overwritten (valuesFor d fields) = [] := by
    match valuesFor d fields, h with
    | [], _ => rfl
    | [v], _ => rfl
  rw [hnone, List.take_nil, eq_comm, List.take_eq_nil_iff, List.append_eq_nil_iff]
  simp

theorem faithfulHistory_iff (svc : Service) {itemID fieldDefIDStr : String} {x : Uuid} {d : Int}
    (hx : castUuid itemID = some x) (hd : parseInt64 fieldDefIDStr = some d) {s : FieldRun}
    (h : FieldsOk s.db) :
    FaithfulHistory svc itemID fieldDefIDStr s ↔ s.db.recorded x d = s.earlier.take 10 := by
  have hvalues : ((fieldVersionRows s.db x d).map (·.output svc)).map FieldVersionOutput.value =
      s.db.recorded x d := by
    rw [List.map_map]
    exact fieldVersionRows_value h x d
  constructor
  · intro hf
    obtain ⟨out, hout, hmap⟩ := hf 0 ⟨x, [.admin]⟩ (.inl rfl)
    obtain ⟨_, hout⟩ := (listFieldVersions_eq_ok hx hd).mp hout
    rw [← hmap, ← hout, hvalues]
  · intro hrec now claims hread
    refine ⟨_, (listFieldVersions_eq_ok hx hd).mpr ⟨hread, rfl⟩, ?_⟩
    rw [hvalues, hrec]

/-- One request: the history stays faithful exactly if the request keeps it. -/
theorem recorded_step_iff (svc : Service) {x : Uuid} {d : Int} {s : FieldRun}
    (h : FieldsOk s.db) (hs : s.db.recorded x d = s.earlier.take 10) (op : ItemOp) :
    ((s.step svc x d op).db.recorded x d = (s.step svc x d op).earlier.take 10) ↔
      KeepsHistory svc x d s op := by
  have heffect := itemOp_effect svc h x op
  have hcell := heffect.cell d
  cases hw : op.written svc s.db x with
  | none =>
    rw [hw] at hcell
    have hrec : (s.step svc x d op).db.recorded x d = s.db.recorded x d := by
      simp only [DB.recorded, FieldRun.step, hcell]
    have hval : (op.step svc s.db).storedValue x d = s.db.storedValue x d := by
      simp only [DB.storedValue, hcell]
    have hsame : changedFrom (s.db.storedValue x d) (s.db.storedValue x d) = [] := by
      cases s.db.storedValue x d <;> simp [changedFrom]
    have hearlier : (s.step svc x d op).earlier = s.earlier := by
      simp only [FieldRun.step, hval, hsame, List.nil_append]
    rw [hrec, hearlier]
    simp [hs, KeepsHistory, hw]
  | some fields =>
    rw [hw] at hcell
    obtain ⟨hshown, hcurrent⟩ := putAll_none (valuesFor d fields)
    have hrec : (s.step svc x d op).db.recorded x d =
        (overwritten (valuesFor d fields)).take 10 := by
      simp only [DB.recorded, FieldRun.step, hcell, hshown]
    have hval : (op.step svc s.db).storedValue x d = (valuesFor d fields).getLastD none := by
      simp only [DB.storedValue, hcell, hcurrent]
    have hearlier : (s.step svc x d op).earlier.take 10 =
        (changedFrom (s.db.storedValue x d) ((valuesFor d fields).getLastD none) ++
          s.db.recorded x d).take 10 := by
      simp only [FieldRun.step, hval, hs, take_append_take]
    rw [hrec, hearlier]
    simp [KeepsHistory, hw]

/-- From a state without the item, the answers are faithful along a run exactly
if every request keeps the history. -/
theorem field_history_iff_kept (svc : Service) {itemID fieldDefIDStr : String} {x : Uuid} {d : Int}
    (hx : castUuid itemID = some x) (hd : parseInt64 fieldDefIDStr = some d) {db₀ : DB}
    (hok : FieldsOk db₀) (hnew : db₀.item? x = none) (ops : List ItemOp) :
    Runs.Along (FieldRun.step svc x d) (FaithfulHistory svc itemID fieldDefIDStr) ⟨db₀, []⟩ ops ↔
      Runs.Every (FieldRun.step svc x d) (KeepsHistory svc x d) ⟨db₀, []⟩ ops := by
  apply Runs.along_iff_every (J := fun s : FieldRun => FieldsOk s.db) (A := fun _ _ => True)
  · intro s op hJ _
    exact (itemOp_effect svc hJ x op).ok
  · intro s op hJ hI _
    rw [faithfulHistory_iff svc hx hd (itemOp_effect svc hJ x op).ok]
    exact recorded_step_iff svc hJ ((faithfulHistory_iff svc hx hd hJ).mp hI) op
  · exact hok
  · rw [faithfulHistory_iff svc hx hd hok]
    simp [DB.recorded, hok.fieldCell_none d hnew, FieldCell.shown]
  · exact (Runs.every_const _ (fun _ => True) _ ops).mpr fun _ _ => trivial

/-- User 1 with a folder, one item type and one field definition. -/
def historyState : DB where
  users := [sampleUser 1 "owner"]
  folders := [sampleFolder 10 1]
  itemTypes := [⟨1, none⟩]
  fieldDefinitions := [1]

theorem historyState_ok : FieldsOk historyState :=
  ⟨.nil, nofun, nofun, nofun, fun _ => NumberedLog.consecutive_nil _, fun _ => Nat.zero_le _⟩

def historyDraw : EnvelopeDraw :=
  ⟨List.replicate keyLength 0, sampleNonce, sampleNonce, length_zeroKey⟩

/-- The body of a create or an update of item 5 that sends these ciphertexts
for field 1, in this order. -/
def historyRequest (ciphertexts : List Bytes) : ItemRequest where
  id := (Uuid.ofNat 5).text
  folderID := (Uuid.ofNat 10).text
  itemTypeID := 1
  name := "db"
  description := none
  fields := some (ciphertexts.map fun c => ⟨1, some c, some sampleNonce.bytes, 0⟩)
  ownerDEKWrapped := [1]
  ownerWrapNonce := sampleNonce.bytes
  externalSource := ""
  expiresAt := none
  rotationIntervalDays := none

def historyCreate (c : Bytes) : ItemOp :=
  .create 0 ⟨Uuid.ofNat 1, [.write]⟩ historyDraw (historyRequest [c])

def historyUpdate (ciphertexts : List Bytes) : ItemOp :=
  .update 1 ⟨Uuid.ofNat 1, [.write]⟩ (Uuid.ofNat 5).text historyDraw (historyRequest ciphertexts)

/-- An update that first writes the old value and then the new one keeps the
old value as a version. -/
theorem field_history_iff_kept_repeated_field :
    Runs.Along (FieldRun.step sampleService (Uuid.ofNat 5) 1)
      (FaithfulHistory sampleService (Uuid.ofNat 5).text "1") ⟨historyState, []⟩
      [historyCreate [7], historyUpdate [[7]], historyUpdate [[7], [8]]] :=
  (field_history_iff_kept sampleService (castUuid_text _) (by decide) historyState_ok (by decide)
    _).mpr (by decide)

/-- After an ordinary update that changes the value the history is empty. -/
theorem field_history_lost :
    ¬ ∀ (svc : Service) (itemID fieldDefIDStr : String) (x : Uuid) (d : Int) (db₀ : DB)
      (ops : List ItemOp), castUuid itemID = some x → parseInt64 fieldDefIDStr = some d →
      FieldsOk db₀ → db₀.item? x = none →
      Runs.Along (FieldRun.step svc x d) (FaithfulHistory svc itemID fieldDefIDStr) ⟨db₀, []⟩
        ops := by
  intro h
  have halong := h sampleService (Uuid.ofNat 5).text "1" (Uuid.ofNat 5) 1 historyState
    [historyCreate [7], historyUpdate [[8]]] (castUuid_text _) (by decide) historyState_ok
    (by decide)
  obtain ⟨out, hout, hvalues⟩ := halong.last 0 ⟨Uuid.ofNat 1, [.admin]⟩ (.inl rfl)
  have hempty : listFieldVersions sampleService
      (Runs.run (FieldRun.step sampleService (Uuid.ofNat 5) 1) ⟨historyState, []⟩
        [historyCreate [7], historyUpdate [[8]]]).db
      0 ⟨Uuid.ofNat 1, [.admin]⟩ (Uuid.ofNat 5).text "1" = .ok [] := by decide
  have hone : ((Runs.run (FieldRun.step sampleService (Uuid.ofNat 5) 1) ⟨historyState, []⟩
      [historyCreate [7], historyUpdate [[8]]]).earlier.take 10).length = 1 := by decide
  rw [hempty] at hout
  cases hout
  rw [← hvalues] at hone
  cases hone

end IronStock

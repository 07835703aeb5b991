import IronStock.Service
import IronStock.Permissions

/-!
# Statements on the item tables

The envelope of an item name and the `INSERT`s into `items`, `item_shares` and
`item_fields` that the handlers share. Parameters are cast first, then come the
CHECK constraints, then the unique key, then the foreign keys.
-/
namespace IronStock

/-! ## Envelope of an item name -/

/-- What `GenerateDEK` and the two `Seal` calls draw. -/
structure EnvelopeDraw where
  serverDek : Bytes
  dekNonce : Nonce
  nameNonce : Nonce
  length_serverDek : serverDek.length = keyLength

/-- A key of zeros is what a concrete run draws. -/
theorem length_zeroKey : (List.replicate keyLength (0 : UInt8)).length = keyLength := rfl

inductive EnvelopeError
  | cipher
  | searchHash

structure Envelope where
  serverDekWrapped : Bytes
  nameEnc : Bytes
  nameNonce : Option Nonce
  nameSearch : Bytes

/-- A server DEK sealed with the master cipher, and the name sealed with the
DEK; both are bound to the row id as the client wrote it. -/
def sealItemName (svc : Service) (draw : EnvelopeDraw) (id name : String) :
    Except EnvelopeError Envelope :=
  let serverDekWrapped := svc.master.sealBlob draw.dekNonce draw.serverDek
    (makeAAD "items" id "server_dek")
  match svc.newCipher draw.serverDek with
  | none => .error .cipher
  | some dekCipher =>
    let nameEnc := dekCipher.sealBlob draw.nameNonce (bytesOf name) (makeAAD "items" id "name_enc")
    match svc.searchHash name with
    | none => .error .searchHash
    | some nameSearch => .ok ⟨serverDekWrapped, nameEnc, extractNonce nameEnc, nameSearch⟩

/-- `decryptItemName`. -/
def decryptItemName (svc : Service) (itemID : String) (dekWrapped nameEnc : Bytes) :
    Option Bytes :=
  match svc.master.openBlob dekWrapped (makeAAD "items" itemID "server_dek") with
  | none => none
  | some dek =>
    match svc.newCipher dek with
    | none => none
    | some dekCipher => dekCipher.openBlob nameEnc (makeAAD "items" itemID "name_enc")

/-! ## `items` -/

/-- The parameters of the `INSERT INTO items`. -/
structure NewItem where
  id : String
  folderID : String
  itemTypeID : Int
  envelope : Envelope
  namePlain : String
  description : Option String
  externalSource : Option String
  createdBy : Uuid
  expiresAt : Option Time
  rotationIntervalDays : Option Int

/-- The row the parameters ask for, after the casts and the CHECKs. -/
def NewItem.row (svc : Service) (now : Time) (n : NewItem) : Except PgError Item :=
  match castUuid n.id, castUuid n.folderID, n.envelope.nameNonce with
  | some id, some folder, some nonce =>
    if ¬ n.rotationIntervalDays.all isInt4 then .error .outOfRange
    else if h : n.rotationIntervalDays.all (fun d => 0 < d) = true then
      if n.externalSource.all svc.isTypedObject then
        .ok {
          id := id, folderId := folder, itemTypeId := n.itemTypeID
          nameEnc := n.envelope.nameEnc, nameNonce := nonce, nameSearch := n.envelope.nameSearch
          namePlain := some n.namePlain, serverDekWrapped := n.envelope.serverDekWrapped
          description := n.description, externalSource := n.externalSource
          createdBy := n.createdBy, createdAt := now, updatedAt := now
          expiresAt := n.expiresAt, rotationIntervalDays := n.rotationIntervalDays
          lastRotatedAt := none, requiresApproval := false, rotationPos := h }
      else .error .checkViolation
    else .error .checkViolation
  | some _, some _, none => .error .notNullViolation
  | _, _, _ => .error .invalidText

/-- The foreign keys of an item row. -/
def Item.referencesExist (db : DB) (item : Item) : Bool :=
  (db.folder? item.folderId).isSome && (db.itemTypes.any fun t => t.id = item.itemTypeId) &&
    (db.user? item.createdBy).isSome

def DB.addItem (db : DB) (item : Item) : DB := { db with items := db.items ++ [item] }

/-- What an `INSERT` does when its unique key is taken. -/
inductive OnConflict
  | fail
  | doNothing
deriving DecidableEq

def OnConflict.taken (c : OnConflict) (db : DB) : Except PgError DB :=
  match c with
  | fail => .error .uniqueViolation
  | doNothing => .ok db

/-- `INSERT INTO items`, and the same with `ON CONFLICT (id) DO NOTHING`. -/
def insertItem (conflict : OnConflict) (svc : Service) (db : DB) (now : Time) (n : NewItem) :
    Except PgError DB :=
  match n.row svc now with
  | .error e => .error e
  | .ok item =>
    if (db.item? item.id).isSome then conflict.taken db
    else if item.referencesExist db then .ok (db.addItem item)
    else .error .foreignKeyViolation

theorem NewItem.row_eq_ok {svc : Service} {now : Time} {n : NewItem} {row : Item}
    (h : n.row svc now = .ok row) : castUuid n.id = some row.id ∧ row.createdBy = n.createdBy := by
  unfold NewItem.row at h
  split at h
  · next hid _ _ =>
    split at h
    · cases h
    · split at h
      · split at h
        · cases h
          exact ⟨hid, rfl⟩
        · cases h
      · cases h
  · cases h
  · cases h

theorem item?_addItem (db : DB) (row : Item) (x : Uuid) :
    (db.addItem row).item? x = (db.item? x).or (if row.id = x then some row else none) := by
  rw [DB.item?, DB.addItem, Table.lookup_append]
  rfl

theorem insertItem_fail_eq_ok {svc : Service} {db db' : DB} {now : Time} {n : NewItem}
    (h : insertItem .fail svc db now n = .ok db') :
    ∃ row, n.row svc now = .ok row ∧ db.item? row.id = none ∧ row.referencesExist db = true ∧
      db' = db.addItem row := by
  unfold insertItem at h
  cases hrow : n.row svc now with
  | error e => simp [hrow] at h
  | ok row =>
    simp only [hrow] at h
    split at h
    · cases h
    · next hfree =>
      split at h
      · next href =>
        cases h
        exact ⟨row, rfl, by simpa using hfree, href, rfl⟩
      · cases h

/-! ## `item_shares` -/

/-- The row of the owner's share: write, granted by the owner, no window. -/
def ownerShare (itemID userID : Uuid) (dekWrapped : Bytes) (wrapNonce : Nonce) : ItemShare where
  itemId := itemID
  userId := userID
  e2eDekWrapped := dekWrapped
  wrapNonce := wrapNonce
  permission := .write
  grantedBy := userID
  revokedAt := none
  window := .always

/-- `UNIQUE (item_id, user_id)` has a row. -/
def DB.hasShare (db : DB) (itemID userID : Uuid) : Bool :=
  db.itemShares.any fun s => s.itemId = itemID ∧ s.userId = userID

def ItemShare.referencesExist (db : DB) (s : ItemShare) : Bool :=
  (db.item? s.itemId).isSome && (db.user? s.userId).isSome && (db.user? s.grantedBy).isSome

def DB.addShare (db : DB) (s : ItemShare) : DB := { db with itemShares := db.itemShares ++ [s] }

/-- The owner's share of an item, and the same with `ON CONFLICT (item_id,
user_id) DO NOTHING`. -/
def insertOwnerShare (conflict : OnConflict) (db : DB) (itemID : String) (userID : Uuid)
    (dekWrapped wrapNonce : Bytes) : Except PgError DB :=
  match castUuid itemID, Nonce.ofBytes wrapNonce with
  | none, _ => .error .invalidText
  | some _, none => .error .checkViolation
  | some item, some nonce =>
    let s := ownerShare item userID dekWrapped nonce
    if db.hasShare item userID then conflict.taken db
    else if s.referencesExist db then .ok (db.addShare s)
    else .error .foreignKeyViolation

theorem insertOwnerShare_fail_eq_ok {db db' : DB} {itemID : String} {userID : Uuid}
    {dekWrapped wrapNonce : Bytes}
    (h : insertOwnerShare .fail db itemID userID dekWrapped wrapNonce = .ok db') :
    ∃ item nonce, castUuid itemID = some item ∧ Nonce.ofBytes wrapNonce = some nonce ∧
      db.hasShare item userID = false ∧
      db' = db.addShare (ownerShare item userID dekWrapped nonce) := by
  unfold insertOwnerShare at h
  split at h
  · cases h
  · cases h
  · next item nonce hitem hnonce =>
    simp only at h
    split at h
    · cases h
    · next hshare =>
      split at h
      · cases h
        exact ⟨item, nonce, hitem, hnonce, by simpa using hshare, rfl⟩
      · cases h

/-! ## `item_fields` -/

/-- One entry of `fields[]`. An absent blob is `none`, an empty one `some []`. -/
structure ItemFieldInput where
  fieldDefinitionID : Int
  valueEnc : Option Bytes
  valueNonce : Option Bytes
  position : Int
deriving DecidableEq

/-- `item_fields_value_consistency_chk`. -/
def checkFieldValue (valueEnc valueNonce : Option Bytes) : Except PgError (Option FieldValue) :=
  match valueEnc, valueNonce with
  | none, none => .ok none
  | some enc, some nonce =>
    match Nonce.ofBytes nonce with
    | some nonce => .ok (some (enc, nonce))
    | none => .error .checkViolation
  | _, _ => .error .checkViolation

/-- `UNIQUE (item_id, field_definition_id)` has a row. -/
def DB.hasField (db : DB) (itemID : Uuid) (fieldDefinitionID : Int) : Bool :=
  db.itemFields.any fun f => f.itemId = itemID ∧ f.fieldDefinitionId = fieldDefinitionID

/-- The row is the one of this field of this item. -/
def ItemField.isFor (f : ItemField) (itemID : Uuid) (fieldDefinitionID : Int) : Bool :=
  f.itemId = itemID ∧ f.fieldDefinitionId = fieldDefinitionID

def DB.field? (db : DB) (itemID : Uuid) (fieldDefinitionID : Int) : Option ItemField :=
  db.itemFields.find? fun f => f.isFor itemID fieldDefinitionID

def DB.fieldReferencesExist (db : DB) (itemID : Uuid) (fieldDefinitionID : Int) : Bool :=
  (db.item? itemID).isSome && db.fieldDefinitions.contains fieldDefinitionID

def DB.addField (db : DB) (itemID : Uuid) (fieldDefinitionID : Int) (value : Option FieldValue)
    (position : Int) : DB :=
  { db with
    itemFields := db.itemFields ++ [⟨db.nextFieldId, itemID, fieldDefinitionID, value, position⟩]
    nextFieldId := db.nextFieldId + 1 }

/-! ## The field statements of item create and update -/

/-- `nilIfEmpty` on both blobs, after the length checks of `insertItemField`. -/
def ItemFieldInput.value (f : ItemFieldInput) : Option (Option FieldValue) :=
  let enc := f.valueEnc.getD []
  let nonce := f.valueNonce.getD []
  if enc.length = 0 ∧ nonce.length = 0 then some none
  else if enc.length = 0 ∨ nonce.length = 0 then none
  else (Nonce.ofBytes nonce).map fun nonce => some (enc, nonce)

/-- The last version number of a field row, 0 if it has none. -/
def DB.lastVersion (db : DB) (fieldId : Nat) : Nat :=
  ((db.itemFieldVersions.filter (·.itemFieldId = fieldId)).map (·.versionNumber)).foldl max 0

/-- `fn_snapshot_item_field`: before a field row is updated, keep the old value
as a version and prune to the ten most recent. -/
def snapshotItemField (db : DB) (now : Time) (old : ItemField) (new : Option FieldValue) : DB :=
  match old.value with
  | none => db
  | some v =>
    if new.map Prod.fst = some v.1 then db
    else
      let next := db.lastVersion old.id + 1
      let versions : List ItemFieldVersion := db.itemFieldVersions ++ [⟨old.id, next, v, now⟩]
      { db with itemFieldVersions := versions.filter fun r =>
          ¬ (r.itemFieldId = old.id ∧ r.versionNumber + 10 ≤ next) }

/-- The row of a field with the values of an `INSERT` that conflicts with it. -/
def ItemField.overwrite (r : ItemField) (value : Option FieldValue) (position : Int) : ItemField :=
  { r with value := value, position := position }

/-- `ON CONFLICT (item_id, field_definition_id) DO UPDATE`, after the trigger. -/
def DB.overwriteField (db : DB) (now : Time) (itemID : Uuid) (fieldDefinitionID : Int)
    (old : ItemField) (value : Option FieldValue) (position : Int) : DB :=
  let set (r : ItemField) := r.overwrite value position
  { snapshotItemField db now old value with
    itemFields := Table.updateWhere (·.isFor itemID fieldDefinitionID) set db.itemFields }

/-- `insertItemField`: an `INSERT` that updates the row of the same field. -/
def insertItemField (db : DB) (now : Time) (itemID : Uuid) (f : ItemFieldInput) : Option DB :=
  if f.fieldDefinitionID ≤ 0 then none
  else match f.value with
    | none => none
    | some value =>
      if ¬ isInt4 f.position then none
      else match db.field? itemID f.fieldDefinitionID with
      | some old =>
        some (db.overwriteField now itemID f.fieldDefinitionID old value f.position)
      | none =>
        if db.fieldReferencesExist itemID f.fieldDefinitionID then
          some (db.addField itemID f.fieldDefinitionID value f.position)
        else none

theorem insertItemField_frame {db db' : DB} {now : Time} {itemID : Uuid} {f : ItemFieldInput}
    (h : insertItemField db now itemID f = some db') :
    ∃ fs n vs, db' = { db with itemFields := fs, nextFieldId := n, itemFieldVersions := vs } := by
  unfold insertItemField at h
  split at h
  · cases h
  · split at h
    · cases h
    · next value _ =>
      split at h
      · cases h
      · split at h
        · next old _ =>
          cases h
          unfold DB.overwriteField snapshotItemField
          cases old.value with
          | none => exact ⟨_, _, _, rfl⟩
          | some v => by_cases hsame : value.map Prod.fst = some v.1 <;> simp [hsame]
        · split at h
          · cases h
            exact ⟨_, _, _, rfl⟩
          · cases h

/-- The fields of a request in order; the first error ends the transaction. -/
def insertItemFields (db : DB) (now : Time) (itemID : Uuid) : List ItemFieldInput → Option DB
  | [] => some db
  | f :: fs =>
    match insertItemField db now itemID f with
    | none => none
    | some db' => insertItemFields db' now itemID fs

/-- The field statements write to the field tables only. -/
theorem insertItemFields_frame {db db' : DB} {now : Time} {itemID : Uuid}
    {fields : List ItemFieldInput} (h : insertItemFields db now itemID fields = some db') :
    ∃ fs n vs, db' = { db with itemFields := fs, nextFieldId := n, itemFieldVersions := vs } := by
  induction fields generalizing db with
  | nil =>
    cases h
    exact ⟨_, _, _, rfl⟩
  | cons f rest ih =>
    unfold insertItemFields at h
    split at h
    · cases h
    · next db₁ hfirst =>
      obtain ⟨fs, n, vs, hdb₁⟩ := insertItemField_frame hfirst
      obtain ⟨fs', n', vs', hdb'⟩ := ih h
      rw [hdb₁] at hdb'
      exact ⟨fs', n', vs', hdb'⟩

/-- `DELETE FROM item_fields WHERE item_id = …`, with the versions that
reference the deleted rows. -/
def deleteItemFields (db : DB) (itemID : Uuid) : DB :=
  { db with
    itemFields := Table.deleteWhere (·.itemId = itemID) db.itemFields
    itemFieldVersions := db.itemFieldVersions.filter fun v =>
      ¬ db.itemFields.any fun f => f.id = v.itemFieldId ∧ f.itemId = itemID }

end IronStock

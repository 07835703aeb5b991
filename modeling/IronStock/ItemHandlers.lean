import IronStock.FolderHandlers
import IronStock.ItemRows

/-!
# Item create and update

`POST /api/v1/items` and `PUT /api/v1/items/{id}`. Both write in a transaction:
a failed statement leaves the database as it was. Update replaces all fields by
deleting the rows of the item and inserting the ones of the request.
-/
namespace IronStock

structure ItemRequest where
  id : String
  folderID : String
  itemTypeID : Int
  name : String
  description : Option String
  /-- `nil` when the body has no `fields` -/
  fields : Option (List ItemFieldInput)
  ownerDEKWrapped : Bytes
  ownerWrapNonce : Bytes
  externalSource : String
  expiresAt : Option String
  rotationIntervalDays : Option Int

structure OwnerRef where
  kind : String
  name : String
deriving DecidableEq

structure ItemFieldOutput where
  fieldDefinitionID : Int
  valueEnc : Option Bytes
  valueNonce : Option Bytes
  position : Int
deriving DecidableEq

structure AccessRequestInfo where
  id : Uuid
  status : RequestStatus
  accessDurationMinutes : Int
  requestedAt : String
  respondedAt : Option String
  expiresAt : Option String
  denyReason : Option String
deriving DecidableEq

/-- The API representation of an item. Absent members are `none`. -/
structure ItemResponse where
  id : String
  folderID : String
  itemTypeID : Int
  name : Bytes
  description : Option String
  fields : Option (List ItemFieldOutput)
  createdBy : Uuid
  createdAt : String
  updatedAt : String
  permission : Perm
  ownerDEKWrapped : Option Bytes
  ownerWrapNonce : Option Bytes
  expiresAt : Option String
  rotationIntervalDays : Option Int
  lastRotatedAt : Option String
  requiresApproval : Option Bool
  myAccessRequest : Option AccessRequestInfo
  kind : Option String
  ownerRef : Option OwnerRef
deriving DecidableEq

/-! ## Create -/

def isHexLetter (c : Char) : Bool :=
  (48 ≤ c.toNat && c.toNat ≤ 57) || (97 ≤ c.toNat && c.toNat ≤ 102) ||
    (65 ≤ c.toNat && c.toNat ≤ 70)

/-- `looksLikeUUID`: 36 characters with dashes at 8, 13, 18 and 23. -/
def looksLikeUUID (s : String) : Bool :=
  s.toList.length = 36 &&
    s.toList.zipIdx.all fun (c, i) =>
      if i = 8 ∨ i = 13 ∨ i = 18 ∨ i = 23 then c = '-' else isHexLetter c

def validateItemCreate (req : ItemRequest) : Reply Unit := do
  .require (looksLikeUUID req.id = true) (badRequest "id geçerli UUID olmalı (client-generated v7)")
  .require (looksLikeUUID req.folderID = true) (badRequest "folder_id geçerli UUID olmalı")
  .require (0 < req.itemTypeID) (badRequest "item_type_id zorunlu")
  .require (req.name ≠ "") (badRequest "name zorunlu")
  .require (req.ownerDEKWrapped.length ≠ 0)
    (badRequest "owner_dek_wrapped zorunlu (client X25519 wrap)")
  .require (req.ownerWrapNonce.length = aesGcmNonceLen)
    (badRequest "owner_wrap_nonce 12 byte olmalı")

/-- `nullableJSON`. -/
def nullableJSON (raw : String) : Option String :=
  if raw = "" ∨ raw = "null" then none else some raw

/-- An optional timestamp parameter: the outer `none` is a failed cast. -/
def castExpiresAt (svc : Service) : Option String → Option (Option Time)
  | none => some none
  | some s => (svc.castTimestamptz s).map some

/-- The handler's error for a name that could not be enveloped. -/
def envelopeReply (r : Except EnvelopeError Envelope) : Reply Envelope :=
  match r with
  | .ok e => .ok e
  | .error .cipher => .error (internalError "DEK cipher yaratılamadı.")
  | .error .searchHash => .error (internalError "İsim index'i üretilemedi.")

/-- The parameters `Create` passes to the `INSERT`. -/
def ItemRequest.newItem (req : ItemRequest) (svc : Service) (claims : Claims)
    (envelope : Envelope) (expiresAt : Option Time) : NewItem where
  id := req.id
  folderID := req.folderID
  itemTypeID := req.itemTypeID
  envelope := envelope
  namePlain := svc.toLower req.name
  description := req.description
  externalSource := nullableJSON req.externalSource
  createdBy := claims.subject
  expiresAt := expiresAt
  rotationIntervalDays := req.rotationIntervalDays

/-- The item statement of `Create`: a taken id is meant to be a conflict. -/
def createItemRow (svc : Service) (db : DB) (now : Time) (claims : Claims) (req : ItemRequest)
    (envelope : Envelope) : Reply DB :=
  match castExpiresAt svc req.expiresAt with
  | none => .error (internalError "Item kaydedilemedi.")
  | some expiresAt =>
    match insertItem .fail svc db now (req.newItem svc claims envelope expiresAt) with
    | .ok db' => .ok db'
    | .error e =>
      if isUniqueViolation e then .error ⟨409, errCodeConflict, "Bu ID zaten kullanımda."⟩
      else .error (internalError "Item kaydedilemedi.")

/-- The body `Create` answers with: what was sent, and the columns the
`INSERT` returned. -/
def itemCreateResponse (svc : Service) (now : Time) (claims : Claims) (req : ItemRequest) :
    ItemResponse where
  id := req.id
  folderID := req.folderID
  itemTypeID := req.itemTypeID
  name := bytesOf req.name
  description := req.description
  fields := some ((req.fields.getD []).map fun f =>
    ⟨f.fieldDefinitionID, f.valueEnc, f.valueNonce, f.position⟩)
  createdBy := claims.subject
  createdAt := svc.timestampText now
  updatedAt := svc.timestampText now
  permission := .write
  ownerDEKWrapped := some req.ownerDEKWrapped
  ownerWrapNonce := some req.ownerWrapNonce
  expiresAt := req.expiresAt
  rotationIntervalDays := req.rotationIntervalDays
  lastRotatedAt := none
  requiresApproval := none
  myAccessRequest := none
  kind := none
  ownerRef := none

/-- `ItemHandlers.Create`. -/
def itemCreate (svc : Service) (db : DB) (now : Time) (claims : Claims) (draw : EnvelopeDraw)
    (req : ItemRequest) : Reply (DB × ItemResponse) := do
  validateItemCreate req
  .unlessAdmin claims
    (requireFolderWrite db now claims req.folderID "Yetki sorgulanamadı."
      "Bu klasörde yazma yetkiniz yok.")
  let envelope ← envelopeReply (sealItemName svc draw req.id req.name)
  let db₁ ← createItemRow svc db now claims req envelope
  let db₂ ← statement
    (insertOwnerShare .fail db₁ req.id claims.subject req.ownerDEKWrapped req.ownerWrapNonce)
    "Owner share kaydedilemedi."
  let item ← .orElse (castUuid req.id) (internalError "Field kaydedilemedi.")
  let db₃ ← .orElse (insertItemFields db₂ now item (req.fields.getD []))
    (internalError "Field kaydedilemedi.")
  pure (db₃.audit ⟨claims.subject.text, "item.created", "item", req.id⟩,
    itemCreateResponse svc now claims req)

/-- The state after the two row statements of an accepted create. -/
def DB.withNewItem (db : DB) (row : Item) (dekWrapped : Bytes) (wrapNonce : Nonce) : DB :=
  (db.addItem row).addShare (ownerShare row.id row.createdBy dekWrapped wrapNonce)

/-- What an accepted create has done: a new item row, its owner's share, and
the fields of the request. -/
theorem itemCreate_eq_ok {svc : Service} {db db' : DB} {now : Time} {claims : Claims}
    {draw : EnvelopeDraw} {req : ItemRequest} {resp : ItemResponse}
    (h : itemCreate svc db now claims draw req = .ok (db', resp)) :
    ∃ row nonce db₃, castUuid req.id = some row.id ∧ row.createdBy = claims.subject ∧
      db.item? row.id = none ∧ db.hasShare row.id claims.subject = false ∧
      Nonce.ofBytes req.ownerWrapNonce = some nonce ∧
      insertItemFields (db.withNewItem row req.ownerDEKWrapped nonce) now row.id
        (req.fields.getD []) = some db₃ ∧
      db' = db₃.audit ⟨claims.subject.text, "item.created", "item", req.id⟩ := by
  simp only [itemCreate, Reply.bind_eq_ok, statement_eq_ok, Reply.orElse_eq_ok, Reply.pure_eq_ok,
    Prod.mk.injEq] at h
  obtain ⟨_, _, _, _, envelope, _, db₁, hrow, db₂, hshare, item, hitem, db₃, hfields, hdb', _⟩ := h
  unfold createItemRow at hrow
  split at hrow
  · cases hrow
  · next expiresAt _ =>
    split at hrow
    · next hins =>
      cases hrow
      obtain ⟨row, hrow, hfree, _, hdb₁⟩ := insertItem_fail_eq_ok hins
      obtain ⟨item', nonce, hitem', hnonce, hnoshare, hdb₂⟩ := insertOwnerShare_fail_eq_ok hshare
      obtain ⟨hid, hby⟩ := NewItem.row_eq_ok hrow
      have hid' : castUuid req.id = some row.id := hid
      have hby' : row.createdBy = claims.subject := hby
      rw [hitem] at hid'
      rw [hitem] at hitem'
      cases hid'
      cases hitem'
      rw [hdb₁] at hdb₂ hnoshare
      refine ⟨row, nonce, db₃, hitem, hby', hfree, hnoshare, hnonce, ?_, hdb'.symm⟩
      rw [DB.withNewItem, hby', ← hdb₂]
      exact hfields
    · split at hrow <;> cases hrow

/-! ## Update -/

/-- The item level a handler needs, with its messages. -/
def requireItemWrite (db : DB) (now : Time) (claims : Claims) (itemID : String)
    (queryFailed denied : String) : Reply Unit :=
  match resolveItemPermission db now claims.subject itemID with
  | .error _ => .error (internalError queryFailed)
  | .ok perm => .require (perm.allowsWrite = true) ⟨403, errCodeUnauthorized, denied⟩

/-- `fetchItemForUpdate`, with the answers of its callers to a failed query and
to no row. -/
def fetchItem (db : DB) (id : String) : Reply Item :=
  match castUuid id with
  | none => .error (internalError "Item okunamadı.")
  | some item => .orElse (db.item? item) ⟨404, errCodeBadRequest, "Item bulunamadı."⟩

/-- Write on the destination folder, if the request names one. -/
def requireDestinationFolder (db : DB) (now : Time) (claims : Claims) (folderID : String) :
    Reply Unit :=
  if folderID = "" then .ok ()
  else requireFolderWrite db now claims folderID "Hedef klasör yetkisi sorgulanamadı."
    "Hedef klasörde yazma yetkisi yok."

/-- The columns the `UPDATE items` sets. -/
structure ItemChange where
  folderId : Uuid
  nameEnc : Bytes
  nameNonce : Nonce
  nameSearch : Bytes
  namePlain : String
  description : Option String
  expiresAt : Option Time
  rotationIntervalDays : Option Int
  rotationPos : rotationIntervalDays.all (fun d => 0 < d) = true

def Item.set (item : Item) (c : ItemChange) (now : Time) : Item :=
  { item with
    folderId := c.folderId, nameEnc := c.nameEnc, nameNonce := c.nameNonce,
    nameSearch := c.nameSearch, namePlain := some c.namePlain, description := c.description,
    expiresAt := c.expiresAt, rotationIntervalDays := c.rotationIntervalDays, updatedAt := now,
    rotationPos := c.rotationPos }

/-- The name of an update sealed with the item's own DEK, which is opened under
the id as the request spells it. -/
def resealItemName (svc : Service) (draw : EnvelopeDraw) (existing : Item) (id name : String) :
    Reply (Bytes × Bytes) := do
  let serverDek ← .orElse
    (svc.master.openBlob existing.serverDekWrapped (makeAAD "items" id "server_dek"))
    (internalError "DEK çözülemedi.")
  let dekCipher ← .orElse (svc.newCipher serverDek) (internalError "DEK cipher yaratılamadı.")
  let nameEnc := dekCipher.sealBlob draw.nameNonce (bytesOf name) (makeAAD "items" id "name_enc")
  let nameSearch ← .orElse (svc.searchHash name) (internalError "İsim index'i üretilemedi.")
  pure (nameEnc, nameSearch)

/-- The casts and CHECKs of the `UPDATE items`. -/
def itemChange (svc : Service) (existing : Item) (req : ItemRequest) (nameEnc nameSearch : Bytes) :
    Except PgError ItemChange :=
  let folder := if req.folderID = "" then some existing.folderId else castUuid req.folderID
  match folder, castExpiresAt svc req.expiresAt, extractNonce nameEnc with
  | some folder, some expiresAt, some nonce =>
    if ¬ req.rotationIntervalDays.all isInt4 then .error .outOfRange
    else if h : req.rotationIntervalDays.all (fun d => 0 < d) = true then
      .ok ⟨folder, nameEnc, nonce, nameSearch, svc.toLower req.name, req.description, expiresAt,
        req.rotationIntervalDays, h⟩
    else .error .checkViolation
  | some _, some _, none => .error .notNullViolation
  | _, _, _ => .error .invalidText

/-- The `UPDATE items … WHERE id = $1::uuid`. -/
def updateItem (svc : Service) (db : DB) (now : Time) (existing : Item) (req : ItemRequest)
    (nameEnc nameSearch : Bytes) : Except PgError DB :=
  match itemChange svc existing req nameEnc nameSearch with
  | .error e => .error e
  | .ok c =>
    if c.folderId = existing.folderId ∨ (db.folder? c.folderId).isSome then
      let set (item : Item) := item.set c now
      .ok { db with items := Table.updateWhere (·.id = existing.id) set db.items }
    else .error .foreignKeyViolation

/-- The replace-all of the fields, if the request has any. -/
def replaceItemFields (db : DB) (now : Time) (itemID : Uuid) :
    Option (List ItemFieldInput) → Option DB
  | none => some db
  | some fields => insertItemFields (deleteItemFields db itemID) now itemID fields

/-- `queryMirrorLinkIDs`. -/
def queryMirrorLinkIDs (db : DB) (itemID : Uuid) : List Uuid :=
  (db.itemLinks.filter fun l => l.sourceItemId = itemID ∧ l.linkType = .mirror).map ItemLink.id

/-- `ItemHandlers.Update`; the answer carries the mirror links of the item. -/
def itemUpdate (svc : Service) (db : DB) (now : Time) (claims : Claims) (id : String)
    (draw : EnvelopeDraw) (req : ItemRequest) : Reply (DB × List Uuid) := do
  .require (id ≠ "") (badRequest "id zorunlu.")
  .require (req.name ≠ "") (badRequest "name zorunlu.")
  .unlessAdmin claims do
    requireItemWrite db now claims id "Yetki sorgulanamadı." "Yazma yetkisi yok."
    requireDestinationFolder db now claims req.folderID
  let existing ← fetchItem db id
  let (nameEnc, nameSearch) ← resealItemName svc draw existing id req.name
  let db₁ ← statement (updateItem svc db now existing req nameEnc nameSearch)
    "Item güncellenemedi."
  let db₂ ← .orElse (replaceItemFields db₁ now existing.id req.fields)
    (internalError "Field kaydedilemedi.")
  let db₃ := db₂.audit ⟨claims.subject.text, "item.updated", "item", id⟩
  pure (db₃, queryMirrorLinkIDs db₃ existing.id)

theorem updateItem_eq_ok {svc : Service} {db db' : DB} {now : Time} {existing : Item}
    {req : ItemRequest} {nameEnc nameSearch : Bytes}
    (h : updateItem svc db now existing req nameEnc nameSearch = .ok db') :
    ∃ c : ItemChange,
      db' = { db with items := Table.updateWhere (·.id = existing.id) (·.set c now) db.items } := by
  unfold updateItem at h
  split at h
  · cases h
  · next c _ =>
    split at h
    · cases h
      exact ⟨c, rfl⟩
    · cases h

/-- What an accepted update has done: new columns of an existing item row, and
its fields replaced if the request has any. -/
theorem itemUpdate_eq_ok {svc : Service} {db db' : DB} {now : Time} {claims : Claims}
    {id : String} {draw : EnvelopeDraw} {req : ItemRequest} {links : List Uuid}
    (h : itemUpdate svc db now claims id draw req = .ok (db', links)) :
    ∃ existing c db₂, castUuid id = some existing.id ∧ db.item? existing.id = some existing ∧
      replaceItemFields
        { db with items := Table.updateWhere (·.id = existing.id) (·.set c now) db.items }
        now existing.id req.fields = some db₂ ∧
      db' = db₂.audit ⟨claims.subject.text, "item.updated", "item", id⟩ := by
  simp only [itemUpdate, Reply.bind_eq_ok, statement_eq_ok, Reply.orElse_eq_ok, Reply.pure_eq_ok,
    Prod.mk.injEq] at h
  obtain ⟨_, _, _, _, _, _, existing, hfetch, names, _, db₁, hupd, db₂, hfields, hdb', _⟩ := h
  obtain ⟨c, hdb₁⟩ := updateItem_eq_ok hupd
  unfold fetchItem at hfetch
  split at hfetch
  · cases hfetch
  · next x hx =>
    rw [Reply.orElse_eq_ok] at hfetch
    have hid : existing.id = x := (Table.lookup_eq_some hfetch).2
    rw [hdb₁] at hfields
    exact ⟨existing, c, db₂, hid ▸ hx, hid ▸ hfetch, hfields, hdb'.symm⟩

end IronStock

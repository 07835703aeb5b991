import IronStock.ItemVersionHandlers

/-!
# Reading an item

`GET /api/v1/items/{id}` with its approval gate, and the download URL of an
attachment. The audit entry of a read is written in the background and is left
out.
-/
namespace IronStock

/-! ## Queries -/

/-- `fetchCallerDEK`: the share row of the caller, revoked or not. -/
def fetchCallerDEK (db : DB) (itemID userID : Uuid) : Option (Bytes × Nonce) :=
  (db.itemShares.find? fun s => s.itemId = itemID ∧ s.userId = userID).map fun s =>
    (s.e2eDekWrapped, s.wrapNonce)

/-- Lower positions first. -/
def byPosition (a b : ItemField) : Prop := a.position ≤ b.position

instance : DecidableRel byPosition := fun a b =>
  inferInstanceAs (Decidable (a.position ≤ b.position))

def ItemField.output (f : ItemField) : ItemFieldOutput where
  fieldDefinitionID := f.fieldDefinitionId
  valueEnc := f.value.map Prod.fst
  valueNonce := f.value.map fun v => v.2.bytes
  position := f.position

/-- `fetchItemFields`. -/
def fetchItemFields (db : DB) (itemID : Uuid) : List ItemFieldOutput :=
  ((db.itemFields.filter (·.itemId = itemID)).insertionSort byPosition).map ItemField.output

/-- `COALESCE(it.kind_key, '')`, absent from the answer when it is empty. -/
def kindOf (db : DB) (itemTypeId : Int) : Option String :=
  ((db.itemTypes.find? (·.id = itemTypeId)).bind ItemType.kindKey).filter (· ≠ "")

/-- The answer for an item row, with the name decrypted and the caller's wrap. -/
def Item.response (svc : Service) (db : DB) (item : Item) (userID : Uuid) (name : Bytes) :
    ItemResponse :=
  let dek := fetchCallerDEK db item.id userID
  let ownerUsername := (db.user? item.createdBy).map User.username
  { id := item.id.text, folderID := item.folderId.text, itemTypeID := item.itemTypeId
    name := name, description := item.description
    fields := some (fetchItemFields db item.id)
    createdBy := item.createdBy, createdAt := svc.timestampText item.createdAt
    updatedAt := svc.timestampText item.updatedAt, permission := .none
    ownerDEKWrapped := dek.map Prod.fst, ownerWrapNonce := dek.map fun d => d.2.bytes
    expiresAt := item.expiresAt.map svc.timestampText
    rotationIntervalDays := item.rotationIntervalDays
    lastRotatedAt := item.lastRotatedAt.map svc.timestampText
    requiresApproval := some item.requiresApproval, myAccessRequest := none
    kind := kindOf db item.itemTypeId
    ownerRef := (ownerUsername.filter (· ≠ "")).map fun name => ⟨"User", name⟩ }

/-- `fetchItemFull`, from the row of the item. -/
def fetchItemFull (svc : Service) (db : DB) (item : Item) (userID : Uuid) : Option ItemResponse :=
  (decryptItemName svc item.id.text item.serverDekWrapped item.nameEnc).map
    (item.response svc db userID)

/-! ## The approval gate -/

/-- An approved request of this user for this item that has not expired. -/
def AccessRequest.isActive (r : AccessRequest) (now : Time) (itemID userID : Uuid) : Bool :=
  r.itemId = itemID ∧ r.requesterId = userID ∧ r.status = .approved ∧ r.expiresAt.any (now < ·)

def DB.hasActiveApproval (db : DB) (now : Time) (itemID userID : Uuid) : Bool :=
  db.accessRequests.any (·.isActive now itemID userID)

/-- The first statement of `hasActiveApproval`: stale approvals expire. -/
def DB.expireApprovals (db : DB) (now : Time) (itemID userID : Uuid) : DB :=
  let stale (r : AccessRequest) : Bool :=
    r.itemId = itemID ∧ r.requesterId = userID ∧ r.status = .approved ∧ r.expiresAt.any (· ≤ now)
  let expire (r : AccessRequest) := { r with status := .expired }
  { db with accessRequests := Table.updateWhere stale expire db.accessRequests }

/-- Later requests first. -/
def newestRequest (a b : AccessRequest) : Prop := b.requestedAt ≤ a.requestedAt

instance : DecidableRel newestRequest := fun a b =>
  inferInstanceAs (Decidable (b.requestedAt ≤ a.requestedAt))

/-- `fetchMyAccessRequest`. -/
def fetchMyAccessRequest (svc : Service) (db : DB) (itemID userID : Uuid) :
    Option AccessRequestInfo :=
  let mine := db.accessRequests.filter fun r => r.itemId = itemID ∧ r.requesterId = userID
  (mine.insertionSort newestRequest).head?.map fun r =>
    ⟨r.id, r.status, r.accessDurationMinutes, svc.timestampText r.requestedAt,
      r.respondedAt.map svc.timestampText, r.expiresAt.map svc.timestampText, r.denyReason⟩

/-- Whether `Get` asks for an approval: the caller counts as the owner once they
have a share row. -/
def ItemResponse.isGated (item : ItemResponse) (claims : Claims) : Bool :=
  item.requiresApproval = some true && !claims.hasRole .admin && item.ownerDEKWrapped.isNone

/-- The answer without secrets. -/
def ItemResponse.withheld (item : ItemResponse) (request : Option AccessRequestInfo) :
    ItemResponse :=
  { item with
    fields := none, ownerDEKWrapped := none, ownerWrapNonce := none, myAccessRequest := request }

/-- The level `Get` shows: write for an admin. -/
def readLevel (db : DB) (now : Time) (claims : Claims) (id : String) : Reply Perm :=
  if claims.hasRole .admin then .ok .write
  else match resolveItemPermission db now claims.subject id with
    | .error _ => .error (internalError "Yetki sorgulanamadı.")
    | .ok p =>
      if p.allowsRead then .ok p else .error ⟨404, errCodeBadRequest, "Item bulunamadı."⟩

/-- What `Get` reads before the gate. -/
def itemGetFull (svc : Service) (db : DB) (now : Time) (claims : Claims) (id : String) :
    Reply (Uuid × ItemResponse) := do
  .require (id ≠ "") (badRequest "id zorunlu.")
  let perm ← readLevel db now claims id
  let item ← fetchItem db id
  let full ← .orElse (fetchItemFull svc db item claims.subject) (internalError "Item okunamadı.")
  pure (item.id, { full with permission := perm })

/-- `ItemHandlers.Get`. -/
def itemGet (svc : Service) (db : DB) (now : Time) (claims : Claims) (id : String) :
    DB × Reply ItemResponse :=
  match itemGetFull svc db now claims id with
  | .error e => (db, .error e)
  | .ok (x, item) =>
    if item.isGated claims then
      let db' := db.expireApprovals now x claims.subject
      if db'.hasActiveApproval now x claims.subject then (db', .ok item)
      else (db', .ok (item.withheld (fetchMyAccessRequest svc db' x claims.subject)))
    else (db, .ok item)

/-! ## Attachments -/

/-- The object store, as far as the handlers use it. -/
structure Storage where
  /-- `PresignGetURL` for a storage key -/
  presignGetURL : String → Option String

structure AttachmentDownloadURL where
  url : String
  expiresAt : Time
deriving DecidableEq

def attachmentDownloadExpiry : Time := 5 * 60 * 1000000

/-- The row of the download query. -/
def DB.confirmedAttachment? (db : DB) (attID itemID : Uuid) : Option ItemAttachment :=
  db.itemAttachments.find? fun a => a.id = attID ∧ a.itemId = itemID ∧ a.uploadConfirmed

/-- `AttachmentHandlers.GetDownloadURL`. -/
def getDownloadURL (storage : Storage) (db : DB) (now : Time) (claims : Claims)
    (itemID attID : String) : Reply AttachmentDownloadURL := do
  .require (itemID ≠ "" ∧ attID ≠ "") (badRequest "id ve att_id zorunlu.")
  .unlessAdmin claims
    (requireItemRead db now claims itemID ⟨404, errCodeNotFound, "Item bulunamadı."⟩)
  let item ← .orElse (castUuid itemID) (internalError "Ek sorgulanamadı.")
  let att ← .orElse (castUuid attID) (internalError "Ek sorgulanamadı.")
  let row ← .orElse (db.confirmedAttachment? att item) ⟨404, errCodeNotFound, "Ek bulunamadı."⟩
  let url ← .orElse (storage.presignGetURL row.storageKey)
    (internalError "İndirme URL'i üretilemedi.")
  pure ⟨url, now + attachmentDownloadExpiry⟩

end IronStock

import IronStock.ItemHandlers

/-!
# Item shares

Sharing an item with a user or with a group, and revoking either. A share with
a group is a row of its own and one share row for each member the request
brings a wrap for; these statements are not in a transaction.
-/
namespace IronStock

def Grant.ofText : String → Option Grant
  | "read" => some .read
  | "write" => some .write
  | _ => none

/-- `valid_from.Before(valid_until)`, where both are set. -/
def windowOrdered (validFrom validUntil : Option Time) : Prop :=
  ∀ a ∈ validFrom, ∀ b ∈ validUntil, a < b

instance (validFrom validUntil : Option Time) : Decidable (windowOrdered validFrom validUntil) := by
  unfold windowOrdered
  infer_instance

/-! ## Statements -/

/-- The row of an `INSERT INTO item_shares`, after the casts and the CHECKs. -/
def shareRow (itemID userID : String) (dekWrapped wrapNonce : Bytes) (permission : String)
    (grantedBy : Uuid) (validFrom validUntil : Option Time) : Except PgError ItemShare :=
  match castUuid itemID, castUuid userID with
  | some item, some user =>
    match Nonce.ofBytes wrapNonce, Grant.ofText permission, Window.ofBounds validFrom validUntil with
    | some nonce, some permission, some window => .ok {
        itemId := item, userId := user, e2eDekWrapped := dekWrapped, wrapNonce := nonce
        permission := permission, grantedBy := grantedBy, revokedAt := none, window := window }
    | _, _, _ => .error .checkViolation
  | _, _ => .error .invalidText

/-- The row of a key `(item_id, user_id)`. -/
def ItemShare.isFor (s : ItemShare) (itemID userID : Uuid) : Bool :=
  s.itemId = itemID ∧ s.userId = userID

/-- `ON CONFLICT (item_id, user_id) DO UPDATE`: every column of the row that is
there is set. -/
def DB.putShare (db : DB) (s : ItemShare) : DB :=
  { db with itemShares := Table.upsert (·.isFor s.itemId s.userId) (fun _ => s) s db.itemShares }

/-- The foreign keys of the upsert. Updating a row that is there sets a new
granter only. -/
def shareReferencesOk (db : DB) (s : ItemShare) : Bool :=
  if db.hasShare s.itemId s.userId then (db.user? s.grantedBy).isSome else s.referencesExist db

def upsertShare (db : DB) (row : Except PgError ItemShare) : Except PgError DB :=
  match row with
  | .error e => .error e
  | .ok s => if shareReferencesOk db s then .ok (db.putShare s) else .error .foreignKeyViolation

/-- The upsert into `item_group_shares`. -/
def upsertGroupShare (db : DB) (itemID groupID permission : String) (grantedBy : Uuid)
    (validFrom validUntil : Option Time) : Except PgError DB :=
  match castUuid itemID, castUuid groupID with
  | some item, some group =>
    match Grant.ofText permission, Window.ofBounds validFrom validUntil with
    | some permission, some window =>
      let s : ItemGroupShare := ⟨item, group, permission, grantedBy, none, window⟩
      if (db.item? item).isSome ∧ (db.group? group).isSome ∧ (db.user? grantedBy).isSome then
        let same (g : ItemGroupShare) : Bool := g.itemId = item ∧ g.groupId = group
        .ok { db with itemGroupShares := Table.upsert same (fun _ => s) s db.itemGroupShares }
      else .error .foreignKeyViolation
    | _, _ => .error .checkViolation
  | _, _ => .error .invalidText

/-! ## Share -/

structure ShareItemRequest where
  userID : String
  permission : String
  dekWrapped : Bytes
  wrapNonce : Bytes
  validFrom : Option Time
  validUntil : Option Time

def validateShareItem (claims : Claims) (req : ShareItemRequest) : Reply Unit := do
  .require (req.userID ≠ "") (badRequest "user_id zorunlu.")
  .require (req.permission = "read" ∨ req.permission = "write")
    (badRequest "permission 'read' veya 'write' olmalı.")
  .require (req.dekWrapped.length ≠ 0) (badRequest "dek_wrapped zorunlu.")
  .require (req.wrapNonce.length = aesGcmNonceLen) (badRequest "wrap_nonce 12 byte olmalı.")
  .require (req.userID ≠ claims.subject.text)
    (badRequest "Owner zaten erişebilir; kendinize paylaşamazsınız.")
  .require (windowOrdered req.validFrom req.validUntil)
    (badRequest "valid_from valid_until'dan önce olmalı.")

/-- The row `Share` asks for. -/
def ShareItemRequest.row (req : ShareItemRequest) (itemID : String) (grantedBy : Uuid) :
    Except PgError ItemShare :=
  shareRow itemID req.userID req.dekWrapped req.wrapNonce req.permission grantedBy req.validFrom
    req.validUntil

/-- `ItemHandlers.Share`. -/
def share (db : DB) (now : Time) (claims : Claims) (itemID : String) (req : ShareItemRequest) :
    Reply DB := do
  .require (itemID ≠ "") (badRequest "item id zorunlu.")
  validateShareItem claims req
  .unlessAdmin claims
    (requireItemWrite db now claims itemID "Yetki sorgulanamadı."
      "Bu item'ı paylaşmak için yazma yetkisi gerekli.")
  let db' ← statement (upsertShare db (req.row itemID claims.subject)) "Paylaşım kaydedilemedi."
  pure (db'.audit ⟨claims.subject.text, "item.shared", "item", itemID⟩)

/-! ## Unshare -/

/-- The guard: the creator of the item is the user the path names. A failed
query lets the request pass. -/
def isOwnerShare (db : DB) (itemID targetUserID : String) : Bool :=
  match (castUuid itemID).bind db.item? with
  | none => false
  | some item => item.createdBy.text = targetUserID

/-- `UPDATE item_shares SET revoked_at = now() WHERE …`. -/
def DB.revokeShare (db : DB) (now : Time) (itemID userID : Uuid) : DB :=
  let active (s : ItemShare) := s.isFor itemID userID && s.revokedAt.isNone
  let set (s : ItemShare) := { s with revokedAt := some now }
  { db with itemShares := Table.updateWhere active set db.itemShares }

/-- `ItemHandlers.Unshare`. -/
def unshare (db : DB) (now : Time) (claims : Claims) (itemID targetUserID : String) :
    Reply DB := do
  .require (itemID ≠ "" ∧ targetUserID ≠ "") (badRequest "id ve user_id zorunlu.")
  .unlessAdmin claims
    (requireItemWrite db now claims itemID "Yetki sorgulanamadı." "Yazma yetkisi yok.")
  .require (isOwnerShare db itemID targetUserID = false) (badRequest "Owner share kaldırılamaz.")
  let item ← .orElse (castUuid itemID) (internalError "Paylaşım kaldırılamadı.")
  let user ← .orElse (castUuid targetUserID) (internalError "Paylaşım kaldırılamadı.")
  if db.itemShares.any fun s => s.isFor item user && s.revokedAt.isNone then
    pure ((db.revokeShare now item user).audit ⟨claims.subject.text, "item.unshared", "item", itemID⟩)
  else pure db

/-! ## Group shares -/

structure ShareGroupMemberDEK where
  userID : String
  dekWrapped : Bytes
  wrapNonce : Bytes

structure ShareGroupRequest where
  groupID : String
  permission : String
  members : List ShareGroupMemberDEK
  validFrom : Option Time
  validUntil : Option Time

def validateMembers : List ShareGroupMemberDEK → Reply Unit
  | [] => .ok ()
  | m :: ms => do
    .require (m.userID ≠ "") (badRequest "members[].user_id zorunlu.")
    .require (m.dekWrapped.length ≠ 0) (badRequest "members[].dek_wrapped zorunlu.")
    .require (m.wrapNonce.length = aesGcmNonceLen)
      (badRequest "members[].wrap_nonce 12 byte olmalı.")
    validateMembers ms

/-- What `ShareGroup` checks before its first write. -/
def checkShareGroup (db : DB) (now : Time) (claims : Claims) (itemID : String)
    (req : ShareGroupRequest) : Reply Unit := do
  .require (itemID ≠ "") (badRequest "item id zorunlu.")
  .require (req.groupID ≠ "") (badRequest "group_id zorunlu.")
  .require (req.permission = "read" ∨ req.permission = "write")
    (badRequest "permission 'read' veya 'write' olmalı.")
  .require (windowOrdered req.validFrom req.validUntil)
    (badRequest "valid_from valid_until'dan önce olmalı.")
  .unlessAdmin claims
    (requireItemWrite db now claims itemID "Yetki sorgulanamadı."
      "Bu item'ı paylaşmak için yazma yetkisi gerekli.")
  .require (((castUuid req.groupID).bind db.group?).isSome = true) (badRequest "Grup bulunamadı.")
  validateMembers req.members

/-- The row `ShareGroup` asks for one member. -/
def ShareGroupRequest.row (req : ShareGroupRequest) (itemID : String) (grantedBy : Uuid)
    (m : ShareGroupMemberDEK) : Except PgError ItemShare :=
  shareRow itemID m.userID m.dekWrapped m.wrapNonce req.permission grantedBy req.validFrom
    req.validUntil

/-- The loop over the members. The rows written before an error stay. -/
def shareMembers (db : DB) : List (Except PgError ItemShare) → DB × Reply Unit
  | [] => (db, .ok ())
  | row :: rows =>
    match upsertShare db row with
    | .error _ => (db, .error (internalError "Üye DEK wraps kaydedilemedi."))
    | .ok db' => shareMembers db' rows

/-- `ItemHandlers.ShareGroup`. -/
def shareGroup (db : DB) (now : Time) (claims : Claims) (itemID : String)
    (req : ShareGroupRequest) : DB × Reply Unit :=
  match checkShareGroup db now claims itemID req with
  | .error e => (db, .error e)
  | .ok () =>
    match upsertGroupShare db itemID req.groupID req.permission claims.subject req.validFrom
        req.validUntil with
    | .error _ => (db, .error (internalError "Grup paylaşımı kaydedilemedi."))
    | .ok db₁ =>
      match shareMembers db₁ (req.members.map (req.row itemID claims.subject)) with
      | (db₂, .error e) => (db₂, .error e)
      | (db₂, .ok ()) =>
        (db₂.audit ⟨claims.subject.text, "item.group_shared", "item", itemID⟩, .ok ())

/-- `ItemHandlers.UnshareGroup`: the share rows of the members stay. -/
def unshareGroup (db : DB) (now : Time) (claims : Claims) (itemID groupID : String) :
    Reply DB := do
  .require (itemID ≠ "" ∧ groupID ≠ "") (badRequest "id ve group_id zorunlu.")
  .unlessAdmin claims
    (requireItemWrite db now claims itemID "Yetki sorgulanamadı." "Yazma yetkisi yok.")
  let item ← .orElse (castUuid itemID) (internalError "Grup paylaşımı kaldırılamadı.")
  let group ← .orElse (castUuid groupID) (internalError "Grup paylaşımı kaldırılamadı.")
  let active (g : ItemGroupShare) : Bool :=
    g.itemId = item ∧ g.groupId = group ∧ g.revokedAt.isNone
  if db.itemGroupShares.any active then
    let set (g : ItemGroupShare) := { g with revokedAt := some now }
    let db' := { db with itemGroupShares := Table.updateWhere active set db.itemGroupShares }
    pure (db'.audit ⟨claims.subject.text, "item.group_unshared", "item", itemID⟩)
  else pure db

end IronStock

import IronStock.ItemReads
import IronStock.Lib.Interleaving
import IronStock.Lib.Vouchers

/-!
# Share links

`share_link_handlers.go`, statement by statement: a request under way has its
permission checked, then its row inserted or deleted; a view first counts
itself in one `UPDATE … RETURNING` and then reads the item. The rest of the
database is what each statement finds there. The audit entries are left out.

Links are numbered in the order of their creation, since a later link may draw
the id of a deleted one again.
-/
namespace IronStock

open Interleaving

/-- A row of `item_share_links`. -/
structure ItemShareLink where
  id : Uuid
  itemId : Uuid
  tokenHash : Digest
  dekWrapped : Bytes
  expiresAt : Time
  viewLimit : Int
  viewCount : Int
  createdBy : Uuid
  createdAt : Time
  /-- `CHECK (view_limit BETWEEN 1 AND 10)` -/
  limitRange : 1 ≤ viewLimit ∧ viewLimit ≤ 10

/-- The columns the `INSERT` of `CreateShareLink` names, without the item. -/
structure NewShareLink where
  id : Uuid
  tokenHash : Digest
  dekWrapped : Bytes
  expiresAt : Time
  viewLimit : Int
  createdBy : Uuid
  limitRange : 1 ≤ viewLimit ∧ viewLimit ≤ 10

def NewShareLink.row (new : NewShareLink) (item : Uuid) (now : Time) : ItemShareLink where
  id := new.id
  itemId := item
  tokenHash := new.tokenHash
  dekWrapped := new.dekWrapped
  expiresAt := new.expiresAt
  viewLimit := new.viewLimit
  viewCount := 0
  createdBy := new.createdBy
  createdAt := now
  limitRange := new.limitRange

/-- The columns of `item_types` and `field_definitions` that a view shows. -/
structure Catalog where
  typeLabel : Int → Option String
  /-- `key`, `label`, `field_type` and `is_secret` -/
  fieldDefinition : Int → Option (String × String × String × Bool)

/-- What a statement finds outside the table of links. -/
structure LinkMoment where
  now : Time
  db : DB
  catalog : Catalog

/-- `encoding/base64`, beside the decoder of the service value. -/
structure Base64 where
  encodeRawURL : Bytes → String
  decodeStd : String → Option Bytes

/-! ## Helpers -/

/-- What `rand.Read` and `gen_random_uuid()` yield for one link. -/
structure LinkDraw where
  raw : Bytes
  id : Uuid

/-- `generateShareToken`, from the bytes drawn. -/
def generateShareToken (svc : Service) (base64 : Base64) (raw : Bytes) : String × Digest :=
  (base64.encodeRawURL raw, svc.sha256 raw)

/-- `hashShareToken` -/
def hashShareToken (svc : Service) (raw : String) : Option Digest :=
  match svc.decodeBase64URL raw with
  | some b => if b.length = 32 then some (svc.sha256 b) else none
  | none => none

def hour : Time := 60 * 60 * 1000000

/-- `parseTTL` -/
def parseTTL (svc : Service) (s : String) : Time :=
  match svc.toLower s with
  | "1h" => hour
  | "7d" => 7 * 24 * hour
  | _ => 24 * hour

/-- The view limit `CreateShareLink` stores. -/
def clampViewLimit (n : Int) : Int := if n < 1 ∨ 10 < n then 1 else n

theorem clampViewLimit_range (n : Int) : 1 ≤ clampViewLimit n ∧ clampViewLimit n ≤ 10 := by
  unfold clampViewLimit
  split <;> omega

/-! ## The table -/

/-- The table of links, each row with the number of its creation. The links as
they were created and the history of their views are kept for the results. -/
structure LinkTable where
  links : List (Nat × ItemShareLink) := []
  created : List ItemShareLink := []
  history : List (Vouchers.Event Time) := []

/-- A link as a voucher for its views. -/
def ItemShareLink.terms (l : ItemShareLink) : Vouchers.Terms Time :=
  ⟨l.viewLimit.toNat, l.expiresAt⟩

/-- The `INSERT`, if its foreign and unique keys let it through. -/
def LinkTable.insertLink (s : LinkTable) (db : DB) (l : ItemShareLink) : Option LinkTable :=
  if (db.item? l.itemId).isSome ∧ (db.user? l.createdBy).isSome ∧
      s.links.all (fun r => r.2.id ≠ l.id ∧ r.2.tokenHash ≠ l.tokenHash) then
    some {
      links := s.links ++ [(s.created.length, l)]
      created := s.created ++ [l]
      history := .issued s.created.length l.terms :: s.history }
  else none

/-- `DELETE … WHERE id = $1 AND item_id = $2`, and whether a row went. -/
def LinkTable.deleteLink (s : LinkTable) (linkID itemID : Uuid) : Option LinkTable :=
  match s.links.find? fun r => r.2.id = linkID ∧ r.2.itemId = itemID with
  | none => none
  | some r =>
    some { s with
      links := Table.deleteWhere (fun r => r.2.id = linkID ∧ r.2.itemId = itemID) s.links
      history := .withdrawn r.1 :: s.history }

/-- The condition of the `UPDATE` of a view. -/
def ItemShareLink.isViewable (l : ItemShareLink) (now : Time) (tokenHash : Digest) : Bool :=
  l.tokenHash = tokenHash ∧ now < l.expiresAt ∧ l.viewCount < l.viewLimit

def ItemShareLink.countView (l : ItemShareLink) : ItemShareLink :=
  { l with viewCount := l.viewCount + 1 }

/-- The `UPDATE … SET view_count = view_count + 1 … RETURNING` of a view. -/
def LinkTable.takeView (s : LinkTable) (now : Time) (tokenHash : Digest) :
    LinkTable × Option (Nat × ItemShareLink) :=
  match s.links.find? fun r => r.2.isViewable now tokenHash with
  | none => (s, none)
  | some r =>
    ({ s with
        links := Table.updateWhere (fun r => r.2.isViewable now tokenHash)
          (fun r => (r.1, r.2.countView)) s.links
        history := .used r.1 now :: s.history },
      some (r.1, r.2.countView))

/-! ## Requests -/

structure CreateShareLinkRequest where
  dekWrapped : String
  expiresIn : String
  viewLimit : Int

structure CreateShareLinkResponse where
  token : String
  expiresAt : Time

structure ShareLinkViewField where
  key : String
  label : String
  fieldType : String
  isSecret : Bool
  valueEnc : Option Bytes
  valueNonce : Option Bytes

structure ShareLinkViewResponse where
  itemName : Bytes
  itemTypeLabel : String
  fields : List ShareLinkViewField
  dekWrapped : Bytes
  expiresAt : Time
  viewsLeft : Int

/-- The link a view was granted, by the number of its creation, and when. The
row is the one the `UPDATE` returned. -/
structure GrantedView where
  token : String
  link : Nat
  row : ItemShareLink
  time : Time

inductive LinkRequest
  | create (claims : Claims) (itemID : String) (req : CreateShareLinkRequest) (draw : LinkDraw)
  | revoke (claims : Claims) (itemID linkID : String)
  | view (token : String)

/-- What is left of a request: all of it, or its last statement. -/
inductive LinkCall
  | request (r : LinkRequest)
  | insertLink (token : String) (itemID : String) (link : NewShareLink)
  | deleteLink (itemID linkID : String)
  | readItem (view : GrantedView)

inductive LinkAnswer
  | created (response : CreateShareLinkResponse)
  | revoked
  | viewed (view : GrantedView) (response : ShareLinkViewResponse)
  | failed (e : ApiError)

/-- The token and the row `CreateShareLink` is about to insert, once the request
has passed its checks. -/
def newShareLink (svc : Service) (base64 : Base64) (m : LinkMoment) (claims : Claims)
    (itemID : String) (req : CreateShareLinkRequest) (draw : LinkDraw) :
    Reply (String × NewShareLink) := do
  .unlessAdmin claims (requireItemWrite m.db m.now claims itemID "Yetki sorgulanamadı."
    "Bu item üzerinde yazma yetkiniz yok.")
  .require (req.dekWrapped ≠ "") (badRequest "dek_wrapped zorunlu.")
  let dekBytes ← .orElse (base64.decodeStd req.dekWrapped)
    (badRequest "dek_wrapped geçerli base64 değil.")
  let (token, tokenHash) := generateShareToken svc base64 draw.raw
  pure (token, {
    id := draw.id
    tokenHash := tokenHash
    dekWrapped := dekBytes
    expiresAt := m.now + parseTTL svc req.expiresIn
    viewLimit := clampViewLimit req.viewLimit
    createdBy := claims.subject
    limitRange := clampViewLimit_range req.viewLimit })

/-- The fields of the item with their definitions, in order. -/
def publicFields (m : LinkMoment) (item : Uuid) : List ShareLinkViewField :=
  ((m.db.itemFields.filter (·.itemId = item)).insertionSort byPosition).filterMap fun f =>
    (m.catalog.fieldDefinition f.fieldDefinitionId).map fun (key, label, fieldType, isSecret) =>
      ⟨key, label, fieldType, isSecret, f.value.map Prod.fst, f.value.map fun v => v.2.bytes⟩

/-- `fetchItemForPublicShare` -/
def fetchItemForPublicShare (svc : Service) (m : LinkMoment) (itemID : Uuid) :
    Option (Bytes × String × List ShareLinkViewField) :=
  match m.db.item? itemID with
  | none => none
  | some item =>
    match m.catalog.typeLabel item.itemTypeId,
      decryptItemName svc itemID.text item.serverDekWrapped item.nameEnc with
    | some label, some name => some (name, label, publicFields m itemID)
    | _, _ => none

def linkNotFound : ApiError := ⟨404, errCodeNotFound, "Link bulunamadı."⟩
def linkExpired : ApiError :=
  ⟨410, "link_expired", "Bu link kullanılmış, süresi dolmuş veya geçersiz."⟩

/-- The first statement of a request. -/
def LinkRequest.exec (svc : Service) (base64 : Base64) (m : LinkMoment) (s : LinkTable) :
    LinkRequest → LinkTable × (LinkCall ⊕ LinkAnswer)
  | .create claims itemID req draw =>
    match newShareLink svc base64 m claims itemID req draw with
    | .error e => (s, .inr (.failed e))
    | .ok (token, link) => (s, .inl (.insertLink token itemID link))
  | .revoke claims itemID linkID =>
    match Reply.unlessAdmin claims (requireItemWrite m.db m.now claims itemID
      "Yetki sorgulanamadı." "Yetki yetersiz.") with
    | .error e => (s, .inr (.failed e))
    | .ok () => (s, .inl (.deleteLink itemID linkID))
  | .view token =>
    match hashShareToken svc token with
    | none => (s, .inr (.failed linkNotFound))
    | some tokenHash =>
      match s.takeView m.now tokenHash with
      | (s', none) => (s', .inr (.failed linkExpired))
      | (s', some (link, row)) => (s', .inl (.readItem ⟨token, link, row, m.now⟩))

/-- The next statement of `CreateShareLink`, `RevokeShareLink` or
`ViewShareLink`. -/
def LinkCall.exec (svc : Service) (base64 : Base64) (m : LinkMoment) (s : LinkTable) :
    LinkCall → LinkTable × (LinkCall ⊕ LinkAnswer)
  | .request r => r.exec svc base64 m s
  | .insertLink token itemID link =>
    match castUuid itemID with
    | none => (s, .inr (.failed (internalError "Link oluşturulamadı.")))
    | some item =>
      match s.insertLink m.db (link.row item m.now) with
      | none => (s, .inr (.failed (internalError "Link oluşturulamadı.")))
      | some s' => (s', .inr (.created ⟨token, link.expiresAt⟩))
  | .deleteLink itemID linkID =>
    match castUuid linkID, castUuid itemID with
    | some link, some item =>
      match s.deleteLink link item with
      | none => (s, .inr (.failed linkNotFound))
      | some s' => (s', .inr .revoked)
    | _, _ => (s, .inr (.failed (internalError "Link silinemedi.")))
  | .readItem view =>
    match fetchItemForPublicShare svc m view.row.itemId with
    | none => (s, .inr (.failed (internalError "Item verisi alınamadı.")))
    | some (name, label, fields) =>
      (s, .inr (.viewed view
        ⟨name, label, fields, view.row.dekWrapped, view.row.expiresAt,
          view.row.viewLimit - view.row.viewCount⟩))

/-- The three handlers as calls on the table. -/
def shareLinkHandlers (svc : Service) (base64 : Base64) :
    Program LinkTable LinkRequest LinkCall LinkAnswer LinkMoment where
  enter := .request
  exec m s call := call.exec svc base64 m s

end IronStock

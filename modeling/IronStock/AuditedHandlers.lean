import IronStock.AdminUsers
import IronStock.ApiTokens
import IronStock.AuditTrail
import IronStock.FolderForest
import IronStock.ImportIsolation
import IronStock.KeypairCalls
import IronStock.VaultRequests

/-!
# The modelled handlers as requests

Each mutating handler of the model either leaves the tables alone or changes
them and writes one entry, the one of its `Handler`. Its answer over a sound
connection is the request of that one step; a batch is the request of its
elements.
-/
namespace IronStock.Audit

open RetriedAppend

/-! ## Handlers with one step -/

/-- The handler has changed the tables, and its entry is all that the log has
seen of it. -/
def Handler.Serves (h : Handler) (subject : Uuid) (resourceID : String) (db db' : DB) : Prop :=
  ∃ changed : DB, changed.auditLog = db.auditLog ∧ (castUuid resourceID).isSome = true ∧
    db' = changed.audit ⟨subject.text, h.action, h.resourceType, resourceID⟩

theorem Handler.Serves.intro {h : Handler} {subject : Uuid} {resourceID : String}
    {db db' changed : DB} {u : Uuid}
    (hdb' : db' = changed.audit ⟨subject.text, h.action, h.resourceType, resourceID⟩)
    (hcast : castUuid resourceID = some u) (hlog : changed.auditLog = db.auditLog) :
    h.Serves subject resourceID db db' :=
  ⟨changed, hlog, by simp [hcast], hdb'⟩

/-- The request that leaves `changed`, with what it hands the writer. -/
def Handler.request (h : Handler) (subject resource : Uuid) (resourceID : String)
    (cast : castUuid resourceID = some resource) (changed : DB) (details : List (String × Detail))
    (ipAddress : Option Addr) (userAgent : Bytes) (l : Link) : Request Unit where
  handler := h
  subject := subject
  ipAddress := ipAddress
  userAgent := userAgent
  steps := [{
    resourceID := resourceID
    resource := resource
    cast := cast
    change := fun s => ({ changed with auditLog := s.1.auditLog }, s.2)
    keepsLog := fun _ => rfl
    audited := fun _ => true
    details := details
    link := l }]

/-- A modelled handler is its request over a sound connection, whatever texts
that fit their columns it hands the writer. -/
theorem Handler.Serves.exists_request {h : Handler} {subject : Uuid} {resourceID : String}
    {db db' : DB} (hserves : h.Serves subject resourceID db db')
    (details : List (String × Detail)) (ipAddress : Option Addr) (userAgent : Bytes)
    (htyped : Entry.isTyped ⟨subject.text, h.action, h.resourceType, resourceID, details,
      ipAddress, userAgent⟩ = true) :
    ∃ resource cast changed,
      (h.request subject resource resourceID cast changed details ipAddress userAgent
        .sound).serve (db, ()) = (db', ()) := by
  obtain ⟨changed, hlog, hcast, rfl⟩ := hserves
  obtain ⟨resource, hcast⟩ := Option.isSome_iff_exists.mp hcast
  refine ⟨resource, hcast, changed, ?_⟩
  have hchanged : { changed with auditLog := db.auditLog } = changed := by rw [← hlog]
  calc (h.request subject resource resourceID hcast changed details ipAddress userAgent
        .sound).serve (db, ())
    _ = ((write { changed with auditLog := db.auditLog } ⟨subject.text, h.action, h.resourceType,
          resourceID, details, ipAddress, userAgent⟩ .sound).db, ()) := rfl
    _ = (changed.audit ⟨subject.text, h.action, h.resourceType, resourceID⟩, ()) := by
      rw [hchanged, write_sound _ _ htyped]
      rfl

/-- A type the CHECK does not list: the change leaves no row. -/
theorem Handler.Serves.unaudited {h : Handler} {subject : Uuid} {resourceID : String}
    {db db' : DB} (hserves : h.Serves subject resourceID db db')
    (htype : h.resourceType ∉ auditResourceTypes) : db'.auditLog = db.auditLog := by
  obtain ⟨changed, hlog, -, rfl⟩ := hserves
  have hrow :
      AuditEntry.row ⟨subject.text, h.action, h.resourceType, resourceID⟩ changed = none := by
    unfold AuditEntry.row
    split
    · exact if_neg fun hchk => hchk.2.2.2.elim h.resourceType_ne htype
    · rfl
  simp [DB.audit, hrow, hlog]

/-! ## Groups -/

section Handlers
variable {db db' : DB} {claims : TokenClaims} {id : String}

theorem insertGroup_auditLog {gid : Uuid} {name : String} {createdBy : Uuid}
    (h : insertGroup db gid name createdBy = .ok db') : db'.auditLog = db.auditLog := by
  unfold insertGroup at h
  split at h
  · cases h
  · split at h
    · cases h
    · split at h
      · cases h
      · cases h
        rfl

theorem createGroup_serves {gid : Uuid} {name : String}
    (h : createGroup db claims gid name = .ok db') :
    Handler.createGroup.Serves claims.subject gid.text db db' := by
  simp only [createGroup, Reply.bind_eq_ok] at h
  obtain ⟨_, _, h⟩ := h
  split at h
  · split at h <;> cases h
  · next changed hinsert =>
    cases h
    exact .intro rfl (castUuid_text gid) (insertGroup_auditLog hinsert)

theorem deleteGroup_serves (h : deleteGroup db claims id = .ok db') :
    db' = db ∨ Handler.deleteGroup.Serves claims.subject id db db' := by
  simp only [deleteGroup, Reply.bind_eq_ok, Reply.orElse_eq_ok] at h
  obtain ⟨group, hcast, h⟩ := h
  split at h
  · cases h
    exact .inr (.intro rfl hcast rfl)
  · cases h
    exact .inl rfl

theorem addGroupMember_serves {userID : String} (h : addGroupMember db claims id userID = .ok db') :
    Handler.addGroupMember.Serves claims.subject id db db' := by
  simp only [addGroupMember, Reply.bind_eq_ok, Reply.orElse_eq_ok] at h
  obtain ⟨_, _, group, hcast, user, _, _, _, changed, hinsert, h⟩ := h
  cases h
  refine .intro rfl hcast ?_
  unfold DB.insertMember at hinsert
  split at hinsert
  · cases hinsert
  · cases hinsert
    rfl

theorem removeGroupMember_serves {userID : String}
    (h : removeGroupMember db claims id userID = .ok db') :
    Handler.removeGroupMember.Serves claims.subject id db db' := by
  simp only [removeGroupMember, Reply.bind_eq_ok, Reply.orElse_eq_ok] at h
  obtain ⟨group, hcast, user, _, h⟩ := h
  cases h
  exact .intro rfl hcast rfl

theorem updateGroupRole_serves {roleName : Option String}
    (h : updateGroupRole db claims id roleName = .ok db') :
    Handler.updateGroupRole.Serves claims.subject id db db' := by
  simp only [updateGroupRole, Reply.bind_eq_ok, Reply.orElse_eq_ok] at h
  obtain ⟨_, _, group, hcast, _, _, h⟩ := h
  cases h
  exact .intro rfl hcast rfl

/-! ## Users -/

theorem disableUser_serves {now : Time} (h : disableUser db now claims id = .ok db') :
    db' = db ∨ Handler.disableUser.Serves claims.subject id db db' := by
  simp only [disableUser, Reply.bind_eq_ok, Reply.orElse_eq_ok] at h
  obtain ⟨_, _, _, _, user, hcast, h⟩ := h
  split at h
  · cases h
    exact .inr (.intro rfl hcast rfl)
  · cases h
    exact .inl rfl

theorem enableUser_serves (h : enableUser db claims id = .ok db') :
    db' = db ∨ Handler.enableUser.Serves claims.subject id db db' := by
  simp only [enableUser, Reply.bind_eq_ok, Reply.orElse_eq_ok] at h
  obtain ⟨_, _, user, hcast, h⟩ := h
  split at h
  · cases h
    exact .inr (.intro rfl hcast rfl)
  · cases h
    exact .inl rfl

theorem grantRole_serves {roleName : String} (h : grantRole db claims id roleName = .ok db') :
    db' = db ∨ Handler.grantRole.Serves claims.subject id db db' := by
  simp only [grantRole, Reply.bind_eq_ok, Reply.orElse_eq_ok] at h
  obtain ⟨_, _, role, _, user, hcast, _, _, h⟩ := h
  split at h
  · cases h
    exact .inl rfl
  · cases h
    exact .inr (.intro rfl hcast rfl)

theorem revokeRole_serves {roleName : String} (h : revokeRole db claims id roleName = .ok db') :
    db' = db ∨ Handler.revokeRole.Serves claims.subject id db db' := by
  simp only [revokeRole, Reply.bind_eq_ok, Reply.orElse_eq_ok] at h
  obtain ⟨_, _, role, _, _, _, user, hcast, h⟩ := h
  split at h
  · cases h
    exact .inr (.intro rfl hcast rfl)
  · cases h
    exact .inl rfl

theorem adminResetTOTP_serves {now : Time} (h : adminResetTOTP db now claims id = .ok db') :
    Handler.adminResetTOTP.Serves claims.subject id db db' := by
  simp only [adminResetTOTP, Reply.bind_eq_ok, Reply.orElse_eq_ok] at h
  obtain ⟨_, _, user, hcast, h⟩ := h
  cases h
  exact .intro rfl hcast rfl

theorem setTOTPRequired_serves {required : Bool}
    (h : setTOTPRequired db claims id required = .ok db') :
    Handler.setTOTPRequired.Serves claims.subject id db db' := by
  simp only [setTOTPRequired, Reply.bind_eq_ok, Reply.orElse_eq_ok] at h
  obtain ⟨_, _, _, _, user, hcast, _, _, h⟩ := h
  cases h
  exact .intro rfl hcast rfl

theorem foldl_addUserRole_auditLog (user : Uuid) (roles : List Role) :
    (roles.foldl (fun db role => db.addUserRole ⟨user, role⟩) db).auditLog = db.auditLog := by
  induction roles generalizing db with
  | nil => rfl
  | cons role roles ih => exact ih

theorem provisionUser_serves {user : User} {roles : List Role}
    (h : provisionUser db claims.subject user roles = .ok db') :
    Handler.createUser.Serves claims.subject user.id.text db db' := by
  unfold provisionUser at h
  split at h
  · split at h <;> cases h
  · next db₁ hinsert =>
    obtain ⟨-, rfl⟩ := insertUser_eq_ok hinsert
    simp only [Reply.bind_eq_ok, Reply.orElse_eq_ok] at h
    obtain ⟨db₂, hkeypair, h⟩ := h
    cases h
    refine .intro rfl (castUuid_text user.id) ?_
    rw [foldl_addUserRole_auditLog]
    unfold DB.insertKeypair at hkeypair
    split at hkeypair
    · cases hkeypair
    · split at hkeypair
      · cases hkeypair
      · cases hkeypair
        rfl

/-! ## API tokens -/

theorem createAPIToken_serves {svc : Service} {now : Time} {authz : String}
    {req : CreateAPITokenRequest} {draw : APITokenDraw} {resp : APITokenResponse}
    (h : createAPIToken svc db now authz req draw = .ok (db', resp)) :
    ∃ caller, Handler.createAPIToken.Serves caller draw.id.text db db' := by
  simp only [createAPIToken, Reply.bind_eq_ok, Reply.orElse_eq_ok] at h
  obtain ⟨caller, _, _, _, scope, _, expiresAt, _, db₁, hinsert, h⟩ := h
  cases h
  refine ⟨caller.subject, .intro rfl (castUuid_text draw.id) ?_⟩
  unfold insertApiToken at hinsert
  split at hinsert
  · cases hinsert
  · split at hinsert
    · cases hinsert
    · cases hinsert
      rfl

theorem deleteAPIToken_serves {svc : Service} {now : Time} {authz : String}
    (h : deleteAPIToken svc db now authz id = .ok db') :
    ∃ caller, Handler.deleteAPIToken.Serves caller id db db' := by
  simp only [deleteAPIToken, Reply.bind_eq_ok, Reply.orElse_eq_ok] at h
  obtain ⟨caller, _, token, hcast, _, _, h⟩ := h
  cases h
  exact ⟨caller.subject, .intro rfl hcast rfl⟩

end Handlers

/-! ## Folders -/

section Vault
variable {svc : Service} {db db' : DB} {now : Time} {claims : Claims} {id : String}

theorem folderCreate_serves {newID : Uuid} {nonce : Nonce} {req : FolderRequest}
    {resp : FolderResponse} (h : folderCreate svc db now claims newID nonce req = .ok (db', resp)) :
    Handler.folderCreate.Serves claims.subject newID.text db db' := by
  simp only [folderCreate, Reply.bind_eq_ok, Reply.orElse_eq_ok, statement_eq_ok] at h
  obtain ⟨_, _, _, _, nameNonce, _, nameSearch, _, db₁, hinsert, h⟩ := h
  cases h
  obtain ⟨_, rfl⟩ := insertFolder_frame hinsert
  exact .intro rfl (castUuid_text newID) rfl

theorem folderUpdate_serves {nonce : Nonce} {req : FolderRequest}
    (h : folderUpdate svc db now claims id nonce req = .ok db') :
    Handler.folderUpdate.Serves claims.subject id db db' := by
  simp only [folderUpdate, Reply.bind_eq_ok, Reply.orElse_eq_ok, statement_eq_ok] at h
  obtain ⟨_, _, _, _, _, _, nameNonce, _, nameSearch, _, db₁, hupdate, h⟩ := h
  cases h
  obtain ⟨folder, _, hcast, _⟩ := updateFolder_change hupdate
  obtain ⟨_, rfl⟩ := updateFolder_frame hupdate
  exact .intro rfl hcast rfl

/-! ## Items and their shares -/

theorem itemCreate_serves {draw : EnvelopeDraw} {req : ItemRequest} {resp : ItemResponse}
    (h : itemCreate svc db now claims draw req = .ok (db', resp)) :
    Handler.itemCreate.Serves claims.subject req.id db db' := by
  obtain ⟨row, nonce, db₃, hcast, _, _, _, _, hfields, rfl⟩ := itemCreate_eq_ok h
  obtain ⟨_, _, _, rfl⟩ := insertItemFields_frame hfields
  exact .intro rfl hcast rfl

theorem itemUpdate_serves {draw : EnvelopeDraw} {req : ItemRequest} {links : List Uuid}
    (h : itemUpdate svc db now claims id draw req = .ok (db', links)) :
    Handler.itemUpdate.Serves claims.subject id db db' := by
  obtain ⟨existing, c, db₂, hcast, _, hfields, rfl⟩ := itemUpdate_eq_ok h
  refine .intro rfl hcast ?_
  unfold replaceItemFields at hfields
  split at hfields
  · cases hfields
    rfl
  · obtain ⟨_, _, _, rfl⟩ := insertItemFields_frame hfields
    rfl

theorem shareRow_itemId {itemID userID : String} {dekWrapped wrapNonce : Bytes}
    {permission : String} {grantedBy : Uuid} {validFrom validUntil : Option Time} {w : ItemShare}
    (h : shareRow itemID userID dekWrapped wrapNonce permission grantedBy validFrom validUntil =
      .ok w) : castUuid itemID = some w.itemId := by
  unfold shareRow at h
  split at h
  · next item _ hcast _ =>
    split at h
    · cases h
      exact hcast
    · cases h
  · cases h

theorem share_serves {req : ShareItemRequest} (h : share db now claims id req = .ok db') :
    Handler.share.Serves claims.subject id db db' := by
  simp only [share, Reply.bind_eq_ok, statement_eq_ok] at h
  obtain ⟨_, _, _, _, _, _, db₁, hput, h⟩ := h
  cases h
  cases hrow : req.row id claims.subject with
  | error e =>
    rw [hrow] at hput
    cases hput
  | ok w =>
    obtain ⟨_, rfl⟩ := upsertShare_frame hput
    exact .intro rfl (shareRow_itemId hrow) rfl

theorem unshare_serves {target : String} (h : unshare db now claims id target = .ok db') :
    db' = db ∨ Handler.unshare.Serves claims.subject id db db' := by
  simp only [unshare, Reply.bind_eq_ok, Reply.orElse_eq_ok] at h
  obtain ⟨_, _, _, _, _, _, item, hcast, user, _, h⟩ := h
  split at h
  · cases h
    exact .inr (.intro rfl hcast rfl)
  · cases h
    exact .inl rfl

theorem shareGroup_serves {req : ShareGroupRequest}
    (h : shareGroup db now claims id req = (db', .ok ())) :
    Handler.shareGroup.Serves claims.subject id db db' := by
  unfold shareGroup at h
  split at h
  · cases h
  · split at h
    · cases h
    · next db₁ hgroup =>
      have hcast : ∃ item, castUuid id = some item := by
        unfold upsertGroupShare at hgroup
        split at hgroup
        · next item _ hcast _ => exact ⟨item, hcast⟩
        · cases hgroup
      obtain ⟨item, hcast⟩ := hcast
      obtain ⟨gs, rfl⟩ := upsertGroupShare_frame hgroup
      obtain ⟨ss, hmembers⟩ := shareMembers_frame { db with itemGroupShares := gs }
        (req.members.map (req.row id claims.subject))
      split at h
      · cases h
      · next heq =>
        rw [heq] at hmembers
        cases hmembers
        cases h
        exact .intro rfl hcast rfl

theorem unshareGroup_serves {groupID : String}
    (h : unshareGroup db now claims id groupID = .ok db') :
    db' = db ∨ Handler.unshareGroup.Serves claims.subject id db db' := by
  simp only [unshareGroup, Reply.bind_eq_ok, Reply.orElse_eq_ok] at h
  obtain ⟨_, _, _, _, item, hcast, group, _, h⟩ := h
  split at h
  · cases h
    exact .inr (.intro rfl hcast rfl)
  · cases h
    exact .inl rfl

end Vault

/-! ## Batches -/

section Batch
variable (svc : Service) (claims : Claims)

/-- The `Details` of an imported item. -/
def importDetails (it : BatchImportItem) : List (String × Detail) :=
  [("name", .text (bytesOf it.name)), ("folder_id", .text (bytesOf it.folderID)),
    ("item_type", .number it.itemTypeID), ("field_count", .number it.fields.length)]

/-- The step of an element whose id is one, over the connection it meets. An
element that is refused after its item row was inserted is not audited. -/
def importEntry (p : ImportElem × Link) : Option (Step Unit) :=
  match hcast : castUuid p.1.item.id with
  | none => none
  | some resource => some {
      resourceID := p.1.item.id
      resource := resource
      cast := hcast
      change := fun s => ({ (importItem svc s.1 claims p.1).1 with auditLog := s.1.auditLog }, s.2)
      keepsLog := fun _ => rfl
      audited := fun s => (importItem svc s.1 claims p.1).2.isNone
      details := importDetails p.1.item
      link := p.2 }

/-- The request of a batch. -/
def importRequest (ipAddress : Option Addr) (userAgent : Bytes)
    (batch : List (ImportElem × Link)) : Request Unit where
  handler := .batchImport
  subject := claims.subject
  ipAddress := ipAddress
  userAgent := userAgent
  steps := batch.filterMap (importEntry svc claims)

variable {svc claims}

theorem withItem_auditLog (db : DB) (row : Item) : (db.withItem row).auditLog = db.auditLog := by
  unfold DB.withItem
  split <;> rfl

theorem withOwnerShare_auditLog (db : DB) (x y : Uuid) (dekWrapped wrapNonce : Bytes) :
    (db.withOwnerShare x y dekWrapped wrapNonce).auditLog = db.auditLog := by
  unfold DB.withOwnerShare
  split
  · rfl
  · split <;> rfl

theorem withFields_auditLog (db : DB) (x : Uuid) (fields : List ItemFieldInput) :
    (db.withFields x fields).auditLog = db.auditLog := by
  induction fields generalizing db with
  | nil => rfl
  | cons f fields ih =>
    obtain ⟨_, _, hfirst⟩ := importField_frame db x f
    have hrest := ih (importField db x f)
    rw [hfirst] at hrest
    unfold DB.withFields
    rw [Runs.run_cons, hfirst]
    exact hrest

theorem importItem_serves (db : DB) (e : ImportElem) :
    ((importItem svc db claims e).2.isNone = true ∧
        Handler.batchImport.Serves claims.subject e.item.id db (importItem svc db claims e).1) ∨
      ((importItem svc db claims e).2.isNone = false ∧
        (importItem svc db claims e).1.auditLog = db.auditLog) := by
  obtain ⟨hdb, hcounted⟩ := importItem_outcome svc db claims e
  rw [hdb, hcounted]
  cases hout : importOutcome svc db claims e with
  | refused => exact .inr ⟨rfl, rfl⟩
  | unshared row => exact .inr ⟨rfl, withItem_auditLog db row⟩
  | counted row =>
    obtain ⟨hcast, _⟩ := importRow_eq_some (importOutcome_row hout).1
    refine .inl ⟨rfl, .intro rfl hcast ?_⟩
    rw [withFields_auditLog, withOwnerShare_auditLog, withItem_auditLog]

/-- An element whose id is none is refused. -/
theorem importItem_of_castUuid {db : DB} {e : ImportElem} (h : castUuid e.item.id = none) :
    (importItem svc db claims e).1 = db := by
  have hrow : importRow svc db claims e = none := by
    cases hrow : importRow svc db claims e with
    | none => rfl
    | some row =>
      have hcast := (importRow_eq_some hrow).1
      rw [h] at hcast
      cases hcast
  rw [(importItem_outcome svc db claims e).1]
  simp [importOutcome, hrow, ImportOutcome.state]

variable {ipAddress : Option Addr} {userAgent : Bytes}

/-- The texts of the entry fit their columns. -/
def importTyped (ipAddress : Option Addr) (userAgent : Bytes) (e : ImportElem) : Bool :=
  isText userAgent && (importDetails e.item).all (·.2.isJsonb) && ipAddress.all (·.zone = "")

/-- The step of an element over a sound connection is a round of the loop. -/
theorem importEntry_serve {batch : List (ImportElem × Link)} {e : ImportElem} {st : Step Unit}
    (db : DB) (hst : importEntry svc claims (e, .sound) = some st)
    (htyped : importTyped ipAddress userAgent e = true) :
    (importRequest svc claims ipAddress userAgent batch).serveStep (db, ()) st =
      ((importItem svc db claims e).1, ()) := by
  unfold importEntry at hst
  split at hst
  · cases hst
  · cases hst
    simp only [Request.serveStep]
    rcases @importItem_serves svc claims db e with
      ⟨hnone, changed, hlog, -, hdb'⟩ | ⟨hsome, hlog⟩
    · have hchanged :
          { (importItem svc db claims e).1 with auditLog := db.auditLog } = changed := by
        rw [hdb', ← hlog]
        rfl
      rw [if_pos hnone, hchanged, write_sound _ _ (by exact htyped), hdb']
      rfl
    · rw [if_neg (by simp [hsome]), ← hlog]

/-- A batch in which every element meets a sound connection is its request. -/
theorem importLoop_serve (batch : List ImportElem) (db : DB)
    (htyped : ∀ e ∈ batch, importTyped ipAddress userAgent e = true) :
    (importRequest svc claims ipAddress userAgent (batch.map (·, .sound))).serve (db, ()) =
      ((importLoop svc db claims batch).db, ()) := by
  have hloop : ∀ (all : List (ImportElem × Link)) (rest : List ImportElem) (s : ImportState),
      (∀ e ∈ rest, importTyped ipAddress userAgent e = true) →
        Runs.run (importRequest svc claims ipAddress userAgent all).serveStep (s.db, ())
            ((rest.map (·, Link.sound)).filterMap (importEntry svc claims)) =
          ((Runs.run (importStep svc claims) s rest).db, ()) := by
    intro all rest
    induction rest with
    | nil => intro s _; rfl
    | cons e rest ih =>
      intro s hrest
      rw [List.forall_mem_cons] at hrest
      have hih := ih (importStep svc claims s e) hrest.2
      rw [importStep_db] at hih
      rw [Runs.run_cons, List.map_cons]
      cases hst : importEntry svc claims (e, .sound) with
      | none =>
        have hcast : castUuid e.item.id = none := by
          unfold importEntry at hst
          split at hst
          · next hcast => exact hcast
          · cases hst
        rw [importItem_of_castUuid hcast] at hih
        rw [List.filterMap_cons_none hst, hih]
      | some st =>
        rw [List.filterMap_cons_some hst, Runs.run_cons, importEntry_serve s.db hst hrest.1, hih]
  exact hloop _ batch ⟨db, 0, []⟩ htyped

end Batch

/-! ## Exactness -/

def auditAdmin : User where
  id := Uuid.ofNat 1
  username := "root"
  email := "root@example.com"
  passwordHash := []
  argon2Params := ""
  totpRequired := false

def auditDB : DB where
  users := [auditAdmin]
  userRoles := [⟨Uuid.ofNat 1, .admin⟩]

def auditClaims : TokenClaims where
  subject := Uuid.ofNat 1
  roles := [.admin]
  purpose := "access"
  id := ""

/-- The administrator turns on the second factor of his own account. -/
def requireTOTP (userAgent : Bytes) (l : Link) : Request Unit :=
  Handler.setTOTPRequired.request (Uuid.ofNat 1) (Uuid.ofNat 1) (Uuid.ofNat 1).text
    (castUuid_text _) { auditDB with users := [{ auditAdmin with totpRequired := true }] }
    [("required", .flag true)] none userAgent l

end IronStock.Audit

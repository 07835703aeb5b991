import IronStock.ImportHandlers
import IronStock.ItemReads
import IronStock.ItemShares
import IronStock.VaultHandlers

/-!
# Requests on folders and items

The endpoints of the vault behind the access-token middleware, as one step
function. They write to the vault tables, the access requests and the audit
log; the tables of accounts, credentials and groups stay as they are.
-/
namespace IronStock

inductive VaultRequest
  | folderCreate (newID : Uuid) (nonce : Nonce) (req : FolderRequest)
  | folderUpdate (id : String) (nonce : Nonce) (req : FolderRequest)
  | itemCreate (draw : EnvelopeDraw) (req : ItemRequest)
  | itemUpdate (id : String) (draw : EnvelopeDraw) (req : ItemRequest)
  | batchImport (batch : List ImportElem)
  | itemGet (id : String)
  | share (itemID : String) (req : ShareItemRequest)
  | unshare (itemID targetUserID : String)
  | shareGroup (itemID : String) (req : ShareGroupRequest)
  | unshareGroup (itemID groupID : String)
  | vaultFetch (vault : Option VaultClient) (itemID : String)
  | issueDynamicCred (vault : Option VaultClient) (itemID : String)

/-- The state after a request; a refused one leaves it alone. -/
def VaultRequest.step (svc : Service) (db : DB) (now : Time) (claims : Claims) : VaultRequest → DB
  | folderCreate newID nonce req =>
    ((IronStock.folderCreate svc db now claims newID nonce req).toOption.map Prod.fst).getD db
  | folderUpdate id nonce req =>
    (IronStock.folderUpdate svc db now claims id nonce req).toOption.getD db
  | itemCreate draw req =>
    ((IronStock.itemCreate svc db now claims draw req).toOption.map Prod.fst).getD db
  | itemUpdate id draw req =>
    ((IronStock.itemUpdate svc db now claims id draw req).toOption.map Prod.fst).getD db
  | batchImport batch => (IronStock.batchImport svc db claims batch).1
  | itemGet id => (IronStock.itemGet svc db now claims id).1
  | share itemID req => (IronStock.share db now claims itemID req).toOption.getD db
  | unshare itemID target => (IronStock.unshare db now claims itemID target).toOption.getD db
  | shareGroup itemID req => (IronStock.shareGroup db now claims itemID req).1
  | unshareGroup itemID groupID =>
    (IronStock.unshareGroup db now claims itemID groupID).toOption.getD db
  | vaultFetch vault itemID => (IronStock.vaultFetch svc vault db now claims itemID).1
  | issueDynamicCred vault itemID =>
    ((IronStock.issueDynamicCred svc vault db now claims itemID).toOption.map Prod.fst).getD db

/-! ## The account tables -/

structure AccountTables where
  users : List User
  userRoles : List UserRole
  sessions : List Session
  apiTokens : List ApiToken
  totpSecrets : List TotpSecret
  recoveryCodes : List RecoveryCode
  trustedDevices : List TrustedDevice
  userKeypairs : List UserKeypair
  groups : List Group
  groupMembers : List GroupMember

def DB.accounts (db : DB) : AccountTables where
  users := db.users
  userRoles := db.userRoles
  sessions := db.sessions
  apiTokens := db.apiTokens
  totpSecrets := db.totpSecrets
  recoveryCodes := db.recoveryCodes
  trustedDevices := db.trustedDevices
  userKeypairs := db.userKeypairs
  groups := db.groups
  groupMembers := db.groupMembers

@[simp] theorem audit_accounts (db : DB) (e : AuditEntry) : (db.audit e).accounts = db.accounts :=
  rfl

/-- The state a handler ended in, if each state it answers with is good. -/
theorem accounts_getD {db : DB} {r : Reply DB}
    (h : ∀ db', r = .ok db' → db'.accounts = db.accounts) :
    (r.toOption.getD db).accounts = db.accounts := by
  cases r with
  | error e => rfl
  | ok db' => exact h db' rfl

theorem accounts_fst_getD {α : Type} {db : DB} {r : Reply (DB × α)}
    (h : ∀ db' a, r = .ok (db', a) → db'.accounts = db.accounts) :
    ((r.toOption.map Prod.fst).getD db).accounts = db.accounts := by
  cases r with
  | error e => rfl
  | ok p => exact h p.1 p.2 rfl

/-! ## Statements -/

section Statements

variable {svc : Service} {db db' : DB} {now : Time}

theorem insertFolder_frame {newID createdBy : Uuid} {parentID : Option String}
    {nameEnc nameSearch : Bytes} {nameNonce : Nonce} {position : Int}
    (h : insertFolder db now newID parentID nameEnc nameNonce nameSearch position createdBy =
      .ok db') : ∃ fs, db' = { db with folders := fs } := by
  unfold insertFolder at h
  repeat' split at h
  all_goals cases h
  all_goals exact ⟨_, rfl⟩

theorem updateFolder_frame {id : String} {parentID : Option String}
    {nameEnc nameSearch : Bytes} {nameNonce : Nonce} {position : Int}
    (h : updateFolder db now id parentID nameEnc nameNonce nameSearch position = .ok db') :
    ∃ fs, db' = { db with folders := fs } := by
  unfold updateFolder at h
  repeat' split at h
  all_goals cases h
  all_goals exact ⟨_, rfl⟩

theorem insertItem_frame {conflict : OnConflict} {n : NewItem}
    (h : insertItem conflict svc db now n = .ok db') : ∃ rows, db' = { db with items := rows } := by
  unfold insertItem at h
  split at h
  · cases h
  · split at h
    · cases conflict <;> cases h
      exact ⟨_, rfl⟩
    · split at h <;> cases h
      exact ⟨_, rfl⟩

theorem insertOwnerShare_frame {conflict : OnConflict} {itemID : String} {userID : Uuid}
    {dekWrapped wrapNonce : Bytes}
    (h : insertOwnerShare conflict db itemID userID dekWrapped wrapNonce = .ok db') :
    ∃ ss, db' = { db with itemShares := ss } := by
  unfold insertOwnerShare at h
  split at h
  · cases h
  · cases h
  · simp only at h
    split at h
    · cases conflict <;> cases h
      exact ⟨_, rfl⟩
    · split at h <;> cases h
      exact ⟨_, rfl⟩

theorem upsertShare_frame {row : Except PgError ItemShare} (h : upsertShare db row = .ok db') :
    ∃ ss, db' = { db with itemShares := ss } := by
  unfold upsertShare at h
  split at h
  · cases h
  · split at h <;> cases h
    exact ⟨_, rfl⟩

theorem upsertGroupShare_frame {itemID groupID permission : String} {grantedBy : Uuid}
    {validFrom validUntil : Option Time}
    (h : upsertGroupShare db itemID groupID permission grantedBy validFrom validUntil = .ok db') :
    ∃ gs, db' = { db with itemGroupShares := gs } := by
  unfold upsertGroupShare at h
  repeat' split at h
  all_goals cases h
  all_goals exact ⟨_, rfl⟩

/-- The loop over the members, up to the first error. -/
theorem shareMembers_frame (db : DB) (rows : List (Except PgError ItemShare)) :
    ∃ ss, (shareMembers db rows).1 = { db with itemShares := ss } := by
  induction rows generalizing db with
  | nil => exact ⟨_, rfl⟩
  | cons row rows ih =>
    unfold shareMembers
    split
    · exact ⟨_, rfl⟩
    · next db' hdb' =>
      obtain ⟨ss, rfl⟩ := upsertShare_frame hdb'
      exact ih _

theorem importField_frame (db : DB) (itemID : Uuid) (f : ItemFieldInput) :
    ∃ fs n, importField db itemID f = { db with itemFields := fs, nextFieldId := n } := by
  unfold importField
  repeat' split
  all_goals exact ⟨_, _, rfl⟩

theorem importFields_frame (db : DB) (itemID : String) (fields : List ItemFieldInput) :
    ∃ fs n, importFields db itemID fields = { db with itemFields := fs, nextFieldId := n } := by
  unfold importFields
  split
  · exact ⟨_, _, rfl⟩
  · next item _ =>
    have hstep : ∀ (s : DB) (f : ItemFieldInput),
        (∃ fs n, s = { db with itemFields := fs, nextFieldId := n }) →
          ∃ fs n, importField s item f = { db with itemFields := fs, nextFieldId := n } := by
      rintro _ f ⟨fs, n, rfl⟩
      exact importField_frame _ item f
    exact Runs.run_invariant (J := fun s : DB =>
      ∃ fs n, s = { db with itemFields := fs, nextFieldId := n }) hstep ⟨_, _, rfl⟩ fields

theorem importItem_accounts (db : DB) (claims : Claims) (e : ImportElem) :
    (importItem svc db claims e).1.accounts = db.accounts := by
  unfold importItem
  split
  · rfl
  · split
    · rfl
    · next db₁ hrow =>
      obtain ⟨rows, rfl⟩ := insertItem_frame hrow
      split
      · rfl
      · next db₂ hshare =>
        obtain ⟨ss, rfl⟩ := insertOwnerShare_frame hshare
        obtain ⟨fs, n, hfields⟩ := importFields_frame { db with items := rows, itemShares := ss }
          e.item.id e.item.fields
        rw [audit_accounts, hfields]
        rfl

end Statements

/-! ## Handlers -/

section Handlers

variable {svc : Service} {db : DB} {now : Time} {claims : Claims}

theorem itemCreate_accounts {draw : EnvelopeDraw} {req : ItemRequest} {db' : DB}
    {resp : ItemResponse} (h : itemCreate svc db now claims draw req = .ok (db', resp)) :
    db'.accounts = db.accounts := by
  obtain ⟨_, _, _, _, _, _, _, _, hfields, rfl⟩ := itemCreate_eq_ok h
  obtain ⟨_, _, _, rfl⟩ := insertItemFields_frame hfields
  rfl

theorem itemUpdate_accounts {id : String} {draw : EnvelopeDraw} {req : ItemRequest} {db' : DB}
    {links : List Uuid} (h : itemUpdate svc db now claims id draw req = .ok (db', links)) :
    db'.accounts = db.accounts := by
  obtain ⟨_, _, _, _, _, hfields, rfl⟩ := itemUpdate_eq_ok h
  unfold replaceItemFields at hfields
  split at hfields
  · cases hfields
    rfl
  · obtain ⟨_, _, _, rfl⟩ := insertItemFields_frame hfields
    rfl

theorem batchImport_accounts (db : DB) (claims : Claims) (batch : List ImportElem) :
    (batchImport svc db claims batch).1.accounts = db.accounts := by
  unfold batchImport
  split
  · rfl
  · split
    · rfl
    · have hstep : ∀ (s : ImportState) (e : ImportElem), s.db.accounts = db.accounts →
          (importStep svc claims s e).db.accounts = db.accounts := by
        intro s e hs
        have he := @importItem_accounts svc s.db claims e
        unfold importStep
        split <;> next heq => rw [heq] at he; exact he.trans hs
      exact Runs.run_invariant (J := fun s : ImportState => s.db.accounts = db.accounts) hstep
        rfl batch

theorem itemGet_accounts (id : String) :
    (itemGet svc db now claims id).1.accounts = db.accounts := by
  unfold itemGet
  split
  · rfl
  · split
    · simp only
      split <;> rfl
    · rfl

theorem shareGroup_accounts (itemID : String) (req : ShareGroupRequest) :
    (shareGroup db now claims itemID req).1.accounts = db.accounts := by
  unfold shareGroup
  split
  · rfl
  · split
    · rfl
    · next db₁ hgroup =>
      obtain ⟨gs, rfl⟩ := upsertGroupShare_frame hgroup
      obtain ⟨ss, hmembers⟩ := shareMembers_frame { db with itemGroupShares := gs }
        (req.members.map (req.row itemID claims.subject))
      split <;> next heq => rw [heq] at hmembers; cases hmembers; rfl

theorem unshare_accounts {itemID target : String} {db' : DB}
    (h : unshare db now claims itemID target = .ok db') : db'.accounts = db.accounts := by
  simp only [unshare, Reply.bind_eq_ok] at h
  obtain ⟨_, _, _, _, _, _, _, _, _, _, h⟩ := h
  split at h <;> cases h <;> rfl

theorem unshareGroup_accounts {itemID groupID : String} {db' : DB}
    (h : unshareGroup db now claims itemID groupID = .ok db') : db'.accounts = db.accounts := by
  simp only [unshareGroup, Reply.bind_eq_ok] at h
  obtain ⟨_, _, _, _, _, _, _, _, h⟩ := h
  split at h <;> cases h <;> rfl

theorem vaultFetch_accounts (vault : Option VaultClient) (itemID : String) :
    (vaultFetch svc vault db now claims itemID).1.accounts = db.accounts := by
  unfold vaultFetch
  split
  · rfl
  · split <;> rfl

/-- No request on folders or items writes to a table of accounts. -/
theorem VaultRequest.step_accounts (req : VaultRequest) :
    (req.step svc db now claims).accounts = db.accounts := by
  cases req with
  | folderCreate newID nonce req =>
    refine accounts_fst_getD fun db' resp h => ?_
    simp only [IronStock.folderCreate, Reply.bind_eq_ok, statement_eq_ok, Reply.pure_eq_ok] at h
    obtain ⟨_, _, _, _, _, _, _, _, db₁, hins, heq⟩ := h
    obtain ⟨rfl, _⟩ := Prod.mk.inj heq
    obtain ⟨_, rfl⟩ := insertFolder_frame hins
    rfl
  | folderUpdate id nonce req =>
    refine accounts_getD fun db' h => ?_
    simp only [IronStock.folderUpdate, Reply.bind_eq_ok, statement_eq_ok, Reply.pure_eq_ok] at h
    obtain ⟨_, _, _, _, _, _, _, _, _, _, db₁, hupd, rfl⟩ := h
    obtain ⟨_, rfl⟩ := updateFolder_frame hupd
    rfl
  | itemCreate draw req => exact accounts_fst_getD fun _ _ h => itemCreate_accounts h
  | itemUpdate id draw req => exact accounts_fst_getD fun _ _ h => itemUpdate_accounts h
  | batchImport batch => exact batchImport_accounts db claims batch
  | itemGet id => exact itemGet_accounts id
  | share itemID req =>
    refine accounts_getD fun db' h => ?_
    simp only [IronStock.share, Reply.bind_eq_ok, statement_eq_ok, Reply.pure_eq_ok] at h
    obtain ⟨_, _, _, _, _, _, db₁, hput, rfl⟩ := h
    obtain ⟨_, rfl⟩ := upsertShare_frame hput
    rfl
  | unshare itemID target => exact accounts_getD fun _ h => unshare_accounts h
  | shareGroup itemID req => exact shareGroup_accounts itemID req
  | unshareGroup itemID groupID => exact accounts_getD fun _ h => unshareGroup_accounts h
  | vaultFetch vault itemID => exact vaultFetch_accounts vault itemID
  | issueDynamicCred vault itemID =>
    refine accounts_fst_getD fun db' cred h => ?_
    simp only [IronStock.issueDynamicCred, Reply.bind_eq_ok, Reply.pure_eq_ok] at h
    obtain ⟨_, _, _, _, _, _, _, _, _, _, _, _, _, _, _, _, heq⟩ := h
    obtain ⟨rfl, _⟩ := Prod.mk.inj heq
    rfl

end Handlers

end IronStock

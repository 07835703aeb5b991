import IronStock.Crypto
import IronStock.Http
import IronStock.Lib.Table

/-!
# The database

The tables the handlers read and write, after `server/migrations`. A row type
carries the CHECK constraints of its table: a nonce has twelve bytes, a field
value has its nonce, a window is not empty, a folder is not its own parent.
Unique and foreign keys are checked by the statements. Row ids that no answer
shows (`item_fields.id`) are drawn from a counter.
-/
namespace IronStock

/-! ## Column types -/

/-- The permission column of every grant table. -/
inductive Grant
  | read
  | write
deriving DecidableEq, Repr

/-- The columns `valid_from` and `valid_until` with their CHECK. -/
structure Window where
  validFrom : Option Time
  validUntil : Option Time
  ordered : ∀ a b, validFrom = some a → validUntil = some b → a < b

namespace Window

instance : DecidableEq Window := fun a b =>
  decidable_of_iff (a.validFrom = b.validFrom ∧ a.validUntil = b.validUntil)
    (by cases a; cases b; simp)

/-- No limit on either side. -/
def always : Window := ⟨none, none, by simp⟩

instance : Inhabited Window := ⟨always⟩

/-- `(valid_from IS NULL OR valid_from <= NOW()) AND
(valid_until IS NULL OR valid_until > NOW())`. -/
def contains (w : Window) (now : Time) : Bool :=
  (w.validFrom.all (· ≤ now)) && (w.validUntil.all (now < ·))

@[simp] theorem contains_always (now : Time) : always.contains now = true := rfl

/-- The window with these bounds, if it is not empty. -/
def ofBounds (validFrom validUntil : Option Time) : Option Window :=
  match validFrom, validUntil with
  | some a, some b => if h : a < b then some ⟨some a, some b, by simpa using h⟩ else none
  | some a, none => some ⟨some a, none, by simp⟩
  | none, u => some ⟨none, u, by simp⟩

@[simp] theorem ofBounds_none : ofBounds none none = some always := rfl

end Window

/-- The values an `integer` column takes. -/
def isInt4 (n : Int) : Bool := -2147483648 ≤ n && n ≤ 2147483647

/-- `value_enc` and `value_nonce`: both set, or both NULL. -/
abbrev FieldValue := Bytes × Nonce

inductive RequestStatus
  | pending
  | approved
  | denied
  | expired
  | cancelled
deriving DecidableEq, Repr

/-! ## Vault tables -/

structure Folder where
  id : Uuid
  parentId : Option Uuid
  nameEnc : Bytes
  nameNonce : Nonce
  nameSearch : Bytes
  position : Int
  createdBy : Uuid
  createdAt : Time
  updatedAt : Time
  /-- `folders_no_self_parent_chk` -/
  noSelfParent : parentId ≠ some id

structure FolderPermissionRow where
  folderId : Uuid
  userId : Uuid
  permission : Grant
  inheritToChildren : Bool
  window : Window
  revokedAt : Option Time
deriving DecidableEq

structure FolderGroupPermissionRow where
  folderId : Uuid
  groupId : Uuid
  permission : Grant
  inheritToChildren : Bool
  window : Window
  revokedAt : Option Time
deriving DecidableEq

structure ItemType where
  id : Int
  kindKey : Option String
deriving DecidableEq

structure Item where
  id : Uuid
  folderId : Uuid
  itemTypeId : Int
  nameEnc : Bytes
  nameNonce : Nonce
  nameSearch : Bytes
  namePlain : Option String
  serverDekWrapped : Bytes
  description : Option String
  externalSource : Option String
  createdBy : Uuid
  createdAt : Time
  updatedAt : Time
  expiresAt : Option Time
  rotationIntervalDays : Option Int
  lastRotatedAt : Option Time
  requiresApproval : Bool
  /-- `CHECK (rotation_interval_days IS NULL OR rotation_interval_days > 0)` -/
  rotationPos : rotationIntervalDays.all (fun d => 0 < d) = true

structure ItemShare where
  itemId : Uuid
  userId : Uuid
  e2eDekWrapped : Bytes
  wrapNonce : Nonce
  permission : Grant
  grantedBy : Uuid
  revokedAt : Option Time
  window : Window
deriving DecidableEq

structure ItemGroupShare where
  itemId : Uuid
  groupId : Uuid
  permission : Grant
  grantedBy : Uuid
  revokedAt : Option Time
  window : Window
deriving DecidableEq

structure ItemField where
  id : Nat
  itemId : Uuid
  fieldDefinitionId : Int
  value : Option FieldValue
  position : Int
deriving DecidableEq

structure ItemFieldVersion where
  itemFieldId : Nat
  versionNumber : Nat
  value : FieldValue
  changedAt : Time
deriving DecidableEq

inductive LinkType
  | mirror
  | reference
deriving DecidableEq, Repr

structure ItemLink where
  id : Uuid
  sourceItemId : Uuid
  linkType : LinkType
deriving DecidableEq

structure ItemAttachment where
  id : Uuid
  itemId : Uuid
  storageKey : String
  uploadConfirmed : Bool
deriving DecidableEq

structure AccessRequest where
  id : Uuid
  itemId : Uuid
  requesterId : Uuid
  status : RequestStatus
  accessDurationMinutes : Int
  requestedAt : Time
  respondedAt : Option Time
  expiresAt : Option Time
  denyReason : Option String
deriving DecidableEq

/-! ## Accounts and groups -/

/-- `users_status_chk` -/
inductive UserStatus
  | pendingTOTP
  | active
  | disabled
  | locked
deriving DecidableEq, Repr

structure User where
  id : Uuid
  username : String
  email : String
  passwordHash : Bytes
  argon2Params : String
  status : UserStatus := .pendingTOTP
  failedLoginAttempts : Nat := 0
  lockedUntil : Option Time := none
  mustChangePassword : Bool := false
  totpRequired : Bool := true
  requiresClientCert : Bool := false
  allowedIPCIDRs : List String := []
  allowedCountries : List String := []
  denyTorExit : Bool := false
  scimExternalID : Option String := none
deriving DecidableEq

/-- A row of `user_roles` joined to the name of its role. -/
structure UserRole where
  userId : Uuid
  role : Role
deriving DecidableEq

/-- `sessions_revoke_reason_chk` -/
inductive RevokeReason
  | logout
  | logoutAll
  | rotation
  | admin
  | expired
  | recovery
  | reuseDetected
deriving DecidableEq, Repr

/-- The reason a text stands for, if the CHECK lets it in. -/
def RevokeReason.ofText : String → Option RevokeReason
  | "logout" => some .logout
  | "logout_all" => some .logoutAll
  | "rotation" => some .rotation
  | "admin" => some .admin
  | "expired" => some .expired
  | "recovery" => some .recovery
  | "reuse_detected" => some .reuseDetected
  | _ => none

/-- A SHA-256 value: a column with the check `octet_length(…) = 32`. -/
structure Digest where
  bytes : Bytes
  length_bytes : bytes.length = 32
deriving DecidableEq

structure Session where
  id : Uuid
  userId : Uuid
  refreshTokenHash : Digest
  userAgent : Option String
  ipAddress : Option String
  expiresAt : Time
  /-- `revoked_at` and `revoke_reason`: both set, or both NULL -/
  revoked : Option (Time × RevokeReason)
deriving DecidableEq

/-- `revoked_at IS NULL`. -/
def Session.isOpen (s : Session) : Bool := s.revoked.isNone

/-- `api_tokens_scope_check` -/
inductive TokenScope
  | read
  | ansible
  | scim
  | scan
deriving DecidableEq, Repr

structure ApiToken where
  id : Uuid
  userId : Uuid
  name : String
  tokenHash : Bytes
  scope : TokenScope
  expiresAt : Option Time
  lastUsedAt : Option Time
deriving DecidableEq

structure TotpSecret where
  userId : Uuid
  secretEnc : Bytes
  nonce : Nonce
  /-- `verified` and `verified_at`: true and set, or false and NULL -/
  verifiedAt : Option Time
deriving DecidableEq

def TotpSecret.verified (t : TotpSecret) : Bool := t.verifiedAt.isSome

structure RecoveryCode where
  id : Uuid
  userId : Uuid
  codeHash : Bytes
  usedAt : Option Time
deriving DecidableEq

structure TrustedDevice where
  id : Uuid
  userId : Uuid
  tokenHash : Digest
  lastUsedAt : Time
  expiresAt : Time
deriving DecidableEq

structure UserKeypair where
  userId : Uuid
  version : Int
  publicKey : Bytes
  privateKeyEnc : Bytes
  kekSalt : Bytes
  kekParams : String
  /-- `user_keypairs_pubkey_len_chk`, `_priv_len_chk` and `_salt_len_chk` -/
  lengths : publicKey.length = 32 ∧ 0 < privateKeyEnc.length ∧ 16 ≤ kekSalt.length
deriving DecidableEq

structure Group where
  id : Uuid
  name : String
  role : Option Role
deriving DecidableEq

structure GroupMember where
  groupId : Uuid
  userId : Uuid
deriving DecidableEq

/-- A row of `audit_log` that passed its checks. -/
structure AuditRow where
  actorUserId : Option Uuid
  action : String
  resourceType : Option String
  resourceId : Option Uuid
deriving DecidableEq

structure DB where
  users : List User := []
  userRoles : List UserRole := []
  sessions : List Session := []
  apiTokens : List ApiToken := []
  totpSecrets : List TotpSecret := []
  recoveryCodes : List RecoveryCode := []
  trustedDevices : List TrustedDevice := []
  userKeypairs : List UserKeypair := []
  groups : List Group := []
  groupMembers : List GroupMember := []
  folders : List Folder := []
  folderPermissions : List FolderPermissionRow := []
  folderGroupPermissions : List FolderGroupPermissionRow := []
  itemTypes : List ItemType := []
  fieldDefinitions : List Int := []
  items : List Item := []
  itemShares : List ItemShare := []
  itemGroupShares : List ItemGroupShare := []
  itemFields : List ItemField := []
  nextFieldId : Nat := 0
  itemFieldVersions : List ItemFieldVersion := []
  itemLinks : List ItemLink := []
  itemAttachments : List ItemAttachment := []
  accessRequests : List AccessRequest := []
  auditLog : List AuditRow := []

namespace DB

def folder? (db : DB) (id : Uuid) : Option Folder := Table.lookup Folder.id id db.folders
def item? (db : DB) (id : Uuid) : Option Item := Table.lookup Item.id id db.items
def user? (db : DB) (id : Uuid) : Option User := Table.lookup User.id id db.users
def session? (db : DB) (id : Uuid) : Option Session := Table.lookup Session.id id db.sessions
def group? (db : DB) (id : Uuid) : Option Group := Table.lookup Group.id id db.groups

/-- `gm.group_id = group AND gm.user_id = user` has a row. -/
def isMember (db : DB) (group user : Uuid) : Bool :=
  db.groupMembers.any fun m => m.groupId = group ∧ m.userId = user

/-- Following `parent_id` from a folder row. -/
def parentOf (db : DB) (id : Uuid) : Option Uuid := (db.folder? id).bind Folder.parentId

end DB

/-! ## Statement errors -/

/-- What the driver returns for a failed statement: its SQLSTATE, and what a
method `Code()` of the error value would return if it had one. -/
structure PgError where
  sqlState : String
  codeMethod : Option String
deriving DecidableEq

/-- The driver's errors carry `Code` as a field and have no such method. -/
def pgError (sqlState : String) : PgError := ⟨sqlState, none⟩

def PgError.uniqueViolation : PgError := pgError "23505"
def PgError.foreignKeyViolation : PgError := pgError "23503"
def PgError.checkViolation : PgError := pgError "23514"
def PgError.notNullViolation : PgError := pgError "23502"
def PgError.invalidText : PgError := pgError "22P02"
def PgError.outOfRange : PgError := pgError "22003"

/-- `isUniqueViolation`: asks the error for a method `Code()`. -/
def isUniqueViolation (e : PgError) : Bool := e.codeMethod = some "23505"

/-! ## Audit log -/

/-- An entry as a handler writes it; an empty text becomes NULL. -/
structure AuditEntry where
  actorUserID : String
  action : String
  resourceType : String
  resourceID : String

/-- `audit_log_resource_type_chk`. -/
def auditResourceTypes : List String :=
  ["user", "session", "role", "folder", "item", "item_share", "master_key", "system"]

/-- An optional uuid parameter: the outer `none` is a failed cast. -/
def castNullableUuid (s : String) : Option (Option Uuid) :=
  if s = "" then some none else (castUuid s).map some

/-- The row `Writer.Write` inserts, if the statement does not fail. -/
def AuditEntry.row (e : AuditEntry) (db : DB) : Option AuditRow :=
  match castNullableUuid e.actorUserID, castNullableUuid e.resourceID with
  | some actor, some resource =>
    if actor.all (fun u => (db.user? u).isSome) ∧ 1 ≤ e.action.length ∧ e.action.length ≤ 128 ∧
        (e.resourceType = "" ∨ e.resourceType ∈ auditResourceTypes) then
      some ⟨actor, e.action, if e.resourceType = "" then none else some e.resourceType, resource⟩
    else none
  | _, _ => none

/-- `Audit.Write`, its error ignored as the handlers ignore it. -/
def DB.audit (db : DB) (e : AuditEntry) : DB :=
  { db with auditLog := db.auditLog ++ (e.row db).toList }

section Audit
variable (db : DB) (e : AuditEntry)

@[simp] theorem audit_users : (db.audit e).users = db.users := rfl
@[simp] theorem audit_userRoles : (db.audit e).userRoles = db.userRoles := rfl
@[simp] theorem audit_sessions : (db.audit e).sessions = db.sessions := rfl
@[simp] theorem audit_totpSecrets : (db.audit e).totpSecrets = db.totpSecrets := rfl
@[simp] theorem audit_groups : (db.audit e).groups = db.groups := rfl
@[simp] theorem audit_groupMembers : (db.audit e).groupMembers = db.groupMembers := rfl
@[simp] theorem audit_folders : (db.audit e).folders = db.folders := rfl
@[simp] theorem audit_items : (db.audit e).items = db.items := rfl
@[simp] theorem audit_itemShares : (db.audit e).itemShares = db.itemShares := rfl
@[simp] theorem audit_itemFields : (db.audit e).itemFields = db.itemFields := rfl
@[simp] theorem audit_itemFieldVersions :
    (db.audit e).itemFieldVersions = db.itemFieldVersions := rfl

end Audit

end IronStock

import IronStock.RecoverHandlers

/-!
# User administration

`admin_users.go` and the group part of `group_handlers.go`. The router puts
`RequireAccessToken` and `RequireRole("admin")` before every handler here.
-/
namespace IronStock

/-- The two middlewares before an admin handler. -/
def requireAdmin (svc : Service) (db : DB) (now : Time) (authz : String) : Reply TokenClaims := do
  let claims ← requireAccessTokenMiddleware svc db now authz
  Reply.require (claims.hasRole .admin = true)
    ⟨403, errCodeForbidden, "Bu işlem için yetkiniz yok."⟩
  return claims

/-- `validRoleName`. -/
def Role.ofName : String → Option Role
  | "admin" => some .admin
  | "write" => some .write
  | "read" => some .read
  | _ => none

def badRole : ApiError := badRequest "role 'admin', 'write' veya 'read' olmalı."

/-! ## Status -/

def User.withStatus (status : UserStatus) (u : User) : User := { u with status := status }

@[simp] theorem User.withStatus_id (status : UserStatus) (u : User) :
    (u.withStatus status).id = u.id := rfl
@[simp] theorem User.withStatus_status (status : UserStatus) (u : User) :
    (u.withStatus status).status = status := rfl

/-- `DisableUser`: nothing happens to a user who is missing or disabled. -/
def disableUser (db : DB) (now : Time) (claims : TokenClaims) (id : String) : Reply DB := do
  Reply.require (id ≠ "") (badRequest "id zorunlu.")
  Reply.require (id ≠ claims.subject.text)
    (badRequest "Kendi hesabınızı devre dışı bırakamazsınız.")
  let user ← Reply.orElse (castUuid id) (internalError "Kullanıcı devre dışı bırakılamadı.")
  if (db.user? user).any (·.status ≠ .disabled) then
    let db := revokeAllUserSessions (db.updateUser user (User.withStatus .disabled)) now user .admin
    return db.audit ⟨claims.subject.text, "admin.user_disabled", "user", id⟩
  else return db

/-- `EnableUser`: the status depends on the second factor. -/
def enableUser (db : DB) (claims : TokenClaims) (id : String) : Reply DB := do
  Reply.require (id ≠ "") (badRequest "id zorunlu.")
  let user ← Reply.orElse (castUuid id) (internalError "Kullanıcı etkinleştirilemedi.")
  if (db.user? user).any (·.status = .disabled) then
    let status := if (fetchTOTPSecret db user).isSome then UserStatus.active else .pendingTOTP
    return (db.updateUser user (User.withStatus status)).audit
      ⟨claims.subject.text, "admin.user_enabled", "user", id⟩
  else return db

/-! ## Roles -/

/-- `INSERT INTO user_roles … ON CONFLICT DO NOTHING`. -/
def DB.addUserRole (db : DB) (row : UserRole) : DB :=
  { db with userRoles := Table.insertOrIgnore (· = row) row db.userRoles }

/-- `GrantRole`. -/
def grantRole (db : DB) (claims : TokenClaims) (id roleName : String) : Reply DB := do
  Reply.require (id ≠ "") (badRequest "id zorunlu.")
  let role ← Reply.orElse (Role.ofName roleName) badRole
  let user ← Reply.orElse (castUuid id) (internalError "Rol atanamadı.")
  Reply.require ((db.user? user).isSome = true ∧ (db.user? claims.subject).isSome = true)
    (internalError "Rol atanamadı.")
  if db.userRoles.any (· = ⟨user, role⟩) then return db
  return (db.addUserRole ⟨user, role⟩).audit
    ⟨claims.subject.text, "admin.role_granted", "user", id⟩

/-- `RevokeRole`. -/
def revokeRole (db : DB) (claims : TokenClaims) (id roleName : String) : Reply DB := do
  Reply.require (id ≠ "" ∧ roleName ≠ "") (badRequest "id ve role_name zorunlu.")
  let role ← Reply.orElse (Role.ofName roleName) badRole
  Reply.require (¬ (id = claims.subject.text ∧ role = .admin))
    (badRequest "Kendi admin rolünüzü kaldıramazsınız.")
  let user ← Reply.orElse (castUuid id) (internalError "Rol kaldırılamadı.")
  if db.userRoles.any (· = ⟨user, role⟩) then
    let userRoles := Table.deleteWhere (· = (⟨user, role⟩ : UserRole)) db.userRoles
    return { db with userRoles }.audit ⟨claims.subject.text, "admin.role_revoked", "user", id⟩
  else return db

/-! ## Second factor -/

/-- `AdminResetTOTP`. -/
def adminResetTOTP (db : DB) (now : Time) (claims : TokenClaims) (id : String) : Reply DB := do
  Reply.require (id ≠ "") (badRequest "id zorunlu.")
  let user ← Reply.orElse (castUuid id) (internalError "TOTP secret silinemedi.")
  let reset (u : User) : User := if u.status = .disabled then u else u.withStatus .pendingTOTP
  let db := ((db.deleteTOTPSecret user).deleteRecoveryCodes user).updateUser user reset
  return (revokeAllUserSessions db now user .admin).audit
    ⟨claims.subject.text, "admin.totp_reset", "user", id⟩

/-- `SetTOTPRequired`. -/
def setTOTPRequired (db : DB) (claims : TokenClaims) (id : String) (required : Bool) :
    Reply DB := do
  Reply.require (id ≠ "") (badRequest "id zorunlu.")
  Reply.require (¬ (id = claims.subject.text ∧ required = false))
    (badRequest "Kendi hesabınızın TOTP zorunluluğunu kapatamazsınız.")
  let user ← Reply.orElse (castUuid id) (internalError "TOTP zorunluluğu güncellenemedi.")
  Reply.require ((db.user? user).isSome = true) ⟨404, errCodeNotFound, "Kullanıcı bulunamadı."⟩
  return (db.updateUser user fun u => { u with totpRequired := required }).audit
    ⟨claims.subject.text, "admin.totp_requirement_changed", "user", id⟩

/-! ## Groups -/

/-- `INSERT INTO group_members … ON CONFLICT DO NOTHING`. -/
def DB.insertMember (db : DB) (group user : Uuid) : Except PgError DB :=
  if (db.group? group).isNone ∨ (db.user? user).isNone then .error .foreignKeyViolation
  else
    let row : GroupMember := ⟨group, user⟩
    .ok { db with groupMembers := Table.insertOrIgnore (· = row) row db.groupMembers }

/-- `DELETE FROM group_members WHERE group_id = … AND user_id = …`. -/
def DB.deleteMember (db : DB) (group user : Uuid) : DB :=
  let row : GroupMember := ⟨group, user⟩
  { db with groupMembers := Table.deleteWhere (· = row) db.groupMembers }

/-- `groups_name_uniq`, and the CHECK on the length. -/
def groupNameError (db : DB) (name : String) : Option PgError :=
  if name.length < 2 ∨ 128 < name.length then some .checkViolation
  else if db.groups.any (·.name = name) then some .uniqueViolation
  else none

/-- The INSERT of a group with the id the default drew; it has no role. -/
def insertGroup (db : DB) (id : Uuid) (name : String) (createdBy : Uuid) : Except PgError DB :=
  match groupNameError db name with
  | some e => .error e
  | none =>
    if (db.group? id).isSome then .error .uniqueViolation
    else if (db.user? createdBy).isNone then .error .foreignKeyViolation
    else
      let row : Group := ⟨id, name, none⟩
      .ok { db with groups := db.groups ++ [row] }

/-- `GroupHandlers.CreateGroup`. -/
def createGroup (db : DB) (claims : TokenClaims) (id : Uuid) (name : String) :
    Reply DB := do
  let name := trimSpace name
  Reply.require (2 ≤ name.utf8ByteSize ∧ name.utf8ByteSize ≤ 128)
    (badRequest "Grup adı 2-128 karakter olmalı.")
  match insertGroup db id name claims.subject with
  | .error e =>
    if isUniqueViolation e then
      .error ⟨409, errCodeConflict, "Bu isimde bir grup zaten var."⟩
    else .error (internalError "Grup oluşturulamadı.")
  | .ok db => return db.audit ⟨claims.subject.text, "group.created", "group", id.text⟩

/-- `DELETE FROM groups` with the cascades to its members and grants. -/
def DB.deleteGroup (db : DB) (id : Uuid) : DB :=
  { db with
    groups := Table.deleteWhere (·.id = id) db.groups
    groupMembers := Table.deleteWhere (·.groupId = id) db.groupMembers
    folderGroupPermissions := Table.deleteWhere (·.groupId = id) db.folderGroupPermissions
    itemGroupShares := Table.deleteWhere (·.groupId = id) db.itemGroupShares }

/-- `GroupHandlers.DeleteGroup`. -/
def deleteGroup (db : DB) (claims : TokenClaims) (id : String) : Reply DB := do
  let group ← Reply.orElse (castUuid id) (internalError "Grup silinemedi.")
  if (db.group? group).isSome then
    return (db.deleteGroup group).audit ⟨claims.subject.text, "group.deleted", "group", id⟩
  else return db

/-- `AddGroupMember`. -/
def addGroupMember (db : DB) (claims : TokenClaims) (groupID userID : String) : Reply DB := do
  Reply.require (userID ≠ "") (badRequest "user_id zorunlu.")
  let group ← Reply.orElse (castUuid groupID) (internalError "Üye eklenemedi.")
  let user ← Reply.orElse (castUuid userID) (internalError "Üye eklenemedi.")
  Reply.require ((db.user? claims.subject).isSome = true) (internalError "Üye eklenemedi.")
  let db ← Reply.orElse (db.insertMember group user).toOption (internalError "Üye eklenemedi.")
  return db.audit ⟨claims.subject.text, "group.member_added", "group", groupID⟩

/-- `RemoveGroupMember`. -/
def removeGroupMember (db : DB) (claims : TokenClaims) (groupID userID : String) : Reply DB := do
  let group ← Reply.orElse (castUuid groupID) (internalError "Üye çıkarılamadı.")
  let user ← Reply.orElse (castUuid userID) (internalError "Üye çıkarılamadı.")
  return (db.deleteMember group user).audit
    ⟨claims.subject.text, "group.member_removed", "group", groupID⟩

/-- `UpdateGroupRole`; no name clears the role. -/
def updateGroupRole (db : DB) (claims : TokenClaims) (id : String) (roleName : Option String) :
    Reply DB := do
  Reply.require (roleName.all fun name => (Role.ofName name).isSome)
    (badRequest "role 'admin', 'write' veya 'read' olmalı (kaldırmak için null gönderin).")
  let group ← Reply.orElse (castUuid id) (internalError "Grup rolü güncellenemedi.")
  Reply.require ((db.group? group).isSome = true) ⟨404, errCodeBadRequest, "Grup bulunamadı."⟩
  let setRole (g : Group) : Group := { g with role := roleName.bind Role.ofName }
  let groups := Table.updateWhere (·.id = group) setRole db.groups
  return { db with groups }.audit ⟨claims.subject.text, "group.role_updated", "group", id⟩

/-! ## Admin requests -/

inductive AdminOp
  | disableUser (id : String)
  | enableUser (id : String)
  | grantRole (id roleName : String)
  | revokeRole (id roleName : String)
  | resetTOTP (id : String)
  | setTOTPRequired (id : String) (required : Bool)
  | createGroup (id : Uuid) (name : String)
  | deleteGroup (id : String)
  | addGroupMember (groupID userID : String)
  | removeGroupMember (groupID userID : String)
  | updateGroupRole (id : String) (roleName : Option String)

def AdminOp.handle (db : DB) (now : Time) (claims : TokenClaims) :
    AdminOp → Reply DB
  | disableUser id => IronStock.disableUser db now claims id
  | enableUser id => IronStock.enableUser db claims id
  | grantRole id roleName => IronStock.grantRole db claims id roleName
  | revokeRole id roleName => IronStock.revokeRole db claims id roleName
  | resetTOTP id => adminResetTOTP db now claims id
  | setTOTPRequired id required => IronStock.setTOTPRequired db claims id required
  | createGroup id name => IronStock.createGroup db claims id name
  | deleteGroup id => IronStock.deleteGroup db claims id
  | addGroupMember groupID userID => IronStock.addGroupMember db claims groupID userID
  | removeGroupMember groupID userID => IronStock.removeGroupMember db claims groupID userID
  | updateGroupRole id roleName => IronStock.updateGroupRole db claims id roleName

/-- An admin request as the router serves it. -/
def adminRequest (svc : Service) (db : DB) (now : Time) (authz : String) (op : AdminOp) :
    Reply DB := do
  let claims ← requireAdmin svc db now authz
  op.handle db now claims

theorem requireAdmin_eq_ok {svc : Service} {db : DB} {now : Time} {authz : String}
    {claims : TokenClaims} (h : requireAdmin svc db now authz = .ok claims) :
    requireAccessTokenMiddleware svc db now authz = .ok claims ∧ claims.hasRole .admin = true := by
  simp only [requireAdmin, Reply.bind_eq_ok, Reply.require_eq_ok, Reply.pure_eq_ok] at h
  obtain ⟨c, hauth, _, hrole, rfl⟩ := h
  exact ⟨hauth, hrole⟩

end IronStock

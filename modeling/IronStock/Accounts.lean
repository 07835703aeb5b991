import IronStock.Sessions

/-!
# Statements on the account tables

The helpers of `auth_login.go`, `auth_trusted_devices.go` and `auth_recover.go`
that read and write users, roles, second factors and trusted devices.
-/
namespace IronStock

def maxFailedLoginAttempts : Nat := 10

/-- 30 minutes. -/
def lockoutDuration : Time := 30 * 60 * 1000000

/-- 7 days. -/
def refreshTokenLifetime : Time := 7 * 24 * 60 * 60 * 1000000

/-- 30 days. -/
def trustedDeviceTTL : Time := 30 * 24 * 60 * 60 * 1000000

/-- `writeInvalidCreds`. -/
def invalidCreds : ApiError :=
  ⟨401, errCodeInvalidCreds, "Kullanıcı adı, şifre veya TOTP kodu hatalı."⟩

/-- `auth.IsLocked`. -/
def User.isLocked (u : User) (now : Time) : Bool := u.lockedUntil.any (now < ·)

/-! ## Users -/

/-- `UPDATE users SET … WHERE id = …`. -/
def DB.updateUser (db : DB) (id : Uuid) (f : User → User) : DB :=
  { db with users := Table.updateWhere (·.id = id) f db.users }

/-- `fetchUserForLogin`. -/
def fetchUserForLogin (db : DB) (usernameLower : String) : Option User :=
  db.users.find? (·.username = usernameLower)

def User.loginFailed (now : Time) (u : User) : User :=
  if maxFailedLoginAttempts ≤ u.failedLoginAttempts + 1 then
    { u with failedLoginAttempts := 0, lockedUntil := some (now + lockoutDuration) }
  else { u with failedLoginAttempts := u.failedLoginAttempts + 1 }

def User.loginSucceeded (u : User) : User :=
  { u with failedLoginAttempts := 0, lockedUntil := none }

def recordLoginFailure (db : DB) (now : Time) (userID : Uuid) : DB :=
  db.updateUser userID (User.loginFailed now)

def recordLoginSuccess (db : DB) (userID : Uuid) : DB := db.updateUser userID User.loginSucceeded

/-- `auth.login_fail` with its actor, empty when the user is unknown. -/
def DB.recordLoginFail (db : DB) (userID : String) : DB :=
  db.audit ⟨userID, "auth.login_fail", "user", userID⟩

/-- The password check of login, change-password and TOTP removal: nothing but
an answer when the stored parameters cannot be read. -/
def checkPassword (svc : Service) (user : User) (password : String) : Reply Bool := do
  let salt ← Reply.orElse (svc.passwords.extractSalt user.argon2Params)
    (internalError "Şifre parametreleri okunamadı.")
  Reply.orElse (svc.passwords.verifyPassword password user.passwordHash salt user.argon2Params)
    (internalError "Şifre doğrulanamadı.")

/-! ## Roles -/

/-- A row of `user_roles`, or a membership in a group with this role. -/
def DB.hasRole (db : DB) (userID : Uuid) (role : Role) : Bool :=
  (db.userRoles.any fun r => r.userId = userID ∧ r.role = role) ||
    db.groupMembers.any fun m =>
      m.userId = userID && (db.group? m.groupId).any (·.role = some role)

/-- `fetchUserRoles`: distinct, in the order of their names. -/
def fetchUserRoles (db : DB) (userID : Uuid) : List Role :=
  [Role.admin, .read, .write].filter (db.hasRole userID)

/-! ## Second factors -/

def DB.totpSecret? (db : DB) (userID : Uuid) : Option TotpSecret :=
  Table.lookup TotpSecret.userId userID db.totpSecrets

/-- `fetchTOTPSecret`: the row if it is verified. -/
def fetchTOTPSecret (db : DB) (userID : Uuid) : Option TotpSecret :=
  (db.totpSecret? userID).filter TotpSecret.verified

/-- `VerifyTOTP`. -/
def verifyTOTP (svc : Service) (now : Time) (secret : Bytes) (code : String) : Bool :=
  if secret.length = 0 then false else svc.validateTOTP now secret code

/-- The plain secret, if the master cipher opens it for this user. -/
def openTOTPSecret (svc : Service) (userID : Uuid) (row : TotpSecret) : Reply Bytes :=
  Reply.orElse (svc.master.openBlob row.secretEnc (makeAAD "totp_secrets" userID.text "secret_enc"))
    (internalError "TOTP secret çözülemedi.")

/-- The INSERTs of freshly hashed recovery codes, their ids drawn by the
default. -/
def DB.addRecoveryCodes (db : DB) (userID : Uuid) (codes : List (Uuid × Bytes)) : DB :=
  let rows := codes.map fun c => (⟨c.1, userID, c.2, none⟩ : RecoveryCode)
  { db with recoveryCodes := db.recoveryCodes ++ rows }

/-- `DELETE FROM recovery_codes WHERE user_id = …`. -/
def DB.deleteRecoveryCodes (db : DB) (userID : Uuid) : DB :=
  { db with recoveryCodes := Table.deleteWhere (·.userId = userID) db.recoveryCodes }

/-! ## Trusted devices -/

def TrustedDevice.isFor (d : TrustedDevice) (userID : Uuid) (hash : Digest) (now : Time) : Bool :=
  d.tokenHash = hash ∧ d.userId = userID ∧ now < d.expiresAt

/-- `verifyTrustedDevice`: the row is found by the hash of the cookie, and its
window starts anew. -/
def verifyTrustedDevice (db : DB) (now : Time) (userID : Uuid) (hash : Option Digest) :
    DB × Option TrustedDevice :=
  match hash with
  | none => (db, none)
  | some h =>
    let extend (d : TrustedDevice) : TrustedDevice :=
      { d with lastUsedAt := now, expiresAt := now + trustedDeviceTTL }
    let trustedDevices := Table.updateWhere (·.isFor userID h now) extend db.trustedDevices
    ({ db with trustedDevices }, db.trustedDevices.find? (·.isFor userID h now))

/-- `createTrustedDevice` with the id the default drew. -/
def createTrustedDevice (db : DB) (now : Time) (id userID : Uuid) (hash : Digest) :
    Except PgError DB :=
  if db.trustedDevices.any (fun d => d.id = id ∨ d.tokenHash = hash) then .error .uniqueViolation
  else if (db.user? userID).isNone then .error .foreignKeyViolation
  else
    let row : TrustedDevice := ⟨id, userID, hash, now, now + trustedDeviceTTL⟩
    .ok { db with trustedDevices := db.trustedDevices ++ [row] }

theorem createTrustedDevice_eq_ok {db db' : DB} {now : Time} {id userID : Uuid} {hash : Digest}
    (h : createTrustedDevice db now id userID hash = .ok db') :
    ∃ rows, db' = { db with trustedDevices := rows } := by
  unfold createTrustedDevice at h
  split at h
  · cases h
  · split at h
    · cases h
    · cases h
      exact ⟨_, rfl⟩

/-! ## What each statement leaves alone -/

section Frame

variable (db : DB) (now : Time) (u : Uuid) (f : User → User)

@[simp] theorem updateUser_sessions : (db.updateUser u f).sessions = db.sessions := rfl
@[simp] theorem updateUser_totpSecrets : (db.updateUser u f).totpSecrets = db.totpSecrets := rfl
@[simp] theorem updateUser_userRoles : (db.updateUser u f).userRoles = db.userRoles := rfl
@[simp] theorem updateUser_groups : (db.updateUser u f).groups = db.groups := rfl
@[simp] theorem updateUser_groupMembers : (db.updateUser u f).groupMembers = db.groupMembers := rfl

theorem user?_updateUser (hf : ∀ r, (f r).id = r.id) (id : Uuid) :
    (db.updateUser u f).user? id = (db.user? id).map fun r => if r.id = u then f r else r := by
  unfold DB.user? DB.updateUser
  rw [Table.lookup_updateWhere hf]
  simp

@[simp] theorem loginFailed_id (r : User) : (r.loginFailed now).id = r.id := by
  unfold User.loginFailed
  split <;> rfl

@[simp] theorem loginFailed_status (r : User) : (r.loginFailed now).status = r.status := by
  unfold User.loginFailed
  split <;> rfl

end Frame

end IronStock

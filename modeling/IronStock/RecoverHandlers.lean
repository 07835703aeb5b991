import IronStock.TotpHandlers

/-!
# New passwords

`auth_change_password.go` with the old password, and `auth_recover.go` with a
recovery code in two requests.
-/
namespace IronStock

/-! ## Key pairs -/

/-- The new column values of a key pair. `version` is a `smallint`. -/
def UserKeypair.rotate (k : UserKeypair) (publicKey privateKeyEnc kekSalt : Bytes)
    (kekParams : String) : Except PgError UserKeypair :=
  if h : publicKey.length = 32 ∧ 0 < privateKeyEnc.length ∧ 16 ≤ kekSalt.length then
    if k.version + 1 ≤ 32767 then
      .ok ⟨k.userId, k.version + 1, publicKey, privateKeyEnc, kekSalt, kekParams, h⟩
    else .error .outOfRange
  else .error .checkViolation

/-- `UPDATE user_keypairs … WHERE user_id = …`; the public key is replaced if
one is given. -/
def DB.rotateKeypair (db : DB) (userID : Uuid) (publicKey : Option Bytes)
    (privateKeyEnc kekSalt : Bytes) (kekParams : String) : Except PgError DB :=
  match Table.lookup UserKeypair.userId userID db.userKeypairs with
  | none => .ok db
  | some k =>
    match k.rotate (publicKey.getD k.publicKey) privateKeyEnc kekSalt kekParams with
    | .error e => .error e
    | .ok k' =>
      let userKeypairs := Table.updateWhere (·.userId = userID) (fun _ => k') db.userKeypairs
      .ok { db with userKeypairs }

def User.withPassword (password : Bytes × String) (u : User) : User :=
  { u with
    passwordHash := password.1
    argon2Params := password.2
    failedLoginAttempts := 0
    lockedUntil := none }

/-! ## Change of password -/

/-- `new_kek_params` is the JSON text of the object, empty when the object has
no members. -/
structure ChangePasswordRequest where
  currentPassword : String
  newPassword : String
  newPrivateKeyEnc : Bytes
  newKEKSalt : Bytes
  newKEKParams : String

def validateChangePassword (req : ChangePasswordRequest) : Reply Unit := do
  Reply.require (req.currentPassword ≠ "") (badRequest "current_master_password zorunlu")
  Reply.require (12 ≤ req.newPassword.utf8ByteSize)
    (badRequest "new_master_password en az 12 karakter olmalı")
  Reply.require (req.newPrivateKeyEnc.length ≠ 0) (badRequest "new_private_key_enc zorunlu")
  Reply.require (16 ≤ req.newKEKSalt.length) (badRequest "new_kek_salt en az 16 byte olmalı")
  Reply.require (req.newKEKParams ≠ "") (badRequest "new_kek_params zorunlu")

/-- The transaction of a change of password. -/
def storePassword (svc : Service) (db : DB) (now : Time) (userID : Uuid)
    (req : ChangePasswordRequest) (salt : Bytes) : Reply DB := do
  let password := svc.passwords.hashPassword req.newPassword salt
  let db := db.updateUser userID fun u =>
    { u.withPassword password with mustChangePassword := false }
  let db ← Reply.orElse
    (db.rotateKeypair userID none req.newPrivateKeyEnc req.newKEKSalt req.newKEKParams).toOption
    (internalError "Anahtar çifti güncellenemedi.")
  return (revokeAllUserSessions db now userID .admin).audit
    ⟨userID.text, "auth.password_changed", "user", userID.text⟩

/-- `ChangePassword`. -/
def changePassword (svc : Service) (db : DB) (now : Time) (authz : String)
    (req : ChangePasswordRequest) (salt : Bytes) : DB × Reply Unit :=
  match requireAccessToken svc now authz with
  | .error e => (db, .error e)
  | .ok claims =>
    match validateChangePassword req with
    | .error e => (db, .error e)
    | .ok () =>
      match confirmPassword svc db now claims.subject req.currentPassword with
      | (db, .error e) => (db, .error e)
      | (db, .ok ()) =>
        match storePassword svc db now claims.subject req salt with
        | .error e => (db, .error e)
        | .ok db' => (db', .ok ())

/-! ## Recovery -/

def DB.recordRecoverFail (db : DB) (userID : String) : DB :=
  db.audit ⟨userID, "auth.recover_fail", "user", userID⟩

def RecoveryCode.isUnusedFor (c : RecoveryCode) (userID : Uuid) : Bool :=
  c.userId = userID ∧ c.usedAt = none

/-- `UPDATE recovery_codes SET used_at = now() WHERE id = … AND used_at IS NULL`. -/
def DB.markRecoveryCode (db : DB) (now : Time) (id : Uuid) : DB :=
  let mark (c : RecoveryCode) : RecoveryCode := { c with usedAt := some now }
  { db with
    recoveryCodes := Table.updateWhere (fun c => c.id = id ∧ c.usedAt = none) mark db.recoveryCodes }

/-- `RecoverInit`: the answer is a temporary token for the second request. -/
def recoverInit (svc : Service) (db : DB) (now : Time) (username recoveryCode : String) :
    DB × Reply String :=
  if username = "" ∨ recoveryCode = "" then
    (db, .error (badRequest "username ve recovery_code zorunlu."))
  else
    match fetchUserForLogin db (svc.toLower username) with
    | none => (db.recordRecoverFail "", .error invalidCreds)
    | some user =>
      if user.isLocked now then
        (db.recordRecoverFail user.id.text,
          .error ⟨403, errCodeAccountLocked, "Hesap geçici olarak kilitli."⟩)
      else
        match db.recoveryCodes.find? fun c =>
            c.isUnusedFor user.id && svc.passwords.verifyRecoveryCode recoveryCode c.codeHash with
        | none =>
          ((recordLoginFailure db now user.id).recordRecoverFail user.id.text,
            .error invalidCreds)
        | some code =>
          match svc.jwt.issueTmp now user.id purposeRecovery with
          | none => (db, .error (internalError "Geçici token üretilemedi."))
          | some token =>
            ((revokeAllUserSessions (db.markRecoveryCode now code.id) now user.id .recovery).audit
              ⟨user.id.text, "auth.recover", "user", user.id.text⟩, .ok token)

structure RecoverCompleteRequest where
  newPassword : String
  publicKey : Bytes
  newPrivateKeyEnc : Bytes
  newKEKSalt : Bytes
  newKEKParams : String

def validateRecoverComplete (req : RecoverCompleteRequest) : Reply Unit := do
  Reply.require (12 ≤ req.newPassword.utf8ByteSize)
    (badRequest "new_master_password en az 12 karakter olmalı")
  Reply.require (req.publicKey.length = 32) (badRequest "public_key 32 byte olmalı (X25519)")
  Reply.require (req.newPrivateKeyEnc.length ≠ 0) (badRequest "new_private_key_enc zorunlu")
  Reply.require (16 ≤ req.newKEKSalt.length) (badRequest "new_kek_salt en az 16 byte olmalı")
  Reply.require (req.newKEKParams ≠ "") (badRequest "new_kek_params zorunlu")

/-- `RecoverComplete`: sets the user active, whatever the status was. -/
def recoverComplete (svc : Service) (db : DB) (now : Time) (authz : String)
    (req : RecoverCompleteRequest) (salt : Bytes) (codes : List (Uuid × Bytes)) : Reply DB := do
  let userID ← requireTmpToken svc now authz purposeRecovery
  validateRecoverComplete req
  let password := svc.passwords.hashPassword req.newPassword salt
  let db := db.updateUser userID fun u => { u.withPassword password with status := .active }
  let db ← Reply.orElse (db.rotateKeypair userID (some req.publicKey) req.newPrivateKeyEnc
    req.newKEKSalt req.newKEKParams).toOption (internalError "Anahtar çifti güncellenemedi.")
  Reply.require ((db.user? userID).isSome = true)
    (internalError "Yeni recovery code kaydedilemedi.")
  let db := (db.deleteRecoveryCodes userID).addRecoveryCodes userID codes
  let db := revokeAllUserSessions db now userID .recovery
  let db := db.audit ⟨userID.text, "auth.recover", "user", userID.text⟩
  return db.audit ⟨userID.text, "auth.password_changed", "user", userID.text⟩

theorem recoverComplete_eq_ok {svc : Service} {db db' : DB} {now : Time} {authz : String}
    {req : RecoverCompleteRequest} {salt : Bytes} {codes : List (Uuid × Bytes)}
    (h : recoverComplete svc db now authz req salt codes = .ok db') :
    ∃ userID db₁, requireTmpToken svc now authz purposeRecovery = .ok userID ∧
      validateRecoverComplete req = .ok () ∧
      (db.updateUser userID fun u =>
        { u.withPassword (svc.passwords.hashPassword req.newPassword salt) with
          status := .active }).rotateKeypair userID (some req.publicKey) req.newPrivateKeyEnc
            req.newKEKSalt req.newKEKParams = .ok db₁ ∧
      db' = ((revokeAllUserSessions ((db₁.deleteRecoveryCodes userID).addRecoveryCodes userID codes)
        now userID .recovery).audit ⟨userID.text, "auth.recover", "user", userID.text⟩).audit
          ⟨userID.text, "auth.password_changed", "user", userID.text⟩ := by
  simp only [recoverComplete, Reply.bind_eq_ok, Reply.orElse_eq_ok, Reply.toOption_eq_some,
    Reply.require_eq_ok, Reply.pure_eq_ok] at h
  obtain ⟨userID, hauth, _, hreq, db₁, hrotate, _, _, rfl⟩ := h
  exact ⟨userID, db₁, hauth, hreq, hrotate, rfl⟩

end IronStock

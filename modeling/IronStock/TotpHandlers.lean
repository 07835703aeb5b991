import IronStock.Accounts

/-!
# Second-factor management

`auth_totp.go` and `auth_totp_manage.go`: enrolment, its confirmation, removal,
and new recovery codes.
-/
namespace IronStock

/-! ## Enrolment -/

structure TotpInitResponse where
  otpAuthURL : String
  base32Secret : String
deriving DecidableEq

/-- What `GenerateTOTP` and the cipher draw. -/
structure TotpDraw where
  secret : Bytes
  nonce : Nonce

/-- `INSERT … ON CONFLICT (user_id) DO UPDATE`: the row is not verified. -/
def DB.putTOTPSecret (db : DB) (userID : Uuid) (secretEnc : Bytes) (nonce : Nonce) : DB :=
  let row : TotpSecret := ⟨userID, secretEnc, nonce, none⟩
  let totpSecrets := Table.upsert (·.userId = userID) (fun _ => row) row db.totpSecrets
  { db with totpSecrets }

/-- `TOTPInit`. -/
def totpInit (svc : Service) (db : DB) (now : Time) (authz : String) (draw : TotpDraw) :
    Reply (DB × TotpInitResponse) := do
  let userID ← requireTmpOrAccessToken svc now authz
  let user ← Reply.orElse (db.user? userID) (internalError "Kullanıcı bulunamadı.")
  let (otpAuthURL, base32Secret) ← Reply.orElse (svc.enrollTOTP user.username draw.secret)
    (internalError "TOTP üretilemedi.")
  let enc := svc.master.sealBlob draw.nonce draw.secret
    (makeAAD "totp_secrets" userID.text "secret_enc")
  let nonce ← Reply.orElse (extractNonce enc) (internalError "TOTP secret'ı kaydedilemedi.")
  let db := db.putTOTPSecret userID enc nonce
  return (db.audit ⟨userID.text, "auth.totp_init", "user", userID.text⟩,
    ⟨otpAuthURL, base32Secret⟩)

/-- `len(code) < 6 || len(code) > 8`, in bytes. -/
def validateTOTPCode (code : String) : Reply Unit :=
  Reply.require (6 ≤ code.utf8ByteSize ∧ code.utf8ByteSize ≤ 8)
    ⟨400, errCodeInvalidCode, "TOTP kodu 6 haneli olmalı."⟩

def invalidTOTPCode : ApiError := ⟨400, errCodeInvalidCode, "TOTP kodu geçersiz."⟩

/-- `UPDATE totp_secrets SET verified = true, verified_at = now()`. -/
def DB.verifyTOTPSecret (db : DB) (now : Time) (userID : Uuid) : DB :=
  let verify (t : TotpSecret) : TotpSecret := { t with verifiedAt := some now }
  { db with totpSecrets := Table.updateWhere (·.userId = userID) verify db.totpSecrets }

/-- `TOTPVerify`: the codes are drawn with their hashes and row ids. -/
def totpVerify (svc : Service) (db : DB) (now : Time) (authz code : String)
    (codes : List (Uuid × Bytes)) : Reply DB := do
  let userID ← requireTmpOrAccessToken svc now authz
  validateTOTPCode code
  let row ← Reply.orElse (db.totpSecret? userID)
    (badRequest "TOTP henüz başlatılmadı (önce /totp/init çağırın).")
  let secret ← openTOTPSecret svc userID row
  Reply.require (verifyTOTP svc now secret code = true) invalidTOTPCode
  let db := (db.verifyTOTPSecret now userID).updateUser userID fun u => { u with status := .active }
  return (db.addRecoveryCodes userID codes).audit
    ⟨userID.text, "auth.totp_verified", "user", userID.text⟩

/-! ## Management -/

/-- `TOTPStatus`: whether a verified secret exists, and the number of recovery
codes that are left. -/
def totpStatus (svc : Service) (db : DB) (now : Time) (authz : String) : Reply (Bool × Nat) := do
  let claims ← requireAccessToken svc now authz
  let enabled := (fetchTOTPSecret db claims.subject).isSome
  let count := (db.recoveryCodes.filter (·.userId = claims.subject)).length
  return (enabled, if enabled then count else 0)

/-- `DELETE FROM totp_secrets WHERE user_id = …`. -/
def DB.deleteTOTPSecret (db : DB) (userID : Uuid) : DB :=
  { db with totpSecrets := Table.deleteWhere (·.userId = userID) db.totpSecrets }

/-- The check of the password before a sensitive change; a wrong one counts as
a failed login. -/
def confirmPassword (svc : Service) (db : DB) (now : Time) (userID : Uuid) (password : String) :
    DB × Reply Unit :=
  match db.user? userID with
  | none => (db, .error (internalError "Kullanıcı sorgulanamadı."))
  | some user =>
    match checkPassword svc user password with
    | .error e => (db, .error e)
    | .ok false => (recordLoginFailure db now userID, .error invalidCreds)
    | .ok true => (db, .ok ())

/-- `TOTPDisable`. -/
def totpDisable (svc : Service) (db : DB) (now : Time) (authz masterPassword : String) :
    DB × Reply Unit :=
  match requireAccessToken svc now authz with
  | .error e => (db, .error e)
  | .ok claims =>
    if masterPassword = "" then (db, .error (badRequest "master_password zorunlu."))
    else
      match confirmPassword svc db now claims.subject masterPassword with
      | (db, .error e) => (db, .error e)
      | (db, .ok ()) =>
        if (fetchTOTPSecret db claims.subject).isNone then
          (db, .error ⟨409, errCodeConflict, "TOTP bu hesapta zaten devre dışı."⟩)
        else
          (((db.deleteTOTPSecret claims.subject).deleteRecoveryCodes claims.subject).audit
            ⟨claims.subject.text, "auth.totp_disabled", "user", claims.subject.text⟩, .ok ())

/-- `TOTPRegenerateBackup`. -/
def totpRegenerateBackup (svc : Service) (db : DB) (now : Time) (authz totpCode : String)
    (codes : List (Uuid × Bytes)) : Reply DB := do
  let claims ← requireAccessToken svc now authz
  validateTOTPCode totpCode
  let row ← Reply.orElse (fetchTOTPSecret db claims.subject)
    ⟨409, errCodeConflict, "TOTP bu hesapta etkin değil."⟩
  let secret ← openTOTPSecret svc claims.subject row
  Reply.require (verifyTOTP svc now secret totpCode = true) invalidTOTPCode
  let db := (db.deleteRecoveryCodes claims.subject).addRecoveryCodes claims.subject codes
  return db.audit ⟨claims.subject.text, "auth.totp_backup_regenerated", "user",
    claims.subject.text⟩

/-! ## What accepted requests did -/

section Accepted

variable {svc : Service} {db db' : DB} {now : Time} {authz code : String}
  {codes : List (Uuid × Bytes)}

/-- The row of the token's user is replaced by one that is not verified. -/
theorem totpInit_eq_ok {draw : TotpDraw} {resp : TotpInitResponse}
    (h : totpInit svc db now authz draw = .ok (db', resp)) :
    ∃ userID enc, requireTmpOrAccessToken svc now authz = .ok userID ∧
      (db.user? userID).isSome = true ∧
      db' = (db.putTOTPSecret userID enc draw.nonce).audit
        ⟨userID.text, "auth.totp_init", "user", userID.text⟩ := by
  simp only [totpInit, Reply.bind_eq_ok, Reply.orElse_eq_ok, Reply.pure_eq_ok] at h
  obtain ⟨userID, hauth, user, huser, _, _, nonce, hnonce, heq⟩ := h
  rw [extractNonce_sealBlob] at hnonce
  obtain rfl := Option.some.inj hnonce
  exact ⟨userID, _, hauth, by simp [huser], (Prod.mk.inj heq).1.symm⟩

/-- The code was right for the stored secret, and the user is active now. -/
theorem totpVerify_eq_ok (h : totpVerify svc db now authz code codes = .ok db') :
    ∃ userID row secret, requireTmpOrAccessToken svc now authz = .ok userID ∧
      validateTOTPCode code = .ok () ∧ db.totpSecret? userID = some row ∧
      openTOTPSecret svc userID row = .ok secret ∧ verifyTOTP svc now secret code = true ∧
      db' = (((db.verifyTOTPSecret now userID).updateUser userID
          fun u => { u with status := .active }).addRecoveryCodes userID codes).audit
        ⟨userID.text, "auth.totp_verified", "user", userID.text⟩ := by
  simp only [totpVerify, Reply.bind_eq_ok, Reply.orElse_eq_ok, Reply.require_eq_ok,
    Reply.pure_eq_ok] at h
  obtain ⟨userID, hauth, _, hcode, row, hrow, secret, hsecret, _, hverify, rfl⟩ := h
  exact ⟨userID, row, secret, hauth, hcode, hrow, hsecret, hverify, rfl⟩

theorem totpRegenerateBackup_eq_ok
    (h : totpRegenerateBackup svc db now authz code codes = .ok db') :
    ∃ claims row secret, requireAccessToken svc now authz = .ok claims ∧
      fetchTOTPSecret db claims.subject = some row ∧
      openTOTPSecret svc claims.subject row = .ok secret ∧
      verifyTOTP svc now secret code = true ∧
      db' = ((db.deleteRecoveryCodes claims.subject).addRecoveryCodes claims.subject codes).audit
        ⟨claims.subject.text, "auth.totp_backup_regenerated", "user", claims.subject.text⟩ := by
  simp only [totpRegenerateBackup, Reply.bind_eq_ok, Reply.orElse_eq_ok, Reply.require_eq_ok,
    Reply.pure_eq_ok] at h
  obtain ⟨claims, hauth, _, _, row, hrow, secret, hsecret, _, hverify, rfl⟩ := h
  exact ⟨claims, row, secret, hauth, hrow, hsecret, hverify, rfl⟩

end Accepted

end IronStock

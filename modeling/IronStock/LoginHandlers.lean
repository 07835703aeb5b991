import IronStock.Accounts

/-!
# Login

`auth_login.go`: the gates before the password, the password, the second
factor, and the session that is opened at the end.
-/
namespace IronStock

structure LoginRequest where
  username : String
  password : String
  totpCode : String
  rememberDevice : Bool

/-- What a login request brings besides its body. -/
structure LoginContext where
  client : ClientInfo
  clientIP : String
  /-- fingerprint of the certificate the proxy passed on -/
  clientCert : Option String
  deviceCookie : Option String

/-- What the handler and the defaults of the tables draw. -/
structure LoginDraw where
  sessionID : Uuid
  refreshToken : String
  deviceID : Uuid
  deviceToken : Bytes

structure LoginResponse where
  accessToken : String
  refreshToken : String
  userID : Uuid
  roles : List Role
  mustChangePassword : Bool
  mustSetupTOTP : Bool
  /-- the cookie that is set, if any -/
  deviceToken : Option Bytes
deriving DecidableEq

/-- `HashRefresh`. -/
def hashRefresh (svc : Service) (token : String) : Digest := svc.sha256 (bytesOf token)

/-- `hashDeviceToken`. -/
def hashDeviceToken (svc : Service) (rawToken : String) : Option Digest :=
  match svc.decodeBase64URL rawToken with
  | some raw => if raw.length = 32 then some (svc.sha256 raw) else none
  | none => none

/-- A refusal before the password is looked at: the entries after
`auth.login_fail`, and the answer. -/
structure LoginRefusal where
  actions : List String
  error : ApiError

def DB.recordRefusal (db : DB) (user : User) (r : LoginRefusal) : DB :=
  r.actions.foldl (fun db action => db.audit ⟨user.id.text, action, "user", user.id.text⟩)
    (db.recordLoginFail user.id.text)

/-- Client certificate, address, status and lockout, in this order. -/
def loginGate (svc : Service) (now : Time) (ctx : LoginContext) (user : User) :
    Option LoginRefusal :=
  if user.requiresClientCert = true ∧ ctx.clientCert = none then
    some ⟨["auth.client_cert_rejected"],
      ⟨401, errCodeClientCertRequired, "Bu hesap için istemci sertifikası gerekli."⟩⟩
  else if user.requiresClientCert = true ∧
      ctx.clientCert.any (svc.clientCertTrusted now · user.id) = false then
    some ⟨["auth.client_cert_rejected"],
      ⟨401, errCodeClientCertInvalid,
        "İstemci sertifikası geçersiz, süresi dolmuş veya iptal edilmiş."⟩⟩
  else
    match (if user.allowedIPCIDRs ≠ [] ∨ user.allowedCountries ≠ [] ∨ user.denyTorExit = true then
      svc.deniedIP ctx.clientIP user else none) with
    | some reason => some ⟨["auth." ++ reason], ⟨403, errCodeForbidden, "Erişim reddedildi."⟩⟩
    | none =>
      if user.status = .disabled then some ⟨[], ⟨403, errCodeAccountLocked, "Hesap devre dışı."⟩⟩
      else if user.isLocked now then
        some ⟨[], ⟨403, errCodeAccountLocked,
          "Hesap geçici olarak kilitli. Lütfen biraz sonra tekrar deneyin."⟩⟩
      else none

/-- The transaction at the end of a login, and the entry after it. -/
def openSession (svc : Service) (db : DB) (now : Time) (ctx : LoginContext) (draw : LoginDraw)
    (user : User) : Reply DB := do
  let db ← Reply.orElse (createSession (recordLoginSuccess db user.id) draw.sessionID user.id
    (hashRefresh svc draw.refreshToken) ctx.client (now + refreshTokenLifetime)).toOption
    (internalError "Oturum oluşturulamadı.")
  return db.audit ⟨user.id.text, "auth.login", "session", draw.sessionID.text⟩

theorem openSession_eq_ok {svc : Service} {db db' : DB} {now : Time} {ctx : LoginContext}
    {draw : LoginDraw} {user : User} (h : openSession svc db now ctx draw user = .ok db') :
    ∃ db₁, createSession (recordLoginSuccess db user.id) draw.sessionID user.id
        (hashRefresh svc draw.refreshToken) ctx.client (now + refreshTokenLifetime) = .ok db₁ ∧
      db' = db₁.audit ⟨user.id.text, "auth.login", "session", draw.sessionID.text⟩ := by
  simp only [openSession, Reply.bind_eq_ok, Reply.orElse_eq_ok, Reply.toOption_eq_some,
    Reply.pure_eq_ok] at h
  obtain ⟨db₁, hcreate, rfl⟩ := h
  exact ⟨db₁, hcreate, rfl⟩

def loginResponse (svc : Service) (db : DB) (now : Time) (draw : LoginDraw) (user : User) :
    LoginResponse where
  accessToken := svc.jwt.issueAccess now user.id draw.sessionID.text (fetchUserRoles db user.id)
  refreshToken := draw.refreshToken
  userID := user.id
  roles := fetchUserRoles db user.id
  mustChangePassword := user.mustChangePassword
  mustSetupTOTP := false
  deviceToken := none

/-- Opens the session and answers; a failed transaction changes nothing. -/
def finishLogin (svc : Service) (db : DB) (now : Time) (ctx : LoginContext) (draw : LoginDraw)
    (user : User) : DB × Reply LoginResponse :=
  match openSession svc db now ctx draw user with
  | .error e => (db, .error e)
  | .ok db' => (db', .ok (loginResponse svc db' now draw user))

/-- After a fresh code the device may be remembered; a failed INSERT is passed
over. -/
def rememberDevice (svc : Service) (now : Time) (draw : LoginDraw) (user : User)
    (r : DB × Reply LoginResponse) : DB × Reply LoginResponse :=
  match r.2 with
  | .error _ => r
  | .ok resp =>
    match createTrustedDevice r.1 now draw.deviceID user.id (svc.sha256 draw.deviceToken) with
    | .error _ => r
    | .ok db =>
      (db.audit ⟨user.id.text, "auth.trusted_device_created", "trusted_device",
        draw.deviceID.text⟩, .ok { resp with deviceToken := some draw.deviceToken })

def mfaRequired : ApiError := ⟨401, errCodeMFARequired, "Bu hesap için 2FA kodu gerekli."⟩

/-- The code, for a user with a verified secret and no trusted device. -/
def loginWithCode (svc : Service) (db : DB) (now : Time) (ctx : LoginContext) (draw : LoginDraw)
    (user : User) (row : TotpSecret) (req : LoginRequest) : DB × Reply LoginResponse :=
  if req.totpCode = "" then (db.recordLoginFail user.id.text, .error mfaRequired)
  else
    match openTOTPSecret svc user.id row with
    | .error e => (db, .error e)
    | .ok secret =>
      if verifyTOTP svc now secret req.totpCode then
        let r := finishLogin svc db now ctx draw user
        if req.rememberDevice then rememberDevice svc now draw user r else r
      else
        ((recordLoginFailure db now user.id).recordLoginFail user.id.text, .error invalidCreds)

/-- After the password: the second factor if the user has one, else the
session, with the request to set one up if the user must have one. -/
def loginFactors (svc : Service) (db : DB) (now : Time) (ctx : LoginContext) (draw : LoginDraw)
    (user : User) (req : LoginRequest) : DB × Reply LoginResponse :=
  match fetchTOTPSecret db user.id with
  | none =>
    let r := finishLogin svc db now ctx draw user
    let setup (resp : LoginResponse) : LoginResponse :=
      { resp with mustSetupTOTP := user.totpRequired && !user.mustChangePassword }
    (r.1, r.2.map setup)
  | some row =>
    let device := verifyTrustedDevice db now user.id (ctx.deviceCookie.bind (hashDeviceToken svc))
    match device.2 with
    | some d =>
      let r := finishLogin svc device.1 now ctx draw user
      match r.2 with
      | .error _ => r
      | .ok _ =>
        (r.1.audit ⟨user.id.text, "auth.trusted_device_used", "trusted_device", d.id.text⟩, r.2)
    | none => loginWithCode svc device.1 now ctx draw user row req

/-- `Login`. -/
def login (svc : Service) (db : DB) (now : Time) (ctx : LoginContext) (draw : LoginDraw)
    (req : LoginRequest) : DB × Reply LoginResponse :=
  if req.username = "" ∨ req.password = "" then
    (db, .error (badRequest "username ve master_password zorunlu."))
  else
    match fetchUserForLogin db (svc.toLower req.username) with
    | none => (db.recordLoginFail "", .error invalidCreds)
    | some user =>
      match loginGate svc now ctx user with
      | some r => (db.recordRefusal user r, .error r.error)
      | none =>
        match checkPassword svc user req.password with
        | .error e => (db, .error e)
        | .ok false =>
          ((recordLoginFailure db now user.id).recordLoginFail user.id.text, .error invalidCreds)
        | .ok true => loginFactors svc db now ctx draw user req

end IronStock

import IronStock.LoginHandlers
import IronStock.PasswordReset
import IronStock.ScimHandlers

/-!
# The other front doors

`auth_bootstrap.go`, `auth_webauthn.go` and `auth_sso.go`, as far as they open a
session: the bootstrap panel, a security key, a directory server, an identity
provider. What the libraries and the network answer are fields.
-/
namespace IronStock

/-! ## Restrictions by address -/

/-- `net.ParseCIDR` with `Contains`, and the two lookups of `geoip.go`. -/
structure GeoLibrary where
  /-- nothing if the range cannot be parsed -/
  inRange : (cidr clientIP : String) → Option Bool
  isTorExit : String → Bool
  /-- empty for a private address and after a failed lookup -/
  country : String → String
  equalFold : String → String → Bool

/-- A plain address as a range of one. -/
def normaliseCIDR (cidr : String) : String :=
  if '/' ∈ cidr.toList then cidr
  else if ':' ∈ cidr.toList then cidr ++ "/128"
  else cidr ++ "/32"

def GeoLibrary.inAnyRange (geo : GeoLibrary) (clientIP : String) (cidrs : List String) : Bool :=
  cidrs.any fun cidr =>
    trimSpace cidr ≠ "" && geo.inRange (normaliseCIDR (trimSpace cidr)) clientIP = some true

/-- `CheckIP`: the reason of a refusal. -/
def checkIP (geo : GeoLibrary) (clientIP : String) (user : User) : Option String :=
  if user.allowedIPCIDRs ≠ [] ∧ geo.inAnyRange clientIP user.allowedIPCIDRs = false then
    some "ip_denied"
  else if user.denyTorExit = true ∧ geo.isTorExit clientIP = true then some "tor_denied"
  else if user.allowedCountries ≠ [] ∧ geo.country clientIP ≠ "" ∧
      user.allowedCountries.any (geo.equalFold · (geo.country clientIP)) = false then
    some "country_denied"
  else none

/-! ## The session -/

/-- The INSERT of the session, and the entry after it. -/
def issueSession (svc : Service) (db : DB) (now : Time) (ctx : LoginContext) (draw : LoginDraw)
    (userID : Uuid) (action : String) : Reply DB := do
  let db ← Reply.orElse (createSession db draw.sessionID userID
    (hashRefresh svc draw.refreshToken) ctx.client (now + refreshTokenLifetime)).toOption
    (internalError "Oturum oluşturulamadı.")
  return db.audit ⟨userID.text, action, "session", draw.sessionID.text⟩

/-! ## Bootstrap panel -/

def accountDisabled : ApiError := ⟨403, errCodeAccountLocked, "Hesap devre dışı."⟩
def accountLocked : ApiError :=
  ⟨403, errCodeAccountLocked, "Hesap geçici olarak kilitli. Lütfen biraz sonra tekrar deneyin."⟩

/-- After the password: administrators only. -/
def bootstrapSession (svc : Service) (db : DB) (now : Time) (ctx : LoginContext)
    (draw : LoginDraw) (user : User) : DB × Reply LoginResponse :=
  if .admin ∉ fetchUserRoles db user.id then (db.recordLoginFail user.id.text, .error invalidCreds)
  else
    match issueSession svc (recordLoginSuccess db user.id) now ctx draw user.id
        "auth.bootstrap_login" with
    | .error e => (db, .error e)
    | .ok db' => (db', .ok (loginResponse svc db' now draw user))

/-- `BootstrapLogin`. -/
def bootstrapLogin (svc : Service) (enabled : Bool) (db : DB) (now : Time) (ctx : LoginContext)
    (draw : LoginDraw) (username password : String) : DB × Reply LoginResponse :=
  if enabled = false then
    (db, .error ⟨503, errCodeInternal,
      "Bootstrap paneli bu sunucuda etkin değil. ENVANTER_BOOTSTRAP_ENABLED=true yapın."⟩)
  else
    match fetchUserForLogin db (svc.toLower (trimSpace username)) with
    | none => (db.recordLoginFail "", .error invalidCreds)
    | some user =>
      if user.status = .disabled then (db.recordLoginFail user.id.text, .error accountDisabled)
      else if user.isLocked now then (db.recordLoginFail user.id.text, .error accountLocked)
      else
        match checkPassword svc user password with
        | .error e => (db, .error e)
        | .ok false =>
          ((recordLoginFailure db now user.id).recordLoginFail user.id.text, .error invalidCreds)
        | .ok true => bootstrapSession svc db now ctx draw user

/-! ## The tables of the other doors -/

/-- A row of `user_webauthn_credentials`; the rows are in the order of
`created_at`. -/
structure WebAuthnCredential where
  userId : Uuid
  credentialId : Bytes
  publicKey : Bytes
  signCount : Int
  transports : List String
  uvRequired : Bool
  lastUsedAt : Option Time

/-- An entry of `WAService.sessions`. -/
structure Challenge (δ : Type) where
  data : δ
  expiresAt : Time

/-- `sso_providers_provider_type_check` -/
inductive ProviderType
  | oidc
  | ldap
deriving DecidableEq

structure SSOProvider where
  id : Uuid
  name : String
  providerType : ProviderType
  enabled : Bool
  discoveryURL : Option String
  clientID : Option String
  clientSecretEnc : Bytes
  ldapURL : Option String
  ldapBindDN : Option String
  ldapBindPasswordEnc : Bytes
  ldapUserSearchBase : Option String
  ldapUserFilter : String
  ldapAttrUsername : String
  ldapAttrEmail : String
  ldapAttrDisplayName : String
  ldapUseStartTLS : Bool
  ldapSkipTLSVerify : Bool
  autoProvision : Bool
  defaultRole : String

/-- A row of `user_sso_identities`. -/
structure SSOIdentity where
  userId : Uuid
  providerId : Uuid
  externalID : String
  externalEmail : Option String
  lastLoginAt : Option Time
deriving DecidableEq

structure OIDCState where
  providerID : String
  pkceVerifier : String
  expiresAt : Time

/-- The tables, and the challenges and states that are waiting for an answer. -/
structure DoorState (δ : Type) where
  db : DB
  credentials : List WebAuthnCredential := []
  challenges : List (String × Challenge δ) := []
  providers : List SSOProvider := []
  identities : List SSOIdentity := []
  oidcRedis : List (String × OIDCState) := []
  oidcMemory : List (String × OIDCState) := []

/-- The database and the answer of a handler that writes nothing else. -/
def DoorState.withDB {δ α : Type} (s : DoorState δ) (r : DB × α) : DoorState δ × α :=
  ({ s with db := r.1 }, r.2)

/-! ## Security keys -/

structure GowaCredential where
  id : Bytes
  publicKey : Bytes
  signCount : Nat
  transport : List String
  userVerified : Bool

structure WAUser where
  id : String
  name : String
  credentials : List GowaCredential

/-- `ParseCredentialRequestResponseBody` and `ValidateLogin`. -/
structure WebAuthnLibrary (δ : Type) where
  validateLogin : WAUser → δ → (body : String) → Option GowaCredential

/-- A row as it is scanned; the counter goes into a `uint32`. -/
def WebAuthnCredential.scan (row : WebAuthnCredential) : Option GowaCredential :=
  if 0 ≤ row.signCount ∧ row.signCount < 4294967296 then
    some ⟨row.credentialId, row.publicKey, row.signCount.toNat, row.transports, row.uvRequired⟩
  else none

section WebAuthn

variable {δ : Type}

/-- `LoadUser`. -/
def DoorState.loadUser (s : DoorState δ) (userID : String) (user : User) : Option WAUser :=
  ((s.credentials.filter (·.userId = user.id)).mapM WebAuthnCredential.scan).map fun creds =>
    ⟨userID, user.username, creds⟩

/-- `takeSession`. -/
def DoorState.takeSession (s : DoorState δ) (now : Time) (key : String) : DoorState δ × Option δ :=
  ({ s with challenges := Table.deleteWhere (·.1 = key) s.challenges },
    ((s.challenges.find? (·.1 = key)).filter fun e => now ≤ e.2.expiresAt).map (·.2.data))

/-- `UpdateSignCount`. -/
def DoorState.updateSignCount (s : DoorState δ) (now : Time) (cred : GowaCredential) :
    DoorState δ :=
  let update (row : WebAuthnCredential) : WebAuthnCredential :=
    { row with signCount := cred.signCount, lastUsedAt := some now }
  { s with credentials := Table.updateWhere (·.credentialId = cred.id) update s.credentials }

/-- `fetchUsernameByID`. -/
def fetchUsernameByID (db : DB) (userID : String) : Option User :=
  ((castUuid userID).bind db.user?).filter (·.status ≠ .disabled)

structure WebAuthnFinishRequest where
  userID : String
  sessionKey : String
  credential : String

def badAssertion : ApiError := ⟨401, errCodeInvalidCreds, "Geçersiz kimlik bilgileri."⟩

/-- After the assertion: the counter, and the session. -/
def webAuthnSession (svc : Service) (s : DoorState δ) (now : Time) (ctx : LoginContext)
    (draw : LoginDraw) (user : User) (cred : GowaCredential) : DoorState δ × Reply LoginResponse :=
  let s := s.updateSignCount now cred
  match issueSession svc s.db now ctx draw user.id "auth.webauthn_login" with
  | .error e => (s, .error e)
  | .ok db =>
    ({ s with db }, .ok { loginResponse svc db now draw user with mustChangePassword := false })

/-- `WebAuthnLoginFinish`. -/
def webAuthnLoginFinish (svc : Service) (webAuthn : Option (WebAuthnLibrary δ)) (s : DoorState δ)
    (now : Time) (ctx : LoginContext) (draw : LoginDraw) (req : WebAuthnFinishRequest) :
    DoorState δ × Reply LoginResponse :=
  match webAuthn with
  | none => (s, .error ⟨501, "not_configured", "WebAuthn is not configured on this server."⟩)
  | some library =>
    if req.userID = "" ∨ req.sessionKey = "" then
      (s, .error (badRequest "user_id, session_key ve credential gerekli."))
    else
      match fetchUsernameByID s.db req.userID with
      | none => (s, .error badAssertion)
      | some user =>
        match s.loadUser req.userID user with
        | none => (s, .error badAssertion)
        | some waUser =>
          if waUser.credentials = [] then (s, .error badAssertion)
          else
            let taken := s.takeSession now req.sessionKey
            match taken.2.bind (library.validateLogin waUser · req.credential) with
            | none =>
              ({ taken.1 with db := s.db.audit ⟨req.userID, "auth.webauthn_failed", "", ""⟩ },
                .error badAssertion)
            | some cred => webAuthnSession svc taken.1 now ctx draw user cred

end WebAuthn

end IronStock

import IronStock.FrontDoors

/-!
# Single sign-on

`auth_sso.go`: a directory server or an identity provider names an external
user, the row of `user_sso_identities` names the account, and a session is
opened for it.
-/
namespace IronStock

section SSO

variable {δ : Type}

/-! ## Providers and identities -/

/-- `fetchSSOProvider`, of the given type. -/
def DoorState.provider (s : DoorState δ) (providerID : String) (providerType : ProviderType) :
    Option SSOProvider :=
  ((castUuid providerID).bind fun id => s.providers.find? fun p => p.id = id ∧ p.enabled).filter
    (·.providerType = providerType)

/-- A stored secret of a provider; an empty one is none. -/
def openProviderSecret (svc : Service) (p : SSOProvider) (column : String) (secretEnc : Bytes) :
    Option Bytes :=
  if secretEnc = [] then some []
  else svc.master.openBlob secretEnc (makeAAD "sso_providers" p.id.text column)

def SSOIdentity.isFor (providerID : Uuid) (externalID : String) (row : SSOIdentity) : Bool :=
  row.providerId = providerID ∧ row.externalID = externalID

def DoorState.identity? (s : DoorState δ) (p : SSOProvider) (externalID : String) :
    Option SSOIdentity :=
  s.identities.find? (·.isFor p.id externalID)

/-- What the server draws for a new account. -/
structure SSODraw where
  newID : Uuid
  usernameSuffix : String
  placeholder : Bytes

/-- The columns the INSERT of a new account names. -/
def ssoUserColumns : List String :=
  ["username", "email", "display_name", "password_hash", "argon2_params", "status",
    "must_change_password", "totp_required"]

/-- The row of a new account. -/
def ssoUser (svc : Service) (db : DB) (draw : SSODraw) (email : String) : User :=
  let username := svc.toLower (String.ofList (email.toList.takeWhile (· ≠ '@')))
  let taken := db.users.any (·.username = username)
  { id := draw.newID
    username := if taken then username ++ "_" ++ draw.usernameSuffix else username
    email := email
    passwordHash := draw.placeholder
    argon2Params := "\x7b\"placeholder\":true\x7d"
    status := .active
    mustChangePassword := false
    totpRequired := false }

/-- The INSERT: no migration has made `users.display_name`, so the display name
has nowhere to go. -/
def insertSSOUser (db : DB) (user : User) : Except String DB :=
  match (SqlTable.users.named ssoUserColumns).find? (schema · = false) with
  | some column =>
    .error ("ERROR: column \"" ++ column.2 ++
      "\" of relation \"users\" does not exist (SQLSTATE 42703)")
  | none => (insertUser db user).mapError (·.sqlState)

/-- `findOrProvisionSSOUser`. -/
def findOrProvisionSSOUser (svc : Service) (s : DoorState δ) (now : Time) (draw : SSODraw)
    (p : SSOProvider) (externalID email : String) : DoorState δ × Except String Uuid :=
  match s.identity? p externalID with
  | some row =>
    let touch (r : SSOIdentity) : SSOIdentity :=
      { r with lastLoginAt := some now, externalEmail := some email }
    ({ s with identities := Table.updateWhere (·.isFor p.id externalID) touch s.identities },
      .ok row.userId)
  | none =>
    if p.autoProvision = false then
      (s, .error "user not found and auto-provision is disabled for this provider")
    else if email = "" then
      (s, .error
        "email required for auto-provisioning (provider did not return email attribute)")
    else
      match insertSSOUser s.db (ssoUser svc s.db draw email) with
      | .error e => (s, .error ("auto-provision user: " ++ e))
      | .ok db =>
        let db := match Role.ofName p.defaultRole with
          | some role => db.addUserRole ⟨draw.newID, role⟩
          | none => db
        let row : SSOIdentity := ⟨draw.newID, p.id, externalID, some email, some now⟩
        ({ s with db := db, identities := s.identities ++ [row] }, .ok draw.newID)

/-! ## The session -/

/-- `issueSessionForSSO`. -/
def issueSessionForSSO (svc : Service) (db : DB) (now : Time) (ctx : LoginContext)
    (draw : LoginDraw) (userID : Uuid) : DB × Reply LoginResponse :=
  match db.user? userID with
  | none => (db, .error (internalError "Kullanıcı bilgisi alınamadı."))
  | some user =>
    if user.status = .disabled then (db, .error accountDisabled)
    else
      match issueSession svc (recordLoginSuccess db userID) now ctx draw userID "auth.login" with
      | .error e => (db, .error e)
      | .ok db' => (db', .ok (loginResponse svc db' now draw user))

/-! ## Directory servers -/

structure LdapEntry where
  dn : String
  attributes : List (String × List String)

/-- `GetAttributeValue`. -/
def LdapEntry.getAttributeValue (entry : LdapEntry) (name : String) : String :=
  ((entry.attributes.find? (·.1 = name)).bind (·.2.head?)).getD ""

/-- The directory at an address: which requests succeed, and what a search
finds. -/
structure LdapLibrary where
  dial : (url : String) → (skipTLSVerify : Bool) → Bool
  startTLS : (url : String) → (skipTLSVerify : Bool) → Bool
  bind : (url dn : String) → (password : Bytes) → Bool
  search : (url bindDN base filter : String) → (attributes : List String) →
    Option (List LdapEntry)
  escapeFilter : String → String

structure LdapLoginRequest where
  providerID : String
  username : String
  password : String

def badGateway (message : String) : ApiError := ⟨502, errCodeInternal, message⟩

/-- The service account, the search, and the password of the entry it finds. -/
def ldapAuthenticate (svc : Service) (ldap : LdapLibrary) (p : SSOProvider)
    (username password : String) : Reply LdapEntry := do
  let (url, base) ← Reply.orElse (p.ldapURL.bind fun url => p.ldapUserSearchBase.map (url, ·))
    (internalError "LDAP yapılandırması eksik (ldap_url veya search_base).")
  let bindPassword ← Reply.orElse
    (openProviderSecret svc p "ldap_bind_password_enc" p.ldapBindPasswordEnc)
    (internalError "LDAP servis şifresi çözülemedi.")
  Reply.require (ldap.dial url p.ldapSkipTLSVerify = true)
    (badGateway "LDAP sunucusuna bağlanılamadı.")
  Reply.require (p.ldapUseStartTLS = true → ldap.startTLS url p.ldapSkipTLSVerify = true)
    (badGateway "StartTLS başlatılamadı.")
  let bindDN := p.ldapBindDN.getD ""
  Reply.require (bindDN ≠ "" → ldap.bind url bindDN bindPassword = true)
    (badGateway "LDAP servis hesabı bağlanamadı.")
  let filter := p.ldapUserFilter.replace "\x7busername\x7d" (ldap.escapeFilter username)
  let entries ← Reply.orElse (ldap.search url bindDN base filter
    ["dn", p.ldapAttrUsername, p.ldapAttrEmail, p.ldapAttrDisplayName]) invalidCreds
  let entry ← Reply.orElse entries.head? invalidCreds
  Reply.require (ldap.bind url entry.dn (bytesOf password) = true) invalidCreds
  return entry

/-- The provider and the entry of a request that is authenticated. -/
def ldapVerify (svc : Service) (ldap : LdapLibrary) (s : DoorState δ) (req : LdapLoginRequest) :
    Reply (SSOProvider × LdapEntry) := do
  Reply.require (req.providerID ≠ "" ∧ req.username ≠ "" ∧ req.password ≠ "")
    (badRequest "provider_id, username ve password zorunlu.")
  let p ← Reply.orElse (s.provider req.providerID .ldap)
    ⟨404, errCodeNotFound, "LDAP sağlayıcısı bulunamadı."⟩
  let entry ← ldapAuthenticate svc ldap p req.username req.password
  return (p, entry)

def LdapLoginRequest.externalID (req : LdapLoginRequest) (p : SSOProvider) (entry : LdapEntry) :
    String :=
  let externalID := entry.getAttributeValue p.ldapAttrUsername
  if externalID = "" then req.username else externalID

/-- `LDAPLogin`; a failed search and a wrong password are recorded. -/
def ldapLogin (svc : Service) (ldap : LdapLibrary) (s : DoorState δ) (now : Time)
    (ctx : LoginContext) (draw : LoginDraw) (sso : SSODraw) (req : LdapLoginRequest) :
    DoorState δ × Reply LoginResponse :=
  match ldapVerify svc ldap s req with
  | .error e =>
    ({ s with db := if e = invalidCreds then s.db.recordLoginFail "" else s.db }, .error e)
  | .ok (p, entry) =>
    match findOrProvisionSSOUser svc s now sso p (req.externalID p entry)
        (entry.getAttributeValue p.ldapAttrEmail) with
    | (s, .error e) =>
      (s, .error ⟨403, errCodeForbidden,
        "Kullanıcı bulunamadı veya otomatik oluşturulamadı: " ++ e⟩)
    | (s, .ok userID) => s.withDB (issueSessionForSSO svc s.db now ctx draw userID)

/-! ## Identity providers -/

structure OIDCDiscovery where
  authorizationEndpoint : String
  tokenEndpoint : String
  jwksURI : String
  issuer : String

structure IDTokenClaims where
  sub : String
  email : String
  name : String
  preferredUsername : String

/-- What the provider answers to the three requests of the callback. -/
structure OIDCClient where
  /-- `fetchOIDCDiscovery` -/
  fetchDiscovery : (discoveryURL : String) → Except String OIDCDiscovery
  /-- `exchangeOIDCCode` -/
  exchangeCode : (tokenEndpoint clientID : String) → (clientSecret : Bytes) →
    (code redirectURI codeVerifier : String) → Except String String
  /-- `parseAndVerifyIDToken` -/
  verifyIDToken : (idToken : String) → OIDCDiscovery → (clientID : String) →
    Except String IDTokenClaims

/-- A request to the callback, with the address the browser used and whether
Redis answers. -/
structure OIDCCallbackRequest where
  providerID : String
  state : String
  code : String
  error : String
  frontendURL : String
  redisUp : Bool

/-- `http.Error`. -/
structure PlainError where
  status : Nat
  text : String

/-- The fragment of the address the browser is sent to. -/
structure OIDCRedirect where
  frontendURL : String
  accessToken : String
  refreshToken : String
  userID : Uuid
  username : String
  roles : List Role

def takeOIDCState (now : Time) (state : String) (entries : List (String × OIDCState)) :
    Option OIDCState :=
  ((entries.find? (·.1 = state)).map (·.2)).filter (now ≤ ·.expiresAt)

/-- `consumeOIDCState`: the memory is asked only about what Redis does not have. -/
def DoorState.consumeOIDCState (s : DoorState δ) (now : Time) (redisUp : Bool) (state : String) :
    DoorState δ × Option OIDCState :=
  if redisUp && s.oidcRedis.any (·.1 = state) then
    ({ s with oidcRedis := Table.deleteWhere (·.1 = state) s.oidcRedis },
      takeOIDCState now state s.oidcRedis)
  else
    ({ s with oidcMemory := Table.deleteWhere (·.1 = state) s.oidcMemory },
      takeOIDCState now state s.oidcMemory)

def PlainError.check (o : Option α) (status : Nat) (text : String) : Except PlainError α :=
  match o with
  | some a => .ok a
  | none => .error ⟨status, text⟩

theorem PlainError.check_eq_ok {o : Option α} {status : Nat} {text : String} {a : α} :
    PlainError.check o status text = .ok a ↔ o = some a := by
  cases o <;> simp [PlainError.check]

def PlainError.badGateway (text : String) (e : Except String α) : Except PlainError α :=
  e.mapError fun cause => ⟨502, text ++ cause⟩

/-- The provider and the claims of a callback that is authenticated. -/
def oidcVerify (svc : Service) (oidc : OIDCClient) (s : DoorState δ) (entry : Option OIDCState)
    (req : OIDCCallbackRequest) : Except PlainError (SSOProvider × IDTokenClaims) := do
  let entry ← PlainError.check (entry.filter (·.providerID = req.providerID)) 400
    "Geçersiz veya süresi dolmuş SSO oturumu. Lütfen tekrar deneyin."
  PlainError.check (if req.code = "" then none else some ()) 400
    ("Yetkilendirme kodu eksik: " ++ req.error)
  let p ← PlainError.check (s.provider req.providerID .oidc) 404 "OIDC sağlayıcısı bulunamadı"
  let (discoveryURL, clientID) ← PlainError.check
    (p.discoveryURL.bind fun url => p.clientID.map (url, ·)) 500 "OIDC yapılandırması eksik"
  let clientSecret ← PlainError.check
    (openProviderSecret svc p "client_secret_enc" p.clientSecretEnc) 500
    "Client secret çözülemedi"
  let disc ← PlainError.badGateway "OIDC discovery başarısız: " (oidc.fetchDiscovery discoveryURL)
  let redirectURI := req.frontendURL ++ "/api/v1/auth/sso/" ++ req.providerID ++ "/callback"
  let idToken ← PlainError.badGateway "Token exchange başarısız: "
    (oidc.exchangeCode disc.tokenEndpoint clientID clientSecret req.code redirectURI
      entry.pkceVerifier)
  let claims ← PlainError.badGateway "ID token doğrulanamadı: "
    (oidc.verifyIDToken idToken disc clientID)
  return (p, claims)

def plainSessionError : PlainError := ⟨500, "Oturum oluşturulamadı"⟩

/-- The session at the end of the callback, its steps those of
`issueSessionForSSO` under other answers. -/
def oidcSession (svc : Service) (db : DB) (now : Time) (ctx : LoginContext) (draw : LoginDraw)
    (userID : Uuid) (frontendURL : String) : DB × Except PlainError OIDCRedirect :=
  match db.user? userID with
  | none => (db, .error ⟨403, "Hesap erişilemez"⟩)
  | some user =>
    if user.status = .disabled then (db, .error ⟨403, "Hesap erişilemez"⟩)
    else
      match issueSession svc (recordLoginSuccess db userID) now ctx draw userID "auth.login" with
      | .error _ => (db, .error plainSessionError)
      | .ok db' =>
        let resp := loginResponse svc db' now draw user
        (db', .ok ⟨frontendURL, resp.accessToken, resp.refreshToken, userID, user.username,
          resp.roles⟩)

/-- `OIDCCallback`. -/
def oidcCallback (svc : Service) (oidc : OIDCClient) (s : DoorState δ) (now : Time)
    (ctx : LoginContext) (draw : LoginDraw) (sso : SSODraw) (req : OIDCCallbackRequest) :
    DoorState δ × Except PlainError OIDCRedirect :=
  let (s, entry) := s.consumeOIDCState now req.redisUp req.state
  match oidcVerify svc oidc s entry req with
  | .error e => (s, .error e)
  | .ok (p, claims) =>
    match findOrProvisionSSOUser svc s now sso p claims.sub claims.email with
    | (s, .error e) => (s, .error ⟨403, "Kullanıcı oluşturulamadı: " ++ e⟩)
    | (s, .ok userID) =>
      s.withDB (oidcSession svc s.db now ctx draw userID req.frontendURL)

end SSO

end IronStock

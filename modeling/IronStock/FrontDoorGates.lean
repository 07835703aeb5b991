import IronStock.Authority
import IronStock.SSOHandlers

/-!
# The gates of the front doors

`Login` looks at the client certificate, the address, the status and the
lockout before anything else. The other doors leave some of these out.
-/
namespace IronStock

/-! ## The gates of Login -/

section Gates

variable (svc : Service) (now : Time) (ctx : LoginContext)

def User.certificateMet (user : User) : Prop :=
  user.requiresClientCert = true →
    ctx.clientCert.any (svc.clientCertTrusted now · user.id) = true

def User.isRestricted (user : User) : Prop :=
  user.allowedIPCIDRs ≠ [] ∨ user.allowedCountries ≠ [] ∨ user.denyTorExit = true

def User.addressAllowed (user : User) : Prop :=
  user.isRestricted → svc.deniedIP ctx.clientIP user = none

variable {svc now ctx} {user : User}

/-- A check that refuses, and the checks after it. -/
theorem refusal_eq_none {α : Type} {p : Prop} [Decidable p] {refusal : α} {rest : Option α} :
    (if p then some refusal else rest) = none ↔ ¬ p ∧ rest = none := by
  by_cases hp : p <;> simp [hp]

theorem loginGate_eq_none : loginGate svc now ctx user = none ↔
    user.certificateMet svc now ctx ∧ user.addressAllowed svc ctx ∧ user.status ≠ .disabled ∧
      user.isLocked now = false := by
  have haddress : user.addressAllowed svc ctx ↔
      (if user.allowedIPCIDRs ≠ [] ∨ user.allowedCountries ≠ [] ∨ user.denyTorExit = true then
        svc.deniedIP ctx.clientIP user else none) = none := by
    unfold User.addressAllowed User.isRestricted
    split <;> simp_all
  have hcert : user.certificateMet svc now ctx ↔
      ¬ (user.requiresClientCert = true ∧ ctx.clientCert = none) ∧
        ¬ (user.requiresClientCert = true ∧
          ctx.clientCert.any (svc.clientCertTrusted now · user.id) = false) := by
    unfold User.certificateMet
    cases user.requiresClientCert <;> cases ctx.clientCert <;> simp
  rw [haddress, hcert, loginGate, refusal_eq_none, refusal_eq_none, ← and_assoc]
  refine and_congr_right fun _ => ?_
  split
  · next reason hreason => simp [hreason]
  · next hallowed =>
    rw [refusal_eq_none, refusal_eq_none, hallowed]
    simp

end Gates

/-! ## When a session can be stored -/

section Sessions

variable {svc : Service} {db db' : DB} {now : Time} {ctx : LoginContext} {draw : LoginDraw}

/-- The account is there, and the id and the token drawn are new. -/
structure SessionStorable (svc : Service) (db : DB) (draw : LoginDraw) (userID : Uuid) : Prop where
  account : (db.user? userID).isSome = true
  id : (db.session? draw.sessionID).isSome = false
  token : (lookupSessionByRefreshHash db (hashRefresh svc draw.refreshToken)).isSome = false

/-- It depends on the accounts and the sessions only. -/
theorem SessionStorable.congr {userID : Uuid}
    (husers : (db'.user? userID).isSome = (db.user? userID).isSome)
    (hsessions : db'.sessions = db.sessions) :
    SessionStorable svc db' draw userID ↔ SessionStorable svc db draw userID := by
  have hid : db'.session? = db.session? := by
    unfold DB.session?
    rw [hsessions]
  have htoken : lookupSessionByRefreshHash db' = lookupSessionByRefreshHash db := by
    unfold lookupSessionByRefreshHash
    rw [hsessions]
  constructor
  · rintro ⟨h₁, h₂, h₃⟩
    exact ⟨husers ▸ h₁, hid ▸ h₂, htoken ▸ h₃⟩
  · rintro ⟨h₁, h₂, h₃⟩
    exact ⟨husers ▸ h₁, hid ▸ h₂, htoken ▸ h₃⟩

theorem createSession_isOk {userID : Uuid} :
    (∃ db', createSession db draw.sessionID userID (hashRefresh svc draw.refreshToken) ctx.client
      (now + refreshTokenLifetime) = .ok db') ↔ SessionStorable svc db draw userID := by
  constructor
  · rintro ⟨db', h⟩
    obtain ⟨hid, htoken, haccount, _⟩ := createSession_eq_ok.mp h
    exact ⟨haccount, hid, htoken⟩
  · rintro ⟨haccount, hid, htoken⟩
    exact ⟨_, createSession_eq_ok.mpr ⟨hid, htoken, haccount, rfl⟩⟩

theorem recordLoginSuccess_storable {userID user : Uuid} :
    SessionStorable svc (recordLoginSuccess db user) draw userID ↔
      SessionStorable svc db draw userID := by
  refine SessionStorable.congr ?_ rfl
  rw [recordLoginSuccess, user?_updateUser db user User.loginSucceeded (fun _ => rfl),
    Option.isSome_map]

theorem issueSession_isOk {userID : Uuid} {action : String} :
    (∃ db', issueSession svc db now ctx draw userID action = .ok db') ↔
      SessionStorable svc db draw userID := by
  rw [← @createSession_isOk svc db now ctx draw userID]
  simp only [issueSession, Reply.bind_eq_ok, Reply.orElse_eq_ok, Reply.toOption_eq_some,
    Reply.pure_eq_ok]
  constructor
  · rintro ⟨_, db₁, hcreate, _⟩
    exact ⟨db₁, hcreate⟩
  · rintro ⟨db₁, hcreate⟩
    exact ⟨_, db₁, hcreate, rfl⟩

/-- `Login` stores the session as the other doors do. -/
theorem openSession_eq_issueSession {user : User} : openSession svc db now ctx draw user =
    issueSession svc (recordLoginSuccess db user.id) now ctx draw user.id "auth.login" := rfl

theorem finishLogin_isOk {user : User} :
    (∃ resp, (finishLogin svc db now ctx draw user).2 = .ok resp) ↔
      SessionStorable svc db draw user.id := by
  rw [← recordLoginSuccess_storable, ← @issueSession_isOk svc _ now ctx draw user.id "auth.login",
    ← openSession_eq_issueSession]
  unfold finishLogin
  cases openSession svc db now ctx draw user <;> simp

end Sessions

/-! ## A login with the right password and second factor -/

section CorrectLogin

variable {svc : Service} {db : DB} {now : Time} {ctx : LoginContext} {draw : LoginDraw}
  {user : User} {req : LoginRequest}

/-- The request names the user and has the password and, where there is a
verified secret, a code; the session can be stored. -/
structure CorrectLogin (svc : Service) (db : DB) (now : Time) (draw : LoginDraw) (user : User)
    (req : LoginRequest) : Prop where
  filled : ¬ (req.username = "" ∨ req.password = "")
  account : fetchUserForLogin db (svc.toLower req.username) = some user
  password : checkPassword svc user req.password = .ok true
  code : ∀ row, fetchTOTPSecret db user.id = some row → req.totpCode ≠ "" ∧
    ∃ secret, openTOTPSecret svc user.id row = .ok secret ∧
      verifyTOTP svc now secret req.totpCode = true
  storable : SessionStorable svc db draw user.id

theorem rememberDevice_isOk {r : DB × Reply LoginResponse} (h : ∃ resp, r.2 = .ok resp) :
    ∃ resp, (rememberDevice svc now draw user r).2 = .ok resp := by
  obtain ⟨resp, hresp⟩ := h
  unfold rememberDevice
  rw [hresp]
  simp only
  split
  · exact ⟨resp, hresp⟩
  · exact ⟨_, rfl⟩

theorem loginFactors_isOk (h : CorrectLogin svc db now draw user req) :
    ∃ resp, (loginFactors svc db now ctx draw user req).2 = .ok resp := by
  unfold loginFactors
  split
  · obtain ⟨resp, hresp⟩ := (@finishLogin_isOk svc db now ctx draw user).mpr h.storable
    simp only [hresp]
    exact ⟨_, rfl⟩
  · next row hrow =>
    obtain ⟨_, hsessions, husers⟩ := @verifyTrustedDevice_kept db now
      (ctx.deviceCookie.bind (hashDeviceToken svc)) user.id
    have hstorable : SessionStorable svc (verifyTrustedDevice db now user.id
        (ctx.deviceCookie.bind (hashDeviceToken svc))).1 draw user.id :=
      (SessionStorable.congr (by rw [DB.user?, husers, DB.user?]) hsessions).mpr h.storable
    have hfinish := (@finishLogin_isOk svc _ now ctx draw user).mpr hstorable
    obtain ⟨hcode, secret, hsecret, hverify⟩ := h.code row hrow
    simp only
    split
    · obtain ⟨resp, hresp⟩ := hfinish
      simp only [hresp]
      exact ⟨resp, rfl⟩
    · simp only [loginWithCode, if_neg hcode, hsecret, hverify, if_true]
      split
      · exact rememberDevice_isOk hfinish
      · exact hfinish

/-- `Login` refuses a correct request exactly where one of its gates does, and
then with the error of that gate. -/
theorem login_of_correct (h : CorrectLogin svc db now draw user req) :
    ((∃ resp, (login svc db now ctx draw req).2 = .ok resp) ↔ loginGate svc now ctx user = none) ∧
      ∀ r, loginGate svc now ctx user = some r →
        (login svc db now ctx draw req).2 = .error r.error := by
  unfold login
  simp only [if_neg h.filled, h.account]
  cases hgate : loginGate svc now ctx user with
  | some r =>
    refine ⟨iff_of_false (fun ⟨_, hok⟩ => by cases hok) (by simp), fun r' hr' => ?_⟩
    rw [Option.some.inj hr']
  | none =>
    simp only [h.password]
    exact ⟨iff_of_true (loginFactors_isOk h) trivial, fun r hr => by cases hr⟩

end CorrectLogin

/-! ## The doors -/

/-- The configuration of the server and what lies behind it. -/
structure DoorService (δ : Type) where
  svc : Service
  bootstrapEnabled : Bool
  webAuthn : Option (WebAuthnLibrary δ)
  ldap : LdapLibrary
  oidc : OIDCClient

inductive FrontDoor
  | bootstrapLogin (username password : String)
  | webAuthnLoginFinish (req : WebAuthnFinishRequest)
  | ldapLogin (sso : SSODraw) (req : LdapLoginRequest)
  | oidcCallback (sso : SSODraw) (req : OIDCCallbackRequest)

namespace FrontDoor

variable {δ : Type} (c : DoorService δ) (s : DoorState δ) (now : Time)

/-- The user a session is issued to. -/
def opens (ctx : LoginContext) (draw : LoginDraw) : FrontDoor → Option Uuid
  | bootstrapLogin username password =>
    (IronStock.bootstrapLogin c.svc c.bootstrapEnabled s.db now ctx draw username
      password).2.toOption.map LoginResponse.userID
  | webAuthnLoginFinish req =>
    (IronStock.webAuthnLoginFinish c.svc c.webAuthn s now ctx draw req).2.toOption.map
      LoginResponse.userID
  | ldapLogin sso req =>
    (IronStock.ldapLogin c.svc c.ldap s now ctx draw sso req).2.toOption.map LoginResponse.userID
  | oidcCallback sso req =>
    (IronStock.oidcCallback c.svc c.oidc s now ctx draw sso req).2.toOption.map OIDCRedirect.userID

/-- The account of an external user. -/
def externalAccount (p : SSOProvider) (externalID : String) : Option User :=
  (s.identity? p externalID).bind fun row => s.db.user? row.userId

/-- The state a callback brings back. -/
def broughtBack (req : OIDCCallbackRequest) : Option OIDCState :=
  (s.consumeOIDCState now req.redisUp req.state).2

/-- The account a request asks for: by name, by id, or as the external user the
directory or the provider has authenticated. -/
def account : FrontDoor → Option User
  | bootstrapLogin username _ => fetchUserForLogin s.db (c.svc.toLower (trimSpace username))
  | webAuthnLoginFinish req => (castUuid req.userID).bind s.db.user?
  | ldapLogin _ req =>
    (ldapVerify c.svc c.ldap s req).toOption.bind fun r =>
      externalAccount s r.1 (req.externalID r.1 r.2)
  | oidcCallback _ req =>
    (oidcVerify c.svc c.oidc s (broughtBack s now req) req).toOption.bind fun r =>
      externalAccount s r.1 r.2.sub

/-- The key of this user answered the challenge. -/
def AssertionHolds (user : User) (req : WebAuthnFinishRequest) : Prop :=
  ∃ library waUser data cred, c.webAuthn = some library ∧ req.userID ≠ "" ∧ req.sessionKey ≠ "" ∧
    s.loadUser req.userID user = some waUser ∧ waUser.credentials ≠ [] ∧
    (s.takeSession now req.sessionKey).2 = some data ∧
    library.validateLogin waUser data req.credential = some cred

/-- Whether the door looks at `locked_until`. -/
def checksLockout : FrontDoor → Bool
  | bootstrapLogin _ _ => true
  | _ => false

/-- The door's own proof that this user is asking. -/
def Proves (user : User) : FrontDoor → Prop
  | bootstrapLogin _ password =>
    c.bootstrapEnabled = true ∧ checkPassword c.svc user password = .ok true ∧
      .admin ∈ fetchUserRoles s.db user.id
  | webAuthnLoginFinish req => AssertionHolds c s now user req
  | ldapLogin _ _ | oidcCallback _ _ => True

/-- The door lets this user in. -/
structure Admits (draw : LoginDraw) (door : FrontDoor) (user : User) : Prop where
  account : door.account c s now = some user
  proof : door.Proves c s now user
  enabled : user.status ≠ .disabled
  unlocked : door.checksLockout = true → user.isLocked now = false
  storable : SessionStorable c.svc s.db draw user.id

end FrontDoor

/-! ## Whom each session is for -/

section DoorSessions

variable {δ : Type} {svc : Service} {db : DB} {s : DoorState δ} {now : Time} {ctx : LoginContext}
  {draw : LoginDraw} {user : User} {userID : Uuid}

theorem bootstrapSession_opens :
    (∃ resp, (bootstrapSession svc db now ctx draw user).2 = .ok resp ∧ resp.userID = userID) ↔
      .admin ∈ fetchUserRoles db user.id ∧ SessionStorable svc db draw user.id ∧
        user.id = userID := by
  unfold bootstrapSession
  by_cases hadmin : .admin ∈ fetchUserRoles db user.id
  · rw [if_neg (not_not.mpr hadmin), ← @recordLoginSuccess_storable svc db draw user.id user.id,
      ← @issueSession_isOk svc _ now ctx draw user.id "auth.bootstrap_login"]
    cases issueSession svc (recordLoginSuccess db user.id) now ctx draw user.id
        "auth.bootstrap_login" <;> simp [loginResponse, hadmin]
  · simp [hadmin]

theorem webAuthnSession_opens {cred : GowaCredential} :
    (∃ resp, (webAuthnSession svc s now ctx draw user cred).2 = .ok resp ∧ resp.userID = userID) ↔
      SessionStorable svc s.db draw user.id ∧ user.id = userID := by
  have hdb : (s.updateSignCount now cred).db = s.db := rfl
  unfold webAuthnSession
  rw [← @issueSession_isOk svc s.db now ctx draw user.id "auth.webauthn_login"]
  simp only [hdb]
  cases issueSession svc s.db now ctx draw user.id "auth.webauthn_login" <;> simp [loginResponse]

theorem issueSessionForSSO_opens {owner : Uuid} :
    (∃ resp, (issueSessionForSSO svc db now ctx draw owner).2 = .ok resp ∧ resp.userID = userID) ↔
      ∃ user, db.user? owner = some user ∧ user.status ≠ .disabled ∧
        SessionStorable svc db draw user.id ∧ user.id = userID := by
  unfold issueSessionForSSO
  cases huser : db.user? owner with
  | none => simp
  | some user =>
    obtain rfl := (Table.lookup_eq_some huser).2
    by_cases hstatus : user.status = .disabled
    · simp [hstatus]
    · simp only [Option.some.injEq, exists_eq_left', ne_eq, hstatus, if_false,
        not_false_eq_true, true_and]
      rw [← @recordLoginSuccess_storable svc db draw user.id user.id,
        ← @issueSession_isOk svc _ now ctx draw user.id "auth.login"]
      cases issueSession svc (recordLoginSuccess db user.id) now ctx draw user.id "auth.login" <;>
        simp [loginResponse]

/-- The callback opens the session `issueSessionForSSO` would open. -/
theorem oidcSession_opens {owner : Uuid} {frontendURL : String} :
    (∃ r, (oidcSession svc db now ctx draw owner frontendURL).2 = .ok r ∧ r.userID = userID) ↔
      ∃ resp, (issueSessionForSSO svc db now ctx draw owner).2 = .ok resp ∧
        resp.userID = userID := by
  unfold oidcSession issueSessionForSSO
  cases huser : db.user? owner with
  | none => simp
  | some user =>
    obtain rfl := (Table.lookup_eq_some huser).2
    by_cases hstatus : user.status = .disabled
    · simp [hstatus]
    · simp only [if_neg hstatus]
      cases issueSession svc (recordLoginSuccess db user.id) now ctx draw user.id "auth.login" <;>
        simp [loginResponse]

/-- A new account is never made. -/
theorem insertSSOUser_fails (user : User) : ∃ e, insertSSOUser db user = .error e := ⟨_, rfl⟩

/-- Nothing but the row of an identity names an account. -/
theorem findOrProvisionSSOUser_eq_ok {sso : SSODraw} {p : SSOProvider} {externalID email : String}
    {s' : DoorState δ} {owner : Uuid} :
    findOrProvisionSSOUser svc s now sso p externalID email = (s', .ok owner) →
      s'.db = s.db ∧ ∃ row, s.identity? p externalID = some row ∧ row.userId = owner := by
  intro h
  unfold findOrProvisionSSOUser at h
  cases hrow : s.identity? p externalID with
  | some row =>
    rw [hrow] at h
    cases h
    exact ⟨rfl, row, rfl, rfl⟩
  | none =>
    obtain ⟨e, hfails⟩ := @insertSSOUser_fails s.db (ssoUser svc s.db sso email)
    rw [hrow] at h
    simp only [hfails] at h
    split at h
    · cases h
    · split at h <;> cases h

theorem findOrProvisionSSOUser_of_identity {sso : SSODraw} {p : SSOProvider}
    {externalID email : String} {row : SSOIdentity} (h : s.identity? p externalID = some row) :
    ∃ s', findOrProvisionSSOUser svc s now sso p externalID email = (s', .ok row.userId) ∧
      s'.db = s.db := by
  simp only [findOrProvisionSSOUser, h]
  exact ⟨_, rfl, rfl⟩

end DoorSessions

/-! ## Whom each door lets in -/

section Doors

variable {δ : Type} {c : DoorService δ} {s : DoorState δ} {now : Time} {ctx : LoginContext}
  {draw : LoginDraw} {userID : Uuid}

theorem bootstrapLogin_opens {username password : String} :
    (FrontDoor.bootstrapLogin username password).opens c s now ctx draw = some userID ↔
      ∃ user, (FrontDoor.bootstrapLogin username password).Admits c s now draw user ∧
        user.id = userID := by
  simp only [FrontDoor.opens, Option.map_eq_some_iff, Reply.toOption_eq_some]
  constructor
  · rintro ⟨resp, hresp, rfl⟩
    unfold bootstrapLogin at hresp
    split at hresp
    · cases hresp
    · next henabled =>
      split at hresp
      · cases hresp
      · next user huser =>
        split at hresp
        · cases hresp
        · next hstatus =>
          split at hresp
          · cases hresp
          · next hlocked =>
            split at hresp
            · cases hresp
            · cases hresp
            · next hpassword =>
              obtain ⟨hadmin, hstorable, hid⟩ := bootstrapSession_opens.mp ⟨resp, hresp, rfl⟩
              exact ⟨user, ⟨huser, ⟨by simpa using henabled, hpassword, hadmin⟩, hstatus,
                fun _ => by simpa using hlocked, hstorable⟩, hid⟩
  · rintro ⟨user, ⟨haccount, ⟨henabled, hpassword, hadmin⟩, hstatus, hunlocked, hstorable⟩, hid⟩
    have haccount : fetchUserForLogin s.db (c.svc.toLower (trimSpace username)) = some user :=
      haccount
    have hunlocked : user.isLocked now = false := hunlocked rfl
    simp only [bootstrapLogin, henabled, haccount, hstatus, hunlocked, hpassword, if_false,
      Bool.true_eq_false, Bool.false_eq_true]
    exact bootstrapSession_opens.mpr ⟨hadmin, hstorable, hid⟩

theorem webAuthnLoginFinish_opens {req : WebAuthnFinishRequest} :
    (FrontDoor.webAuthnLoginFinish req).opens c s now ctx draw = some userID ↔
      ∃ user, (FrontDoor.webAuthnLoginFinish req).Admits c s now draw user ∧ user.id = userID := by
  simp only [FrontDoor.opens, Option.map_eq_some_iff, Reply.toOption_eq_some]
  constructor
  · rintro ⟨resp, hresp, rfl⟩
    unfold webAuthnLoginFinish at hresp
    split at hresp
    · cases hresp
    · next library hlibrary =>
      split at hresp
      · cases hresp
      · next hfilled =>
        split at hresp
        · cases hresp
        · next user huser =>
          split at hresp
          · cases hresp
          · next waUser hload =>
            split at hresp
            · cases hresp
            · next hcreds =>
              simp only at hresp
              split at hresp
              · cases hresp
              · next cred hcred =>
                obtain ⟨haccount, hstatus⟩ := Option.filter_eq_some_iff.mp huser
                obtain ⟨data, hdata, hvalid⟩ := Option.bind_eq_some_iff.mp hcred
                obtain ⟨hstorable, hid⟩ := webAuthnSession_opens.mp ⟨resp, hresp, rfl⟩
                exact ⟨user, ⟨haccount, ⟨library, waUser, data, cred, hlibrary,
                  fun h => hfilled (.inl h), fun h => hfilled (.inr h), hload, hcreds, hdata,
                  hvalid⟩, by simpa using hstatus, nofun, hstorable⟩, hid⟩
  · rintro ⟨user, ⟨haccount, ⟨library, waUser, data, cred, hlibrary, hfilled, hkey, hload, hcreds,
      hdata, hvalid⟩, hstatus, _, hstorable⟩, hid⟩
    have huser : fetchUsernameByID s.db req.userID = some user :=
      Option.filter_eq_some_iff.mpr ⟨haccount, by simpa using hstatus⟩
    simp only [webAuthnLoginFinish, hlibrary, hfilled, hkey, or_self, if_false, huser, hload,
      hcreds, hdata, Option.bind_some, hvalid]
    exact webAuthnSession_opens.mpr ⟨hstorable, hid⟩

theorem externalAccount_eq_some {p : SSOProvider} {externalID : String} {user : User} :
    FrontDoor.externalAccount s p externalID = some user ↔
      ∃ row, s.identity? p externalID = some row ∧ s.db.user? row.userId = some user := by
  simp [FrontDoor.externalAccount, Option.bind_eq_some_iff]

theorem ldapLogin_opens {sso : SSODraw} {req : LdapLoginRequest} :
    (FrontDoor.ldapLogin sso req).opens c s now ctx draw = some userID ↔
      ∃ user, (FrontDoor.ldapLogin sso req).Admits c s now draw user ∧ user.id = userID := by
  simp only [FrontDoor.opens, Option.map_eq_some_iff, Reply.toOption_eq_some]
  have haccount : (FrontDoor.ldapLogin sso req).account c s now =
      (ldapVerify c.svc c.ldap s req).toOption.bind fun r =>
        FrontDoor.externalAccount s r.1 (req.externalID r.1 r.2) := rfl
  constructor
  · rintro ⟨resp, hresp, rfl⟩
    unfold ldapLogin at hresp
    split at hresp
    · cases hresp
    · next p entry hverify =>
      split at hresp
      · cases hresp
      · next s' owner hfind =>
        obtain ⟨hdb, row, hrow, rfl⟩ := findOrProvisionSSOUser_eq_ok hfind
        have hresp : (issueSessionForSSO c.svc s'.db now ctx draw row.userId).2 = .ok resp := hresp
        rw [hdb] at hresp
        obtain ⟨user, huser, hstatus, hstorable, hid⟩ :=
          issueSessionForSSO_opens.mp ⟨resp, hresp, rfl⟩
        refine ⟨user, ⟨?_, trivial, hstatus, nofun, hstorable⟩, hid⟩
        rw [haccount, hverify]
        exact externalAccount_eq_some.mpr ⟨row, hrow, huser⟩
  · rintro ⟨user, ⟨hasks, _, hstatus, _, hstorable⟩, hid⟩
    rw [haccount] at hasks
    obtain ⟨⟨p, entry⟩, hverify, hexternal⟩ := Option.bind_eq_some_iff.mp hasks
    obtain ⟨row, hrow, huser⟩ := externalAccount_eq_some.mp hexternal
    obtain ⟨s', hfind, hdb⟩ := @findOrProvisionSSOUser_of_identity δ c.svc s now sso p _
      (entry.getAttributeValue p.ldapAttrEmail) row hrow
    simp only [ldapLogin, Reply.toOption_eq_some.mp hverify, hfind, DoorState.withDB, hdb]
    exact issueSessionForSSO_opens.mpr ⟨user, huser, hstatus, hstorable, hid⟩

/-- A state that is taken leaves the tables alone. -/
theorem consumeOIDCState_tables (redisUp : Bool) (state : String) :
    (s.consumeOIDCState now redisUp state).1.db = s.db ∧
      (s.consumeOIDCState now redisUp state).1.provider = s.provider ∧
      (s.consumeOIDCState now redisUp state).1.identity? = s.identity? := by
  unfold DoorState.consumeOIDCState
  split <;> exact ⟨rfl, rfl, rfl⟩

theorem oidcCallback_opens {sso : SSODraw} {req : OIDCCallbackRequest} :
    (FrontDoor.oidcCallback sso req).opens c s now ctx draw = some userID ↔
      ∃ user, (FrontDoor.oidcCallback sso req).Admits c s now draw user ∧ user.id = userID := by
  simp only [FrontDoor.opens, Option.map_eq_some_iff, Reply.toOption_eq_some]
  obtain ⟨hdb₀, hprovider, hidentity⟩ := @consumeOIDCState_tables δ s now req.redisUp req.state
  have haccount : (FrontDoor.oidcCallback sso req).account c s now =
      (oidcVerify c.svc c.oidc (s.consumeOIDCState now req.redisUp req.state).1
        (FrontDoor.broughtBack s now req) req).toOption.bind fun r =>
          FrontDoor.externalAccount s r.1 r.2.sub := by
    unfold oidcVerify
    rw [hprovider]
    rfl
  constructor
  · rintro ⟨resp, hresp, rfl⟩
    unfold oidcCallback at hresp
    simp only at hresp
    split at hresp
    · cases hresp
    · next p claims hverify =>
      split at hresp
      · cases hresp
      · next s' owner hfind =>
        obtain ⟨hdb, row, hrow, rfl⟩ := findOrProvisionSSOUser_eq_ok hfind
        have hresp : (oidcSession c.svc s'.db now ctx draw row.userId req.frontendURL).2 =
            .ok resp := hresp
        rw [hdb, hdb₀] at hresp
        obtain ⟨user, huser, hstatus, hstorable, hid⟩ :=
          issueSessionForSSO_opens.mp (oidcSession_opens.mp ⟨resp, hresp, rfl⟩)
        refine ⟨user, ⟨?_, trivial, hstatus, nofun, hstorable⟩, hid⟩
        rw [haccount, FrontDoor.broughtBack, hverify]
        exact externalAccount_eq_some.mpr ⟨row, hidentity ▸ hrow, huser⟩
  · rintro ⟨user, ⟨hasks, _, hstatus, _, hstorable⟩, hid⟩
    rw [haccount] at hasks
    obtain ⟨⟨p, claims⟩, hverify, hexternal⟩ := Option.bind_eq_some_iff.mp hasks
    obtain ⟨row, hrow, huser⟩ := externalAccount_eq_some.mp hexternal
    obtain ⟨s', hfind, hdb⟩ := @findOrProvisionSSOUser_of_identity δ c.svc
      (s.consumeOIDCState now req.redisUp req.state).1 now sso p _ claims.email row
      (hidentity ▸ hrow)
    have hverify : oidcVerify c.svc c.oidc (s.consumeOIDCState now req.redisUp req.state).1
        (s.consumeOIDCState now req.redisUp req.state).2 req = .ok (p, claims) := by
      cases h : oidcVerify c.svc c.oidc (s.consumeOIDCState now req.redisUp req.state).1
          (s.consumeOIDCState now req.redisUp req.state).2 req with
      | error e =>
        rw [FrontDoor.broughtBack, h] at hverify
        cases hverify
      | ok r =>
        rw [FrontDoor.broughtBack, h] at hverify
        exact congrArg Except.ok (Option.some.inj hverify)
    simp only [oidcCallback, hverify, hfind, DoorState.withDB, hdb, hdb₀]
    exact oidcSession_opens.mpr (issueSessionForSSO_opens.mpr
      ⟨user, huser, hstatus, hstorable, hid⟩)

/-- A door opens a session for exactly those it admits. -/
theorem FrontDoor.opens_iff (door : FrontDoor) :
    door.opens c s now ctx draw = some userID ↔
      ∃ user, door.Admits c s now draw user ∧ user.id = userID := by
  cases door with
  | bootstrapLogin username password => exact bootstrapLogin_opens
  | webAuthnLoginFinish req => exact webAuthnLoginFinish_opens
  | ldapLogin sso req => exact ldapLogin_opens
  | oidcCallback sso req => exact oidcCallback_opens

end Doors

/-! ## Doors and gates -/

section KeepsGates

variable {δ : Type}

/-- A session is issued only to a user whom the gates of `Login` would have let
pass in the same state and from the same place. -/
def FrontDoor.KeepsGates (c : DoorService δ) (s : DoorState δ) (now : Time) (ctx : LoginContext)
    (draw : LoginDraw) (door : FrontDoor) : Prop :=
  ∀ userID, door.opens c s now ctx draw = some userID →
    ∃ user, door.account c s now = some user ∧ user.id = userID ∧
      loginGate c.svc now ctx user = none

/-- A door keeps the gates of `Login` exactly if whoever it admits presents the
certificate the account requires, comes from an address it allows and, where
the door does not look, is not locked. -/
theorem front_door_keeps_gates_iff (c : DoorService δ) (s : DoorState δ) (now : Time)
    (ctx : LoginContext) (draw : LoginDraw) (door : FrontDoor) :
    door.KeepsGates c s now ctx draw ↔
      ∀ user, door.Admits c s now draw user →
        user.certificateMet c.svc now ctx ∧ user.addressAllowed c.svc ctx ∧
          (door.checksLockout = false → user.isLocked now = false) := by
  constructor
  · intro h user hadmits
    obtain ⟨user', haccount, _, hgate⟩ := h user.id (door.opens_iff.mpr ⟨user, hadmits, rfl⟩)
    obtain rfl := Option.some.inj (haccount.symm.trans hadmits.account)
    obtain ⟨hcert, haddress, _, hunlocked⟩ := loginGate_eq_none.mp hgate
    exact ⟨hcert, haddress, fun _ => hunlocked⟩
  · intro h userID hopens
    obtain ⟨user, hadmits, hid⟩ := door.opens_iff.mp hopens
    obtain ⟨hcert, haddress, hunlocked⟩ := h user hadmits
    have hfree : user.isLocked now = false := by
      cases hchecks : door.checksLockout with
      | true => exact hadmits.unlocked hchecks
      | false => exact hunlocked hchecks
    exact ⟨user, hadmits.account, hid,
      loginGate_eq_none.mpr ⟨hcert, haddress, hadmits.enabled, hfree⟩⟩

/-- A session for a user whom a gate of `Login` refuses. -/
theorem FrontDoor.not_keepsGates {c : DoorService δ} {s : DoorState δ} {now : Time}
    {ctx : LoginContext} {draw : LoginDraw} {door : FrontDoor} {u : Uuid}
    (hopens : door.opens c s now ctx draw = some u)
    (hrefused : (door.account c s now).any
      (fun user => (loginGate c.svc now ctx user).isSome) = true) :
    ¬ door.KeepsGates c s now ctx draw := by
  intro hkeeps
  obtain ⟨user, haccount, _, hgate⟩ := hkeeps u hopens
  simp [haccount, hgate] at hrefused

end KeepsGates

/-! ## Concrete doors -/

/-- No range holds the address of the client, and it is nobody's exit node. -/
def sampleGeo : GeoLibrary := ⟨fun _ _ => some false, fun _ => false, fun _ => "", fun a b => a = b⟩

/-- A key that signs, a directory with one entry, a provider with one user. -/
def sampleDoors : DoorService String where
  svc := { sampleService with deniedIP := checkIP sampleGeo }
  bootstrapEnabled := true
  webAuthn := some ⟨fun user data body => if data = body then user.credentials.head? else none⟩
  ldap :=
    { dial := fun _ _ => true
      startTLS := fun _ _ => true
      bind := fun _ _ _ => true
      search := fun _ _ _ _ _ => some [⟨"uid=joan", [("uid", ["joan"])]⟩]
      escapeFilter := id }
  oidc :=
    { fetchDiscovery := fun _ => .ok ⟨"authorize", "token", "", ""⟩
      exchangeCode := fun _ _ _ code _ _ => .ok code
      verifyIDToken := fun _ _ _ => .ok ⟨"joan", "", "", ""⟩ }

def sampleProvider (id : Nat) (providerType : ProviderType) : SSOProvider where
  id := Uuid.ofNat id
  name := "sso"
  providerType := providerType
  enabled := true
  discoveryURL := some "https://id.example.org"
  clientID := some "ironstock"
  clientSecretEnc := []
  ldapURL := some "ldap://id.example.org"
  ldapBindDN := none
  ldapBindPasswordEnc := []
  ldapUserSearchBase := some "dc=example,dc=org"
  ldapUserFilter := "(uid=*)"
  ldapAttrUsername := "uid"
  ldapAttrEmail := "mail"
  ldapAttrDisplayName := "cn"
  ldapUseStartTLS := false
  ldapSkipTLSVerify := false
  autoProvision := false
  defaultRole := "read"

/-- An administrator who must present a certificate, a user who is locked, and
one who may come from one network only. -/
def doorState : DoorState String where
  db :=
    { users :=
        [{ sampleUser 1 "ada" with
            passwordHash := (samplePasswordHasher.hashPassword "secret" (List.replicate 16 0)).1
            status := .active
            requiresClientCert := true },
          { sampleUser 2 "grace" with status := .active, lockedUntil := some 5 },
          { sampleUser 3 "joan" with status := .active, allowedIPCIDRs := ["10.0.0.0/8"] }]
      userRoles := [⟨Uuid.ofNat 1, .admin⟩] }
  credentials := [⟨Uuid.ofNat 2, [1], [1], 0, [], false, none⟩]
  challenges := [("login", ⟨"signature", 5⟩)]
  providers := [sampleProvider 8 .ldap, sampleProvider 9 .oidc]
  identities :=
    [⟨Uuid.ofNat 3, Uuid.ofNat 8, "joan", none, none⟩,
      ⟨Uuid.ofNat 3, Uuid.ofNat 9, "joan", none, none⟩]
  oidcMemory := [("state", ⟨(Uuid.ofNat 9).text, "verifier", 5⟩)]

/-- A client without a certificate. -/
def doorContext : LoginContext := ⟨⟨"", ""⟩, "192.0.2.7", none, none⟩

def doorDraw : LoginDraw := ⟨Uuid.ofNat 20, "refresh", Uuid.ofNat 21, []⟩

def ssoDraw : SSODraw := ⟨Uuid.ofNat 22, "000000", []⟩

/-- Each of the four doors opens a session that the gates of `Login` refuse. -/
theorem front_doors_skip_gates :
    ¬ (FrontDoor.bootstrapLogin "ada" "secret").KeepsGates sampleDoors doorState 0 doorContext
        doorDraw ∧
      ¬ (FrontDoor.webAuthnLoginFinish ⟨(Uuid.ofNat 2).text, "login", "signature"⟩).KeepsGates
        sampleDoors doorState 0 doorContext doorDraw ∧
      ¬ (FrontDoor.ldapLogin ssoDraw ⟨(Uuid.ofNat 8).text, "joan", "secret"⟩).KeepsGates
        sampleDoors doorState 0 doorContext doorDraw ∧
      ¬ (FrontDoor.oidcCallback ssoDraw ⟨(Uuid.ofNat 9).text, "state", "code", "",
          "https://stock.example.org", false⟩).KeepsGates
        sampleDoors doorState 0 doorContext doorDraw := by
  refine ⟨?_, ?_, ?_, ?_⟩
  · exact FrontDoor.not_keepsGates (u := Uuid.ofNat 1) (by decide) (by decide)
  · exact FrontDoor.not_keepsGates (u := Uuid.ofNat 2) (by decide) (by decide)
  · exact FrontDoor.not_keepsGates (u := Uuid.ofNat 3) (by decide) (by decide)
  · exact FrontDoor.not_keepsGates (u := Uuid.ofNat 3) (by decide) (by decide)

end IronStock

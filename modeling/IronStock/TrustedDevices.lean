import IronStock.PasswordReset
import IronStock.RecoveryCodeSet

/-!
# Devices that skip the code

`auth_trusted_devices.go`, and what enrolment, removal, reset and recovery do to
the devices a login remembered. Beside the tables runs a record of the code each
device was remembered with.
-/
namespace IronStock

open Interleaving

/-! ## Revocation -/

/-- `RevokeTrustedDevice`. -/
def revokeTrustedDevice (svc : Service) (db : DB) (now : Time) (authz deviceID : String) :
    Reply DB := do
  let claims ← requireAccessTokenMiddleware svc db now authz
  let device ← Reply.orElse (castUuid deviceID) (internalError "Cihaz silinemedi.")
  Reply.require
    (db.trustedDevices.any (fun d => d.id = device ∧ d.userId = claims.subject) = true)
    ⟨404, errCodeNotFound, "Cihaz bulunamadı."⟩
  let trustedDevices :=
    Table.deleteWhere (fun d => d.id = device ∧ d.userId = claims.subject) db.trustedDevices
  return { db with trustedDevices }.audit
    ⟨claims.subject.text, "auth.trusted_device_revoked", "trusted_device", deviceID⟩

/-- `RevokeAllTrustedDevices`; its entry names no resource. -/
def revokeAllTrustedDevices (svc : Service) (db : DB) (now : Time) (authz : String) :
    Reply DB := do
  let claims ← requireAccessTokenMiddleware svc db now authz
  let trustedDevices := Table.deleteWhere (·.userId = claims.subject) db.trustedDevices
  return { db with trustedDevices }.audit
    ⟨claims.subject.text, "auth.trusted_device_revoked", "", ""⟩

/-! ## Requests -/

inductive DeviceRequest
  | login (ctx : LoginContext) (draw : LoginDraw) (req : LoginRequest)
  | totpInit (authz : String) (draw : TotpDraw)
  | totpVerify (authz code : String) (codes : List (Uuid × Bytes))
  | totpDisable (authz masterPassword : String)
  | adminResetTOTP (authz id : String)
  | resetPassword (r : ResetRequest)
  | recoverComplete (authz : String) (req : RecoverCompleteRequest) (salt : Bytes)
      (codes : List (Uuid × Bytes))
  | revokeTrustedDevice (authz deviceID : String)
  | revokeAllTrustedDevices (authz : String)

/-- A password reset with no other request in between. -/
def resetPasswordAlone (svc : Service) (tables : ResetTables) (now : Time) (r : ResetRequest) :
    ResetState × (ResetCall ⊕ ResetAnswer) :=
  (resetPassword svc).alone 0 7 { clock := now, tables } (.request r)

/-- A device as it was remembered: the row, the code and the secret it was
verified against, and how often the secret of the account had been replaced or
removed, and its password reset or recovered, by then. -/
structure RememberedDevice where
  id : Uuid
  userId : Uuid
  tokenHash : Digest
  now : Time
  code : String
  secret : TotpSecret
  generation : Nat
  recoveries : Nat

/-- The tables, with the devices that were remembered and not revoked. -/
structure DeviceState where
  tables : ResetTables
  remembered : List RememberedDevice := []
  generation : Uuid → Nat := fun _ => 0
  recoveries : Uuid → Nat := fun _ => 0

namespace DeviceRequest

def exec (svc : Service) (tables : ResetTables) (now : Time) : DeviceRequest → ResetTables
  | login ctx draw req => { tables with db := (IronStock.login svc tables.db now ctx draw req).1 }
  | totpInit authz draw =>
    { tables with db := Request.step svc tables.db now (.totpInit authz draw) }
  | totpVerify authz code codes =>
    { tables with db := Request.step svc tables.db now (.totpVerify authz code codes) }
  | totpDisable authz password =>
    { tables with db := Request.step svc tables.db now (.totpDisable authz password) }
  | adminResetTOTP authz id =>
    { tables with db := Request.step svc tables.db now (.admin authz (.resetTOTP id)) }
  | resetPassword r => (resetPasswordAlone svc tables now r).1.tables
  | recoverComplete authz req salt codes =>
    { tables with db := Request.step svc tables.db now (.recoverComplete authz req salt codes) }
  | revokeTrustedDevice authz deviceID =>
    let r := IronStock.revokeTrustedDevice svc tables.db now authz deviceID
    { tables with db := r.toOption.getD tables.db }
  | revokeAllTrustedDevices authz =>
    let r := IronStock.revokeAllTrustedDevices svc tables.db now authz
    { tables with db := r.toOption.getD tables.db }

/-- The user whose secret the request replaces or removes. -/
def replacesSecret (svc : Service) (db : DB) (now : Time) : DeviceRequest → Option Uuid
  | totpInit authz draw =>
    match IronStock.totpInit svc db now authz draw with
    | .ok _ => (requireTmpOrAccessToken svc now authz).toOption
    | .error _ => none
  | totpDisable authz password =>
    match (IronStock.totpDisable svc db now authz password).2 with
    | .ok _ => (requireAccessToken svc now authz).toOption.map (·.subject)
    | .error _ => none
  | adminResetTOTP authz id =>
    match adminRequest svc db now authz (.resetTOTP id) with
    | .ok _ => castUuid id
    | .error _ => none
  | _ => none

/-- The user whose password the request resets or recovers. -/
def recovers (svc : Service) (tables : ResetTables) (now : Time) : DeviceRequest → Option Uuid
  | resetPassword r =>
    match (resetPasswordAlone svc tables now r).2 with
    | .inr (.succeeded token) =>
      (tables.resetTokens.find? fun row => row.id = token).map (·.userId)
    | _ => none
  | recoverComplete authz req salt codes =>
    match IronStock.recoverComplete svc tables.db now authz req salt codes with
    | .ok _ => (requireTmpToken svc now authz purposeRecovery).toOption
    | .error _ => none
  | _ => none

/-- The request revokes the device with this id, of this user. -/
def revokes (svc : Service) (db : DB) (now : Time) (id userId : Uuid) : DeviceRequest → Bool
  | revokeTrustedDevice authz deviceID =>
    match IronStock.revokeTrustedDevice svc db now authz deviceID,
        requireAccessTokenMiddleware svc db now authz, castUuid deviceID with
    | .ok _, .ok claims, some device => id = device ∧ userId = claims.subject
    | _, _, _ => false
  | revokeAllTrustedDevices authz =>
    match requireAccessTokenMiddleware svc db now authz with
    | .ok claims => userId = claims.subject
    | .error _ => false
  | _ => false

/-- The device a login remembers. -/
def remembers (svc : Service) (s : DeviceState) (now : Time) :
    DeviceRequest → Option RememberedDevice
  | login ctx draw req =>
    match (IronStock.login svc s.tables.db now ctx draw req).2 with
    | .error _ => none
    | .ok resp =>
      if resp.deviceToken = none then none
      else
        (fetchTOTPSecret s.tables.db resp.userID).map fun secret =>
          { id := draw.deviceID, userId := resp.userID, tokenHash := svc.sha256 draw.deviceToken,
            now, code := req.totpCode, secret, generation := s.generation resp.userID,
            recoveries := s.recoveries resp.userID }
  | _ => none

end DeviceRequest

/-- A request and the time it is served at. -/
structure DeviceCall where
  now : Time
  req : DeviceRequest

def countFor (u : Option Uuid) (count : Uuid → Nat) : Uuid → Nat :=
  fun v => if u = some v then count v + 1 else count v

def DeviceState.step (svc : Service) (s : DeviceState) (c : DeviceCall) : DeviceState where
  tables := c.req.exec svc s.tables c.now
  remembered :=
    s.remembered.filter (fun e => !c.req.revokes svc s.tables.db c.now e.id e.userId) ++
      (c.req.remembers svc s c.now).toList
  generation := countFor (c.req.replacesSecret svc s.tables.db c.now) s.generation
  recoveries := countFor (c.req.recovers svc s.tables c.now) s.recoveries

/-! ## When a code is skipped -/

/-- The code a device was remembered with was right. -/
def RememberedDevice.CodeVerified (svc : Service) (e : RememberedDevice) : Prop :=
  e.secret.verified = true ∧ ∃ plain, openTOTPSecret svc e.userId e.secret = .ok plain ∧
    verifyTOTP svc e.now plain e.code = true

/-- The row and its record. -/
def RememberedDevice.Matches (e : RememberedDevice) (d : TrustedDevice) : Prop :=
  e.id = d.id ∧ e.userId = d.userId ∧ e.tokenHash = d.tokenHash

/-- The cookie names a row of this user that has not expired, and the row is one
that was remembered with a right code and not revoked since; `P` judges its
record. -/
def SkipsWith (svc : Service) (s : DeviceState) (now : Time) (u : Uuid) (cookie : Option String)
    (P : RememberedDevice → Prop) : Prop :=
  ∃ hash d e, cookie.bind (hashDeviceToken svc) = some hash ∧
    d ∈ s.tables.db.trustedDevices ∧ d.tokenHash = hash ∧ d.userId = u ∧ now < d.expiresAt ∧
    e ∈ s.remembered ∧ e.Matches d ∧ e.CodeVerified svc ∧ P e

/-- Every login of a user with a verified secret brings a right code for it, or
a device whose record `P` accepts. -/
def CodeSkippedOnly (svc : Service) (P : DeviceState → TotpSecret → RememberedDevice → Prop)
    (s : DeviceState) (c : DeviceCall) : Prop :=
  ∀ ctx draw req resp secret, c.req = .login ctx draw req →
    (login svc s.tables.db c.now ctx draw req).2 = .ok resp →
    fetchTOTPSecret s.tables.db resp.userID = some secret →
    (∃ plain, openTOTPSecret svc resp.userID secret = .ok plain ∧
      verifyTOTP svc c.now plain req.totpCode = true) ∨
    SkipsWith svc s c.now resp.userID ctx.deviceCookie (P s secret)

/-- The device was remembered under the secret that is enrolled now, and with
the password of now. -/
def RememberedNow (s : DeviceState) (secret : TotpSecret) (e : RememberedDevice) : Prop :=
  e.secret.secretEnc = secret.secretEnc ∧ e.recoveries = s.recoveries e.userId

/-- The device was remembered under the secret that is enrolled now, unless that
was replaced or removed since. -/
def RememberedThen (s : DeviceState) (secret : TotpSecret) (e : RememberedDevice) : Prop :=
  e.generation = s.generation e.userId → e.secret.secretEnc = secret.secretEnc

/-! ## What a login does to the devices -/

/-- The row is there, perhaps with another window. -/
def DB.HasDevice (db : DB) (d : TrustedDevice) : Prop :=
  ∃ d₀ ∈ db.trustedDevices, d₀.id = d.id ∧ d₀.userId = d.userId ∧ d₀.tokenHash = d.tokenHash

/-- The answer hands out the device that was drawn, after a right code. -/
structure HandsOutDevice (svc : Service) (db : DB) (now : Time) (code : String)
    (resp : LoginResponse) : Prop where
  token : resp.deviceToken ≠ none
  code : ∃ secret, fetchTOTPSecret db resp.userID = some secret ∧
    ∃ plain, openTOTPSecret svc resp.userID secret = .ok plain ∧
      verifyTOTP svc now plain code = true

/-- Every row was there or is the one handed out, and nothing is handed out
without a right code. -/
structure LoginDevices (svc : Service) (db : DB) (now : Time) (draw : LoginDraw) (code : String)
    (r : DB × Reply LoginResponse) : Prop where
  rows : ∀ d ∈ r.1.trustedDevices, db.HasDevice d ∨
    ∃ resp, r.2 = .ok resp ∧ HandsOutDevice svc db now code resp ∧ d.id = draw.deviceID ∧
      d.userId = resp.userID ∧ d.tokenHash = svc.sha256 draw.deviceToken
  answer : ∀ resp, r.2 = .ok resp → resp.deviceToken ≠ none →
    HandsOutDevice svc db now code resp

section Login

variable {svc : Service} {db : DB} {now : Time} {ctx : LoginContext} {draw : LoginDraw}
  {user : User}

theorem hasDevice_of_mem {d : TrustedDevice} (h : d ∈ db.trustedDevices) : db.HasDevice d :=
  ⟨d, h, rfl, rfl, rfl⟩

theorem finishLogin_devices (svc : Service) (db : DB) (now : Time) (ctx : LoginContext)
    (draw : LoginDraw) (user : User) :
    (finishLogin svc db now ctx draw user).1.trustedDevices = db.trustedDevices ∧
      ∀ resp, (finishLogin svc db now ctx draw user).2 = .ok resp → resp.deviceToken = none := by
  unfold finishLogin
  split
  · exact ⟨rfl, fun resp h => by cases h⟩
  · next db' h =>
    obtain ⟨db₁, hcreate, rfl⟩ := openSession_eq_ok h
    obtain ⟨-, -, -, rfl⟩ := createSession_eq_ok.mp hcreate
    refine ⟨rfl, fun resp h => ?_⟩
    cases h
    rfl

/-- The window of a row that was found starts anew. -/
theorem verifyTrustedDevice_devices (hash : Option Digest) (u : Uuid) {d : TrustedDevice}
    (h : d ∈ (verifyTrustedDevice db now u hash).1.trustedDevices) : db.HasDevice d := by
  cases hash with
  | none => exact hasDevice_of_mem h
  | some hash =>
    obtain ⟨d₀, hd₀, heq⟩ := Table.mem_updateWhere.mp h
    refine ⟨d₀, hd₀, ?_⟩
    rw [← heq]
    split <;> exact ⟨rfl, rfl, rfl⟩

theorem verifyTrustedDevice_eq_some {hash : Option Digest} {u : Uuid} {d : TrustedDevice}
    (h : (verifyTrustedDevice db now u hash).2 = some d) :
    hash = some d.tokenHash ∧ d ∈ db.trustedDevices ∧ d.userId = u ∧ now < d.expiresAt := by
  cases hash with
  | none => cases h
  | some hash =>
    have hmem := List.mem_of_find?_eq_some h
    have htest := List.find?_some h
    simp only [TrustedDevice.isFor, decide_eq_true_eq] at htest
    exact ⟨congrArg some htest.1.symm, hmem, htest.2⟩

theorem LoginDevices.of_silent {r : DB × Reply LoginResponse} {code : String}
    (hrows : ∀ d ∈ r.1.trustedDevices, db.HasDevice d)
    (hanswer : ∀ resp, r.2 = .ok resp → resp.deviceToken = none) :
    LoginDevices svc db now draw code r :=
  ⟨fun d hd => .inl (hrows d hd), fun resp h hne => absurd (hanswer resp h) hne⟩

theorem LoginDevices.refused {db' : DB} {code : String} (e : ApiError)
    (h : db'.trustedDevices = db.trustedDevices) :
    LoginDevices svc db now draw code (db', .error e) :=
  .of_silent (fun _ hd => hasDevice_of_mem (h ▸ hd)) (fun resp hr => by cases hr)

/-- A device is remembered after the code was verified. -/
theorem loginWithCode_devices {db₀ : DB} {row : TotpSecret} {req : LoginRequest}
    (hrow : fetchTOTPSecret db₀ user.id = some row)
    (hdevices : ∀ d ∈ db.trustedDevices, db₀.HasDevice d) :
    LoginDevices svc db₀ now draw req.totpCode
      (loginWithCode svc db now ctx draw user row req) := by
  obtain ⟨hfinish, hnone⟩ := finishLogin_devices svc db now ctx draw user
  unfold loginWithCode
  split
  · exact .of_silent hdevices (fun resp hr => by cases hr)
  · split
    · exact .of_silent hdevices (fun resp hr => by cases hr)
    · next plain hplain =>
      split
      · next hverify =>
        simp only
        split
        · unfold rememberDevice
          split
          · next hr => exact .of_silent (fun d hd => hdevices d (hfinish ▸ hd)) hnone
          · next resp hresp =>
            split
            · exact .of_silent (fun d hd => hdevices d (hfinish ▸ hd)) hnone
            · next db' hcreate =>
              have hid := finishLogin_userID hresp
              have hout : HandsOutDevice svc db₀ now req.totpCode
                  { resp with deviceToken := some draw.deviceToken } :=
                ⟨by simp, row, hid ▸ hrow, plain, hid ▸ hplain, hverify⟩
              have hrows : db'.trustedDevices =
                  (finishLogin svc db now ctx draw user).1.trustedDevices ++
                    [⟨draw.deviceID, user.id, svc.sha256 draw.deviceToken, now,
                      now + trustedDeviceTTL⟩] := by
                unfold createTrustedDevice at hcreate
                split at hcreate
                · cases hcreate
                · split at hcreate
                  · cases hcreate
                  · cases hcreate
                    rfl
              refine ⟨fun d hd => ?_, fun resp' h _ => ?_⟩
              · have hd' : d ∈ db'.trustedDevices := hd
                rw [hrows, hfinish] at hd'
                rcases List.mem_append.mp hd' with hd' | hd'
                · exact .inl (hdevices d hd')
                · obtain rfl := List.mem_singleton.mp hd'
                  exact .inr ⟨_, rfl, hout, rfl, hid.symm, rfl⟩
              · cases h
                exact hout
        · exact .of_silent (fun d hd => hdevices d (hfinish ▸ hd)) hnone
      · exact .of_silent hdevices (fun resp hr => by cases hr)

theorem loginFactors_devices (svc : Service) (db : DB) (now : Time) (ctx : LoginContext)
    (draw : LoginDraw) (user : User) (req : LoginRequest) :
    LoginDevices svc db now draw req.totpCode (loginFactors svc db now ctx draw user req) := by
  unfold loginFactors
  split
  · obtain ⟨hfinish, hnone⟩ := finishLogin_devices svc db now ctx draw user
    refine .of_silent (fun d hd => hasDevice_of_mem (hfinish ▸ hd)) fun resp h => ?_
    cases hresp : (finishLogin svc db now ctx draw user).2 with
    | error e =>
      simp only [hresp] at h
      cases h
    | ok r =>
      have hr := hnone r hresp
      simp only [hresp] at h
      cases h
      exact hr
  · next row hrow =>
    simp only
    have hdevices (d : TrustedDevice) := @verifyTrustedDevice_devices db now
      (ctx.deviceCookie.bind (hashDeviceToken svc)) user.id d
    split
    · obtain ⟨hfinish, hnone⟩ := finishLogin_devices svc
        (verifyTrustedDevice db now user.id (ctx.deviceCookie.bind (hashDeviceToken svc))).1 now ctx
        draw user
      split
      · exact .of_silent (fun d hd => hdevices d (hfinish ▸ hd)) hnone
      · exact .of_silent (fun d hd => hdevices d (hfinish ▸ hd)) hnone
    · exact loginWithCode_devices hrow hdevices

theorem recordRefusal_devices (db : DB) (user : User) (r : LoginRefusal) :
    (db.recordRefusal user r).trustedDevices = db.trustedDevices := by
  have hfold (actions : List String) (db : DB) :
      (actions.foldl (fun d action => d.audit ⟨user.id.text, action, "user", user.id.text⟩)
        db).trustedDevices = db.trustedDevices := by
    induction actions generalizing db with
    | nil => rfl
    | cons action rest ih => exact ih _
  exact hfold r.actions _

theorem login_devices (svc : Service) (db : DB) (now : Time) (ctx : LoginContext)
    (draw : LoginDraw) (req : LoginRequest) :
    LoginDevices svc db now draw req.totpCode (login svc db now ctx draw req) := by
  unfold login
  split
  · exact .refused _ rfl
  · split
    · exact .refused _ rfl
    · next user _ =>
      split
      · next r _ =>
        exact .refused _ (recordRefusal_devices db user r)
      · split
        · exact .refused _ rfl
        · exact .refused _ rfl
        · exact loginFactors_devices svc db now ctx draw user req

end Login

/-! ## What the other requests do -/

/-- The sealed secret of an account, verified or not. -/
def DB.enrolledSecret (db : DB) (u : Uuid) : Option Bytes :=
  (db.totpSecret? u).map TotpSecret.secretEnc

section Others

variable {svc : Service} {db db' : DB} {now : Time}

theorem enrolledSecret_eq (h : db'.totpSecrets = db.totpSecrets) (u : Uuid) :
    db'.enrolledSecret u = db.enrolledSecret u := by
  rw [DB.enrolledSecret, DB.enrolledSecret, totpSecret?_eq h]

theorem enrolledSecret_of_fetch {u : Uuid} {row : TotpSecret}
    (h : fetchTOTPSecret db u = some row) : db.enrolledSecret u = some row.secretEnc := by
  rw [fetchTOTPSecret, Option.filter_eq_some_iff] at h
  rw [DB.enrolledSecret, h.1, Option.map_some]

theorem enrolledSecret_putTOTPSecret {u v : Uuid} (enc : Bytes) (nonce : Nonce) (hu : u ≠ v) :
    (db.putTOTPSecret v enc nonce).enrolledSecret u = db.enrolledSecret u := by
  have hsame : (db.putTOTPSecret v enc nonce).totpSecret? u = db.totpSecret? u :=
    Table.lookup_upsert_of_ne (rfl : TotpSecret.userId ⟨v, enc, nonce, none⟩ = v) hu db.totpSecrets
  rw [DB.enrolledSecret, DB.enrolledSecret, hsame]

theorem enrolledSecret_deleteTOTPSecret {u v : Uuid} (hu : u ≠ v) :
    (db.deleteTOTPSecret v).enrolledSecret u = db.enrolledSecret u := by
  have hlookup : (db.deleteTOTPSecret v).totpSecret? u = if u = v then none else db.totpSecret? u :=
    Table.lookup_deleteWhere v u db.totpSecrets
  rw [DB.enrolledSecret, DB.enrolledSecret, hlookup, if_neg hu]

/-- A completed enrolment leaves the secret. -/
theorem enrolledSecret_verifyTOTPSecret (u v : Uuid) :
    (db.verifyTOTPSecret now v).enrolledSecret u = db.enrolledSecret u := by
  rw [DB.enrolledSecret, DB.enrolledSecret, totpSecret?_verifyTOTPSecret, Option.map_map]
  congr 1
  funext t
  rw [Function.comp_apply]
  split <;> rfl

theorem rotateKeypair_rows {u : Uuid} {publicKey : Option Bytes} {privateKeyEnc kekSalt : Bytes}
    {kekParams : String}
    (h : db.rotateKeypair u publicKey privateKeyEnc kekSalt kekParams = .ok db') :
    ∃ userKeypairs, db' = { db with userKeypairs } := by
  unfold DB.rotateKeypair at h
  split at h
  · cases h
    exact ⟨db.userKeypairs, rfl⟩
  · split at h
    · cases h
    · cases h
      exact ⟨_, rfl⟩

/-- A reset fails, whatever the token. -/
theorem resetPasswordAlone_fails (svc : Service) (tables : ResetTables) (now : Time)
    (r : ResetRequest) :
    (resetPasswordAlone svc tables now r).1.tables = tables ∧
      ∀ token, (resetPasswordAlone svc tables now r).2 ≠ .inr (.succeeded token) := by
  have halone (n : Nat) (s : ResetState) (call : ResetCall) (hcall : ResetCallOk (.inl call)) :
      ((resetPassword svc).alone 0 n s call).1.tables = s.tables ∧
        ResetCallOk ((resetPassword svc).alone 0 n s call).2 := by
    induction n generalizing s call with
    | zero => exact ⟨rfl, hcall⟩
    | succ n ih =>
      have hok := ResetCall.exec_callOk svc 0 s hcall
      have htables := ResetCall.exec_atomic svc 0 s call fun token hsucceeds => by
        rw [hsucceeds] at hok
        exact hok
      rw [Program.alone]
      split
      · next s' call' hexec =>
        have hexec : call.exec svc 0 s = (s', .inl call') := hexec
        rw [hexec] at hok htables
        obtain ⟨htables', hok'⟩ := ih s' call' hok
        exact ⟨htables'.trans htables, hok'⟩
      · exact ⟨htables, hok⟩
  obtain ⟨htables, hok⟩ := halone 7 { clock := now, tables } (.request r) trivial
  refine ⟨htables, fun token hsucceeds => ?_⟩
  rw [resetPasswordAlone] at hsucceeds
  rw [hsucceeds] at hok
  exact hok

theorem adminResetTOTP_effect {authz id : String}
    (h : adminRequest svc db now authz (.resetTOTP id) = .ok db') :
    ∃ v, castUuid id = some v ∧ db'.totpSecrets = (db.deleteTOTPSecret v).totpSecrets ∧
      db'.trustedDevices = db.trustedDevices := by
  simp only [adminRequest, AdminOp.handle, adminResetTOTP, Reply.bind_eq_ok, Reply.orElse_eq_ok,
    Reply.pure_eq_ok] at h
  obtain ⟨_, _, _, _, v, hid, rfl⟩ := h
  exact ⟨v, hid, rfl, rfl⟩

theorem recoverComplete_devices {authz : String} {req : RecoverCompleteRequest} {salt : Bytes}
    {codes : List (Uuid × Bytes)}
    (h : recoverComplete svc db now authz req salt codes = .ok db') :
    db'.trustedDevices = db.trustedDevices := by
  obtain ⟨v, db₁, _, _, hrotate, rfl⟩ := recoverComplete_eq_ok h
  obtain ⟨userKeypairs, rfl⟩ := rotateKeypair_rows hrotate
  rfl

theorem revokeTrustedDevice_eq_ok {authz deviceID : String}
    (h : revokeTrustedDevice svc db now authz deviceID = .ok db') :
    ∃ claims device, requireAccessTokenMiddleware svc db now authz = .ok claims ∧
      castUuid deviceID = some device ∧
      db' = DB.audit
        { db with
          trustedDevices := Table.deleteWhere (fun d => d.id = device ∧ d.userId = claims.subject)
            db.trustedDevices }
        ⟨claims.subject.text, "auth.trusted_device_revoked", "trusted_device", deviceID⟩ := by
  simp only [revokeTrustedDevice, Reply.bind_eq_ok, Reply.orElse_eq_ok, Reply.pure_eq_ok] at h
  obtain ⟨claims, hauth, device, hdevice, -, -, rfl⟩ := h
  exact ⟨claims, device, hauth, hdevice, rfl⟩

/-- Devices are deleted by the two revocations only. -/
theorem DeviceRequest.exec_devices (svc : Service) (s : DeviceState) (now : Time)
    (req : DeviceRequest) (d : TrustedDevice)
    (hd : d ∈ (req.exec svc s.tables now).db.trustedDevices) :
    (s.tables.db.HasDevice d ∧ req.revokes svc s.tables.db now d.id d.userId = false) ∨
      ∃ e, req.remembers svc s now = some e ∧ e.Matches d := by
  cases req with
  | login ctx draw req =>
    rcases (login_devices svc s.tables.db now ctx draw req).rows d hd with
      hold | ⟨resp, hresp, hout, hid, huser, hhash⟩
    · exact .inl ⟨hold, rfl⟩
    · obtain ⟨secret, hsecret, -⟩ := hout.code
      refine .inr ⟨⟨draw.deviceID, resp.userID, svc.sha256 draw.deviceToken, now, req.totpCode,
        secret, s.generation resp.userID, s.recoveries resp.userID⟩, ?_, hid.symm, huser.symm,
        hhash.symm⟩
      simp only [remembers, hresp, if_neg hout.token, hsecret]
      rfl
  | totpInit authz draw =>
    refine .inl ⟨hasDevice_of_mem ?_, rfl⟩
    simp only [exec, Request.step] at hd
    cases h : IronStock.totpInit svc s.tables.db now authz draw with
    | error e => rwa [h] at hd
    | ok r =>
      obtain ⟨db', resp⟩ := r
      obtain ⟨v, enc, -, -, rfl⟩ := totpInit_eq_ok h
      rwa [h] at hd
  | totpVerify authz code codes =>
    refine .inl ⟨hasDevice_of_mem ?_, rfl⟩
    simp only [exec, Request.step, totpVerify_eq] at hd
    cases h : totpVerifyUser svc s.tables.db now authz code with
    | error e => rwa [h] at hd
    | ok v => rwa [h] at hd
  | totpDisable authz password =>
    refine .inl ⟨hasDevice_of_mem ?_, rfl⟩
    simp only [exec, Request.step] at hd
    obtain ⟨-, -, -, hdevices⟩ | ⟨claims, -, hdisabled⟩ :=
      totpDisable_effect svc s.tables.db now authz password
    · rwa [hdevices] at hd
    · rwa [hdisabled] at hd
  | adminResetTOTP authz id =>
    refine .inl ⟨hasDevice_of_mem ?_, rfl⟩
    simp only [exec, Request.step] at hd
    cases h : adminRequest svc s.tables.db now authz (.resetTOTP id) with
    | error e => rwa [h] at hd
    | ok db' =>
      obtain ⟨v, -, hsecrets, hdevices⟩ := adminResetTOTP_effect h
      rw [h] at hd
      exact hdevices ▸ hd
  | resetPassword r =>
    refine .inl ⟨hasDevice_of_mem ?_, rfl⟩
    rwa [exec, (resetPasswordAlone_fails svc s.tables now r).1] at hd
  | recoverComplete authz req salt codes =>
    refine .inl ⟨hasDevice_of_mem ?_, rfl⟩
    simp only [exec, Request.step] at hd
    cases h : IronStock.recoverComplete svc s.tables.db now authz req salt codes with
    | error e => rwa [h] at hd
    | ok db' =>
      rw [h] at hd
      exact recoverComplete_devices h ▸ hd
  | revokeTrustedDevice authz deviceID =>
    simp only [exec] at hd
    cases h : IronStock.revokeTrustedDevice svc s.tables.db now authz deviceID with
    | error e =>
      rw [h] at hd
      exact .inl ⟨hasDevice_of_mem hd, by simp only [revokes, h]⟩
    | ok db' =>
      obtain ⟨claims, device, hauth, hdevice, rfl⟩ := revokeTrustedDevice_eq_ok h
      rw [h] at hd
      have hd : d ∈ Table.deleteWhere (fun d => d.id = device ∧ d.userId = claims.subject)
        s.tables.db.trustedDevices := hd
      rw [Table.mem_deleteWhere] at hd
      exact .inl ⟨hasDevice_of_mem hd.1, by simpa only [revokes, h, hauth, hdevice] using hd.2⟩
  | revokeAllTrustedDevices authz =>
    simp only [exec, IronStock.revokeAllTrustedDevices] at hd
    cases h : requireAccessTokenMiddleware svc s.tables.db now authz with
    | error e =>
      rw [h] at hd
      exact .inl ⟨hasDevice_of_mem hd, by simp only [revokes, h]⟩
    | ok claims =>
      rw [h] at hd
      have hd : d ∈ Table.deleteWhere (·.userId = claims.subject) s.tables.db.trustedDevices := hd
      rw [Table.mem_deleteWhere] at hd
      exact .inl ⟨hasDevice_of_mem hd.1, by simpa only [revokes, h] using hd.2⟩

/-- A secret changes only with the request that says so. -/
theorem DeviceRequest.exec_enrolledSecret (svc : Service) (tables : ResetTables) (now : Time)
    (req : DeviceRequest) (u : Uuid) (hu : req.replacesSecret svc tables.db now ≠ some u) :
    (req.exec svc tables now).db.enrolledSecret u = tables.db.enrolledSecret u := by
  cases req with
  | login ctx draw req =>
    exact enrolledSecret_eq (login_effect svc tables.db now ctx draw req).1.totpSecrets u
  | totpInit authz draw =>
    simp only [exec, Request.step, replacesSecret] at hu ⊢
    cases h : IronStock.totpInit svc tables.db now authz draw with
    | error e => rfl
    | ok r =>
      obtain ⟨db', resp⟩ := r
      obtain ⟨v, enc, hauth, -, rfl⟩ := totpInit_eq_ok h
      simp only [h, hauth] at hu
      exact enrolledSecret_putTOTPSecret enc draw.nonce fun heq => hu (congrArg some heq.symm)
  | totpVerify authz code codes =>
    simp only [exec, Request.step, totpVerify_eq]
    cases totpVerifyUser svc tables.db now authz code with
    | error e => rfl
    | ok v => exact enrolledSecret_verifyTOTPSecret u v
  | totpDisable authz password =>
    simp only [exec, Request.step, replacesSecret] at hu ⊢
    obtain ⟨-, -, hsecrets, -⟩ | ⟨claims, hauth, hdisabled⟩ :=
      totpDisable_effect svc tables.db now authz password
    · exact enrolledSecret_eq hsecrets u
    · simp only [hdisabled, hauth] at hu ⊢
      exact enrolledSecret_deleteTOTPSecret fun heq => hu (congrArg some heq.symm)
  | adminResetTOTP authz id =>
    simp only [exec, Request.step, replacesSecret] at hu ⊢
    cases h : adminRequest svc tables.db now authz (.resetTOTP id) with
    | error e => rfl
    | ok db' =>
      obtain ⟨v, hid, hsecrets, hdevices⟩ := adminResetTOTP_effect h
      simp only [h, hid] at hu
      exact (enrolledSecret_eq hsecrets u).trans
        (enrolledSecret_deleteTOTPSecret fun heq => hu (congrArg some heq.symm))
  | resetPassword r => rw [exec, (resetPasswordAlone_fails svc tables now r).1]
  | recoverComplete authz req salt codes =>
    simp only [exec, Request.step]
    cases h : IronStock.recoverComplete svc tables.db now authz req salt codes with
    | error e => rfl
    | ok db' =>
      obtain ⟨v, -, -, hsecrets⟩ := recoverComplete_codes h
      exact enrolledSecret_eq hsecrets u
  | revokeTrustedDevice authz deviceID =>
    simp only [exec]
    cases h : IronStock.revokeTrustedDevice svc tables.db now authz deviceID with
    | error e => rfl
    | ok db' =>
      obtain ⟨_, _, -, -, rfl⟩ := revokeTrustedDevice_eq_ok h
      rfl
  | revokeAllTrustedDevices authz =>
    simp only [exec, IronStock.revokeAllTrustedDevices]
    cases requireAccessTokenMiddleware svc tables.db now authz <;> rfl

/-- A record is made of a right code for the secret that is enrolled. -/
theorem DeviceRequest.remembers_eq_some {s : DeviceState} {req : DeviceRequest}
    {e : RememberedDevice} (h : req.remembers svc s now = some e) :
    e.CodeVerified svc ∧ e.generation = s.generation e.userId ∧
      s.tables.db.enrolledSecret e.userId = some e.secret.secretEnc := by
  cases req with
  | login ctx draw req =>
    simp only [remembers] at h
    split at h
    · cases h
    · next resp hresp =>
      split at h
      · cases h
      · next htoken =>
        obtain ⟨secret, hsecret, plain, hplain, hverify⟩ :=
          ((login_devices svc s.tables.db now ctx draw req).answer resp hresp htoken).code
        rw [hsecret, Option.map_some] at h
        obtain rfl := Option.some.inj h
        have hverified := hsecret
        rw [fetchTOTPSecret, Option.filter_eq_some_iff] at hverified
        exact ⟨⟨hverified.2, plain, hplain, hverify⟩, rfl, enrolledSecret_of_fetch hsecret⟩
  | totpInit | totpVerify | totpDisable | adminResetTOTP | resetPassword | recoverComplete
  | revokeTrustedDevice | revokeAllTrustedDevices => cases h

end Others

/-! ## Runs -/

/-- Every device that is there has its record, and the record tells its secret. -/
structure DevicesRecorded (svc : Service) (s : DeviceState) : Prop where
  rows : ∀ d ∈ s.tables.db.trustedDevices, ∃ e ∈ s.remembered, e.Matches d
  verified : ∀ e ∈ s.remembered, e.CodeVerified svc
  past : ∀ e ∈ s.remembered, e.generation ≤ s.generation e.userId
  current : ∀ e ∈ s.remembered, e.generation = s.generation e.userId →
    s.tables.db.enrolledSecret e.userId = some e.secret.secretEnc

/-- The tables at the start, before any device was remembered. -/
def deviceStart (tables : ResetTables) : DeviceState := { tables }

section Runs

variable {svc : Service} {s : DeviceState}

theorem deviceStart_recorded {tables : ResetTables} (h : tables.db.trustedDevices = []) :
    DevicesRecorded svc (deviceStart tables) where
  rows d hd := by
    have hd : d ∈ tables.db.trustedDevices := hd
    rw [h] at hd
    cases hd
  verified e he := by cases he
  past e he := by cases he
  current e he := by cases he

theorem countFor_self (u : Uuid) (count : Uuid → Nat) : countFor (some u) count u = count u + 1 :=
  if_pos rfl

theorem countFor_of_ne {o : Option Uuid} {u : Uuid} (count : Uuid → Nat) (h : o ≠ some u) :
    countFor o count u = count u := if_neg h

theorem le_countFor (o : Option Uuid) (count : Uuid → Nat) (u : Uuid) :
    count u ≤ countFor o count u := by
  unfold countFor
  split <;> omega

theorem DevicesRecorded.step (h : DevicesRecorded svc s) (c : DeviceCall) :
    DevicesRecorded svc (s.step svc c) := by
  have hmem (e : RememberedDevice) (he : e ∈ (s.step svc c).remembered) :
      (e ∈ s.remembered ∧ c.req.revokes svc s.tables.db c.now e.id e.userId = false) ∨
        c.req.remembers svc s c.now = some e := by
    rcases List.mem_append.mp he with he | he
    · obtain ⟨he, hkept⟩ := List.mem_filter.mp he
      exact .inl ⟨he, by simpa using hkept⟩
    · exact .inr (Option.mem_toList.mp he)
  have hcurrent (e : RememberedDevice) (hpast : e.generation ≤ s.generation e.userId)
      (hsecret : e.generation = s.generation e.userId →
        s.tables.db.enrolledSecret e.userId = some e.secret.secretEnc)
      (hgen : e.generation = (s.step svc c).generation e.userId) :
      (s.step svc c).tables.db.enrolledSecret e.userId = some e.secret.secretEnc := by
    have hgen : e.generation = countFor (c.req.replacesSecret svc s.tables.db c.now) s.generation
      e.userId := hgen
    by_cases hreplaces : c.req.replacesSecret svc s.tables.db c.now = some e.userId
    · rw [hreplaces, countFor_self] at hgen
      omega
    · rw [countFor_of_ne _ hreplaces] at hgen
      rw [← hsecret hgen]
      exact c.req.exec_enrolledSecret svc s.tables c.now e.userId hreplaces
  constructor
  · intro d hd
    rcases c.req.exec_devices svc s c.now d hd with
      ⟨⟨d₀, hd₀, hid, huser, hhash⟩, hkept⟩ | ⟨e, he, hmatch⟩
    · obtain ⟨e, he, hmatch⟩ := h.rows d₀ hd₀
      have hmatch' : e.Matches d :=
        ⟨hmatch.1.trans hid, hmatch.2.1.trans huser, hmatch.2.2.trans hhash⟩
      refine ⟨e, List.mem_append_left _ (List.mem_filter.mpr ⟨he, ?_⟩), hmatch'⟩
      rw [hmatch'.1, hmatch'.2.1, hkept]
      rfl
    · exact ⟨e, List.mem_append_right _ (Option.mem_toList.mpr he), hmatch⟩
  · intro e he
    rcases hmem e he with ⟨he, -⟩ | hnew
    · exact h.verified e he
    · exact (DeviceRequest.remembers_eq_some hnew).1
  · intro e he
    apply Nat.le_trans _ (le_countFor (c.req.replacesSecret svc s.tables.db c.now) s.generation
      e.userId)
    rcases hmem e he with ⟨he, -⟩ | hnew
    · exact h.past e he
    · exact (DeviceRequest.remembers_eq_some hnew).2.1.le
  · intro e he
    rcases hmem e he with ⟨he, -⟩ | hnew
    · exact hcurrent e (h.past e he) (h.current e he)
    · obtain ⟨-, hgen, hsecret⟩ := DeviceRequest.remembers_eq_some hnew
      exact hcurrent e hgen.le fun _ => hsecret

theorem DevicesRecorded.codeSkippedOnly (h : DevicesRecorded svc s) (c : DeviceCall) :
    CodeSkippedOnly svc RememberedThen s c := by
  intro ctx draw req resp secret _ hresp hsecret
  rcases login_session hresp secret hsecret with hdevice | hcode
  · obtain ⟨d, hd⟩ := Option.isSome_iff_exists.mp hdevice
    obtain ⟨hcookie, hmem, huser, hlive⟩ := verifyTrustedDevice_eq_some hd
    obtain ⟨e, he, hmatch⟩ := h.rows d hmem
    refine .inr ⟨d.tokenHash, d, e, hcookie, hmem, rfl, huser, hlive, he, hmatch, h.verified e he,
      fun hgen => ?_⟩
    have henrolled := h.current e he hgen
    rw [hmatch.2.1, huser, enrolledSecret_of_fetch hsecret] at henrolled
    exact (Option.some.inj henrolled).symm
  · exact .inl hcode

end Runs

/-- A service with an access token and a recovery token of user 1, one code that
is always right, and one cookie. -/
def deviceService : Service :=
  { sampleService with
    jwt := sampleSigner [(0, "access", ⟨⟨Uuid.ofNat 1, []⟩, purposeAccess, ""⟩),
      (0, "tmp", ⟨⟨Uuid.ofNat 1, []⟩, purposeRecovery, ""⟩)]
    validateTOTP := fun _ _ code => code = "123456"
    decodeBase64URL := fun text => if text = "cookie" then some (List.replicate 32 9) else none }

/-- One account, whose password is `password`. -/
def deviceTables : ResetTables where
  db :=
    { users :=
        [{ sampleUser 1 "ada" with passwordHash := bytesOf "password" ++ List.replicate 16 0 }] }

/-- An enrolment of the secret that is this byte, twenty times. -/
def enrolled (secret : UInt8) : List DeviceCall :=
  [⟨0, .totpInit "Bearer access" ⟨List.replicate 20 secret, sampleNonce⟩⟩,
    ⟨0, .totpVerify "Bearer access" "123456" []⟩]

/-- A login with a code that remembers the device. -/
def rememberingLogin : DeviceCall :=
  ⟨0, .login ⟨⟨"", ""⟩, "", none, none⟩ ⟨Uuid.ofNat 7, "first", Uuid.ofNat 8, List.replicate 32 9⟩
    ⟨"ada", "password", "123456", true⟩⟩

/-- A login without a code on the remembered device. -/
def skippingRequest (password : String) : LoginRequest := ⟨"ada", password, "", false⟩

def skippingContext : LoginContext := ⟨⟨"", ""⟩, "", none, some "cookie"⟩

def skippingDraw : LoginDraw := ⟨Uuid.ofNat 10, "second", Uuid.ofNat 11, List.replicate 32 3⟩

def skippingLogin (password : String) : DeviceCall :=
  ⟨1, .login skippingContext skippingDraw (skippingRequest password)⟩

/-- A login that is answered with a session while no record is one of now. -/
theorem not_codeSkippedOnly {s : DeviceState} {password : String}
    (hlogin : (login deviceService s.tables.db 1 skippingContext skippingDraw
      (skippingRequest password)).2.toOption.map LoginResponse.userID = some (Uuid.ofNat 1))
    (hsecret : (fetchTOTPSecret s.tables.db (Uuid.ofNat 1)).isSome = true)
    (hnone : s.remembered.any (fun e => s.tables.db.enrolledSecret (Uuid.ofNat 1) =
      some e.secret.secretEnc ∧ e.recoveries = s.recoveries e.userId) = false) :
    ¬ CodeSkippedOnly deviceService RememberedNow s (skippingLogin password) := by
  intro h
  obtain ⟨resp, hresp, huser⟩ := Option.map_eq_some_iff.mp hlogin
  obtain ⟨secret, hfetch⟩ := Option.isSome_iff_exists.mp hsecret
  rw [← huser] at hfetch
  rcases h skippingContext skippingDraw (skippingRequest password) resp secret rfl
    (Reply.toOption_eq_some.mp hresp) hfetch with
    ⟨plain, -, hverify⟩ | ⟨_, _, e, -, -, -, -, -, he, -, -, henc, hrecoveries⟩
  · unfold verifyTOTP at hverify
    split at hverify <;> cases hverify
  · have henrolled := enrolledSecret_of_fetch hfetch
    rw [huser, ← henc] at henrolled
    rw [List.any_eq_false] at hnone
    exact hnone e he (decide_eq_true ⟨henrolled, hrecoveries⟩)

end IronStock

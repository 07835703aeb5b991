import IronStock.Lib.Runs
import IronStock.Requests
import IronStock.RevokedSessions

/-!
# The second factor of a user whose access token is held by somebody else

A party with nothing but an access token of a user sends requests in any order.
The verified secret of the user, and with it the challenge of the login, stay
exactly as long as the party does not start an enrolment.
-/
namespace IronStock

/-! ## The party -/

namespace Request

/-- The header with an access token or a temporary token. -/
def authz : Request → Option String
  | logout authz | logoutAll authz | recoverComplete authz .. | totpInit authz _
  | totpVerify authz .. | totpDisable authz _ | totpRegenerateBackup authz ..
  | changePassword authz .. | createAPIToken authz .. | deleteAPIToken authz _ | admin authz _
  | vault authz _ => some authz
  | login .. | refresh .. | recoverInit .. | scim .. => none

/-- The password a request confirms a change with. -/
def confirmedPassword : Request → Option String
  | totpDisable _ password => some password
  | changePassword _ req _ => some req.currentPassword
  | _ => none

/-- The code a request proves the factor with. -/
def factorCode : Request → Option String
  | totpVerify _ code _ => some code
  | totpRegenerateBackup _ code _ => some code
  | _ => none

/-- `TOTPInit` with a valid token, for a user that exists. -/
def startsEnrolment (svc : Service) (db : DB) (now : Time) : Request → Bool
  | totpInit authz draw =>
    match requireTmpOrAccessToken svc now authz with
    | .error _ => false
    | .ok userID =>
      (db.user? userID).any fun user => (svc.enrollTOTP user.username draw.secret).isSome
  | _ => false

end Request

/-- The request can be sent by a party that holds only access tokens of `u`
without the admin role: no temporary token, not the password of `u`, and no code
of the factor `row`. -/
structure HoldsOnlyAccessToken (svc : Service) (u : Uuid) (row : TotpSecret) (db : DB) (c : Call) :
    Prop where
  token : ∀ authz, c.req.authz = some authz → ∀ token, bearerToken authz = some token →
    ∀ claims, svc.jwt.decode c.now token = some claims →
      claims.subject = u ∧ claims.purpose = purposeAccess ∧ claims.hasRole .admin = false
  password : ∀ password, c.req.confirmedPassword = some password →
    ∀ user, db.user? u = some user → checkPassword svc user password ≠ .ok true
  code : ∀ code, c.req.factorCode = some code →
    ∀ secret, openTOTPSecret svc u row = .ok secret → verifyTOTP svc c.now secret code = false

/-! ## What is kept -/

/-- The verified row is there, and a login with the right password that brings
neither a device cookie nor a code is asked for one; with either, a session is
opened for a trusted device or a right code only. -/
structure SecondFactorKept (svc : Service) (u : Uuid) (row : TotpSecret) (db : DB) : Prop where
  secret : db.totpSecret? u = some row
  challenge : ∀ now ctx draw req user, req.username ≠ "" → req.password ≠ "" →
    fetchUserForLogin db (svc.toLower req.username) = some user → user.id = u →
    loginGate svc now ctx user = none → checkPassword svc user req.password = .ok true →
    ctx.deviceCookie = none → req.totpCode = "" →
    (login svc db now ctx draw req).2 = .error mfaRequired
  session : ∀ now ctx draw req resp, (login svc db now ctx draw req).2 = .ok resp →
    resp.userID = u →
    (verifyTrustedDevice db now u (ctx.deviceCookie.bind (hashDeviceToken svc))).2.isSome = true ∨
      ∃ secret, openTOTPSecret svc u row = .ok secret ∧
        verifyTOTP svc now secret req.totpCode = true

section Kept

variable {svc : Service} {u : Uuid} {row : TotpSecret} {db db' : DB} {now : Time}

theorem verifyTrustedDevice_none (db : DB) (now : Time) (u : Uuid) :
    verifyTrustedDevice db now u none = (db, none) := rfl

/-- The user a finished login answers for. -/
theorem finishLogin_userID {ctx : LoginContext} {draw : LoginDraw} {user : User}
    {resp : LoginResponse} (h : (finishLogin svc db now ctx draw user).2 = .ok resp) :
    resp.userID = user.id := by
  unfold finishLogin at h
  split at h
  · cases h
  · cases h
    rfl

theorem rememberDevice_userID {draw : LoginDraw} {user : User} {r : DB × Reply LoginResponse}
    {resp : LoginResponse} (h : (rememberDevice svc now draw user r).2 = .ok resp) :
    ∃ resp', r.2 = .ok resp' ∧ resp'.userID = resp.userID := by
  unfold rememberDevice at h
  split at h
  · exact ⟨resp, h, rfl⟩
  · next resp' hresp' =>
    split at h
    · exact ⟨resp, h, rfl⟩
    · cases h
      exact ⟨resp', hresp', rfl⟩

/-- A session after the code check has passed it. -/
theorem loginWithCode_session {ctx : LoginContext} {draw : LoginDraw} {user : User}
    {req : LoginRequest} {resp : LoginResponse}
    (h : (loginWithCode svc db now ctx draw user row req).2 = .ok resp) :
    resp.userID = user.id ∧ ∃ secret, openTOTPSecret svc user.id row = .ok secret ∧
      verifyTOTP svc now secret req.totpCode = true := by
  unfold loginWithCode at h
  split at h
  · cases h
  · split at h
    · cases h
    · next secret hsecret =>
      split at h
      · next hverify =>
        refine ⟨?_, secret, hsecret, hverify⟩
        simp only at h
        split at h
        · obtain ⟨resp', hresp', hid⟩ := rememberDevice_userID h
          rw [← hid, finishLogin_userID hresp']
        · exact finishLogin_userID h
      · cases h

/-- Where a user has a verified row, a session means a device or a code. -/
theorem loginFactors_session {ctx : LoginContext} {draw : LoginDraw} {user : User}
    {req : LoginRequest} {resp : LoginResponse}
    (h : (loginFactors svc db now ctx draw user req).2 = .ok resp) :
    resp.userID = user.id ∧ ∀ row, fetchTOTPSecret db user.id = some row →
      (verifyTrustedDevice db now user.id
        (ctx.deviceCookie.bind (hashDeviceToken svc))).2.isSome = true ∨
      ∃ secret, openTOTPSecret svc user.id row = .ok secret ∧
        verifyTOTP svc now secret req.totpCode = true := by
  unfold loginFactors at h
  split at h
  · next hnone =>
    simp only at h
    cases hfinish : (finishLogin svc db now ctx draw user).2 with
    | error e =>
      rw [hfinish] at h
      cases h
    | ok r =>
      rw [hfinish] at h
      have hid : r.userID = user.id := finishLogin_userID hfinish
      cases h
      refine ⟨hid, fun row hrow => ?_⟩
      rw [hnone] at hrow
      cases hrow
  · next row hrow =>
    simp only at h
    split at h
    · next d hd =>
      refine ⟨?_, fun _ _ => .inl (by rw [hd]; rfl)⟩
      split at h
      · next hresp =>
        rw [h] at hresp
        cases hresp
      · next hresp => exact finishLogin_userID h
    · obtain ⟨hid, hcode⟩ := loginWithCode_session h
      refine ⟨hid, fun row' hrow' => .inr ?_⟩
      obtain rfl : row = row' := Option.some.inj (hrow.symm.trans hrow')
      exact hcode

theorem login_session {ctx : LoginContext} {draw : LoginDraw} {req : LoginRequest}
    {resp : LoginResponse} (h : (login svc db now ctx draw req).2 = .ok resp) (row : TotpSecret)
    (hrow : fetchTOTPSecret db resp.userID = some row) :
    (verifyTrustedDevice db now resp.userID
      (ctx.deviceCookie.bind (hashDeviceToken svc))).2.isSome = true ∨
    ∃ secret, openTOTPSecret svc resp.userID row = .ok secret ∧
      verifyTOTP svc now secret req.totpCode = true := by
  unfold login at h
  split at h
  · cases h
  · split at h
    · cases h
    · next user _ =>
      split at h
      · cases h
      · split at h
        · cases h
        · cases h
        · obtain ⟨huser, hsession⟩ := loginFactors_session h
          rw [huser] at hrow ⊢
          exact hsession row hrow

/-- Everything about the login follows from the row. -/
theorem secondFactorKept_iff (hverified : row.verified = true) :
    SecondFactorKept svc u row db ↔ db.totpSecret? u = some row := by
  refine ⟨SecondFactorKept.secret, fun hrow => ⟨hrow, ?_, ?_⟩⟩
  · intro now ctx draw req user hname hpassword hfetch hid hgate hright hcookie hcode
    have hverifiedRow : fetchTOTPSecret db user.id = some row := by
      rw [fetchTOTPSecret, hid, hrow, Option.filter_some, if_pos hverified]
    simp [login, hname, hpassword, hfetch, hgate, hright, loginFactors, hverifiedRow, hcookie,
      verifyTrustedDevice_none, loginWithCode, hcode]
  · intro now ctx draw req resp h hid
    subst hid
    exact login_session h row
      (by rw [fetchTOTPSecret, hrow, Option.filter_some, if_pos hverified])

end Kept

/-! ## One request -/

section Step

variable {svc : Service} {u : Uuid} {row : TotpSecret} {db : DB} {c : Call}

theorem totpSecret?_eq {db' : DB} (h : db'.totpSecrets = db.totpSecrets) (u : Uuid) :
    db'.totpSecret? u = db.totpSecret? u := by
  rw [DB.totpSecret?, DB.totpSecret?, h]

/-- The upsert of an enrolment. -/
theorem totpSecret?_putTOTPSecret (db : DB) (u : Uuid) (enc : Bytes) (nonce : Nonce) :
    (db.putTOTPSecret u enc nonce).totpSecret? u = some ⟨u, enc, nonce, none⟩ :=
  Table.lookup_upsert_self (rfl : TotpSecret.userId ⟨u, enc, nonce, none⟩ = u) db.totpSecrets

/-- The request answers with a new secret exactly if it starts an enrolment. -/
theorem startsEnrolment_iff {authz : String} {draw : TotpDraw} {now : Time} :
    (Request.totpInit authz draw).startsEnrolment svc db now = true ↔
      ∃ r, totpInit svc db now authz draw = .ok r := by
  simp only [Request.startsEnrolment, totpInit, Reply.bind_eq_ok, Reply.orElse_eq_ok,
    Reply.pure_eq_ok]
  constructor
  · intro h
    split at h
    · cases h
    · next userID hauth =>
      cases huser : db.user? userID with
      | none => simp [huser] at h
      | some user =>
        rw [huser, Option.any_some] at h
        obtain ⟨enrolled, henroll⟩ := Option.isSome_iff_exists.mp h
        exact ⟨_, userID, hauth, user, huser, enrolled, henroll, draw.nonce,
          extractNonce_sealBlob _ _ _ _, rfl⟩
  · rintro ⟨r, userID, hauth, user, huser, enrolled, henroll, _⟩
    rw [hauth]
    simp [huser, henroll]

/-- No enrolment, no other row. -/
theorem totpSecret?_step (hparty : HoldsOnlyAccessToken svc u row db c)
    (hrow : db.totpSecret? u = some row)
    (hinit : c.req.startsEnrolment svc db c.now = false) :
    (c.step svc db).totpSecret? u = some row := by
  obtain ⟨now, req⟩ := c
  obtain ⟨htoken, hpassword, hcode⟩ := hparty
  cases hreq : req.ordinary with
  | true => rw [Call.step, totpSecret?_eq (Request.step_kept hreq).totpSecrets, hrow]
  | false =>
    cases req with
    | recoverComplete authz req salt codes =>
      simp only [Call.step, Request.step]
      cases h : recoverComplete svc db now authz req salt codes with
      | error e => exact hrow
      | ok db' =>
        obtain ⟨_, _, hauth, _⟩ := recoverComplete_eq_ok h
        obtain ⟨token, claims, hbearer, hdecode, hpurpose, _⟩ :=
          requireTmpToken_eq_ok (by decide) hauth
        have haccess := (htoken authz rfl token hbearer claims hdecode).2.1
        rw [hpurpose] at haccess
        exact absurd haccess (by decide)
    | totpInit authz draw =>
      simp only [Call.step, Request.step]
      cases h : totpInit svc db now authz draw with
      | error e => exact hrow
      | ok r =>
        rw [startsEnrolment_iff.mpr ⟨r, h⟩] at hinit
        cases hinit
    | totpVerify authz code codes =>
      simp only [Call.step, Request.step]
      cases h : totpVerify svc db now authz code codes with
      | error e => exact hrow
      | ok db' =>
        obtain ⟨user, stored, secret, hauth, _, hstored, hsecret, hverify, _⟩ := totpVerify_eq_ok h
        obtain ⟨token, claims, hbearer, hdecode, hsubject⟩ := requireTmpOrAccessToken_eq_ok hauth
        obtain rfl : u = user :=
          (htoken authz rfl token hbearer claims hdecode).1.symm.trans hsubject
        obtain rfl : row = stored := Option.some.inj (hrow.symm.trans hstored)
        rw [hcode code rfl secret hsecret] at hverify
        cases hverify
    | totpDisable authz password =>
      simp only [Call.step, Request.step]
      rcases totpDisable_cases svc db now authz password with
        ⟨hkept, _⟩ | ⟨claims, user, hauth, huser, hright, _⟩
      · rw [totpSecret?_eq hkept.totpSecrets, hrow]
      · obtain ⟨token, hbearer, hdecode, _⟩ := requireAccessToken_eq_ok hauth
        rw [(htoken authz rfl token hbearer claims hdecode).1] at huser
        exact absurd hright (hpassword password rfl user huser)
    | admin authz op =>
      simp only [Call.step, Request.step]
      cases h : adminRequest svc db now authz op with
      | error e => exact hrow
      | ok db' =>
        simp only [adminRequest, Reply.bind_eq_ok] at h
        obtain ⟨claims, hadmin, _⟩ := h
        obtain ⟨hauth, hrole⟩ := requireAdmin_eq_ok hadmin
        obtain ⟨token, hbearer, hdecode, _⟩ := requireAccessTokenMiddleware_eq_ok hauth
        rw [(htoken authz rfl token hbearer claims hdecode).2.2] at hrole
        cases hrole
    | scim authz op =>
      rw [Call.step, Request.step, totpSecret?_eq
        (scimRequest_effect svc db now authz op).credentials.totpSecrets, hrow]
    | login | refresh | logout | logoutAll | recoverInit | totpRegenerateBackup | changePassword
    | createAPIToken | deleteAPIToken | vault => cases hreq

/-- An enrolment leaves a row that is not verified. -/
theorem totpSecret?_step_startsEnrolment (hparty : HoldsOnlyAccessToken svc u row db c)
    (hinit : c.req.startsEnrolment svc db c.now = true) :
    ∃ r, (c.step svc db).totpSecret? u = some r ∧ r.verified = false := by
  obtain ⟨now, req⟩ := c
  cases req with
  | totpInit authz draw =>
    obtain ⟨⟨db', resp⟩, h⟩ := startsEnrolment_iff.mp hinit
    obtain ⟨user, enc, hauth, _, hdb'⟩ := totpInit_eq_ok h
    obtain ⟨token, claims, hbearer, hdecode, hsubject⟩ := requireTmpOrAccessToken_eq_ok hauth
    obtain rfl : u = user := (hparty.token authz rfl token hbearer claims hdecode).1.symm.trans
      hsubject
    refine ⟨⟨u, enc, draw.nonce, none⟩, ?_, rfl⟩
    have hstep : Call.step svc db ⟨now, .totpInit authz draw⟩ = db' := by
      simp only [Call.step, Request.step, h]
      rfl
    rw [hstep, hdb']
    exact totpSecret?_putTOTPSecret db u enc draw.nonce
  | login | refresh | logout | logoutAll | recoverInit | recoverComplete | totpVerify | totpDisable
  | totpRegenerateBackup | changePassword | createAPIToken | deleteAPIToken | admin | scim
  | vault => cases hinit

end Step

/-! ## Runs -/

/-- In every run of such requests the verified secret and the challenge stay
throughout exactly if no request of it starts an enrolment. -/
theorem second_factor_kept_iff (svc : Service) (u : Uuid) (row : TotpSecret) (db : DB)
    (calls : List Call) (hverified : row.verified = true) (hrow : db.totpSecret? u = some row)
    (hparty : Runs.Every (Call.step svc) (HoldsOnlyAccessToken svc u row) db calls) :
    Runs.Along (Call.step svc) (SecondFactorKept svc u row) db calls ↔
      Runs.Every (Call.step svc)
        (fun db c => c.req.startsEnrolment svc db c.now = false) db calls := by
  have hstep : ∀ db c, SecondFactorKept svc u row db → HoldsOnlyAccessToken svc u row db c →
      (SecondFactorKept svc u row (c.step svc db) ↔
        c.req.startsEnrolment svc db c.now = false) := by
    intro db c hkept hc
    rw [secondFactorKept_iff hverified]
    constructor
    · intro hafter
      rw [← Bool.not_eq_true]
      intro hinit
      obtain ⟨r, hr, hunverified⟩ := totpSecret?_step_startsEnrolment hc hinit
      obtain rfl : r = row := Option.some.inj (hr.symm.trans hafter)
      rw [hverified] at hunverified
      cases hunverified
    · exact totpSecret?_step hc hkept.secret
  exact Runs.along_iff_every (J := fun _ => True) (fun _ _ _ _ => trivial)
    (fun db c _ => hstep db c) calls trivial ((secondFactorKept_iff hverified).mpr hrow) hparty

/-- The verified secret of user 1, whose access token the party holds. -/
def factorRow : TotpSecret where
  userId := Uuid.ofNat 1
  secretEnc := tokenService.master.sealBlob sampleNonce (List.replicate 20 7)
    (makeAAD "totp_secrets" (Uuid.ofNat 1).text "secret_enc")
  nonce := sampleNonce
  verifiedAt := some 0

def factorState : DB where
  users := [sampleUser 1 "owner"]
  totpSecrets := [factorRow]

/-- No other token is ever sent. -/
theorem decode_sampleAccessToken {claims : TokenClaims} {token : String} {now : Time}
    (h : tokenService.jwt.decode now token = some claims) : claims = sampleAccessClaims := by
  simp only [tokenService, sampleSigner] at h
  split at h
  · cases h
  · simp only [List.find?_singleton, Option.map_eq_some_iff] at h
    obtain ⟨t, ht, rfl⟩ := h
    split at ht
    · cases ht
      rfl
    · cases ht

/-- A party that logs out and guesses the password of a removal. -/
theorem second_factor_kept_iff_guess :
    Runs.Along (Call.step tokenService) (SecondFactorKept tokenService (Uuid.ofNat 1) factorRow)
      factorState
      [⟨1, .logoutAll ("Bearer " ++ sampleAccessToken)⟩,
        ⟨2, .totpVerify ("Bearer " ++ sampleAccessToken) "000000" []⟩] := by
  refine (second_factor_kept_iff tokenService (Uuid.ofNat 1) factorRow factorState _ rfl rfl
    ?_).mpr ⟨rfl, rfl, trivial⟩
  refine ⟨⟨fun _ _ _ _ claims h => ?_, nofun, nofun⟩, ⟨fun _ _ _ _ claims h => ?_, nofun, ?_⟩,
    trivial⟩
  · rw [decode_sampleAccessToken h]
    exact ⟨rfl, rfl, rfl⟩
  · rw [decode_sampleAccessToken h]
    exact ⟨rfl, rfl, rfl⟩
  · intro code _ secret _
    unfold verifyTOTP
    split <;> rfl

/-- The access token alone replaces the verified secret. -/
theorem second_factor_replaced :
    ¬ ∀ (svc : Service) (u : Uuid) (row : TotpSecret) (db : DB) (calls : List Call),
      row.verified = true → db.totpSecret? u = some row →
      Runs.Every (Call.step svc) (HoldsOnlyAccessToken svc u row) db calls →
      Runs.Along (Call.step svc) (SecondFactorKept svc u row) db calls := by
  intro h
  have hparty : HoldsOnlyAccessToken tokenService (Uuid.ofNat 1) factorRow factorState
      ⟨1, .totpInit ("Bearer " ++ sampleAccessToken) ⟨[1], sampleNonce⟩⟩ := by
    refine ⟨fun _ _ _ _ claims h => ?_, nofun, nofun⟩
    rw [decode_sampleAccessToken h]
    exact ⟨rfl, rfl, rfl⟩
  have hinit : (Request.totpInit ("Bearer " ++ sampleAccessToken)
      ⟨[1], sampleNonce⟩).startsEnrolment tokenService factorState 1 = true := by
    rw [Request.startsEnrolment, requireTmpOrAccessToken_of_parse parse_sampleAccessToken]
    rfl
  have hkept := (h tokenService (Uuid.ofNat 1) factorRow factorState
    [⟨1, .totpInit ("Bearer " ++ sampleAccessToken) ⟨[1], sampleNonce⟩⟩] rfl rfl
    ⟨hparty, trivial⟩).2.head
  obtain ⟨r, hr, hunverified⟩ := totpSecret?_step_startsEnrolment hparty hinit
  obtain rfl : r = factorRow := Option.some.inj (hr.symm.trans hkept.secret)
  cases hunverified

end IronStock

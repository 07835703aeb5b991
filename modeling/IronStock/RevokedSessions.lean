import IronStock.Sessions

/-!
# Revoked sessions and the front ends

An access token names the session it was issued for. The middleware looks that
session up; the other front ends read the token alone. They agree on a token
exactly as long as its session is open.
-/
namespace IronStock

inductive FrontEnd
  | middleware
  | handler
  | websocket
  | scan
deriving DecidableEq, Repr

/-- A request that carries this access token as its only credential is let
through. -/
def FrontEnd.accepts (svc : Service) (db : DB) (ts : TicketStore) (now : Time) (redisUp : Bool)
    (token : String) : FrontEnd → Bool
  | middleware => (requireAccessTokenMiddleware svc db now ("Bearer " ++ token)).isOk
  | handler => (requireAccessToken svc now ("Bearer " ++ token)).isOk
  | websocket => (resolveConnectAuth svc ts now redisUp "" ("Bearer " ++ token)).2.isOk
  | scan => (resolveScanActor svc db now ("Bearer " ++ token)).2 ≠ ""

/-- The id names a row of `sessions` that is not revoked. -/
def DB.hasOpenSession (db : DB) (sessionID : String) : Bool :=
  ((castUuid sessionID).bind db.session?).any (·.isOpen)

theorem checkSession_isOk (db : DB) (sessionID : String) :
    (checkSession db sessionID).isOk = db.hasOpenSession sessionID := by
  unfold checkSession DB.hasOpenSession
  cases (castUuid sessionID).bind db.session? with
  | none => rfl
  | some s => cases hs : s.isOpen <;> simp [Except.isOk, Except.toBool, hs]

/-- A token of a revoked or missing session is refused everywhere, and every
front end accepts the token or none does. -/
structure RevocationHolds (svc : Service) (db : DB) (ts : TicketStore) (now : Time)
    (redisUp : Bool) (token : String) (claims : TokenClaims) : Prop where
  refused : claims.id ≠ "" → db.hasOpenSession claims.id = false →
    ∀ f : FrontEnd, f.accepts svc db ts now redisUp token = false
  agree : ∀ f g : FrontEnd,
    f.accepts svc db ts now redisUp token = g.accepts svc db ts now redisUp token

section Accepts

variable {svc : Service} {db : DB} {ts : TicketStore} {now : Time} {redisUp : Bool}
  {token : String} {claims : TokenClaims}

/-- The inline check sees the signature and the purpose only. -/
theorem requireAccessToken_of_parse (h : svc.jwt.parse now token purposeAccess = .ok claims) :
    requireAccessToken svc now ("Bearer " ++ token) = .ok claims := by
  have hne : token ≠ "" := JWTSigner.ne_empty_of_parse h
  simp [requireAccessToken, bearerToken_bearer hne, h, Except.toOption]

/-- An access token also passes where an enrolment token is tried first. -/
theorem requireTmpOrAccessToken_of_parse (h : svc.jwt.parse now token purposeAccess = .ok claims) :
    requireTmpOrAccessToken svc now ("Bearer " ++ token) = .ok claims.subject := by
  have hne : token ≠ "" := JWTSigner.ne_empty_of_parse h
  obtain ⟨hdecode, hpurpose⟩ := JWTSigner.parse_access.mp h
  have henrol : svc.jwt.parse now token purposeTOTPEnroll = .error .wrongPurpose := by
    have hdiffer : purposeTOTPEnroll ≠ "" ∧ purposeAccess ≠ purposeTOTPEnroll := by decide
    rw [JWTSigner.parse, hdecode]
    simp [hpurpose, hdiffer]
  simp [requireTmpOrAccessToken, bearerToken_bearer hne, h, henrol, Except.toOption, Reply.orElse]

/-- The middleware also asks for an open session, if the token names one. -/
theorem requireAccessTokenMiddleware_of_parse
    (h : svc.jwt.parse now token purposeAccess = .ok claims) :
    requireAccessTokenMiddleware svc db now ("Bearer " ++ token) =
      if claims.id = "" ∨ db.hasOpenSession claims.id = true then .ok claims
      else .error middlewareUnauthorized := by
  have hne : token ≠ "" := JWTSigner.ne_empty_of_parse h
  have hstart : requireAccessTokenMiddleware svc db now ("Bearer " ++ token) =
      (if claims.id ≠ "" then
        Reply.require (db.hasOpenSession claims.id = true) middlewareUnauthorized else .ok ()) >>=
          fun _ => .ok claims := by
    simp only [requireAccessTokenMiddleware, bearerToken_bearer hne, Reply.orElse, bind,
      Except.bind, h, Except.toOption, checkSession_isOk]
    split <;> rfl
  rw [hstart]
  by_cases hid : claims.id = ""
  · simp [hid, bind, Except.bind]
  · cases hopen : db.hasOpenSession claims.id <;>
      simp [hid, Reply.require, bind, Except.bind]

theorem middleware_accepts (h : svc.jwt.parse now token purposeAccess = .ok claims) :
    FrontEnd.middleware.accepts svc db ts now redisUp token =
      (claims.id = "" || db.hasOpenSession claims.id) := by
  rw [FrontEnd.accepts, requireAccessTokenMiddleware_of_parse h, Bool.eq_iff_iff]
  split
  · next hopen => simpa [Except.isOk, Except.toBool] using hopen
  · next hclosed => simpa [Except.isOk, Except.toBool, not_or] using hclosed

theorem handler_accepts (h : svc.jwt.parse now token purposeAccess = .ok claims) :
    FrontEnd.handler.accepts svc db ts now redisUp token = true := by
  rw [FrontEnd.accepts, requireAccessToken_of_parse h]
  rfl

theorem websocket_accepts (h : svc.jwt.parse now token purposeAccess = .ok claims) :
    FrontEnd.websocket.accepts svc db ts now redisUp token = true := by
  have hne : token ≠ "" := JWTSigner.ne_empty_of_parse h
  simp [FrontEnd.accepts, resolveConnectAuth, bearerToken_bearer hne, h, Except.isOk,
    Except.toBool]

theorem scan_accepts (h : svc.jwt.parse now token purposeAccess = .ok claims) :
    FrontEnd.scan.accepts svc db ts now redisUp token = true := by
  simp [FrontEnd.accepts, resolveScanActor, h, Uuid.text_ne_empty]

/-- The token of an open session, or one that names no session, passes all four;
any other passes the three that do not look. -/
theorem accepts_eq (h : svc.jwt.parse now token purposeAccess = .ok claims) (f : FrontEnd) :
    f.accepts svc db ts now redisUp token =
      (f ≠ .middleware || claims.id = "" || db.hasOpenSession claims.id) := by
  cases f with
  | middleware => simpa using middleware_accepts h
  | handler => simpa using handler_accepts h
  | websocket => simpa using websocket_accepts h
  | scan => simpa using scan_accepts h

/-- In every state and for every access token, the front ends honour the
revocation exactly if there is none: the session is open, or the token names
no session. -/
theorem revocation_holds_iff_session_open
    (h : svc.jwt.parse now token purposeAccess = .ok claims) :
    RevocationHolds svc db ts now redisUp token claims ↔
      claims.id = "" ∨ db.hasOpenSession claims.id = true := by
  constructor
  · intro hold
    have hsame := hold.agree .middleware .handler
    rw [middleware_accepts h, handler_accepts h] at hsame
    simpa using hsame
  · intro hopen
    have hall : ∀ f : FrontEnd, f.accepts svc db ts now redisUp token = true := by
      intro f
      rw [accepts_eq h, Bool.or_assoc, Bool.or_eq_true]
      exact .inr (by simpa using hopen)
    refine ⟨?_, fun f g => (hall f).trans (hall g).symm⟩
    intro hid hclosed
    rcases hopen with hempty | hopen
    · exact absurd hempty hid
    · rw [hopen] at hclosed
      cases hclosed

end Accepts

/-! ## A token that outlives its session -/

theorem hasOpenSession_of_revoked {db : DB} {now : Time} {reason : RevokeReason}
    {sessionID : String} {id : Uuid} (hid : castUuid sessionID = some id) :
    (db.revokeSessions now reason (·.id = id)).hasOpenSession sessionID = false := by
  rw [DB.hasOpenSession, hid, Option.bind_some, session?_revokeSessions]
  cases hs : db.session? id with
  | none => rfl
  | some s =>
    obtain ⟨_, hkey⟩ := Table.lookup_eq_some hs
    cases hopen : s.isOpen <;> simp [hkey, hopen]

/-- A logout goes through once the token names a session by a uuid. -/
theorem exists_logout {svc : Service} {db : DB} {now : Time} {authz : String}
    {claims : TokenClaims} {id : Uuid} (hauth : requireAccessToken svc now authz = .ok claims)
    (hid : castUuid claims.id = some id) : ∃ db', logout svc db now authz = .ok db' := by
  simp only [logout, hauth, revokeSession, hid, bind, Except.bind, Except.toOption, Reply.orElse]
  exact ⟨_, rfl⟩

/-- A logout closes the session of its token. -/
theorem logout_eq_ok {svc : Service} {db db' : DB} {now : Time} {authz : String}
    {claims : TokenClaims} (hauth : requireAccessToken svc now authz = .ok claims)
    (h : logout svc db now authz = .ok db') : db'.hasOpenSession claims.id = false := by
  simp only [logout, Reply.bind_eq_ok, Reply.orElse_eq_ok, Reply.pure_eq_ok] at h
  obtain ⟨c, hc, db₁, hrevoke, rfl⟩ := h
  obtain rfl : claims = c := Except.ok.inj (hauth.symm.trans hc)
  unfold revokeSession at hrevoke
  cases hid : castUuid claims.id with
  | none =>
    rw [hid] at hrevoke
    cases hrevoke
  | some id =>
    rw [hid] at hrevoke
    obtain rfl := Option.some.inj hrevoke
    exact hasOpenSession_of_revoked hid

/-- An access token of user 1 for session 7, issued at the epoch under the key
of thirty-two letters `a`. -/
def sampleAccessToken : String :=
  "eyJhbGciOiJIUzI1NiIsInR5cCI6IkpXVCJ9" ++ "." ++
    "eyJwdXJwb3NlIjoiYWNjZXNzIiwiaXNzIjoiZW52YW50ZXItYXBpIiwic3ViIjoiMDAwMDAwMDAtMDAwMC0wMDAw" ++
    "LTAwMDAtMDAwMDAwMDAwMDAxIiwiZXhwIjo5MDAsIm5iZiI6MCwiaWF0IjowLCJqdGkiOiIwMDAwMDAwMC0wMDAw" ++
    "LTAwMDAtMDAwMC0wMDAwMDAwMDAwMDcifQ" ++ "." ++
    "1gBWqjkgxnnzvgpYcJ4lHuxZ-alLhmak31IQ45DsfTo"

def sampleAccessClaims : TokenClaims := ⟨⟨Uuid.ofNat 1, []⟩, purposeAccess, (Uuid.ofNat 7).text⟩

def tokenService : Service :=
  { sampleService with jwt := sampleSigner [(0, sampleAccessToken, sampleAccessClaims)] }

/-- Session 7 of user 1. -/
def sampleSession : Session where
  id := Uuid.ofNat 7
  userId := Uuid.ofNat 1
  refreshTokenHash := ⟨List.replicate 32 0, rfl⟩
  userAgent := none
  ipAddress := none
  expiresAt := 7 * 24 * 60 * 60 * 1000000
  revoked := none

def sessionState : DB where
  users := [sampleUser 1 "owner"]
  sessions := [sampleSession]

theorem parse_sampleAccessToken :
    tokenService.jwt.parse 1 sampleAccessToken purposeAccess = .ok sampleAccessClaims := by
  have hne : sampleAccessToken ≠ "" := by
    intro h
    have hparts := String.append_eq_empty_iff.mp h
    exact absurd hparts.2 (by decide)
  have hlive : (1 : Time) < accessTokenLifetime := by decide
  rw [JWTSigner.parse_access]
  exact ⟨by simp [tokenService, sampleSigner, hne, hlive], rfl⟩

/-- While session 7 is open, the token passes everywhere. -/
theorem revocation_holds_iff_session_open_before_logout :
    RevocationHolds tokenService sessionState ⟨none, []⟩ 1 false sampleAccessToken
      sampleAccessClaims :=
  (revocation_holds_iff_session_open parse_sampleAccessToken).mpr (by decide)

/-- After the logout of session 7 its token still passes the check inside the
handlers. -/
theorem logout_leaves_token :
    ¬ ∀ (svc : Service) (db : DB) (ts : TicketStore) (now : Time) (redisUp : Bool)
      (token : String) (claims : TokenClaims),
      svc.jwt.parse now token purposeAccess = .ok claims →
        RevocationHolds svc db ts now redisUp token claims := by
  intro h
  have hauth := requireAccessToken_of_parse parse_sampleAccessToken
  obtain ⟨db, hlogout⟩ : ∃ db,
      logout tokenService sessionState 1 ("Bearer " ++ sampleAccessToken) = .ok db :=
    exists_logout hauth (castUuid_text (Uuid.ofNat 7))
  have hclosed := logout_eq_ok hauth hlogout
  have hold := h tokenService db ⟨none, []⟩ 1 false sampleAccessToken sampleAccessClaims
    parse_sampleAccessToken
  have hrefused := hold.refused (Uuid.text_ne_empty _) hclosed .handler
  rw [handler_accepts parse_sampleAccessToken] at hrefused
  cases hrefused

end IronStock

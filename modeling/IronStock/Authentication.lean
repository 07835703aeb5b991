import IronStock.Service

/-!
# Who a request is from

The four functions that take a caller from an `Authorization` header: the
middleware of the router, the check inside the authentication handlers, the
websocket upgrade and the secret scan.
-/
namespace IronStock

/-- What follows `Bearer ` in the header. -/
def cutBearer (authz : String) : Option String :=
  ("Bearer ".toList.isPrefixOf? authz.toList).map String.ofList

@[simp] theorem cutBearer_bearer (token : String) :
    cutBearer ("Bearer " ++ token) = some token := by
  simp [cutBearer, String.toList_append]

/-- `len(authz) > len(prefix) && authz[:len(prefix)] == prefix`. -/
def bearerToken (authz : String) : Option String := (cutBearer authz).filter (· ≠ "")

theorem bearerToken_bearer {token : String} (h : token ≠ "") :
    bearerToken ("Bearer " ++ token) = some token := by
  simp [bearerToken, h]

/-! ## The middleware -/

inductive SessionError
  | notFound
  | revoked
deriving DecidableEq, Repr

/-- `NewDBSessionChecker`. -/
def checkSession (db : DB) (sessionID : String) : Except SessionError Unit :=
  match (castUuid sessionID).bind db.session? with
  | none => .error .notFound
  | some s => if s.isOpen then .ok () else .error .revoked

def middlewareUnauthorized : ApiError := ⟨401, errCodeUnauthorized, "Token gerekli."⟩

/-- `RequireAccessToken`, with the session checker as the router installs it. -/
def requireAccessTokenMiddleware (svc : Service) (db : DB) (now : Time) (authz : String) :
    Reply TokenClaims := do
  let token ← Reply.orElse (bearerToken authz) middlewareUnauthorized
  let claims ← Reply.orElse (svc.jwt.parse now token purposeAccess).toOption middlewareUnauthorized
  if claims.id ≠ "" then
    Reply.require ((checkSession db claims.id).isOk = true) middlewareUnauthorized
  return claims

/-! ## The check inside handlers -/

def headerMissing : ApiError := ⟨401, errCodeUnauthorized, "Authorization header eksik."⟩

/-- `requireAccessToken`. -/
def requireAccessToken (svc : Service) (now : Time) (authz : String) : Reply TokenClaims := do
  let token ← Reply.orElse (bearerToken authz) headerMissing
  Reply.orElse (svc.jwt.parse now token purposeAccess).toOption
    ⟨401, errCodeInvalidToken, "Token geçersiz."⟩

/-- `requireTmpToken`: the user the token was issued to. -/
def requireTmpToken (svc : Service) (now : Time) (authz expected : String) : Reply Uuid := do
  let token ← Reply.orElse (bearerToken authz) headerMissing
  let claims ← Reply.orElse (svc.jwt.parse now token expected).toOption
    ⟨401, errCodeInvalidToken, "Token geçersiz."⟩
  return claims.subject

/-- `requireTmpOrAccessToken`: the enrolment token is tried first. -/
def requireTmpOrAccessToken (svc : Service) (now : Time) (authz : String) : Reply Uuid := do
  let token ← Reply.orElse (bearerToken authz) headerMissing
  let claims ← Reply.orElse
    ((svc.jwt.parse now token purposeTOTPEnroll).toOption <|>
      (svc.jwt.parse now token purposeAccess).toOption)
    ⟨401, errCodeInvalidToken, "Token geçersiz veya süresi dolmuş."⟩
  return claims.subject

/-! ## What a passed check has seen -/

section Passed

variable {svc : Service} {db : DB} {now : Time} {authz : String}

theorem requireAccessTokenMiddleware_eq_ok {claims : TokenClaims}
    (h : requireAccessTokenMiddleware svc db now authz = .ok claims) :
    ∃ token, bearerToken authz = some token ∧ svc.jwt.decode now token = some claims ∧
      claims.purpose = purposeAccess := by
  simp only [requireAccessTokenMiddleware, Reply.bind_eq_ok, Reply.orElse_eq_ok,
    Reply.toOption_eq_some] at h
  obtain ⟨token, htoken, c, hparse, h⟩ := h
  have hc : c = claims := by
    split at h
    · simp only [Reply.bind_eq_ok, Reply.pure_eq_ok] at h
      exact h.choose_spec.2
    · simpa using h
  rw [JWTSigner.parse_access, hc] at hparse
  exact ⟨token, htoken, hparse⟩

theorem requireAccessToken_eq_ok {claims : TokenClaims}
    (h : requireAccessToken svc now authz = .ok claims) :
    ∃ token, bearerToken authz = some token ∧ svc.jwt.decode now token = some claims ∧
      claims.purpose = purposeAccess := by
  simp only [requireAccessToken, Reply.bind_eq_ok, Reply.orElse_eq_ok,
    Reply.toOption_eq_some] at h
  obtain ⟨token, htoken, hparse⟩ := h
  exact ⟨token, htoken, JWTSigner.parse_access.mp hparse⟩

theorem requireTmpToken_eq_ok {expected : String} {user : Uuid}
    (hne : expected ≠ "") (h : requireTmpToken svc now authz expected = .ok user) :
    ∃ token claims, bearerToken authz = some token ∧ svc.jwt.decode now token = some claims ∧
      claims.purpose = expected ∧ claims.subject = user := by
  simp only [requireTmpToken, Reply.bind_eq_ok, Reply.orElse_eq_ok, Reply.toOption_eq_some,
    Reply.pure_eq_ok] at h
  obtain ⟨token, htoken, claims, hparse, hsubject⟩ := h
  obtain ⟨hdecode, hpurpose⟩ := (JWTSigner.parse_eq_ok hne).mp hparse
  exact ⟨token, claims, htoken, hdecode, hpurpose, hsubject⟩

theorem requireTmpOrAccessToken_eq_ok {user : Uuid}
    (h : requireTmpOrAccessToken svc now authz = .ok user) :
    ∃ token claims, bearerToken authz = some token ∧ svc.jwt.decode now token = some claims ∧
      claims.subject = user := by
  simp only [requireTmpOrAccessToken, Reply.bind_eq_ok, Reply.orElse_eq_ok,
    Reply.pure_eq_ok] at h
  obtain ⟨token, htoken, claims, hparse, hsubject⟩ := h
  refine ⟨token, claims, htoken, ?_, hsubject⟩
  have hdecoded : ∀ purpose, purpose ≠ "" →
      (svc.jwt.parse now token purpose).toOption = some claims →
      svc.jwt.decode now token = some claims := fun purpose hne hp =>
    ((JWTSigner.parse_eq_ok hne).mp (Reply.toOption_eq_some.mp hp)).1
  cases htmp : (svc.jwt.parse now token purposeTOTPEnroll).toOption with
  | some c =>
    rw [htmp] at hparse
    obtain rfl : c = claims := Option.some.inj hparse
    exact hdecoded purposeTOTPEnroll (by decide) htmp
  | none =>
    rw [htmp] at hparse
    exact hdecoded purposeAccess (by decide) hparse

end Passed

/-! ## The websocket upgrade -/

structure TicketEntry where
  ticket : String
  userID : String
  expiresAt : Time
deriving DecidableEq

/-- `ws.TicketStore`: the tickets in memory and, if configured, in Redis. -/
structure TicketStore where
  redis : Option (List TicketEntry)
  tickets : List TicketEntry
deriving DecidableEq

def ticketTTL : Time := 30 * 1000000

namespace TicketStore

/-- `Issue` with the ticket it drew; Redis answers if `redisUp`. -/
def issue (ts : TicketStore) (now : Time) (redisUp : Bool) (token userID : String) : TicketStore :=
  let entry : TicketEntry := ⟨token, userID, now + ticketTTL⟩
  match ts.redis, redisUp with
  | some entries, true => { ts with redis := some (entry :: entries) }
  | _, _ => { ts with tickets := entry :: ts.tickets }

/-- `Consume`: a ticket is gone once it is presented. -/
def consume (ts : TicketStore) (now : Time) (redisUp : Bool) (token : String) :
    TicketStore × Option String :=
  match ts.redis, redisUp with
  | some entries, true =>
    ({ ts with redis := some (entries.filter (·.ticket ≠ token)) },
      (entries.find? fun e => e.ticket = token ∧ now < e.expiresAt).map TicketEntry.userID)
  | _, _ =>
    ({ ts with tickets := ts.tickets.filter (·.ticket ≠ token) },
      (ts.tickets.find? fun e => e.ticket = token).bind fun e =>
        if e.expiresAt < now then none else some e.userID)

end TicketStore

inductive ConnectError
  | ticketInvalid
  | token (e : JWTError)
  | missing
deriving DecidableEq, Repr

/-- `resolveConnectAuth`: the `ticket` of the query goes before the header. -/
def resolveConnectAuth (svc : Service) (ts : TicketStore) (now : Time) (redisUp : Bool)
    (ticket authz : String) : TicketStore × Except ConnectError String :=
  if ticket ≠ "" then
    let r := ts.consume now redisUp ticket
    (r.1, match r.2 with | some userID => .ok userID | none => .error .ticketInvalid)
  else
    (ts, match bearerToken authz with
      | none => .error .missing
      | some token =>
        match svc.jwt.parse now token purposeAccess with
        | .ok claims => .ok claims.subject.text
        | .error e => .error (.token e))

/-! ## The secret scan -/

/-- The row of `api_tokens` with the hash of this text. -/
def findApiToken (svc : Service) (db : DB) (token : String) : Option ApiToken :=
  db.apiTokens.find? (·.tokenHash = (svc.sha256 (bytesOf token)).bytes)

/-- `expires_at` is set and past. -/
def ApiToken.isExpired (t : ApiToken) (now : Time) : Bool := t.expiresAt.any (· < now)

/-- `UPDATE api_tokens SET last_used_at = now() WHERE token_hash = …`. -/
def DB.touchApiToken (db : DB) (now : Time) (t : ApiToken) : DB :=
  let touch (r : ApiToken) : ApiToken := { r with lastUsedAt := some now }
  { db with apiTokens := Table.updateWhere (·.tokenHash = t.tokenHash) touch db.apiTokens }

/-- `resolveScanActor`: an access token, else an API token; the empty text is
nobody. -/
def resolveScanActor (svc : Service) (db : DB) (now : Time) (authz : String) : DB × String :=
  match cutBearer authz with
  | none => (db, "")
  | some rawToken =>
    match svc.jwt.parse now rawToken purposeAccess with
    | .ok claims => (db, claims.subject.text)
    | .error _ =>
      match findApiToken svc db rawToken with
      | none => (db, "")
      | some t =>
        if t.scope ≠ .scan ∧ t.scope ≠ .read then (db, "")
        else if t.isExpired now then (db, "")
        else (db.touchApiToken now t, t.userId.text)

end IronStock

import IronStock.LoginHandlers

/-!
# Refresh

`auth_refresh.go`: what the lookup of a refresh token leads to, and a request
that is served without interruption.
-/
namespace IronStock

/-- What the handler does after the lookup. -/
inductive RefreshDecision
  | refuse (e : ApiError)
  | reuse (row : Session)
  | rotate (row : Session)
deriving DecidableEq

/-- The first statement and the checks on the row it returns: a revoked row is
a reuse, an expired one is refused. -/
def decideRefresh (svc : Service) (db : DB) (now : Time) (refreshToken : String) :
    RefreshDecision :=
  if refreshToken = "" then .refuse (badRequest "refresh_token zorunlu.")
  else
    match lookupSessionByRefreshHash db (hashRefresh svc refreshToken) with
    | none => .refuse invalidCreds
    | some row =>
      if row.isOpen = false then .reuse row
      else if row.expiresAt < now then .refuse invalidCreds
      else .rotate row

structure RefreshDraw where
  sessionID : Uuid
  refreshToken : String

structure RefreshResponse where
  accessToken : String
  refreshToken : String
deriving DecidableEq

/-- `bindingChanged`: a stored address or agent that is not the request's. -/
def bindingChanged (row : Session) (client : ClientInfo) : Bool :=
  row.ipAddress.any (fun ip => ip ≠ "" ∧ ip ≠ client.ipAddress) ||
    row.userAgent.any (fun ua => ua ≠ "" ∧ ua ≠ client.userAgent)

/-- The entry of a changed address or agent; the request goes on. -/
def flagBinding (db : DB) (row : Session) (client : ClientInfo) : DB :=
  if bindingChanged row client then
    db.audit ⟨row.userId.text, "auth.session_binding_changed", "session", row.id.text⟩
  else db

/-- The transaction of a rotation: the revoking UPDATE, whose count of rows is
not looked at, and the INSERT. -/
def rotateSession (svc : Service) (db : DB) (now : Time) (row : Session) (client : ClientInfo)
    (draw : RefreshDraw) : Except PgError DB :=
  createSession (db.revokeSessions now .rotation (·.id = row.id)) draw.sessionID row.userId
    (hashRefresh svc draw.refreshToken) client (now + refreshTokenLifetime)

/-- `Refresh`, one request at a time. -/
def refresh (svc : Service) (db : DB) (now : Time) (client : ClientInfo) (refreshToken : String)
    (draw : RefreshDraw) : DB × Reply RefreshResponse :=
  match decideRefresh svc db now refreshToken with
  | .refuse e => (db, .error e)
  | .reuse row =>
    ((revokeAllUserSessions db now row.userId .reuseDetected).audit
      ⟨row.userId.text, "auth.refresh_reuse_detected", "session", row.id.text⟩,
      .error invalidCreds)
  | .rotate row =>
    let flagged := flagBinding db row client
    match rotateSession svc flagged now row client draw with
    | .error _ => (flagged, .error (internalError "Yeni oturum oluşturulamadı."))
    | .ok db' =>
      let token := svc.jwt.issueAccess now row.userId draw.sessionID.text
        (fetchUserRoles db' row.userId)
      (db'.audit ⟨row.userId.text, "auth.refresh", "session", draw.sessionID.text⟩,
        .ok ⟨token, draw.refreshToken⟩)

section Decision

variable {svc : Service} {db : DB} {now : Time} {refreshToken : String} {row : Session}

theorem decideRefresh_rotate (h : decideRefresh svc db now refreshToken = .rotate row) :
    row ∈ db.sessions ∧ row.isOpen = true ∧ now ≤ row.expiresAt := by
  unfold decideRefresh at h
  split at h
  · cases h
  · split at h
    · cases h
    · next r hr =>
      split at h
      · cases h
      · next hopen =>
        split at h
        · cases h
        · next hlive =>
          cases h
          exact ⟨(Table.lookup_eq_some hr).1, by simpa using hopen, Int.not_lt.mp hlive⟩

end Decision

end IronStock

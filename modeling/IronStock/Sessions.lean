import IronStock.Authentication

/-!
# Sessions

The statements of `internal/auth/session.go`, one row a refresh token, and the
two handlers that end sessions on request.
-/
namespace IronStock

/-- `strings` that are NULL when empty. -/
def nullableString (s : String) : Option String := if s = "" then none else some s

/-- The column `user_agent` and `ip_address` values of a request. -/
structure ClientInfo where
  userAgent : String
  ipAddress : String
deriving DecidableEq

namespace Session

/-- Usable: not revoked, and `expires_at` lies ahead. -/
def isActive (s : Session) (now : Time) : Bool := s.isOpen && now < s.expiresAt

def revoke (s : Session) (now : Time) (reason : RevokeReason) : Session :=
  { s with revoked := some (now, reason) }

@[simp] theorem revoke_id (s : Session) (now : Time) (r : RevokeReason) :
    (s.revoke now r).id = s.id := rfl
@[simp] theorem revoke_userId (s : Session) (now : Time) (r : RevokeReason) :
    (s.revoke now r).userId = s.userId := rfl
@[simp] theorem revoke_refreshTokenHash (s : Session) (now : Time) (r : RevokeReason) :
    (s.revoke now r).refreshTokenHash = s.refreshTokenHash := rfl
@[simp] theorem revoke_isOpen (s : Session) (now : Time) (r : RevokeReason) :
    (s.revoke now r).isOpen = false := rfl
@[simp] theorem revoke_isActive (s : Session) (now t : Time) (r : RevokeReason) :
    (s.revoke now r).isActive t = false := rfl

end Session

/-- `UPDATE sessions SET revoked_at = now(), revoke_reason = … WHERE … AND
revoked_at IS NULL`. -/
def DB.revokeSessions (db : DB) (now : Time) (reason : RevokeReason) (p : Session → Bool) : DB :=
  let sessions := Table.updateWhere (fun s => p s && s.isOpen) (·.revoke now reason) db.sessions
  { db with sessions }

def revokeSession (db : DB) (now : Time) (sessionID : String) (reason : RevokeReason) :
    Except PgError DB :=
  match castUuid sessionID with
  | none => .error .invalidText
  | some id => .ok (db.revokeSessions now reason (·.id = id))

def revokeAllUserSessions (db : DB) (now : Time) (userID : Uuid) (reason : RevokeReason) : DB :=
  db.revokeSessions now reason (·.userId = userID)

def lookupSessionByRefreshHash (db : DB) (hash : Digest) : Option Session :=
  Table.lookup Session.refreshTokenHash hash db.sessions

/-- The INSERT of `CreateSession` with the id the default drew. -/
def createSession (db : DB) (id userID : Uuid) (refreshHash : Digest) (client : ClientInfo)
    (expiresAt : Time) : Except PgError DB :=
  if (db.session? id).isSome ∨ (lookupSessionByRefreshHash db refreshHash).isSome then
    .error .uniqueViolation
  else if (db.user? userID).isNone then .error .foreignKeyViolation
  else
    let row : Session :=
      ⟨id, userID, refreshHash, nullableString client.userAgent, nullableString client.ipAddress,
        expiresAt, none⟩
    .ok { db with sessions := db.sessions ++ [row] }

theorem createSession_eq_ok {db db' : DB} {id userID : Uuid} {refreshHash : Digest}
    {client : ClientInfo} {expiresAt : Time} :
    createSession db id userID refreshHash client expiresAt = .ok db' ↔
      (db.session? id).isSome = false ∧
        (lookupSessionByRefreshHash db refreshHash).isSome = false ∧
        (db.user? userID).isSome = true ∧
        db' = { db with
          sessions := db.sessions ++ [⟨id, userID, refreshHash, nullableString client.userAgent,
            nullableString client.ipAddress, expiresAt, none⟩] } := by
  unfold createSession
  constructor
  · intro h
    split at h
    · cases h
    · next hnew =>
      split at h
      · cases h
      · next haccount =>
        cases h
        simp only [not_or, Bool.not_eq_true] at hnew
        exact ⟨hnew.1, hnew.2, Option.isSome_iff_ne_none.mpr (by simpa using haccount), rfl⟩
  · rintro ⟨hid, htoken, haccount, rfl⟩
    rw [if_neg (by simp [hid, htoken]),
      if_neg (by simpa using Option.isSome_iff_ne_none.mp haccount)]

section Revoke

variable (db : DB) (now : Time) (reason : RevokeReason) (p : Session → Bool)

theorem session?_revokeSessions (id : Uuid) :
    (db.revokeSessions now reason p).session? id =
      (db.session? id).map fun s => if p s && s.isOpen then s.revoke now reason else s :=
  Table.lookup_updateWhere (fun s => Session.revoke_id s now reason) id db.sessions

theorem mem_revokeSessions {s : Session} (h : s ∈ (db.revokeSessions now reason p).sessions) :
    (s ∈ db.sessions ∧ (p s && s.isOpen) = false) ∨
      ∃ s₀ ∈ db.sessions, (p s₀ && s₀.isOpen) = true ∧ s = s₀.revoke now reason := by
  obtain ⟨s₀, hs₀, heq⟩ := Table.mem_updateWhere.mp h
  cases hp : p s₀ && s₀.isOpen with
  | true =>
    rw [hp, if_pos rfl] at heq
    exact .inr ⟨s₀, hs₀, hp, heq.symm⟩
  | false =>
    rw [hp] at heq
    obtain rfl : s₀ = s := heq
    exact .inl ⟨hs₀, hp⟩

end Revoke

/-! ## Logout -/

/-- `Logout`: ends the session the access token was issued for. -/
def logout (svc : Service) (db : DB) (now : Time) (authz : String) : Reply DB := do
  let claims ← requireAccessToken svc now authz
  let db ← Reply.orElse (revokeSession db now claims.id .logout).toOption
    (internalError "Oturum kapatılamadı.")
  return db.audit ⟨claims.subject.text, "auth.logout", "session", claims.id⟩

/-- `LogoutAll`: ends every session of the caller. -/
def logoutAll (svc : Service) (db : DB) (now : Time) (authz : String) : Reply DB := do
  let claims ← requireAccessToken svc now authz
  let db := revokeAllUserSessions db now claims.subject .logoutAll
  return db.audit ⟨claims.subject.text, "auth.logout_all", "user", claims.subject.text⟩

end IronStock

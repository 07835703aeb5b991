import IronStock.Sessions

/-!
# API tokens

`api_tokens.go`: every user may mint a token of each scope the handler knows.
-/
namespace IronStock

structure CreateAPITokenRequest where
  name : String
  scope : String
  expiresAt : Option String

/-- The row id the default draws, and the token text of the handler. -/
structure APITokenDraw where
  id : Uuid
  plain : String

structure APITokenResponse where
  id : Uuid
  name : String
  scope : TokenScope
  expiresAt : Option String
  plainToken : String
deriving DecidableEq

/-- `validScopes`, after an empty scope became `read`. -/
def TokenScope.ofRequest : String → Option TokenScope
  | "" => some .read
  | "read" => some .read
  | "ansible" => some .ansible
  | "scim" => some .scim
  | _ => none

/-- An optional `timestamptz` parameter: the outer `none` is a failed cast. -/
def castNullableTime (svc : Service) : Option String → Option (Option Time)
  | none => some none
  | some s => (svc.castTimestamptz s).map some

def insertApiToken (db : DB) (t : ApiToken) : Except PgError DB :=
  if db.apiTokens.any (fun r => r.id = t.id ∨ r.tokenHash = t.tokenHash) then
    .error .uniqueViolation
  else if (db.user? t.userId).isNone then .error .foreignKeyViolation
  else .ok { db with apiTokens := db.apiTokens ++ [t] }

/-- `CreateAPIToken`. -/
def createAPIToken (svc : Service) (db : DB) (now : Time) (authz : String)
    (req : CreateAPITokenRequest) (draw : APITokenDraw) : Reply (DB × APITokenResponse) := do
  let claims ← requireAccessTokenMiddleware svc db now authz
  Reply.require (req.name ≠ "") (badRequest "name zorunlu.")
  let scope ← Reply.orElse (TokenScope.ofRequest req.scope)
    (badRequest "scope geçersiz (read|ansible|scim).")
  let expiresAt ← Reply.orElse (castNullableTime svc req.expiresAt)
    (internalError "Token kaydedilemedi.")
  let row : ApiToken :=
    ⟨draw.id, claims.subject, req.name, (svc.sha256 (bytesOf draw.plain)).bytes, scope, expiresAt,
      none⟩
  let db ← Reply.orElse (insertApiToken db row).toOption (internalError "Token kaydedilemedi.")
  return (db.audit ⟨claims.subject.text, "api_token.created", "api_token", draw.id.text⟩,
    ⟨draw.id, req.name, scope, req.expiresAt, draw.plain⟩)

/-- `DeleteAPIToken`: one of the caller's own. -/
def deleteAPIToken (svc : Service) (db : DB) (now : Time) (authz tokenID : String) : Reply DB := do
  let claims ← requireAccessTokenMiddleware svc db now authz
  let notFound : ApiError := ⟨404, errCodeNotFound, "Token bulunamadı."⟩
  let id ← Reply.orElse (castUuid tokenID) notFound
  let own (t : ApiToken) : Bool := t.id = id ∧ t.userId = claims.subject
  Reply.require (db.apiTokens.any own = true) notFound
  let apiTokens := Table.deleteWhere own db.apiTokens
  return { db with apiTokens }.audit
    ⟨claims.subject.text, "api_token.revoked", "api_token", tokenID⟩

end IronStock

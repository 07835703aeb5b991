import IronStock.Http

/-!
# Access tokens and temporary tokens

`internal/auth/jwt.go`. Signing and decoding belong to the token library and
are fields of the signer; which purpose a caller accepts is decided here.
-/
namespace IronStock

def purposeAccess := "access"
def purposeTOTPEnroll := "totp-enroll"
def purposeRecovery := "recovery"

/-- 15 minutes. -/
def accessTokenLifetime : Time := 15 * 60 * 1000000
def tmpTokenLifetime : Time := 15 * 60 * 1000000

/-- The claim set of both kinds of token. `id` is the session's uuid in an
access token and empty in a temporary one. -/
structure TokenClaims extends Claims where
  purpose : String
  id : String
deriving DecidableEq

/-- Tokens signed under one secret. -/
structure JWTSigner where
  /-- the signed text of a claim set issued now -/
  sign : Time → TokenClaims → String
  /-- `jwt.ParseWithClaims`: signature, issuer and lifetime -/
  decode : Time → String → Option TokenClaims
  /-- the empty text is no token -/
  decode_empty : ∀ now, decode now "" = none

inductive JWTError
  | invalid
  | wrongPurpose
deriving DecidableEq, Repr

namespace JWTSigner

variable (signer : JWTSigner) (now : Time)

def issueAccess (userID : Uuid) (sessionID : String) (roles : List Role) : String :=
  signer.sign now ⟨⟨userID, roles⟩, purposeAccess, sessionID⟩

/-- Refuses a purpose that is not one of the two. -/
def issueTmp (userID : Uuid) (purpose : String) : Option String :=
  if purpose ≠ purposeTOTPEnroll ∧ purpose ≠ purposeRecovery then none
  else some (signer.sign now ⟨⟨userID, []⟩, purpose, ""⟩)

def parse (token expectedPurpose : String) : Except JWTError TokenClaims :=
  match signer.decode now token with
  | none => .error .invalid
  | some claims =>
    if expectedPurpose ≠ "" ∧ claims.purpose ≠ expectedPurpose then .error .wrongPurpose
    else .ok claims

variable {signer now}

theorem parse_eq_ok {token expectedPurpose : String} {claims : TokenClaims}
    (hne : expectedPurpose ≠ "") :
    signer.parse now token expectedPurpose = .ok claims ↔
      signer.decode now token = some claims ∧ claims.purpose = expectedPurpose := by
  unfold parse
  cases hdec : signer.decode now token with
  | none => simp
  | some c =>
    by_cases hp : c.purpose = expectedPurpose
    · simp only [hp, ne_eq, not_true_eq_false, and_false, if_false, Except.ok.injEq,
        Option.some.injEq]
      constructor
      · rintro rfl
        exact ⟨rfl, hp⟩
      · exact And.left
    · simp only [hne, hp, ne_eq, not_false_eq_true, and_self, if_true, reduceCtorEq,
        Option.some.injEq, false_iff, not_and]
      rintro rfl
      exact hp

theorem parse_access {token : String} {claims : TokenClaims} :
    signer.parse now token purposeAccess = .ok claims ↔
      signer.decode now token = some claims ∧ claims.purpose = purposeAccess :=
  parse_eq_ok (by decide)

/-- What parses is a text. -/
theorem ne_empty_of_parse {token expectedPurpose : String} {claims : TokenClaims}
    (h : signer.parse now token expectedPurpose = .ok claims) : token ≠ "" := by
  rintro rfl
  rw [parse, signer.decode_empty] at h
  cases h

end JWTSigner

/-- A signer for concrete runs that knows these tokens, each valid from its time
of issue for its lifetime. -/
def sampleSigner (tokens : List (Time × String × TokenClaims)) : JWTSigner where
  sign now claims :=
    ((tokens.find? fun t => t.1 = now ∧ t.2.2 = claims).map (·.2.1)).getD ""
  decode now token :=
    if token = "" then none
    else (tokens.find? fun t => t.2.1 = token ∧ t.1 ≤ now ∧ now < t.1 + accessTokenLifetime).map
      (·.2.2)
  decode_empty _ := if_pos rfl

end IronStock

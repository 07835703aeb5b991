import IronStock.ScimHandlers
import IronStock.SSOHandlers

/-!
# ID tokens

`parseAndVerifyIDToken` with the documents it goes by: the discovery document and
the key set of the provider. Requests, the decoders of the standard library and
`jwt.Parse` are parameters.
-/
namespace IronStock

/-! ## Documents -/

deriving instance DecidableEq for IDTokenClaims

/-- A key of a key set. -/
structure JWK where
  kid : String
  kty : String
  alg : String
  use : String
  n : String
  e : String
  crv : String
  x : String
  y : String
deriving DecidableEq

structure RSAPublicKey where
  n : Nat
  e : BitVec 64
deriving DecidableEq

abbrev JsonFields := List (String × JsonValue)

/-- A token that `jwt.Parse` has read; its claims may be of another type. -/
structure JWTToken where
  header : JsonFields
  claims : Option JsonFields
  valid : Bool

structure IDTokenLibrary where
  /-- `http.NewRequestWithContext` -/
  newRequest : (url : String) → Except String Unit
  /-- the body of the answer, up to the limit of the reader -/
  get : (url : String) → (limit : Nat) → Except String Bytes
  /-- `json.Unmarshal`, before the value meets a type -/
  unmarshal : Bytes → Except String JsonValue
  /-- what `json.Unmarshal` says of a value of another type -/
  typeError : JsonValue → String
  /-- `base64.RawURLEncoding.DecodeString` -/
  decodeBase64 : String → Except String Bytes
  /-- `jwt.Parse` -/
  parse : Time → (token : String) → (keyFunc : JsonFields → Except String RSAPublicKey) →
    Except String JWTToken
  /-- the claim `exp` -/
  expiresAt : JsonFields → Option Time
  /-- the verb `%q` -/
  quote : String → String

/-- `foldName`: the names of the struct fields are in ASCII, and two other runes
fold to letters of it. -/
def foldName (name : String) : List Char :=
  name.toList.map fun c => if c = 'ſ' then 'S' else if c = 'K' then 'K' else c.toUpper

/-- A text field of a struct after `json.Unmarshal`: the last key that folds to
its name counts, and null leaves it alone. Nothing if one is not a text. -/
def JsonValue.textField (name : String) (fields : JsonFields) : Option String :=
  (fields.filter fun f => foldName f.1 = foldName name).foldl
    (fun text f =>
      match f.2, text with
      | null, some t => some t
      | string s, some _ => some s
      | _, _ => none) (some "")

/-- The claims of a payload. -/
def IDTokenClaims.ofJson? (v : JsonValue) : Option IDTokenClaims := do
  let fields ← v.toFields
  return {
    sub := ← JsonValue.textField "sub" fields
    email := ← JsonValue.textField "email" fields
    name := ← JsonValue.textField "name" fields
    preferredUsername := ← JsonValue.textField "preferred_username" fields }

def OIDCDiscovery.ofJson? (v : JsonValue) : Option OIDCDiscovery := do
  let fields ← v.toFields
  return {
    authorizationEndpoint := ← JsonValue.textField "authorization_endpoint" fields
    tokenEndpoint := ← JsonValue.textField "token_endpoint" fields
    jwksURI := ← JsonValue.textField "jwks_uri" fields
    issuer := ← JsonValue.textField "issuer" fields }

def JWK.ofJson? (v : JsonValue) : Option JWK := do
  let fields ← v.toFields
  return {
    kid := ← JsonValue.textField "kid" fields
    kty := ← JsonValue.textField "kty" fields
    alg := ← JsonValue.textField "alg" fields
    use := ← JsonValue.textField "use" fields
    n := ← JsonValue.textField "n" fields
    e := ← JsonValue.textField "e" fields
    crv := ← JsonValue.textField "crv" fields
    x := ← JsonValue.textField "x" fields
    y := ← JsonValue.textField "y" fields }

/-- The keys of a key set; of several lists the last one counts. -/
def JWK.setOfJson? (v : JsonValue) : Option (List JWK) := do
  let fields ← v.toFields
  (fields.filter fun f => foldName f.1 = foldName "keys").foldlM
    (fun _ f =>
      match f.2 with
      | .null => some []
      | .array elems => elems.mapM JWK.ofJson?
      | _ => none) []

/-- Goes on only if `p` holds. -/
def ensure (p : Prop) [Decidable p] (e : String) : Except String Unit :=
  if p then .ok () else .error e

namespace IDTokenLibrary

variable (lib : IDTokenLibrary)

/-- `json.Unmarshal` of a value into a struct. -/
def intoStruct {α : Type} (ofJson? : JsonValue → Option α) (v : JsonValue) : Except String α :=
  match ofJson? v with
  | some a => .ok a
  | none => .error (lib.typeError v)

/-- The address of the discovery document. -/
def discoveryAddress (discoveryURL : String) : String :=
  let base := String.ofList (discoveryURL.toList.reverse.dropWhile (· = '/')).reverse
  if "openid-configuration".toList.isSuffixOf base.toList then base
  else base ++ "/.well-known/openid-configuration"

/-- `fetchOIDCDiscovery` -/
def fetchOIDCDiscovery (discoveryURL : String) : Except String OIDCDiscovery := do
  lib.newRequest (discoveryAddress discoveryURL)
  let body ← lib.get (discoveryAddress discoveryURL) (64 * 1024)
  let doc ← ((lib.unmarshal body).bind (lib.intoStruct OIDCDiscovery.ofJson?)).mapError
    ("parse discovery: " ++ ·)
  ensure (doc.authorizationEndpoint ≠ "" ∧ doc.tokenEndpoint ≠ "")
    "discovery doc missing required endpoints"
  return doc

/-! ## The keys -/

end IDTokenLibrary

structure JWKSEntry where
  uri : String
  keys : List JWK
  fetchedAt : Time

/-- `jwksCache` -/
abbrev JWKSCache := List JWKSEntry

/-- 1 hour. -/
def jwksLifetime : Time := 60 * 60 * 1000000

namespace IDTokenLibrary

variable (lib : IDTokenLibrary)

/-- `fetchJWKS` -/
def fetchJWKS (cache : JWKSCache) (now : Time) (uri : String) :
    JWKSCache × Except String (List JWK) :=
  match cache.find? fun e => e.uri = uri ∧ now - e.fetchedAt < jwksLifetime with
  | some entry => (cache, .ok entry.keys)
  | none =>
    let fetched := do
      lib.newRequest uri
      let body ← (lib.get uri (512 * 1024)).mapError ("fetch JWKS: " ++ ·)
      ((lib.unmarshal body).bind (lib.intoStruct JWK.setOfJson?)).mapError ("parse JWKS: " ++ ·)
    match fetched with
    | .error e => (cache, .error e)
    | .ok keys => (Table.deleteWhere (·.uri = uri) cache ++ [⟨uri, keys, now⟩], .ok keys)

/-- `SetBytes` -/
def bigEndian (bytes : Bytes) : Nat := bytes.foldl (fun n b => n * 256 + b.toNat) 0

/-- `jwkToRSAPublicKey`: the exponent is an `int`. -/
def jwkToRSAPublicKey (k : JWK) : Except String RSAPublicKey := do
  let nBytes ← (lib.decodeBase64 k.n).mapError ("decode n: " ++ ·)
  let eBytes ← (lib.decodeBase64 k.e).mapError ("decode e: " ++ ·)
  return ⟨bigEndian nBytes, eBytes.foldl (fun e b => (e <<< 8) + BitVec.ofNat 64 b.toNat) 0⟩

/-- A claim or header field as a text, empty if it is none. -/
def textOf (fields : JsonFields) (name : String) : String :=
  match JsonValue.field? fields name with
  | some (.string s) => s
  | _ => ""

/-- The key function of `parseAndVerifyIDToken`. -/
def keyFunc (keys : List JWK) (header : JsonFields) : Except String RSAPublicKey :=
  let kid := textOf header "kid"
  match keys.find? (·.kid = kid) with
  | some k =>
    if k.kty = "RSA" then lib.jwkToRSAPublicKey k
    else .error ("unsupported key type: " ++ k.kty)
  | none => .error ("no matching key found for kid=" ++ kid)

/-! ## The token -/

/-- One more entry of a map whose keys `json.Marshal` sorts. -/
def putClaim (f : String × JsonValue) : JsonFields → JsonFields
  | [] => [f]
  | g :: rest =>
    if f.1 = g.1 then f :: rest
    else if f.1 < g.1 then f :: g :: rest
    else g :: putClaim f rest

/-- The claims as `json.Marshal` writes them. -/
def marshalClaims (fields : JsonFields) : JsonValue :=
  .object (fields.foldl (fun sorted f => putClaim f sorted) [])

/-- The audience of the claims has the client. -/
def audienceHas (fields : JsonFields) (clientID : String) : Bool :=
  match JsonValue.field? fields "aud" with
  | some (.string aud) => aud = clientID
  | some (.array auds) =>
    auds.any fun
      | .string aud => aud = clientID
      | _ => false
  | _ => false

def requireSub (claims : IDTokenClaims) : Except String IDTokenClaims := do
  ensure (claims.sub ≠ "") "JWT missing 'sub' claim"
  return claims

/-- `strings.SplitN(s, ".", 3)`, if it has three parts. -/
def splitToken (s : String) : Option (String × String × String) :=
  match s.toList.dropWhile (· ≠ '.') with
  | [] => none
  | _ :: rest =>
    match rest.dropWhile (· ≠ '.') with
    | [] => none
    | _ :: signature =>
      some (String.ofList (s.toList.takeWhile (· ≠ '.')),
        String.ofList (rest.takeWhile (· ≠ '.')), String.ofList signature)

/-- `parseIDTokenUnverified` -/
def parseIDTokenUnverified (idToken : String) : Except String IDTokenClaims :=
  match splitToken idToken with
  | none => .error "invalid JWT format"
  | some (_, payload, _) => do
    let payload ← (lib.decodeBase64 payload).mapError ("decode JWT payload: " ++ ·)
    let claims ← ((lib.unmarshal payload).bind (lib.intoStruct IDTokenClaims.ofJson?)).mapError
      ("parse JWT claims: " ++ ·)
    requireSub claims

/-- The checks of a token that `jwt.Parse` has accepted. -/
def checkClaims (token : JWTToken) (disc : OIDCDiscovery) (clientID : String) :
    Except String IDTokenClaims := do
  ensure (token.valid = true) "ID token is invalid"
  let mapClaims ← token.claims.elim (.error "unexpected claims type") .ok
  let iss := textOf mapClaims "iss"
  ensure (disc.issuer ≠ "" → iss = disc.issuer)
    ("issuer mismatch: got " ++ lib.quote iss ++ ", want " ++ lib.quote disc.issuer)
  ensure (clientID ≠ "" → audienceHas mapClaims clientID = true)
    ("audience mismatch: expected " ++ lib.quote clientID)
  let claims ← (lib.intoStruct IDTokenClaims.ofJson? (marshalClaims mapClaims)).mapError
    ("parse verified claims: " ++ ·)
  requireSub claims

/-- `parseAndVerifyIDToken` -/
def parseAndVerifyIDToken (cache : JWKSCache) (now : Time) (idToken : String)
    (disc : OIDCDiscovery) (clientID : String) : JWKSCache × Except String IDTokenClaims :=
  if disc.jwksURI = "" then (cache, lib.parseIDTokenUnverified idToken)
  else
    let (cache, keys) := lib.fetchJWKS cache now disc.jwksURI
    (cache, do
      let keys ← keys.mapError ("JWKS fetch: " ++ ·)
      let token ← (lib.parse now idToken (lib.keyFunc keys)).mapError ("verify ID token: " ++ ·)
      lib.checkClaims token disc clientID)

end IDTokenLibrary

end IronStock

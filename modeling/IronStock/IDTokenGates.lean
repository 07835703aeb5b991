import IronStock.IDTokens

/-!
# Which ID tokens are accepted

With a JWKS address the signature, and each of the other checks that has
something to compare with. Without one a text field is all it takes.
-/
namespace IronStock

section IDTokens

variable {lib : IDTokenLibrary} {decode : String → Option (JsonFields × JsonFields)}
  {signs : RSAPublicKey → String → Prop}

/-! ## What is claimed -/

/-- `jwt.Parse` accepts what is signed under the key of the key function and not
over; the header and the claims are those in the text. -/
structure IDTokenLibrary.Ideal (lib : IDTokenLibrary)
    (decode : String → Option (JsonFields × JsonFields))
    (signs : RSAPublicKey → String → Prop) : Prop where
  parse : ∀ now idToken keyFunc token, lib.parse now idToken keyFunc = .ok token →
    ∃ claims, token.claims = some claims ∧ decode idToken = some (token.header, claims) ∧
      (∃ key, keyFunc token.header = .ok key ∧ signs key idToken) ∧
      ∀ exp, lib.expiresAt claims = some exp → now < exp

/-- Signed under the RSA key that the key set has for the key id of the header. -/
def IDTokenLibrary.SignedUnder (lib : IDTokenLibrary) (signs : RSAPublicKey → String → Prop)
    (keys : List JWK) (header : JsonFields) (idToken : String) : Prop :=
  ∃ k ∈ keys, k.kid = IDTokenLibrary.textOf header "kid" ∧ k.kty = "RSA" ∧
    ∃ key, lib.jwkToRSAPublicKey k = .ok key ∧ signs key idToken

def HasAudience (fields : JsonFields) (clientID : String) : Prop :=
  JsonValue.field? fields "aud" = some (.string clientID) ∨
    ∃ auds, JsonValue.field? fields "aud" = some (.array auds) ∧ .string clientID ∈ auds

/-- The claims are those of a token that is signed by its provider and not over,
with the issuer and the audience where there is one to compare with. -/
def IDTokenLibrary.Verified (lib : IDTokenLibrary)
    (decode : String → Option (JsonFields × JsonFields)) (signs : RSAPublicKey → String → Prop)
    (cache : JWKSCache) (now : Time) (idToken : String) (disc : OIDCDiscovery)
    (issuer clientID : Option String) (claims : IDTokenClaims) : Prop :=
  ∃ keys header fields, (lib.fetchJWKS cache now disc.jwksURI).2 = .ok keys ∧
    decode idToken = some (header, fields) ∧ lib.SignedUnder signs keys header idToken ∧
    (∀ exp, lib.expiresAt fields = some exp → now < exp) ∧
    (∀ iss, issuer = some iss → JsonValue.field? fields "iss" = some (.string iss)) ∧
    (∀ aud, clientID = some aud → HasAudience fields aud) ∧
    IDTokenClaims.ofJson? (IDTokenLibrary.marshalClaims fields) = some claims

/-- What the text of a token says where nothing is verified. -/
def IDTokenLibrary.Says (lib : IDTokenLibrary) (idToken : String) (claims : IDTokenClaims) : Prop :=
  ∃ header payload signature body v,
    IDTokenLibrary.splitToken idToken = some (header, payload, signature) ∧
      lib.decodeBase64 payload = .ok body ∧ lib.unmarshal body = .ok v ∧
      IDTokenClaims.ofJson? v = some claims

/-! ## The checks -/

theorem except_bind_eq_ok {ε α β : Type} {x : Except ε α} {f : α → Except ε β} {b : β} :
    (x >>= f) = .ok b ↔ ∃ a, x = .ok a ∧ f a = .ok b := by
  cases x with
  | error e => simp [bind, Except.bind]
  | ok a => simp [bind, Except.bind]

theorem except_mapError_eq_ok {ε ε' α : Type} {x : Except ε α} {f : ε → ε'} {a : α} :
    x.mapError f = .ok a ↔ x = .ok a := by
  cases x <;> simp [Except.mapError]

theorem ensure_eq_ok {p : Prop} [Decidable p] {e : String} {u : Unit} :
    ensure p e = .ok u ↔ p := by
  unfold ensure
  split <;> simp [*]

theorem requireSub_eq_ok {claims claims' : IDTokenClaims} :
    IDTokenLibrary.requireSub claims = .ok claims' ↔ claims = claims' ∧ claims.sub ≠ "" := by
  simp only [IDTokenLibrary.requireSub, except_bind_eq_ok, ensure_eq_ok]
  simp [pure, Except.pure, and_comm]

theorem intoStruct_eq_ok {α : Type} {ofJson? : JsonValue → Option α} {v : JsonValue} {a : α} :
    lib.intoStruct ofJson? v = .ok a ↔ ofJson? v = some a := by
  unfold IDTokenLibrary.intoStruct
  cases ofJson? v <;> simp

theorem audienceHas_iff {fields : JsonFields} {clientID : String} :
    IDTokenLibrary.audienceHas fields clientID = true ↔ HasAudience fields clientID := by
  unfold IDTokenLibrary.audienceHas HasAudience
  split
  · next aud haud => simp [haud]
  · next auds hauds =>
    simp only [hauds, Option.some.injEq, reduceCtorEq, JsonValue.array.injEq, exists_eq_left',
      false_or, List.any_eq_true]
    constructor
    · rintro ⟨v, hv, hmatch⟩
      split at hmatch
      · next aud => exact of_decide_eq_true hmatch ▸ hv
      · cases hmatch
    · exact fun hmem => ⟨_, hmem, by simp⟩
  · next hstring harray =>
    simp only [Bool.false_eq_true, false_iff, not_or, not_exists, not_and]
    exact ⟨hstring _, fun auds hauds => absurd hauds (harray auds)⟩

theorem textOf_eq {fields : JsonFields} {name s : String} (hs : s ≠ "")
    (h : IDTokenLibrary.textOf fields name = s) :
    JsonValue.field? fields name = some (.string s) := by
  unfold IDTokenLibrary.textOf at h
  split at h
  · next hfield => rw [hfield, h]
  · exact absurd h.symm hs

theorem keyFunc_signed {keys : List JWK} {header : JsonFields} {key : RSAPublicKey}
    {idToken : String} (h : lib.keyFunc keys header = .ok key) (hsigns : signs key idToken) :
    lib.SignedUnder signs keys header idToken := by
  simp only [IDTokenLibrary.keyFunc] at h
  split at h
  · next k hk =>
    split at h
    · next hkty =>
      have hkid := List.find?_some hk
      exact ⟨k, List.mem_of_find?_eq_some hk, by simpa using hkid, hkty, key, h, hsigns⟩
    · cases h
  · cases h

/-- What passes the checks after `jwt.Parse`. -/
theorem checkClaims_eq_ok {token : JWTToken} {disc : OIDCDiscovery} {clientID : String}
    {claims : IDTokenClaims} (h : lib.checkClaims token disc clientID = .ok claims) :
    claims.sub ≠ "" ∧ ∃ fields, token.claims = some fields ∧
      (disc.issuer ≠ "" → JsonValue.field? fields "iss" = some (.string disc.issuer)) ∧
      (clientID ≠ "" → HasAudience fields clientID) ∧
      IDTokenClaims.ofJson? (IDTokenLibrary.marshalClaims fields) = some claims := by
  simp only [IDTokenLibrary.checkClaims, except_bind_eq_ok, except_mapError_eq_ok, ensure_eq_ok,
    requireSub_eq_ok, intoStruct_eq_ok] at h
  obtain ⟨-, -, fields, hfields, -, hissuer, -, haudience, claims', hclaims, rfl, hsub⟩ := h
  refine ⟨hsub, fields, ?_, fun hne => textOf_eq hne (hissuer hne),
    fun hne => audienceHas_iff.mp (haudience hne), hclaims⟩
  cases hclaims : token.claims with
  | none => simp [hclaims] at hfields
  | some fields' => simpa [hclaims] using hfields

theorem parseIDTokenUnverified_eq_ok {idToken : String} {claims : IDTokenClaims} :
    lib.parseIDTokenUnverified idToken = .ok claims ↔
      lib.Says idToken claims ∧ claims.sub ≠ "" := by
  simp only [IDTokenLibrary.parseIDTokenUnverified, IDTokenLibrary.Says]
  cases hsplit : IDTokenLibrary.splitToken idToken with
  | none => simp
  | some parts =>
    obtain ⟨header, payload, signature⟩ := parts
    simp only [except_bind_eq_ok, except_mapError_eq_ok, requireSub_eq_ok,
      Option.some.injEq, Prod.mk.injEq]
    constructor
    · rintro ⟨body, hbody, claims', hdecode, rfl, hsub⟩
      obtain ⟨v, hv, hclaims⟩ := except_bind_eq_ok.mp hdecode
      exact ⟨⟨header, payload, signature, body, v, ⟨rfl, rfl, rfl⟩, hbody, hv,
        intoStruct_eq_ok.mp hclaims⟩, hsub⟩
    · rintro ⟨⟨_, _, _, body, v, ⟨rfl, rfl, rfl⟩, hbody, hv, hclaims⟩, hsub⟩
      exact ⟨body, hbody, claims,
        except_bind_eq_ok.mpr ⟨v, hv, intoStruct_eq_ok.mpr hclaims⟩, rfl, hsub⟩

/-! ## A provider for concrete tokens -/

def sampleIssuer := "https://idp"
def sampleJWKS :=
  "\x7b\"keys\":[\x7b\"kid\":\"k\",\"kty\":\"RSA\",\"n\":\"Iw\",\"e\":\"Aw\"\x7d]\x7d"
def samplePayload := "\x7b\"sub\":\"ada\"\x7d"

/-- The header and payload of a token without signature. -/
def unsignedToken := "eyJhbGciOiJub25lIn0.eyJzdWIiOiJhZGEifQ."

def sampleKey : RSAPublicKey := ⟨35, 3⟩
def sampleHeader : JsonFields := [("kid", .string "k")]
def sampleFields (iss aud : String) : JsonFields :=
  [("aud", .string aud), ("iss", .string iss), ("sub", .string "ada")]

/-- The tokens signed with the sample key. -/
def sampleDecode : String → Option (JsonFields × JsonFields)
  | "h.ours.s" => some (sampleHeader, sampleFields sampleIssuer "app")
  | "h.foreign.s" => some (sampleHeader, sampleFields "https://evil" "app")
  | "h.other.s" => some (sampleHeader, sampleFields sampleIssuer "other")
  | _ => none

def sampleSigns (key : RSAPublicKey) (idToken : String) : Prop :=
  key = sampleKey ∧ (sampleDecode idToken).isSome = true

def sampleTokens : IDTokenLibrary where
  newRequest _ := .ok ()
  get _ _ := .ok (bytesOf sampleJWKS)
  unmarshal body :=
    if body = bytesOf sampleJWKS then
      .ok (.object [("keys", .array [.object [("kid", .string "k"), ("kty", .string "RSA"),
        ("n", .string "Iw"), ("e", .string "Aw")]])])
    else if body = bytesOf samplePayload then .ok (.object [("sub", .string "ada")])
    else .error "invalid character"
  typeError _ := "json: cannot unmarshal"
  decodeBase64
    | "Iw" => .ok [35]
    | "Aw" => .ok [3]
    | "eyJzdWIiOiJhZGEifQ" => .ok (bytesOf samplePayload)
    | _ => .error "illegal base64 data"
  parse _ idToken keyFunc :=
    match sampleDecode idToken with
    | none => .error "token is malformed"
    | some (header, claims) => do
      let key ← keyFunc header
      ensure (key = sampleKey) "token signature is invalid"
      return ⟨header, some claims, true⟩
  expiresAt _ := none
  quote s := s

theorem sampleTokens_ideal : sampleTokens.Ideal sampleDecode sampleSigns where
  parse now idToken keyFunc token h := by
    simp only [sampleTokens] at h
    cases hdecode : sampleDecode idToken with
    | none => simp [hdecode] at h
    | some parts =>
      obtain ⟨header, claims⟩ := parts
      simp only [hdecode, except_bind_eq_ok, ensure_eq_ok] at h
      obtain ⟨key, hkey, -, hsame, htoken⟩ := h
      cases htoken
      exact ⟨claims, rfl, rfl, ⟨key, hkey, hsame, by simp [hdecode]⟩, fun exp hexp => by
        cases hexp⟩

def sampleDiscovery (jwksURI issuer : String) : OIDCDiscovery :=
  ⟨"https://idp/auth", "https://idp/token", jwksURI, issuer⟩

def adaClaims : IDTokenClaims := ⟨"ada", "", "", ""⟩

theorem sampleTokens_accepts :
    (sampleTokens.parseAndVerifyIDToken [] 0 "h.ours.s"
      (sampleDiscovery "https://idp/keys" sampleIssuer) "app").2 = .ok adaClaims := by
  decide

/-! ## Acceptance -/

/-- An empty text is nothing to compare with. -/
def nonempty? (s : String) : Option String := if s = "" then none else some s

theorem nonempty?_eq_some {s t : String} : nonempty? s = some t ↔ s = t ∧ s ≠ "" := by
  unfold nonempty?
  split <;> simp [*]

/-- With a JWKS address an ID token is accepted only if it is signed by its
provider and not over, with the issuer and the audience where there is one to
compare with. Without one it is accepted for its text alone. Either way it has a
subject. -/
theorem id_token_accepted {lib : IDTokenLibrary}
    {decode : String → Option (JsonFields × JsonFields)}
    {signs : RSAPublicKey → String → Prop} (hlib : lib.Ideal decode signs) (cache : JWKSCache)
    (now : Time) (idToken : String) (disc : OIDCDiscovery) (clientID : String)
    {claims : IDTokenClaims}
    (h : (lib.parseAndVerifyIDToken cache now idToken disc clientID).2 = .ok claims) :
    claims.sub ≠ "" ∧
      (disc.jwksURI ≠ "" → lib.Verified decode signs cache now idToken disc
        (nonempty? disc.issuer) (nonempty? clientID) claims) ∧
      (disc.jwksURI = "" → lib.Says idToken claims) := by
  simp only [IDTokenLibrary.parseAndVerifyIDToken] at h
  by_cases huri : disc.jwksURI = ""
  · rw [if_pos huri] at h
    obtain ⟨htext, hsub⟩ := parseIDTokenUnverified_eq_ok.mp h
    exact ⟨hsub, fun hne => absurd huri hne, fun _ => htext⟩
  · rw [if_neg huri] at h
    simp only [except_bind_eq_ok, except_mapError_eq_ok] at h
    obtain ⟨keys, hkeys, token, hparse, hchecks⟩ := h
    obtain ⟨fields, hfields, hdecode, ⟨key, hkey, hsigns⟩, hexp⟩ := hlib.parse _ _ _ _ hparse
    obtain ⟨hsub, fields', hfields', hissuer, haudience, hclaims⟩ := checkClaims_eq_ok hchecks
    obtain rfl : fields = fields' := Option.some.inj (hfields.symm.trans hfields')
    refine ⟨hsub, fun _ => ⟨keys, token.header, fields, hkeys, hdecode,
      keyFunc_signed hkey hsigns, hexp, fun iss hiss => ?_, fun aud haud => ?_, hclaims⟩,
      fun hempty => absurd hempty huri⟩
    · obtain ⟨rfl, hne⟩ := nonempty?_eq_some.mp hiss
      exact hissuer hne
    · obtain ⟨rfl, hne⟩ := nonempty?_eq_some.mp haud
      exact haudience hne

/-- A token of the sample provider. -/
theorem id_token_accepted_ours :
    sampleTokens.Verified sampleDecode sampleSigns [] 0 "h.ours.s"
      (sampleDiscovery "https://idp/keys" sampleIssuer) (some sampleIssuer) (some "app")
      adaClaims :=
  (id_token_accepted sampleTokens_ideal [] 0 "h.ours.s"
    (sampleDiscovery "https://idp/keys" sampleIssuer) "app" sampleTokens_accepts).2.1 (by decide)

/-- Accepted, though not verified under this issuer and for this client. -/
def AcceptedUnverified (idToken : String) (disc : OIDCDiscovery) (clientID : String) : Prop :=
  (sampleTokens.parseAndVerifyIDToken [] 0 idToken disc clientID).2 = .ok adaClaims ∧
    ¬ sampleTokens.Verified sampleDecode sampleSigns [] 0 idToken disc (some disc.issuer)
      (some clientID) adaClaims

/-- An unsigned token is accepted under a discovery document without a JWKS
address, a token of another issuer under one without an issuer, and a token for
another audience by a provider without a client id. -/
theorem id_token_not_verified :
    sampleTokens.Ideal sampleDecode sampleSigns ∧
    (AcceptedUnverified unsignedToken (sampleDiscovery "" sampleIssuer) "app" ∧
      ∀ key, ¬ sampleSigns key unsignedToken) ∧
    AcceptedUnverified "h.foreign.s" (sampleDiscovery "https://idp/keys" "") "app" ∧
    AcceptedUnverified "h.other.s" (sampleDiscovery "https://idp/keys" sampleIssuer) "" := by
  refine ⟨sampleTokens_ideal, ⟨⟨by decide, ?_⟩, ?_⟩, ⟨by decide, ?_⟩,
    by decide, ?_⟩
  · rintro ⟨keys, header, fields, -, hdecode, -⟩
    cases hdecode
  · rintro key ⟨-, hsigned⟩
    revert hsigned
    decide
  · rintro ⟨keys, header, fields, -, hdecode, -, -, hissuer, -⟩
    cases hdecode
    have hforeign := hissuer _ rfl
    simp [JsonValue.field?, sampleFields, sampleDiscovery] at hforeign
  · rintro ⟨keys, header, fields, -, hdecode, -, -, -, haudience, -⟩
    cases hdecode
    rcases haudience _ rfl with hone | ⟨auds, hmany, -⟩
    · simp [JsonValue.field?, sampleFields] at hone
    · simp [JsonValue.field?, sampleFields] at hmany

end IDTokens

end IronStock

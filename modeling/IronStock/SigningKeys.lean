import IronStock.IDTokenGates
import IronStock.Lib.Runs

/-!
# The cache of signing keys

`fetchJWKS` and `parseAndVerifyIDToken` over time. What the addresses of key sets would
answer at every moment is a parameter; the calls come one after the other.
-/
namespace IronStock

/-- What an address answers. -/
inductive KeyAnswer
  | failed (error : String)
  | answered (status : Nat) (body : Bytes)

/-- What the reader has of it; nobody looks at the status. -/
def KeyAnswer.read (limit : Nat) : KeyAnswer → Except String Bytes
  | failed error => .error error
  | answered _ body => .ok (body.take limit)

abbrev KeyHistory := Time → String → KeyAnswer

namespace IDTokenLibrary

/-- The library at one moment. -/
def servedBy (lib : IDTokenLibrary) (answers : String → KeyAnswer) : IDTokenLibrary :=
  { lib with get := fun url limit => (answers url).read limit }

/-- What a fetch gives. -/
def served (lib : IDTokenLibrary) (uri : String) : Except String (List JWK) :=
  (lib.fetchJWKS [] 0 uri).2

def servedAt (lib : IDTokenLibrary) (history : KeyHistory) (t : Time) (uri : String) :
    Except String (List JWK) :=
  (lib.servedBy (history t)).served uri

/-- The other half of `Ideal`: what is signed under the key of the key function, and due,
is accepted by `jwt.Parse`. -/
structure Accepts (lib : IDTokenLibrary) (decode : String → Option (JsonFields × JsonFields))
    (signs : RSAPublicKey → String → Prop) (due : Time → JsonFields → Prop) : Prop where
  parse : ∀ now idToken keyFunc header fields key, decode idToken = some (header, fields) →
    keyFunc header = .ok key → signs key idToken → due now fields →
    lib.parse now idToken keyFunc = .ok ⟨header, some fields, true⟩

end IDTokenLibrary

/-! ## Calls -/

/-- A call of `parseAndVerifyIDToken`, so long after the one before. -/
structure KeyCall where
  elapsed : Nat
  idToken : String
  disc : OIDCDiscovery
  clientID : String

structure KeyWatch where
  cache : JWKSCache
  clock : Time

namespace KeyWatch

variable (lib : IDTokenLibrary) (history : KeyHistory)

def start (t : Time) : KeyWatch := ⟨[], t⟩

def moment (w : KeyWatch) (c : KeyCall) : Time := w.clock + c.elapsed

def answer (w : KeyWatch) (c : KeyCall) : JWKSCache × Except String IDTokenClaims :=
  (lib.servedBy (history (w.moment c))).parseAndVerifyIDToken w.cache (w.moment c) c.idToken
    c.disc c.clientID

def step (w : KeyWatch) (c : KeyCall) : KeyWatch := ⟨(w.answer lib history c).1, w.moment c⟩

/-- The entry of an address is less than an hour old. -/
def Fresh (w : KeyWatch) (c : KeyCall) (e : JWKSEntry) : Prop :=
  e ∈ w.cache ∧ e.uri = c.disc.jwksURI ∧ w.moment c - e.fetchedAt < jwksLifetime

end KeyWatch

/-- Passes the checks that are not about the key. -/
structure PassesRest (lib : IDTokenLibrary) (due : Time → JsonFields → Prop) (now : Time)
    (c : KeyCall) (header fields : JsonFields) (claims : IDTokenClaims) : Prop where
  due : due now fields
  checks : lib.checkClaims ⟨header, some fields, true⟩ c.disc c.clientID = .ok claims

/-- What a call makes of the cached keys, and they of the call. -/
structure KeysCached (lib : IDTokenLibrary) (decode : String → Option (JsonFields × JsonFields))
    (signs : RSAPublicKey → String → Prop) (due : Time → JsonFields → Prop)
    (history : KeyHistory) (w : KeyWatch) (c : KeyCall) : Prop where
  accepted : ∀ keys header fields key claims,
    lib.servedAt history (w.moment c) c.disc.jwksURI = .ok keys →
    decode c.idToken = some (header, fields) → lib.keyFunc keys header = .ok key →
    signs key c.idToken → PassesRest lib due (w.moment c) c header fields claims →
    (∀ e, w.Fresh c e → lib.keyFunc e.keys header = .ok key) →
    (w.answer lib history c).2 = .ok claims
  kept : ∀ err, lib.servedAt history (w.moment c) c.disc.jwksURI = .error err →
    (w.answer lib history c).1 = w.cache
  stopped : ∀ claims, (w.answer lib history c).2 = .ok claims →
    ∃ t keys header fields, t ≤ w.moment c ∧ w.moment c - t < jwksLifetime ∧
      lib.servedAt history t c.disc.jwksURI = .ok keys ∧
      decode c.idToken = some (header, fields) ∧ lib.SignedUnder signs keys header c.idToken

/-! ## One call -/

section Calls

variable {lib : IDTokenLibrary} {decode : String → Option (JsonFields × JsonFields)}
  {signs : RSAPublicKey → String → Prop} {due : Time → JsonFields → Prop}
  {history : KeyHistory} {w : KeyWatch} {c : KeyCall}

theorem fetchJWKS_eq (lib : IDTokenLibrary) (cache : JWKSCache) (now : Time) (uri : String) :
    lib.fetchJWKS cache now uri =
      match cache.find? fun e => e.uri = uri ∧ now - e.fetchedAt < jwksLifetime with
      | some entry => (cache, .ok entry.keys)
      | none =>
        match lib.served uri with
        | .error e => (cache, .error e)
        | .ok keys => (Table.deleteWhere (·.uri = uri) cache ++ [⟨uri, keys, now⟩], .ok keys) := by
  unfold IDTokenLibrary.served IDTokenLibrary.fetchJWKS
  cases cache.find? fun e => e.uri = uri ∧ now - e.fetchedAt < jwksLifetime with
  | some entry => rfl
  | none =>
    dsimp only [List.find?_nil]
    split
    · rfl
    · rfl

/-- A fresh entry is used. Without one the answer of the moment is, if it can be read. -/
theorem fetchJWKS_cases (lib : IDTokenLibrary) (history : KeyHistory) (w : KeyWatch)
    (c : KeyCall) :
    let fetched := (lib.servedBy (history (w.moment c))).fetchJWKS w.cache (w.moment c)
      c.disc.jwksURI
    (∃ e, w.Fresh c e ∧ fetched = (w.cache, .ok e.keys)) ∨
      (∀ e, ¬ w.Fresh c e) ∧
        ((∃ err, lib.servedAt history (w.moment c) c.disc.jwksURI = .error err ∧
          fetched = (w.cache, .error err)) ∨
        ∃ keys, lib.servedAt history (w.moment c) c.disc.jwksURI = .ok keys ∧
          fetched = (Table.deleteWhere (·.uri = c.disc.jwksURI) w.cache ++
            [⟨c.disc.jwksURI, keys, w.moment c⟩], .ok keys)) := by
  dsimp only
  rw [fetchJWKS_eq]
  cases hfind : w.cache.find? fun e => e.uri = c.disc.jwksURI ∧
      w.moment c - e.fetchedAt < jwksLifetime with
  | some e =>
    have hfresh : e.uri = c.disc.jwksURI ∧ w.moment c - e.fetchedAt < jwksLifetime := by
      simpa using List.find?_some hfind
    exact Or.inl ⟨e, ⟨List.mem_of_find?_eq_some hfind, hfresh⟩, rfl⟩
  | none =>
    refine Or.inr ⟨?_, ?_⟩
    · rintro e ⟨hmem, huri, hage⟩
      have hstale := List.find?_eq_none.mp hfind e hmem
      exact hstale (decide_eq_true ⟨huri, hage⟩)
    · show _ ∨ _
      cases hserved : lib.servedAt history (w.moment c) c.disc.jwksURI with
      | error err =>
        refine Or.inl ⟨err, rfl, ?_⟩
        rw [IDTokenLibrary.servedAt] at hserved
        rw [hserved]
      | ok keys =>
        refine Or.inr ⟨keys, rfl, ?_⟩
        rw [IDTokenLibrary.servedAt] at hserved
        rw [hserved]

theorem answer_fst (huri : c.disc.jwksURI ≠ "") :
    (w.answer lib history c).1 = ((lib.servedBy (history (w.moment c))).fetchJWKS w.cache
      (w.moment c) c.disc.jwksURI).1 := by
  rw [KeyWatch.answer, IDTokenLibrary.parseAndVerifyIDToken, if_neg huri]

/-- The consulted keys decide. -/
theorem answer_of_signed (haccepts : lib.Accepts decode signs due) (huri : c.disc.jwksURI ≠ "")
    {keys : List JWK} {header fields : JsonFields} {key : RSAPublicKey} {claims : IDTokenClaims}
    (hkeys : ((lib.servedBy (history (w.moment c))).fetchJWKS w.cache (w.moment c)
      c.disc.jwksURI).2 = .ok keys) (hdecode : decode c.idToken = some (header, fields))
    (hkey : lib.keyFunc keys header = .ok key) (hsigned : signs key c.idToken)
    (h : PassesRest lib due (w.moment c) c header fields claims) :
    (w.answer lib history c).2 = .ok claims := by
  have hparse := haccepts.parse (w.moment c) c.idToken (lib.keyFunc keys) header fields key
    hdecode hkey hsigned h.due
  rw [KeyWatch.answer, IDTokenLibrary.parseAndVerifyIDToken, if_neg huri]
  refine except_bind_eq_ok.mpr ⟨keys, except_mapError_eq_ok.mpr hkeys, ?_⟩
  exact except_bind_eq_ok.mpr ⟨_, except_mapError_eq_ok.mpr hparse, h.checks⟩

theorem signed_of_answer (hlib : lib.Ideal decode signs) (huri : c.disc.jwksURI ≠ "")
    {claims : IDTokenClaims} (h : (w.answer lib history c).2 = .ok claims) :
    ∃ keys header fields, ((lib.servedBy (history (w.moment c))).fetchJWKS w.cache (w.moment c)
      c.disc.jwksURI).2 = .ok keys ∧ decode c.idToken = some (header, fields) ∧
        lib.SignedUnder signs keys header c.idToken := by
  rw [KeyWatch.answer, IDTokenLibrary.parseAndVerifyIDToken, if_neg huri] at h
  obtain ⟨keys, hkeys, hrest⟩ := except_bind_eq_ok.mp h
  obtain ⟨token, hparse, _⟩ := except_bind_eq_ok.mp hrest
  obtain ⟨fields, _, hdecode, ⟨key, hkey, hsigns⟩, _⟩ :=
    hlib.parse _ _ _ _ (except_mapError_eq_ok.mp hparse)
  exact ⟨keys, token.header, fields, except_mapError_eq_ok.mp hkeys, hdecode,
    keyFunc_signed hkey hsigns⟩

/-! ## Runs -/

/-- The cached keys are what the address answered when they were fetched. -/
def EntriesServed (lib : IDTokenLibrary) (history : KeyHistory) (w : KeyWatch) : Prop :=
  ∀ e ∈ w.cache, e.fetchedAt ≤ w.clock ∧ lib.servedAt history e.fetchedAt e.uri = .ok e.keys

theorem EntriesServed.later (h : EntriesServed lib history w) (c : KeyCall) :
    EntriesServed lib history ⟨w.cache, w.moment c⟩ := by
  intro e he
  obtain ⟨hclock, hserved⟩ := h e he
  exact ⟨Int.le_trans hclock (Int.le.intro c.elapsed rfl), hserved⟩

theorem EntriesServed.step (h : EntriesServed lib history w) (c : KeyCall) :
    EntriesServed lib history (w.step lib history c) := by
  have hlater := h.later c
  by_cases huri : c.disc.jwksURI = ""
  · rw [KeyWatch.step, KeyWatch.answer, IDTokenLibrary.parseAndVerifyIDToken, if_pos huri]
    exact hlater
  · rw [KeyWatch.step, answer_fst huri]
    obtain ⟨e, _, hfetched⟩ | ⟨_, ⟨err, _, hfetched⟩ | ⟨keys, hserved, hfetched⟩⟩ :=
      fetchJWKS_cases lib history w c
    · rw [hfetched]
      exact hlater
    · rw [hfetched]
      exact hlater
    · rw [hfetched]
      intro e he
      obtain hold | hnew := List.mem_append.mp he
      · exact hlater e (Table.mem_deleteWhere.mp hold).1
      · rw [List.mem_singleton.mp hnew]
        exact ⟨Int.le_refl _, hserved⟩

theorem EntriesServed.cached (hlib : lib.Ideal decode signs)
    (haccepts : lib.Accepts decode signs due) (h : EntriesServed lib history w) (huri : c.disc.jwksURI ≠ "") :
    KeysCached lib decode signs due history w c := by
  have hcases := fetchJWKS_cases lib history w c
  dsimp only at hcases
  refine ⟨fun keys header fields key claims hserved hdecode hkey hsigned hrest hcached => ?_,
    fun err herr => ?_, fun claims haccepted => ?_⟩
  · obtain ⟨e, hfresh, hfetched⟩ | ⟨_, ⟨err, herr, _⟩ | ⟨keys', hserved', hfetched⟩⟩ := hcases
    · exact answer_of_signed haccepts huri (congrArg Prod.snd hfetched) hdecode
        (hcached e hfresh) hsigned hrest
    · rw [hserved] at herr
      cases herr
    · rw [hserved] at hserved'
      cases hserved'
      exact answer_of_signed haccepts huri (congrArg Prod.snd hfetched) hdecode hkey hsigned
        hrest
  · rw [answer_fst huri]
    obtain ⟨e, _, hfetched⟩ | ⟨_, ⟨_, _, hfetched⟩ | ⟨keys, hserved, _⟩⟩ := hcases
    · rw [hfetched]
    · rw [hfetched]
    · rw [herr] at hserved
      cases hserved
  · obtain ⟨keys, header, fields, hkeys, hdecode, hsigned⟩ := signed_of_answer hlib huri haccepted
    obtain ⟨e, ⟨hmem, hsame, hage⟩, hfetched⟩ |
      ⟨_, ⟨_, _, hfetched⟩ | ⟨keys', hserved, hfetched⟩⟩ := hcases
    · rw [hfetched] at hkeys
      cases hkeys
      obtain ⟨hle, hserved⟩ := h.later c e hmem
      rw [hsame] at hserved
      exact ⟨e.fetchedAt, e.keys, header, fields, hle, hage, hserved, hdecode, hsigned⟩
    · rw [hfetched] at hkeys
      cases hkeys
    · rw [hfetched] at hkeys
      cases hkeys
      refine ⟨w.moment c, keys, header, fields, Int.le_refl _, ?_, hserved, hdecode, hsigned⟩
      rw [sub_self]
      decide

/-- Along every run of calls at addresses of key sets: what the answer of the moment
verifies is accepted unless keys of the last hour say otherwise, no answer that cannot be
read replaces keys, and keys that are accepted were served within the hour. -/
theorem signing_keys_cached {lib : IDTokenLibrary}
    {decode : String → Option (JsonFields × JsonFields)}
    {signs : RSAPublicKey → String → Prop} {due : Time → JsonFields → Prop}
    (hlib : lib.Ideal decode signs) (haccepts : lib.Accepts decode signs due)
    (history : KeyHistory) (t : Time) (cs : List KeyCall) :
    Runs.Every (KeyWatch.step lib history)
      (fun w c => c.disc.jwksURI ≠ "" → KeysCached lib decode signs due history w c)
      (KeyWatch.start t) cs := by
  have hstart : EntriesServed lib history (KeyWatch.start t) :=
    fun e he => absurd he List.not_mem_nil
  have hstep : ∀ w c, EntriesServed lib history w →
      EntriesServed lib history (KeyWatch.step lib history w c) := fun _ c h => h.step c
  have hcached : ∀ w c, EntriesServed lib history w → c.disc.jwksURI ≠ "" →
      KeysCached lib decode signs due history w c :=
    fun _ _ h huri => h.cached hlib haccepts huri
  exact Runs.every_of_invariant hstep hcached hstart cs

end Calls

/-! ## A provider that changes its keys -/

def oldJWKS :=
  "\x7b\"keys\":[\x7b\"kid\":\"old\",\"kty\":\"RSA\",\"n\":\"Aw\",\"e\":\"Aw\"\x7d]\x7d"
def twinJWKS := "\x7b\"keys\":[\x7b\"kid\":\"k\",\"kty\":\"RSA\",\"n\":\"Aw\",\"e\":\"Aw\"\x7d," ++
  "\x7b\"kid\":\"k\",\"kty\":\"RSA\",\"n\":\"Iw\",\"e\":\"Aw\"\x7d]\x7d"
def outageDocument := "\x7b\"error\":\"unavailable\"\x7d"

def jsonKey (kid n : String) : JsonValue :=
  .object [("kid", .string kid), ("kty", .string "RSA"), ("n", .string n), ("e", .string "Aw")]

def changingTokens : IDTokenLibrary :=
  { sampleTokens with
    unmarshal := fun body =>
      if body = bytesOf oldJWKS then .ok (.object [("keys", .array [jsonKey "old" "Aw"])])
      else if body = bytesOf twinJWKS then
        .ok (.object [("keys", .array [jsonKey "k" "Aw", jsonKey "k" "Iw"])])
      else if body = bytesOf outageDocument then .ok (.object [("error", .string "unavailable")])
      else sampleTokens.unmarshal body }

theorem changingTokens_ideal : changingTokens.Ideal sampleDecode sampleSigns :=
  ⟨sampleTokens_ideal.parse⟩

theorem changingTokens_verifies :
    changingTokens.Accepts sampleDecode sampleSigns fun _ _ => True where
  parse now idToken keyFunc header fields key hdecode hkey hsigns _ := by
    show sampleTokens.parse now idToken keyFunc = _
    simp only [sampleTokens, hdecode]
    exact except_bind_eq_ok.mpr ⟨key, hkey,
      except_bind_eq_ok.mpr ⟨(), ensure_eq_ok.mpr hsigns.1, rfl⟩⟩

/-- New keys after a minute. -/
def rotatedKeys : KeyHistory := fun t _ =>
  .answered 200 (bytesOf (if t < 60 * 1000000 then oldJWKS else sampleJWKS))

/-- An outage after an hour. -/
def outageKeys : KeyHistory := fun t _ =>
  if t < jwksLifetime then .answered 200 (bytesOf sampleJWKS)
  else .answered 503 (bytesOf outageDocument)

/-- Two keys with one id. -/
def twinKeys : KeyHistory := fun _ _ => .answered 200 (bytesOf twinJWKS)

def sampleKeyCall (elapsed : Nat) : KeyCall :=
  ⟨elapsed, "h.ours.s", sampleDiscovery "https://idp/keys" sampleIssuer, "app"⟩

/-- Over a rotation and an outage. -/
theorem signing_keys_cached_changing :
    Runs.Every (KeyWatch.step changingTokens rotatedKeys)
      (fun w c => c.disc.jwksURI ≠ "" → KeysCached changingTokens sampleDecode sampleSigns
        (fun _ _ => True) rotatedKeys w c)
      (KeyWatch.start 0) [sampleKeyCall 0, sampleKeyCall (60 * 1000000)] :=
  signing_keys_cached changingTokens_ideal changingTokens_verifies rotatedKeys 0
    [sampleKeyCall 0, sampleKeyCall (60 * 1000000)]

/-! ## Keys that are always those of the moment -/

/-- A successful key-set document. -/
def KeyAnswer.IsKeySet (lib : IDTokenLibrary) : KeyAnswer → Prop
  | failed _ => False
  | answered status body => status = 200 ∧ ∃ fields elems keys,
      lib.unmarshal body = .ok (.object fields) ∧
        JsonValue.field? fields "keys" = some (.array elems) ∧
          elems.mapM JWK.ofJson? = some keys

/-- What a cache would do that is never behind and only holds key sets. -/
structure KeysFollowed (lib : IDTokenLibrary) (decode : String → Option (JsonFields × JsonFields))
    (signs : RSAPublicKey → String → Prop) (due : Time → JsonFields → Prop)
    (history : KeyHistory) (w : KeyWatch) (c : KeyCall) : Prop where
  accepted : ∀ keys header fields claims,
    (history (w.moment c) c.disc.jwksURI).IsKeySet lib →
    lib.servedAt history (w.moment c) c.disc.jwksURI = .ok keys →
    decode c.idToken = some (header, fields) → lib.SignedUnder signs keys header c.idToken →
    PassesRest lib due (w.moment c) c header fields claims →
    (w.answer lib history c).2 = .ok claims
  kept : ¬ (history (w.moment c) c.disc.jwksURI).IsKeySet lib →
    (w.answer lib history c).1 = w.cache
  stopped : ∀ claims, (w.answer lib history c).2 = .ok claims →
    ∃ t keys header fields, t ≤ w.moment c ∧ w.moment c - t ≤ jwksLifetime ∧
      (history t c.disc.jwksURI).IsKeySet lib ∧
      lib.servedAt history t c.disc.jwksURI = .ok keys ∧
      decode c.idToken = some (header, fields) ∧ lib.SignedUnder signs keys header c.idToken

def sampleJWK (n : String) : JWK := ⟨"k", "RSA", "", "", n, "Aw", "", "", ""⟩

theorem sampleJWK_signedUnder {keys : List JWK} (h : sampleJWK "Iw" ∈ keys) :
    changingTokens.SignedUnder sampleSigns keys sampleHeader "h.ours.s" :=
  ⟨sampleJWK "Iw", h, rfl, rfl, sampleKey, by decide, rfl, by decide⟩

theorem sampleKeyCall_passes (now : Time) (elapsed : Nat) :
    PassesRest changingTokens (fun _ _ => True) now (sampleKeyCall elapsed) sampleHeader
      (sampleFields sampleIssuer "app") adaClaims where
  due := trivial
  checks := by
    show changingTokens.checkClaims _ (sampleDiscovery "https://idp/keys" sampleIssuer) "app" = _
    decide

/-- A token under a new key is refused for an hour, an error document takes the place of
the keys, and of two keys with one id only the first counts. -/
theorem signing_keys_not_followed :
    (changingTokens.Ideal sampleDecode sampleSigns ∧
      changingTokens.Accepts sampleDecode sampleSigns fun _ _ => True) ∧
    ¬ Runs.Every (KeyWatch.step changingTokens rotatedKeys)
      (KeysFollowed changingTokens sampleDecode sampleSigns (fun _ _ => True) rotatedKeys)
      (KeyWatch.start 0) [sampleKeyCall 0, sampleKeyCall (60 * 1000000)] ∧
    ¬ Runs.Every (KeyWatch.step changingTokens outageKeys)
      (KeysFollowed changingTokens sampleDecode sampleSigns (fun _ _ => True) outageKeys)
      (KeyWatch.start 0) [sampleKeyCall 0, sampleKeyCall (60 * 60 * 1000000)] ∧
    ¬ KeysFollowed changingTokens sampleDecode sampleSigns (fun _ _ => True) twinKeys
      (KeyWatch.start 0) (sampleKeyCall 0) := by
  refine ⟨⟨changingTokens_ideal, changingTokens_verifies⟩, ?_, ?_, ?_⟩
  · rintro ⟨_, hfollowed, _⟩
    have hset : KeyAnswer.IsKeySet changingTokens (.answered 200 (bytesOf sampleJWKS)) :=
      ⟨rfl, _, _, [sampleJWK "Iw"], rfl, rfl, by decide⟩
    have haccepted := hfollowed.accepted [sampleJWK "Iw"] sampleHeader
      (sampleFields sampleIssuer "app") adaClaims hset (by decide) rfl
      (sampleJWK_signedUnder (by decide)) (sampleKeyCall_passes _ _)
    revert haccepted
    decide
  · rintro ⟨_, hfollowed, _⟩
    have hnot : ¬ KeyAnswer.IsKeySet changingTokens (.answered 503 (bytesOf outageDocument)) :=
      fun h => absurd h.1 (by decide)
    have hkept := congrArg (List.map JWKSEntry.keys) (hfollowed.kept hnot)
    revert hkept
    decide
  · intro hfollowed
    have hset : KeyAnswer.IsKeySet changingTokens (.answered 200 (bytesOf twinJWKS)) :=
      ⟨rfl, _, _, [sampleJWK "Aw", sampleJWK "Iw"], rfl, rfl, by decide⟩
    have haccepted := hfollowed.accepted [sampleJWK "Aw", sampleJWK "Iw"] sampleHeader
      (sampleFields sampleIssuer "app") adaClaims hset (by decide) rfl
      (sampleJWK_signedUnder (by decide)) (sampleKeyCall_passes _ _)
    revert haccepted
    decide

end IronStock

import IronStock.ApiTokens
import IronStock.RevokedSessions
import IronStock.ScimHandlers
import IronStock.Lib.Runs

/-!
# Where an API token opens a door

SCIM, the secret scan and the Ansible inventory each look a bearer up by its
hash. What they let in is compared with what was minted: a ledger of the
plaintexts handed out is carried beside the table.
-/
namespace IronStock

/-! ## The inventory -/

/-- `extractBearerToken`. -/
def extractBearerToken (authz : String) : String := (cutBearer authz).getD ""

/-- The start of `GetInventory`; `claims` is what the middleware left in the
request. -/
def getInventoryAuth (svc : Service) (db : DB) (now : Time) (claims : Option TokenClaims)
    (authz : String) : DB × Reply Unit :=
  match claims with
  | some _ => (db, .ok ())
  | none =>
    let apiToken := extractBearerToken authz
    if apiToken = "" then (db, .error ⟨401, errCodeUnauthorized, "Token gerekli."⟩)
    else
      let usable (t : ApiToken) : Bool :=
        t.tokenHash = (svc.sha256 (bytesOf apiToken)).bytes ∧
          (t.scope = .read ∨ t.scope = .ansible) ∧ t.expiresAt.all (now < ·) = true
      match db.apiTokens.find? usable with
      | none => (db, .error ⟨401, errCodeUnauthorized, "Geçersiz API token."⟩)
      | some t => (db.touchApiToken now t, .ok ())

/-- `GET /api/v1/ansible/inventory` up to the query: the router puts
`RequireAccessToken` in front of the handler. -/
def getInventoryRoute (svc : Service) (db : DB) (now : Time) (authz : String) : DB × Reply Unit :=
  match requireAccessTokenMiddleware svc db now authz with
  | .error e => (db, .error e)
  | .ok claims => getInventoryAuth svc db now (some claims) authz

/-! ## The gates -/

inductive TokenGate
  | scim
  | scan
  | ansible
deriving DecidableEq, Repr

namespace TokenGate

/-- The scopes its documentation names. -/
def scopes : TokenGate → List TokenScope
  | scim => [.scim]
  | scan => [.scan, .read]
  | ansible => [.read, .ansible]

/-- The state after a request with this bearer, and whether it went through. -/
def present (svc : Service) (db : DB) (now : Time) (bearer : String) : TokenGate → DB × Bool
  | scim =>
    let r := requireSCIMToken svc db now ("Bearer " ++ bearer)
    (r.1, r.2.isOk)
  | scan =>
    let r := resolveScanActor svc db now ("Bearer " ++ bearer)
    (r.1, r.2 ≠ "")
  | ansible =>
    let r := getInventoryRoute svc db now ("Bearer " ++ bearer)
    (r.1, r.2.isOk)

/-- The scan and the inventory take access tokens as well. -/
def readsAccessToken (svc : Service) (now : Time) (bearer : String) : TokenGate → Bool
  | scim => false
  | scan | ansible => (svc.jwt.parse now bearer purposeAccess).isOk

/-- The bearer goes through, and not for being an access token. -/
def accepts (svc : Service) (db : DB) (now : Time) (bearer : String) (gate : TokenGate) : Bool :=
  (gate.present svc db now bearer).2 && !gate.readsAccessToken svc now bearer

end TokenGate

/-! ## Tokens that were minted -/

/-- The 32 bytes `rand.Read` fills. -/
abbrev RawToken := { bytes : Bytes // bytes.length = 32 }

theorem sixteen_ne_zero : (16 : Nat) ≠ 0 := by decide

/-- With the zero that `Fin.ofNat` asks for. -/
instance neZeroSixteen : @NeZero Nat Zero.ofOfNat0 16 := ⟨sixteen_ne_zero⟩

/-- `hex.EncodeToString`. -/
def hexEncodeToString (bytes : Bytes) : String :=
  String.ofList (bytes.flatMap fun b =>
    [Uuid.hexDigit (Fin.ofNat 16 (b.toNat / 16)), Uuid.hexDigit (Fin.ofNat 16 b.toNat)])

/-- An answer of `CreateAPIToken` and the user it was given to. -/
structure MintedToken where
  owner : Uuid
  token : APITokenResponse
deriving DecidableEq

namespace MintedToken

def plain (m : MintedToken) : String := m.token.plainToken

def expiresAt (svc : Service) (m : MintedToken) : Option Time :=
  m.token.expiresAt.bind svc.castTimestamptz

def isExpired (svc : Service) (now : Time) (m : MintedToken) : Bool :=
  (m.expiresAt svc).any (· < now)

def hash (svc : Service) (m : MintedToken) : Bytes := (svc.sha256 (bytesOf m.plain)).bytes

end MintedToken

/-- Every column of a row but its name and its last use. -/
structure TokenKey where
  id : Uuid
  owner : Uuid
  hash : Bytes
  scope : TokenScope
  expiresAt : Option Time

def ApiToken.key (t : ApiToken) : TokenKey := ⟨t.id, t.userId, t.tokenHash, t.scope, t.expiresAt⟩

/-- The row that a minted token should have. -/
def MintedToken.key (svc : Service) (m : MintedToken) : TokenKey :=
  ⟨m.token.id, m.owner, m.hash svc, m.token.scope, m.expiresAt svc⟩

/-- The database, and the minted tokens that were not deleted. -/
structure TokenState where
  db : DB
  minted : List MintedToken

inductive TokenMove
  | create (now : Time) (authz : String) (req : CreateAPITokenRequest) (id : Uuid) (raw : RawToken)
  | delete (now : Time) (authz tokenID : String)
  | present (gate : TokenGate) (now : Time) (bearer : String)
  /-- any other request: it may write every table but `api_tokens` -/
  | elsewhere (db : DB)

/-- One request. -/
def tokenStep (svc : Service) (s : TokenState) : TokenMove → TokenState
  | .create now authz req id raw =>
    match requireAccessTokenMiddleware svc s.db now authz,
        createAPIToken svc s.db now authz req ⟨id, hexEncodeToString raw.1⟩ with
    | .ok claims, .ok (db, resp) => ⟨db, s.minted ++ [⟨claims.subject, resp⟩]⟩
    | _, _ => s
  | .delete now authz tokenID =>
    match requireAccessTokenMiddleware svc s.db now authz,
        deleteAPIToken svc s.db now authz tokenID with
    | .ok claims, .ok db =>
      let gone (m : MintedToken) : Bool :=
        castUuid tokenID = some m.token.id ∧ m.owner = claims.subject
      ⟨db, Table.deleteWhere gone s.minted⟩
    | _, _ => s
  | .present gate now bearer => { s with db := (gate.present svc s.db now bearer).1 }
  | .elsewhere db => { s with db := { db with apiTokens := s.db.apiTokens } }

def DB.isDisabled (db : DB) (u : Uuid) : Bool := (db.user? u).any (·.status = .disabled)

/-- The bearer is the plaintext of a token of one of the gate's scopes that is
neither deleted nor expired and whose owner is not disabled. -/
def TokenState.Live (svc : Service) (s : TokenState) (gate : TokenGate) (now : Time)
    (bearer : String) : Prop :=
  ∃ m ∈ s.minted, m.plain = bearer ∧ m.token.scope ∈ gate.scopes ∧ m.isExpired svc now = false ∧
    s.db.isDisabled m.owner = false

/-! ## Plaintexts are not access tokens -/

theorem hexDigit_ne_dot : ∀ d : Fin 16, Uuid.hexDigit d ≠ '.' := by decide

theorem hexEncodeToString_no_dot (bytes : Bytes) : '.' ∉ (hexEncodeToString bytes).toList := by
  intro hdot
  simp only [hexEncodeToString, String.toList_ofList, List.mem_flatMap, List.mem_cons,
    List.not_mem_nil, or_false] at hdot
  obtain ⟨_, _, hhigh | hlow⟩ := hdot
  · exact hexDigit_ne_dot _ hhigh.symm
  · exact hexDigit_ne_dot _ hlow.symm

theorem hexEncodeToString_ne_empty (raw : RawToken) : hexEncodeToString raw.1 ≠ "" := by
  intro hempty
  have hlist := congrArg String.toList hempty
  obtain ⟨bytes, hlength⟩ := raw
  cases bytes with
  | nil => cases hlength
  | cons b bytes => simp [hexEncodeToString] at hlist

/-! ## The ledger -/

/-- The table holds the minted tokens and nothing else, no two under one hash,
and every plaintext encodes bytes that were drawn. -/
structure TokenLedger (svc : Service) (s : TokenState) : Prop where
  rows : s.db.apiTokens.map ApiToken.key = s.minted.map (MintedToken.key svc)
  hashes : (s.db.apiTokens.map (·.tokenHash)).Nodup
  drawn : ∀ m ∈ s.minted, ∃ raw : RawToken, m.plain = hexEncodeToString raw.1

theorem TokenLedger.of_empty (svc : Service) {db : DB} (h : db.apiTokens = []) :
    TokenLedger svc ⟨db, []⟩ where
  rows := by rw [h]; rfl
  hashes := by rw [h]; exact List.nodup_nil
  drawn := by simp

theorem insertApiToken_eq_ok {db db' : DB} {t : ApiToken} (h : insertApiToken db t = .ok db') :
    t.tokenHash ∉ db.apiTokens.map (·.tokenHash) ∧
      db' = { db with apiTokens := db.apiTokens ++ [t] } := by
  simp only [insertApiToken] at h
  split at h
  · cases h
  · next hfresh =>
    split at h
    · cases h
    · cases h
      refine ⟨fun hmem => hfresh ?_, rfl⟩
      obtain ⟨r, hr, hhash⟩ := List.mem_map.mp hmem
      rw [List.any_eq_true]
      exact ⟨r, hr, by simp [hhash]⟩

/-- What an answer of `CreateAPIToken` says about the row. -/
theorem createAPIToken_eq_ok {svc : Service} {db db' : DB} {now : Time} {authz : String}
    {req : CreateAPITokenRequest} {draw : APITokenDraw} {claims : TokenClaims}
    {resp : APITokenResponse} (hauth : requireAccessTokenMiddleware svc db now authz = .ok claims)
    (h : createAPIToken svc db now authz req draw = .ok (db', resp)) :
    ∃ row : ApiToken, row.tokenHash ∉ db.apiTokens.map (·.tokenHash) ∧
      db'.apiTokens = db.apiTokens ++ [row] ∧ resp.plainToken = draw.plain ∧
      row.key = MintedToken.key svc ⟨claims.subject, resp⟩ := by
  simp only [createAPIToken, hauth, Reply.bind_eq_ok, Reply.orElse_eq_ok, Reply.pure_eq_ok,
    Except.ok.injEq, exists_eq_left', Reply.toOption_eq_some, Prod.mk.injEq] at h
  obtain ⟨_, _, scope, _, expiresAt, hexpires, db₁, hinsert, rfl, rfl⟩ := h
  obtain ⟨hfresh, rfl⟩ := insertApiToken_eq_ok hinsert
  have hcast : req.expiresAt.bind svc.castTimestamptz = expiresAt := by
    cases hreq : req.expiresAt with
    | none => simpa [castNullableTime, hreq] using hexpires
    | some text =>
      simp only [castNullableTime, hreq, Option.map_eq_some_iff] at hexpires
      obtain ⟨t, ht, rfl⟩ := hexpires
      exact ht
  refine ⟨_, hfresh, rfl, rfl, ?_⟩
  simp [ApiToken.key, MintedToken.key, MintedToken.hash, MintedToken.plain, MintedToken.expiresAt,
    hcast]

theorem deleteAPIToken_eq_ok {svc : Service} {db db' : DB} {now : Time} {authz tokenID : String}
    {claims : TokenClaims} (hauth : requireAccessTokenMiddleware svc db now authz = .ok claims)
    (h : deleteAPIToken svc db now authz tokenID = .ok db') :
    db'.apiTokens = Table.deleteWhere
      (fun t => castUuid tokenID = some t.id ∧ t.userId = claims.subject) db.apiTokens := by
  simp only [deleteAPIToken, hauth, Reply.bind_eq_ok, Reply.orElse_eq_ok, Reply.pure_eq_ok,
    Except.ok.injEq, exists_eq_left'] at h
  obtain ⟨id, hid, _, _, rfl⟩ := h
  simp [DB.audit, hid, eq_comm]

/-- What a request at a gate may change in the table: when a row was last used. -/
structure RowsKept (db db' : DB) : Prop where
  keys : db'.apiTokens.map ApiToken.key = db.apiTokens.map ApiToken.key
  hashes : db'.apiTokens.map (·.tokenHash) = db.apiTokens.map (·.tokenHash)

theorem RowsKept.refl (db : DB) : RowsKept db db := ⟨rfl, rfl⟩

theorem touchApiToken_rowsKept (db : DB) (now : Time) (t : ApiToken) :
    RowsKept db (db.touchApiToken now t) := by
  constructor <;>
  · simp only [DB.touchApiToken, Table.updateWhere, List.map_map]
    apply List.map_congr_left
    intro r _
    rw [Function.comp_apply]
    split <;> rfl

theorem requireSCIMToken_rowsKept (svc : Service) (db : DB) (now : Time) (authz : String) :
    RowsKept db (requireSCIMToken svc db now authz).1 := by
  simp only [requireSCIMToken]
  repeat' split
  all_goals first | exact .refl db | exact touchApiToken_rowsKept db now _

theorem resolveScanActor_rowsKept (svc : Service) (db : DB) (now : Time) (authz : String) :
    RowsKept db (resolveScanActor svc db now authz).1 := by
  simp only [resolveScanActor]
  repeat' split
  all_goals first | exact .refl db | exact touchApiToken_rowsKept db now _

theorem getInventoryRoute_rowsKept (svc : Service) (db : DB) (now : Time) (authz : String) :
    RowsKept db (getInventoryRoute svc db now authz).1 := by
  simp only [getInventoryRoute]
  split <;> exact .refl db

theorem TokenGate.present_rowsKept (svc : Service) (db : DB) (now : Time) (bearer : String)
    (gate : TokenGate) : RowsKept db (gate.present svc db now bearer).1 := by
  cases gate with
  | scim => exact requireSCIMToken_rowsKept svc db now _
  | scan => exact resolveScanActor_rowsKept svc db now _
  | ansible => exact getInventoryRoute_rowsKept svc db now _

section Ledger

variable {svc : Service} {s : TokenState}

theorem TokenLedger.create (h : TokenLedger svc s) {db : DB} {row : ApiToken} {m : MintedToken}
    {raw : RawToken} (hfresh : row.tokenHash ∉ s.db.apiTokens.map (·.tokenHash))
    (hrows : db.apiTokens = s.db.apiTokens ++ [row]) (hkey : row.key = m.key svc)
    (hplain : m.plain = hexEncodeToString raw.1) : TokenLedger svc ⟨db, s.minted ++ [m]⟩ where
  rows := by rw [hrows, List.map_append, List.map_append, h.rows, List.map_singleton, hkey]; rfl
  hashes := by
    rw [hrows, List.map_append, List.map_singleton, (List.perm_append_singleton _ _).nodup_iff]
    exact List.nodup_cons.mpr ⟨hfresh, h.hashes⟩
  drawn m' hm' := by
    rcases List.mem_append.mp hm' with hm' | hm'
    · exact h.drawn m' hm'
    · obtain rfl := List.mem_singleton.mp hm'
      exact ⟨raw, hplain⟩

/-- A deletion by id and owner strikes the same tokens from both. -/
theorem TokenLedger.delete (h : TokenLedger svc s) {db : DB} (doomed : TokenKey → Bool)
    (hrows : db.apiTokens = Table.deleteWhere (doomed ∘ ApiToken.key) s.db.apiTokens) :
    TokenLedger svc ⟨db, Table.deleteWhere (doomed ∘ MintedToken.key svc) s.minted⟩ where
  rows := by
    have hfilter : ∀ {α : Type} (key : α → TokenKey) (l : List α),
        (Table.deleteWhere (doomed ∘ key) l).map key = Table.deleteWhere doomed (l.map key) := by
      intro α key l
      exact (List.filter_map (p := fun k => !doomed k)).symm
    rw [hrows, hfilter, hfilter, h.rows]
  hashes := by
    rw [hrows]
    exact h.hashes.sublist (List.Sublist.map _ List.filter_sublist)
  drawn m hm := h.drawn m (Table.mem_deleteWhere.mp hm).1

theorem TokenLedger.of_rowsKept (h : TokenLedger svc s) {db : DB} (hkept : RowsKept s.db db) :
    TokenLedger svc { s with db } where
  rows := hkept.keys.trans h.rows
  hashes := by rw [hkept.hashes]; exact h.hashes
  drawn := h.drawn

/-- One request keeps the ledger. -/
theorem tokenStep_ledger (h : TokenLedger svc s) (move : TokenMove) :
    TokenLedger svc (tokenStep svc s move) := by
  cases move with
  | create now authz req id raw =>
    simp only [tokenStep]
    split
    · next claims db resp hauth hcreate =>
      obtain ⟨row, hfresh, hrows, hplain, hkey⟩ := createAPIToken_eq_ok hauth hcreate
      exact h.create hfresh hrows hkey hplain
    · exact h
  | delete now authz tokenID =>
    simp only [tokenStep]
    split
    · next claims db hauth hdelete =>
      exact h.delete (fun k => castUuid tokenID = some k.id ∧ k.owner = claims.subject)
        (deleteAPIToken_eq_ok hauth hdelete)
    · exact h
  | present gate now bearer => exact h.of_rowsKept (gate.present_rowsKept svc s.db now bearer)
  | elsewhere db => exact h.of_rowsKept ⟨rfl, rfl⟩

theorem TokenLedger.mem_row (h : TokenLedger svc s) {t : ApiToken} (ht : t ∈ s.db.apiTokens) :
    ∃ m ∈ s.minted, m.key svc = t.key :=
  List.mem_map.mp (h.rows ▸ List.mem_map_of_mem ht)

theorem TokenLedger.mem_minted (h : TokenLedger svc s) {m : MintedToken} (hm : m ∈ s.minted) :
    ∃ t ∈ s.db.apiTokens, t.key = m.key svc :=
  List.mem_map.mp (h.rows ▸ List.mem_map_of_mem hm)

/-- Nothing else that was minted has the hash of this text. -/
def TokenState.HashDetermines (svc : Service) (s : TokenState) (bearer : String) : Prop :=
  ∀ m ∈ s.minted, m.hash svc = (svc.sha256 (bytesOf bearer)).bytes → m.plain = bearer

/-- The lookup by hash finds the row of the minted token with this plaintext. -/
theorem TokenLedger.findApiToken_eq_some (h : TokenLedger svc s) {bearer : String}
    (hsha : s.HashDetermines svc bearer) {t : ApiToken} :
    findApiToken svc s.db bearer = some t ↔
      t ∈ s.db.apiTokens ∧ ∃ m ∈ s.minted, m.key svc = t.key ∧ m.plain = bearer := by
  constructor
  · intro hfind
    obtain ⟨ht, hhash⟩ := Table.lookup_eq_some hfind
    obtain ⟨m, hm, hkey⟩ := h.mem_row ht
    have hsame : m.hash svc = t.tokenHash := congrArg TokenKey.hash hkey
    exact ⟨ht, m, hm, hkey, hsha m hm (hsame.trans hhash)⟩
  · rintro ⟨ht, m, hm, hkey, rfl⟩
    have hsame : t.tokenHash = (svc.sha256 (bytesOf m.plain)).bytes :=
      congrArg TokenKey.hash hkey.symm
    rw [findApiToken, ← hsame]
    exact Table.lookup_of_mem h.hashes ht

end Ledger

/-! ## What the gates let in -/

section Rows

variable {svc : Service} {db : DB} {now : Time} {bearer : String}

theorem scim_accepts_iff : TokenGate.scim.accepts svc db now bearer = true ↔
    bearer ≠ "" ∧ ∃ t, findApiToken svc db bearer = some t ∧ t.scope ∈ TokenGate.scim.scopes ∧
      t.isExpired now = false := by
  simp only [TokenGate.accepts, TokenGate.present, TokenGate.readsAccessToken, requireSCIMToken,
    cutBearer_bearer, TokenGate.scopes, List.mem_singleton]
  by_cases hempty : bearer = ""
  · simp [hempty, Except.isOk, Except.toBool]
  · cases hfind : findApiToken svc db bearer with
    | none => simp [hempty, Except.isOk, Except.toBool]
    | some t =>
      by_cases hscope : t.scope = .scim
      · cases hexpired : t.isExpired now <;>
          simp [hempty, hscope, hexpired, Except.isOk, Except.toBool]
      · simp [hempty, hscope, Except.isOk, Except.toBool]

theorem scan_accepts_api_token_iff : TokenGate.scan.accepts svc db now bearer = true ↔
    (svc.jwt.parse now bearer purposeAccess).isOk = false ∧
      ∃ t, findApiToken svc db bearer = some t ∧ t.scope ∈ TokenGate.scan.scopes ∧
        t.isExpired now = false := by
  simp only [TokenGate.accepts, TokenGate.present, TokenGate.readsAccessToken, resolveScanActor,
    cutBearer_bearer, TokenGate.scopes, List.mem_cons, List.not_mem_nil, or_false]
  cases hparse : svc.jwt.parse now bearer purposeAccess with
  | ok claims => simp [Except.isOk, Except.toBool]
  | error e =>
    cases hfind : findApiToken svc db bearer with
    | none => simp
    | some t =>
      by_cases hscope : t.scope = .scan ∨ t.scope = .read
      · have hkept : ¬ (t.scope ≠ .scan ∧ t.scope ≠ .read) := fun h => hscope.elim h.1 h.2
        cases hexpired : t.isExpired now <;>
          simp [hkept, hscope, hexpired, Uuid.text_ne_empty, Except.isOk, Except.toBool]
      · have hother : t.scope ≠ .scan ∧ t.scope ≠ .read := not_or.mp hscope
        simp [hother]

/-- The middleware lets an access token through and nothing else, so the
handler's own lookup is never reached. -/
theorem ansible_accepts_nothing : TokenGate.ansible.accepts svc db now bearer = false := by
  simp only [TokenGate.accepts, TokenGate.present, TokenGate.readsAccessToken, getInventoryRoute]
  cases hauth : requireAccessTokenMiddleware svc db now ("Bearer " ++ bearer) with
  | error e => rfl
  | ok claims =>
    obtain ⟨token, htoken, hdecode⟩ := requireAccessTokenMiddleware_eq_ok hauth
    have hbearer : bearer = token := by
      rw [bearerToken, cutBearer_bearer, Option.filter_eq_some_iff] at htoken
      exact Option.some.inj htoken.1
    have hparse := JWTSigner.parse_access.mpr hdecode
    rw [hbearer, hparse]
    rfl

end Rows

section Gates

variable {svc : Service} {s : TokenState} {now : Time} {bearer : String}

theorem ApiToken.isExpired_of_key {t : ApiToken} {m : MintedToken} (h : m.key svc = t.key) :
    t.scope = m.token.scope ∧ t.isExpired now = m.isExpired svc now := by
  have hscope : m.token.scope = t.scope := congrArg TokenKey.scope h
  have hexpires : m.expiresAt svc = t.expiresAt := congrArg TokenKey.expiresAt h
  exact ⟨hscope.symm, by rw [ApiToken.isExpired, MintedToken.isExpired, hexpires]⟩

/-- What parses as an access token has dots in it, and a plaintext has none. -/
theorem TokenLedger.plain_not_access (h : TokenLedger svc s)
    (hjwt : ∀ now token, '.' ∉ token.toList → svc.jwt.decode now token = none)
    {m : MintedToken} (hm : m ∈ s.minted) (now : Time) :
    (svc.jwt.parse now m.plain purposeAccess).isOk = false ∧ m.plain ≠ "" := by
  obtain ⟨raw, hraw⟩ := h.drawn m hm
  rw [hraw]
  refine ⟨?_, hexEncodeToString_ne_empty raw⟩
  rw [JWTSigner.parse, hjwt now _ (hexEncodeToString_no_dot raw.1)]
  rfl

/-- The rows the lookup finds are those of the minted tokens. -/
theorem TokenLedger.exists_row_iff (h : TokenLedger svc s) (hsha : s.HashDetermines svc bearer)
    (scopes : List TokenScope) :
    (∃ t, findApiToken svc s.db bearer = some t ∧ t.scope ∈ scopes ∧ t.isExpired now = false) ↔
      ∃ m ∈ s.minted, m.plain = bearer ∧ m.token.scope ∈ scopes ∧ m.isExpired svc now = false := by
  constructor
  · rintro ⟨t, hfind, hscope, hfresh⟩
    obtain ⟨_, m, hm, hkey, hplain⟩ := (h.findApiToken_eq_some hsha).mp hfind
    obtain ⟨hsame, hexpired⟩ := @ApiToken.isExpired_of_key svc now t m hkey
    exact ⟨m, hm, hplain, hsame ▸ hscope, hexpired ▸ hfresh⟩
  · rintro ⟨m, hm, hplain, hscope, hfresh⟩
    obtain ⟨t, ht, hkey⟩ := h.mem_minted hm
    obtain ⟨hsame, hexpired⟩ := @ApiToken.isExpired_of_key svc now t m hkey.symm
    exact ⟨t, (h.findApiToken_eq_some hsha).mpr ⟨ht, m, hm, hkey.symm, hplain⟩,
      hsame ▸ hscope, hexpired ▸ hfresh⟩

/-- SCIM and the scan let in the unexpired tokens of their scopes, whoever owns
them; the inventory lets in none. -/
theorem TokenLedger.accepts_iff (h : TokenLedger svc s)
    (hjwt : ∀ now token, '.' ∉ token.toList → svc.jwt.decode now token = none)
    (hsha : s.HashDetermines svc bearer) (gate : TokenGate) :
    gate.accepts svc s.db now bearer = true ↔
      gate ≠ .ansible ∧ ∃ m ∈ s.minted, m.plain = bearer ∧ m.token.scope ∈ gate.scopes ∧
        m.isExpired svc now = false := by
  cases gate with
  | scim =>
    rw [scim_accepts_iff, h.exists_row_iff hsha]
    constructor
    · exact fun hopen => ⟨by decide, hopen.2⟩
    · rintro ⟨_, m, hm, rfl, hrest⟩
      exact ⟨(h.plain_not_access hjwt hm now).2, m, hm, rfl, hrest⟩
  | scan =>
    rw [scan_accepts_api_token_iff, h.exists_row_iff hsha]
    constructor
    · exact fun hopen => ⟨by decide, hopen.2⟩
    · rintro ⟨_, m, hm, rfl, hrest⟩
      exact ⟨(h.plain_not_access hjwt hm now).1, m, hm, rfl, hrest⟩
  | ansible => simp [ansible_accepts_nothing]

/-- No two minted tokens share a hash, so none share a plaintext. -/
theorem TokenLedger.hash_inj (h : TokenLedger svc s) {m m' : MintedToken} (hm : m ∈ s.minted)
    (hm' : m' ∈ s.minted) (hhash : m.hash svc = m'.hash svc) : m = m' := by
  have hhashes : (s.minted.map (MintedToken.hash svc)).Nodup := by
    have hsame : s.db.apiTokens.map (·.tokenHash) = s.minted.map (MintedToken.hash svc) := by
      have hmap := congrArg (List.map TokenKey.hash) h.rows
      rwa [List.map_map, List.map_map] at hmap
    exact hsame ▸ h.hashes
  exact Table.eq_of_lookup hhashes (Table.lookup_of_mem hhashes hm') hm hhash

theorem TokenLedger.plain_inj (h : TokenLedger svc s) {m m' : MintedToken} (hm : m ∈ s.minted)
    (hm' : m' ∈ s.minted) (hplain : m.plain = m'.plain) : m = m' :=
  h.hash_inj hm hm' (by rw [MintedToken.hash, MintedToken.hash, hplain])

theorem TokenLedger.hashDetermines (h : TokenLedger svc s) {m : MintedToken} (hm : m ∈ s.minted) :
    s.HashDetermines svc m.plain :=
  fun _ hm' hhash => congrArg MintedToken.plain (h.hash_inj hm' hm hhash)

end Gates

/-! ## Where the gates go by the owner -/

/-- No unexpired token of the gate's scopes with this plaintext belongs to a
disabled user; at the inventory, which lets none in, there is no live one. -/
def TokenState.OwnersEnabled (svc : Service) (s : TokenState) (now : Time) (bearer : String) :
    TokenGate → Prop
  | .ansible => ¬ s.Live svc .ansible now bearer
  | gate => ∀ m ∈ s.minted, m.plain = bearer → m.token.scope ∈ gate.scopes →
      m.isExpired svc now = false → s.db.isDisabled m.owner = false

/-- What a gate should do with a bearer: let in exactly the live tokens. -/
def TokenState.Agrees (svc : Service) (s : TokenState) (gate : TokenGate) (now : Time)
    (bearer : String) : Prop :=
  gate.accepts svc s.db now bearer = true ↔ s.Live svc gate now bearer

/-- No token that the user minted opens a gate. -/
def TokenState.ShutOut (svc : Service) (s : TokenState) (now : Time) (user : Uuid) : Prop :=
  ∀ m ∈ s.minted, m.owner = user → ∀ gate : TokenGate,
    gate.accepts svc s.db now m.plain = false

section Owners

variable {svc : Service} {s : TokenState} {now : Time} {bearer : String}

theorem TokenLedger.agrees_iff (h : TokenLedger svc s)
    (hjwt : ∀ now token, '.' ∉ token.toList → svc.jwt.decode now token = none)
    (hsha : s.HashDetermines svc bearer) (gate : TokenGate) :
    s.Agrees svc gate now bearer ↔ s.OwnersEnabled svc now bearer gate := by
  have hopen (gate : TokenGate) (hgate : gate ≠ .ansible) : s.Agrees svc gate now bearer ↔
      ∀ m ∈ s.minted, m.plain = bearer → m.token.scope ∈ gate.scopes →
        m.isExpired svc now = false → s.db.isDisabled m.owner = false := by
    rw [TokenState.Agrees, h.accepts_iff hjwt hsha, and_iff_right hgate]
    constructor
    · intro hagree m hm hplain hscope hfresh
      obtain ⟨m', hm', hplain', _, _, henabled⟩ := hagree.mp ⟨m, hm, hplain, hscope, hfresh⟩
      -- the live token with this plaintext is the same one
      have hsame : m' = m := h.plain_inj hm' hm (hplain'.trans hplain.symm)
      exact hsame ▸ henabled
    · intro henabled
      constructor
      · rintro ⟨m, hm, hplain, hscope, hfresh⟩
        exact ⟨m, hm, hplain, hscope, hfresh, henabled m hm hplain hscope hfresh⟩
      · rintro ⟨m, hm, hplain, hscope, hfresh, _⟩
        exact ⟨m, hm, hplain, hscope, hfresh⟩
  cases gate with
  | scim => exact hopen .scim (by decide)
  | scan => exact hopen .scan (by decide)
  | ansible =>
    rw [TokenState.Agrees, ansible_accepts_nothing, TokenState.OwnersEnabled]
    simp

/-- A user is shut out once every token they minted is of a scope that no gate
reads, or expired. -/
theorem TokenLedger.shutOut_iff (h : TokenLedger svc s)
    (hjwt : ∀ now token, '.' ∉ token.toList → svc.jwt.decode now token = none) (user : Uuid) :
    s.ShutOut svc now user ↔
      ∀ m ∈ s.minted, m.owner = user → m.token.scope = .ansible ∨ m.isExpired svc now = true := by
  have haccepts {m : MintedToken} (hm : m ∈ s.minted) (gate : TokenGate) :
      gate.accepts svc s.db now m.plain = true ↔
        gate ≠ .ansible ∧ m.token.scope ∈ gate.scopes ∧ m.isExpired svc now = false := by
    rw [h.accepts_iff hjwt (h.hashDetermines hm)]
    constructor
    · rintro ⟨hgate, m', hm', hplain, hrest⟩
      obtain rfl := h.plain_inj hm' hm hplain
      exact ⟨hgate, hrest⟩
    · rintro ⟨hgate, hrest⟩
      exact ⟨hgate, m, hm, rfl, hrest⟩
  constructor
  · intro hshut m hm howner
    by_contra hlive
    obtain ⟨hscope, hfresh⟩ := not_or.mp hlive
    have hfresh : m.isExpired svc now = false := by simpa using hfresh
    -- every other scope has a gate that reads it
    obtain ⟨gate, hgate, hmem⟩ : ∃ gate : TokenGate, gate ≠ .ansible ∧
        m.token.scope ∈ gate.scopes := by
      cases hs : m.token.scope with
      | read => exact ⟨.scan, by decide, by decide⟩
      | ansible => exact absurd hs hscope
      | scim => exact ⟨.scim, by decide, by decide⟩
      | scan => exact ⟨.scan, by decide, by decide⟩
    have hthrough := (haccepts hm gate).mpr ⟨hgate, hmem, hfresh⟩
    rw [hshut m hm howner gate] at hthrough
    cases hthrough
  · intro hdead m hm howner gate
    rw [← Bool.not_eq_true, haccepts hm]
    rintro ⟨hgate, hscope, hfresh⟩
    rcases hdead m hm howner with hansible | hexpired
    · rw [hansible] at hscope
      cases gate <;> simp [TokenGate.scopes] at hgate hscope
    · rw [hfresh] at hexpired
      cases hexpired

end Owners

theorem mem_toList_dot (head tail : String) : '.' ∈ (head ++ "." ++ tail).toList := by
  simp [String.toList_append]

theorem tokenService_decode_eq_none (now : Time) {token : String} (h : '.' ∉ token.toList) :
    tokenService.jwt.decode now token = none := by
  have hne : sampleAccessToken ≠ token := fun heq => h (heq ▸ mem_toList_dot _ _)
  simp [tokenService, sampleSigner, hne]

/-- A request that goes through adds the token to the ledger. -/
theorem tokenStep_create {svc : Service} {s : TokenState} {now : Time} {authz : String}
    {req : CreateAPITokenRequest} {id : Uuid} {raw : RawToken} {claims : TokenClaims}
    {scope : TokenScope} (hauth : requireAccessTokenMiddleware svc s.db now authz = .ok claims)
    (hname : req.name ≠ "") (hscope : TokenScope.ofRequest req.scope = some scope)
    (hforever : req.expiresAt = none) (hrows : s.db.apiTokens = [])
    (huser : (s.db.user? claims.subject).isSome = true) :
    (tokenStep svc s (.create now authz req id raw)).minted =
      s.minted ++ [⟨claims.subject, ⟨id, req.name, scope, none, hexEncodeToString raw.1⟩⟩] := by
  have hknown : (s.db.user? claims.subject).isNone = false := by simpa using huser
  let row : ApiToken := ⟨id, claims.subject, req.name,
    (svc.sha256 (bytesOf (hexEncodeToString raw.1))).bytes, scope, none, none⟩
  have hcreate : createAPIToken svc s.db now authz req ⟨id, hexEncodeToString raw.1⟩ =
      .ok (({ s.db with apiTokens := [row] } : DB).audit
        ⟨claims.subject.text, "api_token.created", "api_token", id.text⟩,
        ⟨id, req.name, scope, none, hexEncodeToString raw.1⟩) := by
    simp [createAPIToken, hauth, hname, hscope, hforever, hrows, hknown, castNullableTime,
      insertApiToken, Reply.require, Reply.orElse, bind, Except.bind, pure, Except.pure,
      Except.toOption, row]
  simp only [tokenStep, hauth, hcreate]

@[simp] theorem tokenStep_elsewhere (svc : Service) (s : TokenState) (db : DB) :
    (tokenStep svc s (.elsewhere db)).minted = s.minted := rfl

/-- A token of scope `scim` for a bot. -/
def sampleTokenRequest : CreateAPITokenRequest := ⟨"bot", "scim", none⟩

theorem length_zeroToken : (List.replicate 32 (0 : UInt8)).length = 32 := rfl

def sampleRawToken : RawToken := ⟨List.replicate 32 0, length_zeroToken⟩

def sampleMintedToken : MintedToken :=
  ⟨Uuid.ofNat 1, ⟨Uuid.ofNat 9, "bot", .scim, none, hexEncodeToString sampleRawToken.1⟩⟩

/-- User 1 after an administrator disabled the account. -/
def disabledState : DB := { users := [{ sampleUser 1 "owner" with status := .disabled }] }

def mintThenDisable : List TokenMove :=
  [.create 1 ("Bearer " ++ sampleAccessToken) sampleTokenRequest (Uuid.ofNat 9) sampleRawToken,
    .elsewhere disabledState]

theorem requireAccessTokenMiddleware_sample :
    requireAccessTokenMiddleware tokenService sessionState 1 ("Bearer " ++ sampleAccessToken) =
      .ok sampleAccessClaims := by
  rw [requireAccessTokenMiddleware_of_parse parse_sampleAccessToken]
  exact if_pos (by decide)

theorem mintThenDisable_minted :
    (Runs.run (tokenStep tokenService) ⟨sessionState, []⟩ mintThenDisable).minted =
      [sampleMintedToken] := by
  have hscope : TokenScope.ofRequest sampleTokenRequest.scope = some .scim := by
    simp [TokenScope.ofRequest, sampleTokenRequest]
  have huser : (sessionState.user? (Uuid.ofNat 1)).isSome = true := by decide
  have hmint := @tokenStep_create tokenService ⟨sessionState, []⟩ 1 ("Bearer " ++ sampleAccessToken)
    sampleTokenRequest (Uuid.ofNat 9) sampleRawToken sampleAccessClaims .scim
    requireAccessTokenMiddleware_sample (by decide) hscope rfl rfl huser
  simp only [mintThenDisable, Runs.run_cons, Runs.run_nil]
  rw [tokenStep_elsewhere]
  exact hmint

end IronStock

import IronStock.HttpTransport
import IronStock.Lib.Runs
import IronStock.Lib.UrlPaths
import IronStock.VaultHandlers

/-!
# Paths in the Vault

The mount and the path of an item with an external source become the path of a request to
the Vault server, and a lease id of a request is sent there to be revoked. One of the
handlers looks at the stored texts before it uses them.
-/
namespace IronStock.VaultPaths

open UrlText (Url CleanUrl CleanText decodeSegments)

/-! ## The client -/

/-- `strings.TrimRight(s, "/")`. -/
def trimRightSlash (s : String) : String :=
  String.ofList ((s.toList.reverse.dropWhile (· = '/')).reverse)

/-- The configuration of the client, and the token that `ensureToken` leaves. -/
structure Endpoint where
  addr : String
  namespaceName : String
  token : Option Bytes

namespace Endpoint
variable (e : Endpoint)

def base : String := trimRightSlash e.addr

def headers (token : Bytes) : List Bytes :=
  if e.namespaceName = "" then [token] else [token, bytesOf e.namespaceName]

/-- The URL that `doRequest` asks for behind `ensureToken`. -/
def request (path : String) : Option Url :=
  e.token.bind fun token => sendURL (e.headers token) (e.base ++ path)

/-- There is no token, or the request is refused. -/
def Refuses (path : String) : Prop :=
  ∀ token, e.token = some token → IronStock.Refuses (e.headers token) e.base path

end Endpoint

/-- What the server answers. -/
structure Server where
  getData : Url → (kvVersion : Int) → Except VaultError (List (String × String))
  issueLease : Url → (ttl : String) → Except VaultError DynamicLease

def Endpoint.client (e : Endpoint) (server : Server) : VaultClient where
  getData kvVersion path :=
    match e.request path with
    | none => .error .other
    | some u => server.getData u kvVersion
  issueLease path ttl :=
    match e.request path with
    | none => .error .other
    | some u => server.issueLease u ttl

/-- Version 2 is the default. -/
def usesV2 (src : ExternalSourceVault) : Bool :=
  (if src.kvVersion = 0 then 2 else src.kvVersion) = 2

/-- The path that `ReadKV` asks for. -/
def kvPath (src : ExternalSourceVault) : String :=
  if usesV2 src then
    "/v1/" ++ src.mount ++ "/data/" ++ trimSlash src.path
  else "/v1/" ++ src.mount ++ "/" ++ trimSlash src.path

def dynamicPath (mount : String) : String := "/v1/" ++ trimSlash mount

theorem readKV_congr {c c' : VaultClient} {src : ExternalSourceVault}
    (h : ∀ kvVersion, c.getData kvVersion (kvPath src) = c'.getData kvVersion (kvPath src)) :
    c.readKV src = c'.readKV src := by
  simp only [kvPath, usesV2, decide_eq_true_eq] at h
  unfold VaultClient.readKV
  simp only
  rw [h]

/-! ## Handlers -/

/-- The state: the database, and the leases that were given out through an item. -/
structure State where
  db : DB
  issued : List (Uuid × String)

/-- A call: the client if one is configured, the time, the caller and the item. -/
structure Call where
  vault : Option (Endpoint × Server)
  now : Time
  claims : Claims
  itemID : String

def Call.client (call : Call) : Option VaultClient :=
  call.vault.map fun (e, server) => e.client server

/-- The URL that `VaultFetch` sends. -/
def fetchURL (svc : Service) (db : DB) (call : Call) : Option Url :=
  match call.vault, vaultFetchSource svc db call.now call.claims call.itemID call.client with
  | some (e, _), .ok (_, src) => e.request (kvPath src)
  | _, _ => none

/-- `IssueDynamicCred` up to the call of the client. -/
def dynamicSource (svc : Service) (vault : Option VaultClient) (db : DB) (now : Time)
    (claims : Claims) (itemID : String) : Reply (VaultClient × ExternalSourceVault) := do
  .require (itemID ≠ "") (badRequest "item id zorunlu.")
  let client ← requireVault vault
  .unlessAdmin claims
    (requireItemRead db now claims itemID
      ⟨403, errCodeForbidden, "Bu item'a erişim yetkisi yok."⟩)
  let raw ← loadExternalSource db itemID
  let text ← .orElse raw (badRequest "Bu item bir Vault entegrasyonu içermiyor.")
  let src ← .orElse (svc.unmarshalSource text) (badRequest "Item Vault entegrasyonu geçersiz.")
  checkDynamicSource src
  pure (client, src)

/-- The URL that `IssueDynamicCred` sends. -/
def issueURL (svc : Service) (db : DB) (call : Call) : Option Url :=
  match call.vault, dynamicSource svc call.client db call.now call.claims call.itemID with
  | some (e, _), .ok (_, src) => e.request (dynamicPath src.mount)
  | _, _ => none

/-- The path of `RevokeLease`. -/
def revokePath : String := "/v1/sys/leases/revoke"

/-- `RevokeDynamicCred`: the state, and the lease that is revoked. -/
def revokeDynamicCred (db : DB) (call : Call) (leaseID : String) : Reply (DB × Option String) := do
  .require (call.itemID ≠ "" ∧ leaseID ≠ "") (badRequest "item id ve lease_id zorunlu.")
  let (e, _) ← .orElse call.vault ⟨503, errCodeInternal, "Vault entegrasyonu yapılandırılmamış."⟩
  .unlessAdmin call.claims
    (requireItemRead db call.now call.claims call.itemID
      ⟨403, errCodeForbidden, "Bu item'a erişim yetkisi yok."⟩)
  pure (db.audit ⟨call.claims.subject.text, "item.dynamic_cred_revoked", "item", call.itemID⟩,
    (e.request revokePath).map fun _ => leaseID)

/-- A request, or anything else that happens to the database. -/
inductive Event
  | fetch (call : Call)
  | issue (call : Call)
  | revoke (call : Call) (leaseID : String)
  | other (db : DB)

def step (svc : Service) (s : State) : Event → State
  | .fetch call =>
    { s with db := (vaultFetch svc call.client s.db call.now call.claims call.itemID).1 }
  | .issue call =>
    match issueDynamicCred svc call.client s.db call.now call.claims call.itemID with
    | .error _ => s
    | .ok (db, cred) =>
      ⟨db, s.issued ++ (castUuid call.itemID).toList.map fun item => (item, cred.leaseID)⟩
  | .revoke call leaseID =>
    match revokeDynamicCred s.db call leaseID with
    | .error _ => s
    | .ok (db, _) => { s with db }
  | .other db => { s with db }

/-! ## Safety -/

/-- The segments of a read: those of the mount, `data` in version 2, those of the path. -/
def kvSegments (src : ExternalSourceVault) : Option (List UrlText.Bytes) := do
  let mount ← decodeSegments src.mount.toList
  let path ← decodeSegments (trimSlash src.path).toList
  if usesV2 src then
    some (bytesOf "v1" :: mount ++ bytesOf "data" :: path)
  else some (bytesOf "v1" :: mount ++ path)

def dynamicSegments (mount : String) : Option (List UrlText.Bytes) :=
  (decodeSegments (trimSlash mount).toList).map (bytesOf "v1" :: ·)

/-- A URL that goes out has for its path `v1`, the segments of the stored mount, the fixed
segments of the operation and those of the stored path, all of them names, and nothing
else. A lease that is revoked was given out through the item of the request. -/
def Safe (svc : Service) (s : State) : Event → Prop
  | .fetch call => ∀ u, fetchURL svc s.db call = some u →
      ∃ client src, vaultFetchSource svc s.db call.now call.claims call.itemID call.client =
        .ok (client, src) ∧ CleanUrl (kvSegments src) u
  | .issue call => ∀ u, issueURL svc s.db call = some u →
      ∃ client src, dynamicSource svc call.client s.db call.now call.claims call.itemID =
        .ok (client, src) ∧ CleanUrl (dynamicSegments src.mount) u
  | .revoke call leaseID => ∀ db lease, revokeDynamicCred s.db call leaseID = .ok (db, some lease) →
      ∃ item, castUuid call.itemID = some item ∧ (item, lease) ∈ s.issued
  | .other _ => True

/-- The address is that of a host and nothing more. -/
structure BareAddress (e : Endpoint) : Prop where
  noFragment : '#' ∉ e.base.toList
  noQuery : '?' ∉ e.base.toList
  noPath : ∀ server, UrlText.parse e.base.toList = some server → server.path = []

/-- The condition: the request is refused, or address and stored texts are clean. A lease
that a request names was given out through its item, unless the request is refused. -/
def Meets (svc : Service) (s : State) : Event → Prop
  | .fetch call => ∀ e server client src, call.vault = some (e, server) →
      vaultFetchSource svc s.db call.now call.claims call.itemID call.client = .ok (client, src) →
      e.Refuses (kvPath src) ∨
        (BareAddress e ∧ CleanText src.mount.toList ∧ CleanText (trimSlash src.path).toList)
  | .issue call => ∀ e server client src, call.vault = some (e, server) →
      dynamicSource svc call.client s.db call.now call.claims call.itemID = .ok (client, src) →
      e.Refuses (dynamicPath src.mount) ∨
        (BareAddress e ∧ CleanText (trimSlash src.mount).toList)
  | .revoke call leaseID => ∀ e server, call.vault = some (e, server) →
      e.Refuses revokePath ∨ call.itemID = "" ∨ leaseID = "" ∨
      Reply.unlessAdmin call.claims (requireItemRead s.db call.now call.claims call.itemID
        ⟨403, errCodeForbidden, "Bu item'a erişim yetkisi yok."⟩) ≠ .ok () ∨
      ∃ item, castUuid call.itemID = some item ∧ (item, leaseID) ∈ s.issued
  | .other _ => True

section Requests

variable {e : Endpoint} {path : String} {t : List Char}

theorem getLast_trimRightSlash (s : String) : (trimRightSlash s).toList.getLast? ≠ some '/' := by
  rw [trimRightSlash, String.toList_ofList, List.getLast?_reverse]
  intro h
  have := List.head?_dropWhile_not (fun c => decide (c = '/')) s.toList.reverse
  rw [h] at this
  simp at this

theorem hostIn_base (e : Endpoint) (ht : t.head? ≠ some '/') : HostIn e.base.toList t :=
  fun _ hu hhost hscheme =>
    UrlText.exists_of_parse_append hu hhost hscheme (getLast_trimRightSlash e.addr) ht

theorem request_isSome (hpath : path.toList = '/' :: t) (ht : t.head? ≠ some '/') :
    (∃ u, e.request path = some u) ↔ ¬ e.Refuses path := by
  unfold Endpoint.request Endpoint.Refuses
  cases e.token with
  | none => simp
  | some token =>
    simp only [Option.bind_some, sendURL_isSome (hostIn_base e ht) hpath, Option.some.injEq,
      forall_eq']

/-- A URL that goes out is clean if address and text are. -/
theorem cleanUrl_iff {u : Url} (hpath : path.toList = '/' :: t) (ht : t.head? ≠ some '/')
    (hu : e.request path = some u) :
    CleanUrl (decodeSegments t) u ↔ BareAddress e ∧ CleanText t := by
  obtain ⟨token, _, hsend⟩ := Option.bind_eq_some_iff.mp hu
  obtain ⟨server, hserver, hport, hparse, _⟩ := (sendURL_eq_some (hostIn_base e ht) hpath).mp hsend
  have hhost : server.host ≠ [] := fun hnil => hport (by rw [hnil]; rfl)
  rw [UrlText.cleanUrl_iff hserver hhost hparse]
  constructor
  · rintro ⟨⟨hf, hq⟩, hnil, hclean⟩
    refine ⟨⟨hf, hq, fun server' h => ?_⟩, hclean⟩
    rw [hserver] at h
    cases h
    exact hnil
  · rintro ⟨⟨hf, hq, hnil⟩, hclean⟩
    exact ⟨⟨hf, hq⟩, hnil server hserver, hclean⟩

/-- For all the URLs that may go out for a path. -/
theorem request_clean_iff (hpath : path.toList = '/' :: t) (ht : t.head? ≠ some '/') :
    (∀ u, e.request path = some u → CleanUrl (decodeSegments t) u) ↔
      e.Refuses path ∨ (BareAddress e ∧ CleanText t) := by
  constructor
  · intro h
    by_cases href : e.Refuses path
    · exact .inl href
    · obtain ⟨u, hu⟩ := (request_isSome hpath ht).mpr href
      exact .inr ((cleanUrl_iff hpath ht hu).mp (h u hu))
  · intro h u hu
    exact (cleanUrl_iff hpath ht hu).mpr (h.resolve_left ((request_isSome hpath ht).mp ⟨u, hu⟩))

end Requests

/-! ## The paths of the operations -/

/-- The path of a read behind its first slash. -/
def kvTail (src : ExternalSourceVault) : List Char :=
  if usesV2 src then
    "v1".toList ++ '/' :: (src.mount.toList ++ '/' ::
      ("data".toList ++ '/' :: (trimSlash src.path).toList))
  else "v1".toList ++ '/' :: (src.mount.toList ++ '/' :: (trimSlash src.path).toList)

def dynamicTail (mount : String) : List Char := "v1".toList ++ '/' :: (trimSlash mount).toList

theorem kvPath_toList (src : ExternalSourceVault) : (kvPath src).toList = '/' :: kvTail src := by
  have hfront : "/v1/".toList = '/' :: ("v1".toList ++ ['/']) := by decide
  have hdata : "/data/".toList = '/' :: ("data".toList ++ ['/']) := by decide
  have hslash : "/".toList = ['/'] := by decide
  unfold kvPath kvTail
  split
  · simp only [String.toList_append, hfront, hdata, List.append_assoc, List.cons_append,
      List.nil_append]
  · simp only [String.toList_append, hfront, hslash, List.append_assoc, List.cons_append,
      List.nil_append]

theorem dynamicPath_toList (mount : String) :
    (dynamicPath mount).toList = '/' :: dynamicTail mount := by
  have hfront : "/v1/".toList = '/' :: ("v1".toList ++ ['/']) := by decide
  simp only [dynamicPath, dynamicTail, String.toList_append, hfront, List.append_assoc,
    List.cons_append, List.nil_append]

theorem head_kvTail (src : ExternalSourceVault) : (kvTail src).head? ≠ some '/' := by
  unfold kvTail
  split <;> (intro h; cases h)

theorem head_dynamicTail (mount : String) : (dynamicTail mount).head? ≠ some '/' := by
  intro h
  cases h

theorem decodeSegments_v1 : decodeSegments "v1".toList = some [bytesOf "v1"] := by decide

theorem decodeSegments_data : decodeSegments "data".toList = some [bytesOf "data"] := by
  decide

theorem cleanText_fixed {s : String} (hf : '#' ∉ s.toList) (hq : '?' ∉ s.toList)
    (hsegs : decodeSegments s.toList = some [bytesOf s])
    (hclean : UrlText.CleanSegment (bytesOf s) ∧ 47 ∉ bytesOf s) : CleanText s.toList :=
  ⟨hf, hq, [bytesOf s], hsegs, fun _ hseg => List.mem_singleton.mp hseg ▸ hclean⟩

theorem cleanText_v1 : CleanText "v1".toList :=
  cleanText_fixed (by decide) (by decide) decodeSegments_v1 (by decide)

theorem cleanText_data : CleanText "data".toList :=
  cleanText_fixed (by decide) (by decide) decodeSegments_data (by decide)

theorem kvSegments_eq (src : ExternalSourceVault) :
    decodeSegments (kvTail src) = kvSegments src := by
  unfold kvTail kvSegments
  split
  · rw [UrlText.decodeSegments_append, UrlText.decodeSegments_append,
      UrlText.decodeSegments_append, decodeSegments_v1, decodeSegments_data]
    cases decodeSegments src.mount.toList <;>
      cases decodeSegments (trimSlash src.path).toList <;> rfl
  · rw [UrlText.decodeSegments_append, UrlText.decodeSegments_append, decodeSegments_v1]
    cases decodeSegments src.mount.toList <;>
      cases decodeSegments (trimSlash src.path).toList <;> rfl

theorem dynamicSegments_eq (mount : String) :
    decodeSegments (dynamicTail mount) = dynamicSegments mount := by
  unfold dynamicTail dynamicSegments
  rw [UrlText.decodeSegments_append, decodeSegments_v1]
  cases decodeSegments (trimSlash mount).toList <;> rfl

theorem cleanText_kvTail (src : ExternalSourceVault) :
    CleanText (kvTail src) ↔
      CleanText src.mount.toList ∧ CleanText (trimSlash src.path).toList := by
  unfold kvTail
  split
  · rw [UrlText.cleanText_append, UrlText.cleanText_append, UrlText.cleanText_append,
      and_iff_right cleanText_v1, and_iff_right cleanText_data]
  · rw [UrlText.cleanText_append, UrlText.cleanText_append, and_iff_right cleanText_v1]

theorem cleanText_dynamicTail (mount : String) :
    CleanText (dynamicTail mount) ↔ CleanText (trimSlash mount).toList := by
  rw [dynamicTail, UrlText.cleanText_append, and_iff_right cleanText_v1]

/-! ## Every step and every run -/

section Steps

variable {svc : Service} {s : State}

theorem fetchURL_eq_some {db : DB} {call : Call} {u : Url} :
    fetchURL svc db call = some u ↔
      ∃ e server client src, call.vault = some (e, server) ∧
        vaultFetchSource svc db call.now call.claims call.itemID call.client = .ok (client, src) ∧
        e.request (kvPath src) = some u := by
  unfold fetchURL
  constructor
  · intro h
    split at h
    · next e server client src hv hsrc => exact ⟨e, server, client, src, hv, hsrc, h⟩
    · cases h
  · rintro ⟨e, server, client, src, hv, hsrc, hu⟩
    simp only [hv, hsrc]
    exact hu

theorem issueURL_eq_some {db : DB} {call : Call} {u : Url} :
    issueURL svc db call = some u ↔
      ∃ e server client src, call.vault = some (e, server) ∧
        dynamicSource svc call.client db call.now call.claims call.itemID = .ok (client, src) ∧
        e.request (dynamicPath src.mount) = some u := by
  unfold issueURL
  constructor
  · intro h
    split at h
    · next e server client src hv hsrc => exact ⟨e, server, client, src, hv, hsrc, h⟩
    · cases h
  · rintro ⟨e, server, client, src, hv, hsrc, hu⟩
    simp only [hv, hsrc]
    exact hu

theorem fetch_safe_iff (call : Call) : Safe svc s (.fetch call) ↔ Meets svc s (.fetch call) := by
  have hclean : ∀ (e : Endpoint) (src : ExternalSourceVault),
      (∀ u, e.request (kvPath src) = some u → CleanUrl (kvSegments src) u) ↔
        e.Refuses (kvPath src) ∨
          (BareAddress e ∧ CleanText src.mount.toList ∧ CleanText (trimSlash src.path).toList) := by
    intro e src
    have h := request_clean_iff (e := e) (kvPath_toList src) (head_kvTail src)
    rwa [kvSegments_eq, cleanText_kvTail] at h
  constructor
  · intro hsafe e server client src hv hsrc
    refine (hclean e src).mp fun u hu => ?_
    obtain ⟨_, _, hsrc', hurl⟩ :=
      hsafe u (fetchURL_eq_some.mpr ⟨e, server, client, src, hv, hsrc, hu⟩)
    rw [hsrc] at hsrc'
    cases hsrc'
    exact hurl
  · intro hmeets u hu
    obtain ⟨e, server, client, src, hv, hsrc, hu⟩ := fetchURL_eq_some.mp hu
    exact ⟨client, src, hsrc, (hclean e src).mpr (hmeets e server client src hv hsrc) u hu⟩

theorem issue_safe_iff (call : Call) : Safe svc s (.issue call) ↔ Meets svc s (.issue call) := by
  have hclean : ∀ (e : Endpoint) (mount : String),
      (∀ u, e.request (dynamicPath mount) = some u → CleanUrl (dynamicSegments mount) u) ↔
        e.Refuses (dynamicPath mount) ∨ (BareAddress e ∧ CleanText (trimSlash mount).toList) := by
    intro e mount
    have h := request_clean_iff (e := e) (dynamicPath_toList mount) (head_dynamicTail mount)
    rwa [dynamicSegments_eq, cleanText_dynamicTail] at h
  constructor
  · intro hsafe e server client src hv hsrc
    refine (hclean e src.mount).mp fun u hu => ?_
    obtain ⟨_, _, hsrc', hurl⟩ :=
      hsafe u (issueURL_eq_some.mpr ⟨e, server, client, src, hv, hsrc, hu⟩)
    rw [hsrc] at hsrc'
    cases hsrc'
    exact hurl
  · intro hmeets u hu
    obtain ⟨e, server, client, src, hv, hsrc, hu⟩ := issueURL_eq_some.mp hu
    exact ⟨client, src, hsrc, (hclean e src.mount).mpr (hmeets e server client src hv hsrc) u hu⟩

theorem revokeDynamicCred_eq_ok {db db' : DB} {call : Call} {leaseID lease : String} :
    revokeDynamicCred db call leaseID = .ok (db', some lease) ↔
      ∃ e server u, call.vault = some (e, server) ∧ e.request revokePath = some u ∧
        call.itemID ≠ "" ∧ leaseID ≠ "" ∧
        Reply.unlessAdmin call.claims (requireItemRead db call.now call.claims call.itemID
          ⟨403, errCodeForbidden, "Bu item'a erişim yetkisi yok."⟩) = .ok () ∧
        db' = db.audit ⟨call.claims.subject.text, "item.dynamic_cred_revoked", "item",
          call.itemID⟩ ∧ lease = leaseID := by
  simp only [revokeDynamicCred, Reply.bind_eq_ok, Reply.require_eq_ok, Reply.orElse_eq_ok,
    Reply.pure_eq_ok, Prod.mk.injEq, Option.map_eq_some_iff]
  constructor
  · rintro ⟨_, ⟨hitem, hlease⟩, ⟨e, server⟩, hv, _, hread, rfl, u, hu, rfl⟩
    exact ⟨e, server, u, hv, hu, hitem, hlease, hread, rfl, rfl⟩
  · rintro ⟨e, server, u, hv, hu, hitem, hlease, hread, rfl, rfl⟩
    exact ⟨(), ⟨hitem, hlease⟩, (e, server), hv, (), hread, rfl, u, hu, rfl⟩

theorem revoke_safe_iff (call : Call) (leaseID : String) :
    Safe svc s (.revoke call leaseID) ↔ Meets svc s (.revoke call leaseID) := by
  have hpath : revokePath.toList = '/' :: "v1/sys/leases/revoke".toList := by decide
  have hhead : "v1/sys/leases/revoke".toList.head? ≠ some '/' := by decide
  constructor
  · intro hsafe e server hv
    by_cases href : e.Refuses revokePath
    · exact .inl href
    by_cases hitem : call.itemID = ""
    · exact .inr (.inl hitem)
    by_cases hlease : leaseID = ""
    · exact .inr (.inr (.inl hlease))
    by_cases hread : Reply.unlessAdmin call.claims (requireItemRead s.db call.now call.claims
        call.itemID ⟨403, errCodeForbidden, "Bu item'a erişim yetkisi yok."⟩) = .ok ()
    · obtain ⟨u, hu⟩ := (request_isSome hpath hhead).mpr href
      exact .inr (.inr (.inr (.inr (hsafe _ leaseID (revokeDynamicCred_eq_ok.mpr
        ⟨e, server, u, hv, hu, hitem, hlease, hread, rfl, rfl⟩)))))
    · exact .inr (.inr (.inr (.inl hread)))
  · intro hmeets db lease h
    obtain ⟨e, server, u, hv, hu, hitem, hlease, hread, _, rfl⟩ := revokeDynamicCred_eq_ok.mp h
    have hsent : ¬ e.Refuses revokePath := (request_isSome hpath hhead).mp ⟨u, hu⟩
    obtain href | hempty | hempty | hdenied | hissued := hmeets e server hv
    · exact absurd href hsent
    · exact absurd hempty hitem
    · exact absurd hempty hlease
    · exact absurd hread hdenied
    · exact hissued

theorem safe_iff (e : Event) : Safe svc s e ↔ Meets svc s e := by
  cases e with
  | fetch call => exact fetch_safe_iff call
  | issue call => exact issue_safe_iff call
  | revoke call leaseID => exact revoke_safe_iff call leaseID
  | other db => exact Iff.rfl

end Steps

/-! ## What the handlers send and record -/

section Handlers

variable {svc : Service} {db : DB} {call : Call}

theorem requireVault_client {client : VaultClient}
    (h : requireVault call.client = .ok client) :
    ∃ e server, call.vault = some (e, server) ∧ client = e.client server := by
  obtain ⟨⟨e, server⟩, hv, rfl⟩ := Option.map_eq_some_iff.mp (Reply.orElse_eq_ok.mp h)
  exact ⟨e, server, hv, rfl⟩

/-- No values without the URL. -/
theorem vaultFetch_sends {data : List (String × String)}
    (h : (vaultFetch svc call.client db call.now call.claims call.itemID).2 = .ok data) :
    ∃ u, fetchURL svc db call = some u := by
  unfold vaultFetch at h
  split at h
  · cases h
  · next client src hsrc =>
    have hsource := hsrc
    simp only [vaultFetchSource, Reply.bind_eq_ok, Reply.pure_eq_ok, Prod.mk.injEq] at hsrc
    obtain ⟨_, _, c, hclient, _, _, _, _, _, _, _, _, _, _, rfl, _⟩ := hsrc
    obtain ⟨e, server, hv, rfl⟩ := requireVault_client hclient
    cases hrequest : e.request (kvPath src) with
    | some u => exact ⟨u, fetchURL_eq_some.mpr ⟨e, server, _, src, hv, hsource, hrequest⟩⟩
    | none =>
      have hread : (e.client server).readKV src = .error .other := by
        have hget : ∀ kvVersion, (e.client server).getData kvVersion (kvPath src) =
            .error .other := by
          intro kvVersion
          simp only [Endpoint.client, hrequest]
        simp only [kvPath, usesV2, decide_eq_true_eq] at hget
        unfold VaultClient.readKV
        simp only [hget]
      rw [hread] at h
      cases h

theorem issueDynamicCred_eq_ok {db' : DB} {cred : DynamicCred} :
    issueDynamicCred svc call.client db call.now call.claims call.itemID = .ok (db', cred) ↔
      ∃ client src, dynamicSource svc call.client db call.now call.claims call.itemID =
          .ok (client, src) ∧ client.issueDynamicCred call.now src.mount src.ttl = some cred ∧
        db' = db.audit ⟨call.claims.subject.text, "item.dynamic_cred_issued", "item",
          call.itemID⟩ := by
  simp only [issueDynamicCred, dynamicSource, Reply.bind_eq_ok, Reply.pure_eq_ok,
    Reply.orElse_eq_ok, Prod.mk.injEq]
  constructor
  · rintro ⟨a, ha, client, hclient, b, hb, raw, hraw, text, htext, src, hsrc, c, hc, cred', hcred,
      rfl, rfl⟩
    exact ⟨client, src, ⟨a, ha, client, hclient, b, hb, raw, hraw, text, htext, src, hsrc, c, hc,
      rfl, rfl⟩, hcred, rfl⟩
  · rintro ⟨client, src, ⟨a, ha, client', hclient, b, hb, raw, hraw, text, htext, src', hsrc, c, hc,
      rfl, rfl⟩, hcred, rfl⟩
    exact ⟨a, ha, client', hclient, b, hb, raw, hraw, text, htext, src', hsrc, c, hc, cred, hcred,
      rfl, rfl⟩

/-- No credential without the URL. -/
theorem issueDynamicCred_sends {db' : DB} {cred : DynamicCred}
    (h : issueDynamicCred svc call.client db call.now call.claims call.itemID = .ok (db', cred)) :
    ∃ u, issueURL svc db call = some u := by
  obtain ⟨client, src, hsource, hcred, _⟩ := issueDynamicCred_eq_ok.mp h
  have hsrc := hsource
  simp only [dynamicSource, Reply.bind_eq_ok, Reply.pure_eq_ok, Prod.mk.injEq] at hsrc
  obtain ⟨_, _, c, hclient, _, _, _, _, _, _, _, _, _, _, rfl, _⟩ := hsrc
  obtain ⟨e, server, hv, rfl⟩ := requireVault_client hclient
  cases hrequest : e.request (dynamicPath src.mount) with
  | some u => exact ⟨u, issueURL_eq_some.mpr ⟨e, server, _, src, hv, hsource, hrequest⟩⟩
  | none =>
    have hlease : (e.client server).issueLease ("/v1/" ++ trimSlash src.mount) src.ttl =
        .error .other := by
      simp only [Endpoint.client]
      rw [← dynamicPath, hrequest]
    simp only [VaultClient.issueDynamicCred, hlease] at hcred
    cases hcred

/-- The event gives out a lease through an item. -/
def Issues (svc : Service) (s : State) (e : Event) (x : Uuid × String) : Prop :=
  ∃ call db' cred, e = .issue call ∧ castUuid call.itemID = some x.1 ∧
    issueDynamicCred svc call.client s.db call.now call.claims call.itemID = .ok (db', cred) ∧
    cred.leaseID = x.2

theorem mem_issued_step {s : State} {e : Event} {x : Uuid × String} :
    x ∈ (step svc s e).issued ↔ x ∈ s.issued ∨ Issues svc s e x := by
  have hother : (∀ call, e ≠ .issue call) → ((step svc s e).issued = s.issued) →
      (x ∈ (step svc s e).issued ↔ x ∈ s.issued ∨ Issues svc s e x) := by
    intro hne hsame
    rw [hsame, or_iff_left]
    rintro ⟨call, _, _, heq, _⟩
    exact hne call heq
  cases e with
  | fetch call => exact hother (by intro _ h; cases h) rfl
  | revoke call leaseID =>
    refine hother (by intro _ h; cases h) ?_
    rw [step]
    split <;> rfl
  | other db => exact hother (by intro _ h; cases h) rfl
  | issue call =>
    rw [step]
    cases h : issueDynamicCred svc call.client s.db call.now call.claims call.itemID with
    | error err =>
      refine ⟨.inl, ?_⟩
      rintro (hx | ⟨call', db', cred, heq, _, hok, _⟩)
      · exact hx
      · cases heq
        rw [h] at hok
        cases hok
    | ok p =>
      obtain ⟨db', cred⟩ := p
      simp only [List.mem_append, List.mem_map, Option.mem_toList]
      refine or_congr Iff.rfl ⟨?_, ?_⟩
      · rintro ⟨item, hitem, rfl⟩
        exact ⟨call, db', cred, rfl, hitem, h, rfl⟩
      · rintro ⟨call', db'', cred', heq, hitem, hok, hlease⟩
        cases heq
        rw [h] at hok
        cases hok
        exact ⟨x.1, hitem, by rw [hlease]⟩

/-- The record of a run: what was given out in it. -/
theorem mem_issued_run {s : State} {events : List Event} {x : Uuid × String} :
    x ∈ (Runs.run (step svc) s events).issued ↔ x ∈ s.issued ∨
      ∃ before e after, events = before ++ e :: after ∧
        Issues svc (Runs.run (step svc) s before) e x := by
  induction events generalizing s with
  | nil => simp
  | cons e events ih =>
    rw [Runs.run_cons, ih, mem_issued_step, or_assoc]
    refine or_congr Iff.rfl ⟨?_, ?_⟩
    · rintro (hissues | ⟨before, e', after, rfl, hissues⟩)
      · exact ⟨[], e, events, rfl, hissues⟩
      · exact ⟨e :: before, e', after, rfl, hissues⟩
    · rintro ⟨before, e', after, heq, hissues⟩
      cases before with
      | nil =>
        cases heq
        exact .inl hissues
      | cons e₀ before =>
        cases heq
        exact .inr ⟨before, e', after, rfl, hissues⟩

end Handlers

/-- Every run in which the Vault is used, from a state in which no lease is out. -/
theorem vault_safe_iff (svc : Service) (db : DB) (events : List Event) :
    Runs.Every (step svc) (Safe svc) ⟨db, []⟩ events ↔
      Runs.Every (step svc) (Meets svc) ⟨db, []⟩ events :=
  ⟨fun h => h.mono fun _ e => (safe_iff e).mp, fun h => h.mono fun _ e => (safe_iff e).mpr⟩

/-! ## A run -/

def sampleEndpoint : Endpoint := ⟨"https://vault.cluster.local:8200", "", some (bytesOf "s.t")⟩

def sampleServer : Server where
  getData _ _ := .error .secretNotFound
  issueLease _ _ := .error .other

/-- A service whose items all have this external source. -/
def sourceService (src : ExternalSourceVault) : Service :=
  { sampleService with unmarshalSource := fun _ => some src }

def sourceDB : DB :=
  { folders := [sampleFolder 2 1], items := [{ sampleItem 3 2 1 with externalSource := some "" }] }

def adminCall : Call :=
  ⟨some (sampleEndpoint, sampleServer), 0, ⟨Uuid.ofNat 1, [.admin]⟩, (Uuid.ofNat 3).text⟩

def encodedDots : ExternalSourceVault :=
  ⟨"vault", "secret", "%2e%2e/%2e%2e/sys/mounts", 2, [], false, ""⟩

def vaultURL (path : String) : Url where
  scheme := "https".toList
  host := UrlText.encode "vault.cluster.local:8200".toList
  path := UrlText.encode path.toList

/-- Escaped dots pass the check of the path and leave the mount, and a lease is revoked
that was never given out. -/
theorem vault_unsafe :
    (fetchURL (sourceService encodedDots) sourceDB adminCall =
        some (vaultURL "/v1/secret/data/../../sys/mounts") ∧
      ¬ Runs.Every (step (sourceService encodedDots)) (Safe (sourceService encodedDots))
        ⟨sourceDB, []⟩ [.fetch adminCall]) ∧
      ¬ Runs.Every (step (sourceService encodedDots)) (Safe (sourceService encodedDots))
        ⟨sourceDB, []⟩ [.revoke adminCall "database/creds/admin/h1"] := by
  have hurl : fetchURL (sourceService encodedDots) sourceDB adminCall =
      some (vaultURL "/v1/secret/data/../../sys/mounts") := by decide
  refine ⟨⟨hurl, ?_⟩, ?_⟩
  · rintro ⟨hsafe, -⟩
    obtain ⟨_, _, _, hclean⟩ := hsafe _ hurl
    obtain ⟨segs, _, hsegs, hnames⟩ := hclean.path
    have hdots : [46, 46] ∈ segs := by
      have hmem : [46, 46] ∈
          UrlText.segments (vaultURL "/v1/secret/data/../../sys/mounts").path := by
        decide
      rw [hsegs] at hmem
      simpa using hmem
    exact (hnames _ hdots).2.2 rfl
  · rintro ⟨hsafe, -⟩
    have hrequest : sampleEndpoint.request revokePath =
        some (vaultURL "/v1/sys/leases/revoke") := by decide
    have hid : adminCall.itemID ≠ "" := by decide
    obtain ⟨_, _, hmem⟩ := hsafe _ _ (revokeDynamicCred_eq_ok.mpr
      ⟨sampleEndpoint, sampleServer, _, rfl, hrequest, hid, by decide, rfl, rfl, rfl⟩)
    cases hmem

end IronStock.VaultPaths

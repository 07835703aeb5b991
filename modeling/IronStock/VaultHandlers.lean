import IronStock.ItemVersionHandlers

/-!
# The Vault proxy

The client of `internal/vault` and the two handlers that hand out secrets of an
item with an external source. The Vault server's answers are a parameter.
-/
namespace IronStock

/-! ## Client -/

inductive VaultError
  | secretNotFound
  | other
deriving DecidableEq

/-- What the dynamic secrets engine answers. -/
structure DynamicLease where
  leaseID : String
  leaseDuration : Int
  username : String
  password : String
deriving DecidableEq

/-- The Vault server behind the client, its token being renewed as needed. -/
structure VaultClient where
  /-- the data object at an API path, its values rendered by `stringify` -/
  getData : (kvVersion : Int) → (apiPath : String) → Except VaultError (List (String × String))
  /-- a lease at an API path, with the requested TTL -/
  issueLease : (apiPath ttl : String) → Except VaultError DynamicLease

structure DynamicCred where
  username : String
  password : String
  leaseID : String
  leaseDuration : Int
  expiresAt : Time
deriving DecidableEq

/-- `strings.TrimPrefix(s, "/")`. -/
def trimSlash (s : String) : String :=
  match s.toList with
  | '/' :: rest => String.ofList rest
  | _ => s

/-- `Client.ReadKV`. -/
def VaultClient.readKV (c : VaultClient) (src : ExternalSourceVault) :
    Except VaultError (List (String × String)) :=
  let kvVersion := if src.kvVersion = 0 then 2 else src.kvVersion
  let apiPath :=
    if kvVersion = 2 then "/v1/" ++ src.mount ++ "/data/" ++ trimSlash src.path
    else "/v1/" ++ src.mount ++ "/" ++ trimSlash src.path
  match c.getData kvVersion apiPath with
  | .error e => .error e
  | .ok rawData =>
    if src.keyMapping = [] then .ok rawData
    else .ok (src.keyMapping.filterMap fun (fieldKey, vaultKey) =>
      (rawData.lookup vaultKey).map (fieldKey, ·))

/-- `Client.IssueDynamicCred`. -/
def VaultClient.issueDynamicCred (c : VaultClient) (now : Time) (mount ttl : String) :
    Option DynamicCred :=
  match c.issueLease ("/v1/" ++ trimSlash mount) ttl with
  | .error _ => none
  | .ok lease =>
    if lease.username = "" then none
    else
      let leaseDur := if lease.leaseDuration = 0 then 900 else lease.leaseDuration
      some ⟨lease.username, lease.password, lease.leaseID, leaseDur, now + leaseDur * 1000000⟩

/-! ## Handlers -/

/-- Two of the character `c` next to each other. -/
def hasDouble (c : Char) : List Char → Bool
  | a :: b :: rest => (a = c && b = c) || hasDouble c (b :: rest)
  | _ => false

/-- `isCleanVaultPath`. -/
def isCleanVaultPath (p : String) : Bool :=
  let cs := p.toList
  !(hasDouble '.' cs || hasDouble '/' cs || cs.head? = some '/') &&
    cs.all fun r => 0x20 ≤ r.toNat && r ≠ '\\'

/-- The configured client. -/
def requireVault (vault : Option VaultClient) : Reply VaultClient :=
  .orElse vault ⟨503, errCodeInternal, "Vault entegrasyonu yapılandırılmamış."⟩

/-- The external source of an item, for both handlers; a failed query is no row. -/
def loadExternalSource (db : DB) (itemID : String) : Reply (Option String) :=
  match (castUuid itemID).bind db.item? with
  | none => .error ⟨404, errCodeNotFound, "Item bulunamadı."⟩
  | some item => .ok item.externalSource

/-- What `VaultFetch` demands of an external source. -/
def checkKVSource (src : ExternalSourceVault) : Reply Unit := do
  .require (src.type = "vault") ⟨422, errCodeBadRequest, "external_source.type 'vault' değil."⟩
  .require (src.mount ≠ "" ∧ src.path ≠ "")
    ⟨422, errCodeBadRequest, "external_source.mount ve path zorunlu."⟩
  .require (isCleanVaultPath src.mount = true ∧ isCleanVaultPath src.path = true)
    (badRequest "mount veya path geçersiz karakter içeriyor.")

/-- `VaultFetch` up to the call of the client. -/
def vaultFetchSource (svc : Service) (db : DB) (now : Time) (claims : Claims) (itemID : String)
    (vault : Option VaultClient) : Reply (VaultClient × ExternalSourceVault) := do
  .require (itemID ≠ "") (badRequest "item id zorunlu.")
  let client ← requireVault vault
  .unlessAdmin claims
    (requireItemRead db now claims itemID
      ⟨403, errCodeUnauthorized, "Bu item için okuma yetkisi gerekli."⟩)
  let raw ← loadExternalSource db itemID
  let text ← .orElse raw
    ⟨422, errCodeBadRequest, "Bu item Vault-backed değil (external_source boş)."⟩
  let src ← .orElse (svc.unmarshalSource text)
    ⟨422, errCodeBadRequest, "external_source parse edilemedi."⟩
  checkKVSource src
  pure (client, src)

/-- `VaultHandlers.VaultFetch`. -/
def vaultFetch (svc : Service) (vault : Option VaultClient) (db : DB) (now : Time)
    (claims : Claims) (itemID : String) : DB × Reply (List (String × String)) :=
  match vaultFetchSource svc db now claims itemID vault with
  | .error e => (db, .error e)
  | .ok (client, src) =>
    match client.readKV src with
    | .error e =>
      (db.audit ⟨claims.subject.text, "item.vault_fetch_error", "item", itemID⟩,
        .error (if e = .secretNotFound then ⟨404, errCodeNotFound, "Vault secret bulunamadı."⟩
          else ⟨502, errCodeInternal, "Vault'tan secret alınamadı."⟩))
    | .ok kvData =>
      (db.audit ⟨claims.subject.text, "item.vault_fetch", "item", itemID⟩, .ok kvData)

/-- What `IssueDynamicCred` demands of an external source. -/
def checkDynamicSource (src : ExternalSourceVault) : Reply Unit := do
  .require (src.type = "vault") (badRequest "Item Vault entegrasyonu geçersiz.")
  .require (src.dynamic = true)
    (badRequest "Bu item dinamik credential desteği içermiyor (dynamic=false).")
  .require (src.mount ≠ "") (badRequest "Vault mount alanı boş.")

/-- `VaultHandlers.IssueDynamicCred`. -/
def issueDynamicCred (svc : Service) (vault : Option VaultClient) (db : DB) (now : Time)
    (claims : Claims) (itemID : String) : Reply (DB × DynamicCred) := do
  .require (itemID ≠ "") (badRequest "item id zorunlu.")
  let client ← requireVault vault
  .unlessAdmin claims
    (requireItemRead db now claims itemID
      ⟨403, errCodeForbidden, "Bu item'a erişim yetkisi yok."⟩)
  let raw ← loadExternalSource db itemID
  let text ← .orElse raw (badRequest "Bu item bir Vault entegrasyonu içermiyor.")
  let src ← .orElse (svc.unmarshalSource text) (badRequest "Item Vault entegrasyonu geçersiz.")
  checkDynamicSource src
  let cred ← .orElse (client.issueDynamicCred now src.mount src.ttl)
    ⟨502, errCodeInternal, "Vault'tan dinamik credential alınamadı."⟩
  pure (db.audit ⟨claims.subject.text, "item.dynamic_cred_issued", "item", itemID⟩, cred)

end IronStock

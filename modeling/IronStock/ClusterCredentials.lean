import IronStock.BootstrapSetup
import IronStock.ItemNames
import IronStock.K8sProxy

/-!
# Cluster credentials

`admin_k8s.go`: a cluster is created or updated in one statement and its credential
sealed and stored in another. The seal is bound to the id as the request spells it,
and what goes wrong with it is only logged.
-/
namespace IronStock.ClusterAdmin

open K8s

/-! ## The table -/

/-- A row of `k8s_clusters` with its UNIQUE name. -/
structure NamedCluster extends ClusterRow where
  name : String

structure State where
  db : DB
  clusters : List NamedCluster

namespace State
variable (s : State)

def cluster? (id : Uuid) : Option NamedCluster := Table.lookup (·.id) id s.clusters

/-- The tables the proxy reads. -/
def proxied (bindings : List Binding) : K8s.State :=
  ⟨s.db, s.clusters.map (·.toClusterRow), bindings⟩

def change (id : Uuid) (f : NamedCluster → NamedCluster) : State :=
  { s with clusters := Table.updateWhere (fun r => r.id = id) f s.clusters }

def audit (e : AuditEntry) : State := { s with db := s.db.audit e }

end State

/-! ## Requests -/

/-- `createK8sClusterRequest` and `updateK8sClusterRequest`. -/
structure ClusterRequest where
  name : String
  serverURL : String
  authMode : String
  token : String
  kubeconfigYAML : String
  caCertPEM : String
  skipTLSVerify : Bool
  enabled : Bool

def AuthMode.ofText : String → Option AuthMode
  | "token" => some .token
  | "kubeconfig" => some .kubeconfig
  | _ => none

/-- The column of the sealed credential. -/
def AuthMode.column : AuthMode → String
  | .token => "token_enc"
  | .kubeconfig => "kubeconfig_enc"

namespace ClusterRequest
variable (req : ClusterRequest)

/-- The credential a mode goes by. -/
def secret : AuthMode → String
  | .token => req.token
  | .kubeconfig => req.kubeconfigYAML

def mode : Reply AuthMode :=
  .orElse (AuthMode.ofText req.authMode) (badRequest "auth_mode 'token' veya 'kubeconfig' olmalı.")

/-- The check of the syntax before anything is stored. -/
def checkKubeconfig (lib : Library) : Reply Unit :=
  match parseKubeconfig lib (bytesOf req.kubeconfigYAML) with
  | .error e => .error (badRequest ("Kubeconfig geçersiz: " ++ e))
  | .ok _ => .ok ()

def validateCreate (lib : Library) : Reply AuthMode := do
  .require (req.name ≠ "") (badRequest "name zorunlu.")
  .require (req.serverURL ≠ "") (badRequest "server_url zorunlu.")
  let mode ← req.mode
  .require (mode = .token → req.token ≠ "") (badRequest "token modu için token zorunlu.")
  .require (mode = .kubeconfig → req.kubeconfigYAML ≠ "")
    (badRequest "kubeconfig modu için kubeconfig_yaml zorunlu.")
  if mode = .kubeconfig then req.checkKubeconfig lib
  return mode

def validateUpdate (lib : Library) : Reply AuthMode := do
  .require (req.name ≠ "") (badRequest "name zorunlu.")
  let mode ← req.mode
  if mode = .kubeconfig ∧ req.kubeconfigYAML ≠ "" then req.checkKubeconfig lib
  return mode

/-- No text column takes a NUL. -/
def isStorable : Bool :=
  [req.name, req.serverURL, req.caCertPEM].all fun t => !t.toList.contains '\x00'

/-- The columns the UPDATE sets. -/
def set (mode : AuthMode) (r : NamedCluster) : NamedCluster :=
  { r with
    name := req.name
    serverURL := req.serverURL
    authMode := mode
    caCertPEM := if req.caCertPEM = "" then none else some req.caCertPEM
    skipTLSVerify := req.skipTLSVerify
    enabled := req.enabled }

/-- The row of the INSERT, without credentials. -/
def row (mode : AuthMode) (newID : Uuid) : NamedCluster :=
  req.set mode ⟨⟨newID, "", mode, [], [], none, false, false⟩, ""⟩

end ClusterRequest

/-! ## Statements -/

def PgError.nulInText : PgError := pgError "22021"

/-- `INSERT INTO k8s_clusters`. -/
def State.insertCluster (s : State) (actor newID : Uuid) (mode : AuthMode) (req : ClusterRequest) :
    Except PgError State :=
  if req.isStorable = false then .error PgError.nulInText
  else if s.clusters.any (fun r => r.id = newID ∨ r.name = req.name) then .error .uniqueViolation
  else if (s.db.user? actor).isNone then .error .foreignKeyViolation
  else .ok { s with clusters := s.clusters ++ [req.row mode newID] }

/-- `UPDATE k8s_clusters … WHERE id=$1::uuid`, with the number of rows it affects. -/
def State.updateCluster (s : State) (clusterID : String) (mode : AuthMode)
    (req : ClusterRequest) : Except PgError (State × Nat) :=
  match castUuid clusterID with
  | none => .error .invalidText
  | some id =>
    if req.isStorable = false then .error PgError.nulInText
    else if (s.cluster? id).isSome ∧ s.clusters.any (fun r => r.id ≠ id ∧ r.name = req.name) then
      .error .uniqueViolation
    else .ok (s.change id (req.set mode), s.clusters.countP (·.id = id))

/-! ## Credentials -/

/-- What happens to a request: the id and the nonce drawn for it, its first statement,
the seal of its credential and the UPDATE that stores it. -/
structure Conduct where
  newID : Uuid
  nonce : Nonce
  statement : StatementFate
  seals : Bool
  stores : Bool

/-- The other column is cleared. -/
def NamedCluster.withCredential (r : NamedCluster) (enc : Bytes) : AuthMode → NamedCluster
  | .token => { r with tokenEnc := enc, kubeconfigEnc := [] }
  | .kubeconfig => { r with kubeconfigEnc := enc, tokenEnc := [] }

/-- `saveCredentials`; its error goes to the log. -/
def saveCredentials (svc : Service) (c : Conduct) (s : State) (clusterID : String)
    (mode : AuthMode) (req : ClusterRequest) : State :=
  if req.secret mode = "" then s
  else
    match castUuid clusterID with
    | none => s
    | some id =>
      if c.seals ∧ c.stores then
        s.change id fun r => r.withCredential
          (svc.master.sealBlob c.nonce (bytesOf (req.secret mode))
            (makeAAD "k8s_clusters" clusterID (AuthMode.column mode))) mode
      else s

/-- The reply to a first statement that failed. -/
def statementFailed (e : PgError) (message : String) : ApiError :=
  if isUniqueViolation e then ⟨409, errCodeConflict, "Bu isimde bir cluster zaten var."⟩
  else internalError message

def createCluster (svc : Service) (lib : Library) (c : Conduct) (s : State) (claims : Claims)
    (req : ClusterRequest) : State × Reply String :=
  match req.validateCreate lib with
  | .error e => (s, .error e)
  | .ok mode =>
    if c.statement = .fails then (s, .error (internalError "Cluster oluşturulamadı."))
    else
      match s.insertCluster claims.subject c.newID mode req with
      | .error e => (s, .error (statementFailed e "Cluster oluşturulamadı."))
      | .ok s =>
        if c.statement = .unanswered then (s, .error (internalError "Cluster oluşturulamadı."))
        else
          let s := saveCredentials svc c s c.newID.text mode req
          (s.audit ⟨claims.subject.text, "admin.k8s_cluster_created", "", ""⟩, .ok c.newID.text)

def updateCluster (svc : Service) (lib : Library) (c : Conduct) (s : State) (claims : Claims)
    (clusterID : String) (req : ClusterRequest) : State × Reply Unit :=
  match req.validateUpdate lib with
  | .error e => (s, .error e)
  | .ok mode =>
    if c.statement = .fails then (s, .error (internalError "Cluster güncellenemedi."))
    else
      match s.updateCluster clusterID mode req with
      | .error e => (s, .error (statementFailed e "Cluster güncellenemedi."))
      | .ok (s, rows) =>
        if c.statement = .unanswered then (s, .error (internalError "Cluster güncellenemedi."))
        else if rows = 0 then (s, .error ⟨404, errCodeNotFound, "Cluster bulunamadı."⟩)
        else
          let s := saveCredentials svc c s clusterID mode req
          (s.audit ⟨claims.subject.text, "admin.k8s_cluster_updated", "", ""⟩, .ok ())

/-- `decryptClusterConfig`, with the id as its caller spells it. -/
def decryptClusterConfig (lib : Library) (master : Aead) (s : K8s.State) (clusterID : String) :
    Except String Config :=
  match castUuid clusterID with
  | none => .error ("ERROR: invalid input syntax for type uuid (SQLSTATE 22P02)")
  | some id =>
    match s.cluster? id with
    | none => .error errNoRows
    | some row =>
      if row.enabled = false then .error "k8s: cluster is disabled"
      else
        let cfg : Config := ⟨row.serverURL, row.authMode, [], none, row.caCertPEM.getD "",
          row.skipTLSVerify⟩
        match row.authMode with
        | .token =>
          if row.tokenEnc = [] then .error "k8s: cluster has no token credential"
          else
            match master.openBlob row.tokenEnc (makeAAD "k8s_clusters" clusterID "token_enc") with
            | none => .error "k8s: failed to decrypt cluster token"
            | some plain => .ok { cfg with bearerToken := plain }
        | .kubeconfig =>
          if row.kubeconfigEnc = [] then .error "k8s: cluster has no kubeconfig credential"
          else
            match master.openBlob row.kubeconfigEnc
                (makeAAD "k8s_clusters" clusterID "kubeconfig_enc") with
            | none => .error "k8s: failed to decrypt cluster kubeconfig"
            | some plain => do
              let parsed ← parseKubeconfig lib plain
              pure { cfg with
                kubeconfig := some parsed
                serverURL := if parsed.serverURL = "" then row.serverURL else parsed.serverURL }

/-- The proxy passes the id of the binding as the database prints it. -/
theorem decryptClusterConfig_text (lib : Library) (master : Aead) (s : K8s.State) (id : Uuid) :
    decryptClusterConfig lib master s id.text = K8s.decryptClusterConfig lib master s id := by
  simp only [decryptClusterConfig, castUuid_text, K8s.decryptClusterConfig] <;> rfl

/-! ## Sequences of requests -/

inductive Request
  | create (req : ClusterRequest)
  | update (clusterID : String) (req : ClusterRequest)

structure Call where
  claims : Claims
  request : Request
  conduct : Conduct

/-- A credential, and the id as its request had it. -/
structure Supplied where
  mode : AuthMode
  secret : String
  clusterID : String
deriving DecidableEq

/-- A request supplies the credential of its mode, and an empty one keeps what is there. -/
def ClusterRequest.supplied (req : ClusterRequest) (clusterID : String) : Option Supplied :=
  (AuthMode.ofText req.authMode).bind fun mode =>
    if req.secret mode = "" then none else some ⟨mode, req.secret mode, clusterID⟩

namespace Call
variable (svc : Service) (lib : Library) (u : Uuid) (s : State) (call : Call)

/-- The credential the request supplies for the cluster. -/
def supplied : Option Supplied :=
  match call.request with
  | .create req => if call.conduct.newID = u then req.supplied u.text else none
  | .update clusterID req => if castUuid clusterID = some u then req.supplied clusterID else none

def handle : State × Reply Unit :=
  match call.request with
  | .create req =>
    let r := createCluster svc lib call.conduct s call.claims req
    (r.1, r.2.map fun _ => ())
  | .update clusterID req => updateCluster svc lib call.conduct s call.claims clusterID req

def Succeeds : Prop := (call.handle svc lib s).2 = .ok ()

instance : Decidable (call.Succeeds svc lib s) :=
  decidable_of_iff ((call.handle svc lib s).2.isOk = true) (by
    rw [Succeeds]
    cases (call.handle svc lib s).2 <;> simp [Except.isOk, Except.toBool])

/-- The credential could not be sealed or stored. -/
def Unsaved : Prop :=
  (call.supplied u).isSome = true ∧ ¬ (call.conduct.seals = true ∧ call.conduct.stores = true)

end Call

def step (svc : Service) (lib : Library) (s : State) (call : Call) : State :=
  (call.handle svc lib s).1

/-- The last credential the calls supply for the cluster. -/
def lastSupplied (u : Uuid) (calls : List Call) : Option Supplied :=
  calls.foldl (fun last call => (call.supplied u).or last) none

/-- The configuration holds this credential. -/
def Carries (lib : Library) (cfg : Config) (c : Supplied) : Prop :=
  match c.mode with
  | .token => cfg.bearerToken = bytesOf c.secret
  | .kubeconfig =>
    ∃ parsed, parseKubeconfig lib (bytesOf c.secret) = .ok parsed ∧ cfg.kubeconfig = some parsed

section Runs

variable (svc : Service) (lib : Library) (u : Uuid) (s : State) (calls : List Call)

/-- The cluster is enabled, and the last credential supplied belongs to its mode. -/
structure InForce (c : Supplied) : Prop where
  last : lastSupplied u calls = some c
  row : ∃ r, (Runs.run (step svc lib) s calls).cluster? u = some r ∧ r.enabled = true ∧
    c.mode = r.authMode

/-- After the calls a reader gets the credential in force, and no call has succeeded
whose credential was not saved. -/
structure RoundTrip (clusterID : String) : Prop where
  reads : ∀ c, InForce svc lib u s calls c → ∀ bindings, ∃ cfg,
    decryptClusterConfig lib svc.master ((Runs.run (step svc lib) s calls).proxied bindings)
      clusterID = .ok cfg ∧ Carries lib cfg c
  saved : Runs.Every (step svc lib)
    (fun s call => call.Unsaved u → ¬ call.Succeeds svc lib s) s calls

end Runs

/-! ## What a request leaves -/

section Statements

variable {s s' : State} {u id : Uuid} {mode : AuthMode} {req : ClusterRequest}

@[simp] theorem cluster?_audit (s : State) (u : Uuid) (e : AuditEntry) :
    (s.audit e).cluster? u = s.cluster? u := rfl

theorem cluster?_change (s : State) (u id : Uuid) {f : NamedCluster → NamedCluster}
    (hf : ∀ r, (f r).id = r.id) :
    (s.change id f).cluster? u = (s.cluster? u).map fun r => if u = id then f r else r := by
  rw [State.cluster?, State.change, Table.lookup_updateWhere hf, State.cluster?]
  refine Option.map_congr fun r hr => ?_
  simp only [(Table.lookup_eq_some hr).2, decide_eq_true_eq]

theorem cluster?_proxied (s : State) (bindings : List Binding) (u : Uuid) :
    (s.proxied bindings).cluster? u = (s.cluster? u).map (·.toClusterRow) := by
  simp only [K8s.State.cluster?, State.proxied, State.cluster?, Table.lookup, List.find?_map]
  rfl

theorem insertCluster_eq_ok {actor newID : Uuid}
    (h : s.insertCluster actor newID mode req = .ok s') :
    s.cluster? newID = none ∧
      ∀ u, s'.cluster? u =
        (s.cluster? u).or (if newID = u then some (req.row mode newID) else none) := by
  simp only [State.insertCluster] at h
  split at h
  · cases h
  · split at h
    · cases h
    · next hfree =>
      split at h
      · cases h
      · cases h
        refine ⟨Table.lookup_eq_none.mpr fun r hr hid => hfree ?_, fun u => ?_⟩
        · rw [List.any_eq_true]
          exact ⟨r, hr, by simp [hid]⟩
        · exact Table.lookup_append u s.clusters _

theorem updateCluster_eq_ok {clusterID : String} {n : Nat}
    (h : s.updateCluster clusterID mode req = .ok (s', n)) :
    ∃ id, castUuid clusterID = some id ∧ s' = s.change id (req.set mode) ∧
      n = s.clusters.countP (·.id = id) := by
  simp only [State.updateCluster] at h
  split at h
  · cases h
  · next id hid =>
    split at h
    · cases h
    · split at h
      · cases h
      · cases h
        exact ⟨id, hid, rfl, rfl⟩

end Statements

section Credentials

variable {svc : Service} {lib : Library} {u : Uuid}

/-- The sealed credential of a mode. -/
def NamedCluster.sealed (r : NamedCluster) : AuthMode → Bytes
  | .token => r.tokenEnc
  | .kubeconfig => r.kubeconfigEnc

/-- The row has the credential, sealed for the id as its request had it. -/
structure Sealed (svc : Service) (lib : Library) (r : NamedCluster) (c : Supplied) : Prop where
  column : ∃ nonce, r.sealed c.mode = svc.master.sealBlob nonce (bytesOf c.secret)
    (makeAAD "k8s_clusters" c.clusterID (AuthMode.column c.mode))
  parses : c.mode = .kubeconfig → ∃ parsed,
    parseKubeconfig lib (bytesOf c.secret) = .ok parsed

theorem sealed_set {r : NamedCluster} {c : Supplied} (h : Sealed svc lib r c)
    (req : ClusterRequest) (mode : AuthMode) : Sealed svc lib (req.set mode r) c := by
  obtain ⟨nonce, hcolumn⟩ := h.column
  refine ⟨⟨nonce, ?_⟩, h.parses⟩
  rw [← hcolumn]
  cases c.mode <;> rfl

theorem sealed_withCredential (r : NamedCluster) (nonce : Nonce) {c : Supplied}
    (hparses : c.mode = .kubeconfig → ∃ parsed,
      parseKubeconfig lib (bytesOf c.secret) = .ok parsed) :
    Sealed svc lib (r.withCredential (svc.master.sealBlob nonce (bytesOf c.secret)
      (makeAAD "k8s_clusters" c.clusterID (AuthMode.column c.mode))) c.mode) c := by
  refine ⟨⟨nonce, ?_⟩, hparses⟩
  cases c.mode <;> rfl

theorem withCredential_id (r : NamedCluster) (enc : Bytes) (mode : AuthMode) :
    (r.withCredential enc mode).id = r.id := by
  cases mode <;> rfl

theorem sealBlob_ne_nil (c : Aead) (nonce : Nonce) (p aad : Bytes) :
    c.sealBlob nonce p aad ≠ [] := by
  simp [Aead.sealBlob, pack]

/-- What a reader gets from a row that has the credential. -/
theorem decrypt_iff (hideal : IdealAead.Ideal svc.scheme) {s : State} {r : NamedCluster}
    {c : Supplied} {clusterID : String} (hcast : castUuid clusterID = some u)
    (hrow : s.cluster? u = some r) (henabled : r.enabled = true) (hmode : c.mode = r.authMode)
    (h : Sealed svc lib r c) (bindings : List Binding) :
    (∃ cfg, decryptClusterConfig lib svc.master (s.proxied bindings) clusterID = .ok cfg ∧
      Carries lib cfg c) ↔ c.clusterID = clusterID := by
  obtain ⟨nonce, hcolumn⟩ := h.column
  have hproxied : (s.proxied bindings).cluster? u = some r.toClusterRow := by
    rw [cluster?_proxied, hrow]
    rfl
  have hopen : ∀ column, svc.master.openBlob (svc.master.sealBlob nonce (bytesOf c.secret)
      (makeAAD "k8s_clusters" c.clusterID column)) (makeAAD "k8s_clusters" clusterID column) =
        if c.clusterID = clusterID then some (bytesOf c.secret) else none := by
    intro column
    rw [Service.master, open_seal_eq hideal]
    by_cases hid : c.clusterID = clusterID
    · rw [if_pos (by rw [hid]), if_pos hid]
    · rw [if_neg (fun haad => hid (makeAAD_row haad)), if_neg hid]
  simp only [decryptClusterConfig, hcast, hproxied, henabled, Bool.true_eq_false, if_false]
  cases hm : c.mode with
  | token =>
    rw [hm] at hcolumn
    have henc : r.tokenEnc = _ := hcolumn
    rw [hm] at hmode
    simp only [← hmode, henc, sealBlob_ne_nil, if_false, AuthMode.column, hopen]
    by_cases hid : c.clusterID = clusterID
    · simp [hid, Carries, hm]
    · simp [hid]
  | kubeconfig =>
    rw [hm] at hcolumn
    have henc : r.kubeconfigEnc = _ := hcolumn
    obtain ⟨parsed, hparsed⟩ := h.parses hm
    rw [hm] at hmode
    simp only [← hmode, henc, sealBlob_ne_nil, if_false, AuthMode.column, hopen]
    by_cases hid : c.clusterID = clusterID
    · simp [hid, Carries, hm, hparsed, bind, Except.bind, pure, Except.pure]
    · simp [hid]

/-! ## One request -/

theorem validateCreate_eq_ok {req : ClusterRequest} {mode : AuthMode}
    (h : req.validateCreate lib = .ok mode) :
    AuthMode.ofText req.authMode = some mode ∧ (mode = .kubeconfig → ∃ parsed,
      parseKubeconfig lib (bytesOf (req.secret mode)) = .ok parsed) := by
  simp only [ClusterRequest.validateCreate, ClusterRequest.mode, Reply.bind_eq_ok,
    Reply.require_eq_ok, Reply.orElse_eq_ok] at h
  obtain ⟨_, _, _, _, mode', hmode, _, _, _, _, h⟩ := h
  split at h
  · next hk =>
    simp only [Reply.bind_eq_ok, Reply.pure_eq_ok] at h
    obtain ⟨_, hcheck, rfl⟩ := h
    refine ⟨hmode, fun _ => ?_⟩
    rw [hk, ClusterRequest.secret]
    simp only [ClusterRequest.checkKubeconfig] at hcheck
    split at hcheck
    · cases hcheck
    · next parsed hparsed => exact ⟨parsed, hparsed⟩
  · next hk =>
    simp only [Reply.pure_eq_ok] at h
    obtain ⟨_, _, rfl⟩ := h
    exact ⟨hmode, fun hm => absurd hm hk⟩

theorem validateUpdate_eq_ok {req : ClusterRequest} {mode : AuthMode}
    (h : req.validateUpdate lib = .ok mode) :
    AuthMode.ofText req.authMode = some mode ∧
      (mode = .kubeconfig → req.secret mode ≠ "" → ∃ parsed,
        parseKubeconfig lib (bytesOf (req.secret mode)) = .ok parsed) := by
  simp only [ClusterRequest.validateUpdate, ClusterRequest.mode, Reply.bind_eq_ok,
    Reply.require_eq_ok, Reply.orElse_eq_ok] at h
  obtain ⟨_, _, mode', hmode, h⟩ := h
  split at h
  · next hk =>
    simp only [Reply.bind_eq_ok, Reply.pure_eq_ok] at h
    obtain ⟨_, hcheck, rfl⟩ := h
    refine ⟨hmode, fun _ _ => ?_⟩
    rw [hk.1, ClusterRequest.secret]
    simp only [ClusterRequest.checkKubeconfig] at hcheck
    split at hcheck
    · cases hcheck
    · next parsed hparsed => exact ⟨parsed, hparsed⟩
  · next hk =>
    simp only [Reply.pure_eq_ok] at h
    obtain ⟨_, _, rfl⟩ := h
    refine ⟨hmode, fun hm hsecret => absurd ⟨hm, ?_⟩ hk⟩
    rwa [hm] at hsecret

theorem createCluster_succeeds {c : Conduct} {s : State} {claims : Claims} {req : ClusterRequest}
    {id : String} (h : (createCluster svc lib c s claims req).2 = .ok id) :
    ∃ mode s', req.validateCreate lib = .ok mode ∧
      s.insertCluster claims.subject c.newID mode req = .ok s' ∧
      (createCluster svc lib c s claims req).1 =
        (saveCredentials svc c s' c.newID.text mode req).audit
          ⟨claims.subject.text, "admin.k8s_cluster_created", "", ""⟩ := by
  simp only [createCluster] at h ⊢
  split at h
  · cases h
  · next mode hvalid =>
    split at h
    · cases h
    · split at h
      · cases h
      · next s' hinsert =>
        split at h
        · cases h
        · exact ⟨mode, s', hvalid, hinsert, by simp [*]⟩

theorem updateCluster_succeeds {c : Conduct} {s : State} {claims : Claims} {clusterID : String}
    {req : ClusterRequest} (h : (updateCluster svc lib c s claims clusterID req).2 = .ok ()) :
    ∃ mode s' n, req.validateUpdate lib = .ok mode ∧
      s.updateCluster clusterID mode req = .ok (s', n) ∧ n ≠ 0 ∧
      (updateCluster svc lib c s claims clusterID req).1 =
        (saveCredentials svc c s' clusterID mode req).audit
          ⟨claims.subject.text, "admin.k8s_cluster_updated", "", ""⟩ := by
  simp only [updateCluster] at h ⊢
  split at h
  · cases h
  · next mode hvalid =>
    split at h
    · cases h
    · split at h
      · cases h
      · next s' n hupdate =>
        split at h
        · cases h
        · split at h
          · cases h
          · next hrows => exact ⟨mode, s', n, hvalid, hupdate, hrows, by simp [*]⟩

theorem cluster?_saveCredentials {clusterID : String} {id : Uuid}
    (hcast : castUuid clusterID = some id) (c : Conduct) (s : State) (mode : AuthMode)
    (req : ClusterRequest) (u : Uuid) :
    (saveCredentials svc c s clusterID mode req).cluster? u = (s.cluster? u).map fun r =>
      if u = id ∧ req.secret mode ≠ "" ∧ c.seals = true ∧ c.stores = true then
        r.withCredential (svc.master.sealBlob c.nonce (bytesOf (req.secret mode))
          (makeAAD "k8s_clusters" clusterID (AuthMode.column mode))) mode
      else r := by
  simp only [saveCredentials, hcast]
  by_cases hsecret : req.secret mode = ""
  · simp [hsecret]
  · by_cases hsaved : c.seals = true ∧ c.stores = true
    · rw [if_neg hsecret, if_pos hsaved,
        cluster?_change _ _ _ (fun r => withCredential_id r _ mode)]
      simp [hsecret, hsaved]
    · simp [hsecret, hsaved]

/-- The cluster has the last credential supplied. -/
def Keeps (svc : Service) (lib : Library) (u : Uuid) (s : State) (last : Option Supplied) : Prop :=
  ∀ c, last = some c → ∃ r, s.cluster? u = some r ∧ Sealed svc lib r c

theorem keeps_saveCredentials {clusterID : String} {id : Uuid}
    (hcast : castUuid clusterID = some id) {c : Conduct} {s : State} {mode : AuthMode}
    {req : ClusterRequest} {last : Option Supplied}
    (hmode : AuthMode.ofText req.authMode = some mode)
    (hparses : mode = .kubeconfig → req.secret mode ≠ "" → ∃ parsed,
      parseKubeconfig lib (bytesOf (req.secret mode)) = .ok parsed)
    (hrow : (s.cluster? id).isSome = true) (hkeeps : Keeps svc lib u s last)
    (hsaved : ((if id = u then req.supplied clusterID else none).isSome = true) →
      c.seals = true ∧ c.stores = true) :
    Keeps svc lib u (saveCredentials svc c s clusterID mode req)
      ((if id = u then req.supplied clusterID else none).or last) := by
  have hsupplied : req.supplied clusterID =
      if req.secret mode = "" then none else some ⟨mode, req.secret mode, clusterID⟩ := by
    rw [ClusterRequest.supplied, hmode, Option.bind_some]
  intro d hd
  rw [cluster?_saveCredentials hcast]
  by_cases hid : id = u ∧ req.secret mode ≠ ""
  · obtain ⟨rfl, hsecret⟩ := hid
    rw [if_pos rfl, hsupplied, if_neg hsecret] at hd hsaved
    obtain rfl := Option.some.inj hd
    obtain ⟨r, hr⟩ := Option.isSome_iff_exists.mp hrow
    refine ⟨_, by rw [hr, Option.map_some, if_pos ⟨rfl, hsecret, hsaved rfl⟩], ?_⟩
    exact @sealed_withCredential svc lib r c.nonce ⟨mode, req.secret mode, clusterID⟩
      fun hk => hparses hk hsecret
  · have hnone : (if id = u then req.supplied clusterID else none) = none := by
      by_cases hu : id = u
      · rw [if_pos hu, hsupplied, if_pos (by simpa [hu] using hid)]
      · rw [if_neg hu]
    rw [hnone, Option.none_or] at hd
    obtain ⟨r, hr, hsealed⟩ := hkeeps d hd
    refine ⟨r, ?_, hsealed⟩
    rw [hr, Option.map_some, if_neg fun h => hid ⟨h.1.symm, h.2.1⟩]

/-- One request that succeeds and whose credential is saved. -/
theorem keeps_step {s : State} {call : Call} {last : Option Supplied}
    (hkeeps : Keeps svc lib u s last) (hsucceeds : call.Succeeds svc lib s)
    (hsaved : ¬ call.Unsaved u) :
    Keeps svc lib u (step svc lib s call) ((call.supplied u).or last) := by
  obtain ⟨claims, request, c⟩ := call
  have hsaved : (Call.supplied u ⟨claims, request, c⟩).isSome = true →
      c.seals = true ∧ c.stores = true := by
    intro hsome
    by_contra hnot
    exact hsaved ⟨hsome, hnot⟩
  cases request with
  | create req =>
    have hok : ∃ id, (createCluster svc lib c s claims req).2 = .ok id := by
      cases hr : (createCluster svc lib c s claims req).2 with
      | error e => simp [Call.Succeeds, Call.handle, hr, Except.map] at hsucceeds
      | ok id => exact ⟨id, rfl⟩
    obtain ⟨id, hok⟩ := hok
    obtain ⟨mode, s', hvalid, hinsert, hstate⟩ := createCluster_succeeds hok
    obtain ⟨hmode, hparses⟩ := validateCreate_eq_ok hvalid
    obtain ⟨hfree, hrows⟩ := insertCluster_eq_ok hinsert
    have hkeeps' : Keeps svc lib u s' last := by
      intro d hd
      obtain ⟨r, hr, hsealed⟩ := hkeeps d hd
      exact ⟨r, by rw [hrows, hr, Option.some_or], hsealed⟩
    have hrow : (s'.cluster? c.newID).isSome = true := by
      rw [hrows, hfree, Option.none_or, if_pos rfl]
      rfl
    have hsupplied : Call.supplied u ⟨claims, .create req, c⟩ =
        if c.newID = u then req.supplied c.newID.text else none := by
      simp only [Call.supplied]
      split
      · next h => rw [h]
      · rfl
    rw [hsupplied] at hsaved ⊢
    have hdone := keeps_saveCredentials (castUuid_text c.newID) hmode
      (fun hk _ => hparses hk) hrow hkeeps' hsaved
    intro d hd
    simp only [step, Call.handle, hstate, cluster?_audit]
    exact hdone d hd
  | update clusterID req =>
    obtain ⟨mode, s', n, hvalid, hupdate, hn, hstate⟩ := updateCluster_succeeds hsucceeds
    obtain ⟨hmode, hparses⟩ := validateUpdate_eq_ok hvalid
    obtain ⟨id, hcast, rfl, hcount⟩ := updateCluster_eq_ok hupdate
    have hset : ∀ r, (req.set mode r).id = r.id := fun r => rfl
    have hkeeps' : Keeps svc lib u (s.change id (req.set mode)) last := by
      intro d hd
      obtain ⟨r, hr, hsealed⟩ := hkeeps d hd
      rw [cluster?_change s u id hset, hr, Option.map_some]
      by_cases hu : u = id
      · exact ⟨_, by rw [if_pos hu], sealed_set hsealed req mode⟩
      · exact ⟨_, by rw [if_neg hu], hsealed⟩
    have hrow : ((s.change id (req.set mode)).cluster? id).isSome = true := by
      rw [cluster?_change s id id hset, Option.isSome_map, State.cluster?, Table.lookup_isSome,
        List.any_eq_true]
      obtain ⟨r, hr, hid⟩ := List.countP_pos_iff.mp (Nat.pos_of_ne_zero (hcount ▸ hn))
      exact ⟨r, hr, hid⟩
    have hsupplied : Call.supplied u ⟨claims, .update clusterID req, c⟩ =
        if id = u then req.supplied clusterID else none := by
      simp only [Call.supplied, hcast, Option.some.injEq]
    rw [hsupplied] at hsaved ⊢
    have hdone := keeps_saveCredentials hcast hmode hparses hrow hkeeps' hsaved
    intro d hd
    simp only [step, Call.handle, hstate, cluster?_audit]
    exact hdone d hd

/-! ## Every sequence -/

theorem keeps_run {s : State} {calls : List Call} {last : Option Supplied}
    (hkeeps : Keeps svc lib u s last)
    (hsucceed : Runs.Every (step svc lib) (fun s call => call.Succeeds svc lib s) s calls)
    (hsaved : ∀ call ∈ calls, ¬ call.Unsaved u) :
    Keeps svc lib u (Runs.run (step svc lib) s calls)
      (calls.foldl (fun last call => (call.supplied u).or last) last) := by
  induction calls generalizing s last with
  | nil => exact hkeeps
  | cons call calls ih =>
    obtain ⟨hcall, hcalls⟩ := hsucceed
    have hstep := keeps_step hkeeps hcall (hsaved call (List.mem_cons_self ..))
    exact ih hstep hcalls fun call' h => hsaved call' (List.mem_cons_of_mem call h)

/-- In a sequence of requests that succeed, one whose credential was not saved is
one that succeeded all the same. -/
theorem saved_iff {s : State} {calls : List Call}
    (hsucceed : Runs.Every (step svc lib) (fun s call => call.Succeeds svc lib s) s calls) :
    Runs.Every (step svc lib) (fun s call => call.Unsaved u → ¬ call.Succeeds svc lib s) s calls ↔
      ∀ call ∈ calls, ¬ call.Unsaved u := by
  rw [← Runs.every_const (step svc lib) (fun call => ¬ call.Unsaved u) s]
  induction calls generalizing s with
  | nil => exact Iff.rfl
  | cons call calls ih =>
    obtain ⟨hcall, hcalls⟩ := hsucceed
    rw [Runs.every_cons, Runs.every_cons, ih hcalls]
    exact and_congr_left fun _ => ⟨fun h hunsaved => h hunsaved hcall,
      fun h hunsaved => absurd hunsaved h⟩

/-- Where every credential supplied was saved, a reader gets the one in force exactly if it
spells the id as the credential came. -/
theorem reads_iff (hideal : IdealAead.Ideal svc.scheme) {clusterID : String}
    (hcast : castUuid clusterID = some u) {s : State} {calls : List Call}
    (hsucceed : Runs.Every (step svc lib) (fun s call => call.Succeeds svc lib s) s calls)
    (hall : ∀ call ∈ calls, ¬ call.Unsaved u) {c : Supplied} (hc : InForce svc lib u s calls c)
    (bindings : List Binding) :
    (∃ cfg, decryptClusterConfig lib svc.master
      ((Runs.run (step svc lib) s calls).proxied bindings) clusterID = .ok cfg ∧
        Carries lib cfg c) ↔ c.clusterID = clusterID := by
  have hstart : Keeps svc lib u s none := by
    intro d hd
    cases hd
  obtain ⟨r, hr, hsealed⟩ := keeps_run hstart hsucceed hall c hc.last
  obtain ⟨r', hr', henabled, hmode⟩ := hc.row
  rw [hr] at hr'
  cases hr'
  exact decrypt_iff hideal hcast hr henabled hmode hsealed bindings

/-- After any sequence of requests that succeed a reader gets the credential in
force, and no request hid a failure, exactly if each credential supplied was sealed
and stored and the one in force came under the id as the reader spells it. -/
theorem credentials_round_trip_iff (hideal : IdealAead.Ideal svc.scheme) {clusterID : String}
    (hcast : castUuid clusterID = some u) (s : State) (calls : List Call)
    (hsucceed : Runs.Every (step svc lib) (fun s call => call.Succeeds svc lib s) s calls) :
    RoundTrip svc lib u s calls clusterID ↔
      (∀ call ∈ calls, (call.supplied u).isSome = true →
        call.conduct.seals = true ∧ call.conduct.stores = true) ∧
      ∀ c, InForce svc lib u s calls c → c.clusterID = clusterID := by
  have hsaves : (∀ call ∈ calls, ¬ call.Unsaved u) ↔
      ∀ call ∈ calls, (call.supplied u).isSome = true →
        call.conduct.seals = true ∧ call.conduct.stores = true := by
    refine forall_congr' fun call => forall_congr' fun _ => ?_
    rw [Call.Unsaved, not_and_not_right]
  constructor
  · intro h
    have hall := (saved_iff hsucceed).mp h.saved
    exact ⟨hsaves.mp hall, fun c hc =>
      (reads_iff hideal hcast hsucceed hall hc []).mp (h.reads c hc [])⟩
  · rintro ⟨hall, hspelled⟩
    have hall := hsaves.mpr hall
    exact ⟨fun c hc bindings =>
      (reads_iff hideal hcast hsucceed hall hc bindings).mpr (hspelled c hc),
      (saved_iff hsucceed).mpr hall⟩

end Credentials

/-! ## An id in capitals -/

/-- A library for runs without kubeconfigs. -/
def plainLibrary : Library where
  unmarshalYAML _ := .error ""
  decodeBase64 _ := .ok []
  appendCertsFromPEM _ := true
  x509KeyPair _ _ := .ok ()
  urlError _ := ""
  transportError _ := ""
  quote s := s
  unmarshalList _ := .ok []

def tokenRequest (token : String) : ClusterRequest where
  name := "prod"
  serverURL := "https://203.0.113.7:6443"
  authMode := "token"
  token := token
  kubeconfigYAML := ""
  caCertPEM := ""
  skipTLSVerify := false
  enabled := true

def smoothly : Conduct := ⟨Uuid.ofNat 10, sampleNonce, .runs, true, true⟩

def admin : Claims := ⟨Uuid.ofNat 1, [.admin]⟩

/-- A cluster is created, and its token changed under an id that the caller spells. -/
def rotation (clusterID : String) : List Call :=
  [⟨admin, .create (tokenRequest "first"), smoothly⟩,
    ⟨admin, .update clusterID (tokenRequest "second"), smoothly⟩]

def noClusters : State := ⟨{ users := [sampleUser 1 "ada"] }, []⟩

def canonicalID : String := (Uuid.ofNat 10).text
def capitalID : String := "00000000-0000-0000-0000-00000000000A"

theorem rotation_succeeds : ∀ clusterID ∈ [canonicalID, capitalID],
    Runs.Every (step idealService plainLibrary)
      (fun s call => call.Succeeds idealService plainLibrary s) noClusters
        (rotation clusterID) := by
  decide

/-- The last token is in force, whichever way the id is spelled. -/
theorem rotation_inForce : ∀ clusterID ∈ [canonicalID, capitalID],
    InForce idealService plainLibrary (Uuid.ofNat 10) noClusters (rotation clusterID)
      ⟨.token, "second", clusterID⟩ := by
  intro clusterID hmem
  have hlast : ∀ clusterID ∈ [canonicalID, capitalID],
      lastSupplied (Uuid.ofNat 10) (rotation clusterID) = some ⟨.token, "second", clusterID⟩ := by
    decide
  have hrow : ∀ clusterID ∈ [canonicalID, capitalID],
      ((Runs.run (step idealService plainLibrary) noClusters (rotation clusterID)).cluster?
        (Uuid.ofNat 10)).map (fun r => (r.enabled, r.authMode)) = some (true, .token) := by
    decide
  obtain ⟨r, hr, hmode⟩ := Option.map_eq_some_iff.mp (hrow clusterID hmem)
  rw [Prod.mk.injEq] at hmode
  exact ⟨hlast clusterID hmem, r, hr, hmode.1, hmode.2.symm⟩

theorem credentials_round_trip_canonical :
    RoundTrip idealService plainLibrary (Uuid.ofNat 10) noClusters (rotation canonicalID)
      canonicalID := by
  refine (credentials_round_trip_iff idealService_ideal (castUuid_text _) noClusters _
    (rotation_succeeds canonicalID (by simp))).mpr ⟨by decide, fun c hc => ?_⟩
  have hlast := (rotation_inForce canonicalID (by simp)).last
  rw [hc.last] at hlast
  rw [Option.some.inj hlast]
  rfl

/-- The token is changed under the id in capitals, and the proxy cannot read it. -/
theorem credentials_lost_capitals :
    ¬ ∀ (svc : Service) (lib : Library) (u : Uuid) (s : State) (calls : List Call)
      (clusterID : String), IdealAead.Ideal svc.scheme → castUuid clusterID = some u →
      Runs.Every (step svc lib) (fun s call => call.Succeeds svc lib s) s calls →
      RoundTrip svc lib u s calls clusterID := by
  intro h
  have hsucceed := rotation_succeeds capitalID (by simp)
  have hforce := rotation_inForce capitalID (by simp)
  have htrip := h idealService plainLibrary (Uuid.ofNat 10) noClusters (rotation capitalID)
    canonicalID idealService_ideal (castUuid_text _) hsucceed
  have hspelled := (reads_iff idealService_ideal (castUuid_text _) hsucceed
    ((saved_iff hsucceed).mp htrip.saved) hforce []).mp (htrip.reads _ hforce [])
  exact absurd hspelled (by decide)

end IronStock.ClusterAdmin

import IronStock.ItemVersionHandlers
import IronStock.K8sClient
import IronStock.Lib.UrlPaths

/-!
# The Kubernetes proxy

An item is bound to a cluster and a namespace by whoever may write it, and whoever may
read it is shown the resources of that namespace. The name of the namespace is a text of
the request and a part of the path that the cluster is asked for.
-/
namespace IronStock.K8s

open UrlText (Url)

/-! ## The tables -/

structure ClusterRow where
  id : Uuid
  serverURL : String
  authMode : AuthMode
  tokenEnc : Bytes
  kubeconfigEnc : Bytes
  caCertPEM : Option String
  skipTLSVerify : Bool
  enabled : Bool

structure Binding where
  itemId : Uuid
  clusterId : Uuid
  namespaceName : String
deriving DecidableEq

structure State where
  db : DB
  clusters : List ClusterRow
  bindings : List Binding

def State.cluster? (s : State) (id : Uuid) : Option ClusterRow :=
  Table.lookup ClusterRow.id id s.clusters

def State.binding? (s : State) (item : Uuid) : Option Binding :=
  Table.lookup Binding.itemId item s.bindings

/-- The upsert into `item_k8s_bindings`: no text has a NUL, and the keys refer to rows. -/
def State.upsertBinding (s : State) (b : Binding) : Option State :=
  if '\x00' ∉ b.namespaceName.toList ∧ (s.db.item? b.itemId).isSome ∧
      (s.cluster? b.clusterId).isSome then
    some { s with bindings :=
      Table.upsert (fun r => r.itemId = b.itemId) (fun _ => b) b s.bindings }
  else none

/-! ## Bindings -/

structure BindRequest where
  clusterID : String
  namespaceName : String

/-- `SetBinding`, behind the access-token middleware. -/
def setBinding (s : State) (now : Time) (claims : Claims) (itemID : String) (req : BindRequest) :
    Reply State := do
  .unlessAdmin claims
    (requireItemWrite s.db now claims itemID "Yetki sorgulanamadı."
      "Bu item için yazma yetkisi gerekli.")
  .require (req.clusterID ≠ "") (badRequest "cluster_id zorunlu.")
  .require (req.namespaceName ≠ "") (badRequest "namespace_name zorunlu.")
  .orElse
    ((castUuid itemID).bind fun item => (castUuid req.clusterID).bind fun cluster =>
      s.upsertBinding ⟨item, cluster, req.namespaceName⟩)
    (internalError "K8s bağlaması kaydedilemedi.")

/-! ## Live resources -/

/-- What a query says that finds no row. -/
def errNoRows := "no rows in result set"

/-- `decryptClusterConfig`. -/
def decryptClusterConfig (lib : Library) (master : Aead) (s : State) (clusterID : Uuid) :
    Except String Config :=
  match s.cluster? clusterID with
  | none => .error errNoRows
  | some row =>
    if row.enabled = false then .error "k8s: cluster is disabled"
    else
      let cfg : Config := ⟨row.serverURL, row.authMode, [], none, row.caCertPEM.getD "",
        row.skipTLSVerify⟩
      match row.authMode with
      | .token =>
        if row.tokenEnc = [] then .error "k8s: cluster has no token credential"
        else
          match master.openBlob row.tokenEnc
              (makeAAD "k8s_clusters" clusterID.text "token_enc") with
          | none => .error "k8s: failed to decrypt cluster token"
          | some plain => .ok { cfg with bearerToken := plain }
      | .kubeconfig =>
        if row.kubeconfigEnc = [] then .error "k8s: cluster has no kubeconfig credential"
        else
          match master.openBlob row.kubeconfigEnc
              (makeAAD "k8s_clusters" clusterID.text "kubeconfig_enc") with
          | none => .error "k8s: failed to decrypt cluster kubeconfig"
          | some plain => do
            let parsed ← parseKubeconfig lib plain
            pure { cfg with
              kubeconfig := some parsed
              serverURL := if parsed.serverURL = "" then row.serverURL else parsed.serverURL }

/-- `resolveK8sClient`. -/
def resolveClient (lib : Library) (master : Aead) (s : State) (itemID : String) :
    Except String (Client × String) :=
  match (castUuid itemID).bind s.binding? with
  | none => .error "k8s bağlaması bulunamadı — önce /k8s/bind ile kaydedin"
  | some b => do
    let cfg ← decryptClusterConfig lib master s b.clusterId
    let client ← newClient lib cfg
    pure (client, b.namespaceName)

/-- The part of the handlers before the call: the right to read and a client. -/
def prepare (lib : Library) (master : Aead) (s : State) (now : Time) (claims : Claims)
    (itemID : String) : Reply (Client × String) := do
  .unlessAdmin claims
    (requireItemRead s.db now claims itemID
      ⟨403, errCodeUnauthorized, "Bu item için okuma yetkisi gerekli."⟩)
  match resolveClient lib master s itemID with
  | .error e => .error ⟨422, errCodeBadRequest, e⟩
  | .ok found => .ok found

/-- `writeK8sError`. -/
def RequestError.reply : RequestError → ApiError
  | .notFound => ⟨404, errCodeNotFound, "K8s kaynağı bulunamadı."⟩
  | .forbidden => ⟨403, errCodeForbidden, "K8s: yetersiz RBAC izni."⟩
  | .metricsUnavailable =>
    ⟨503, errCodeInternal, "metrics-server bu cluster'da kurulu değil."⟩
  | .other text => ⟨502, errCodeInternal, "K8s API isteği başarısız: " ++ text⟩

/-- `ListPods`, `ListDeployments`, `ListServices`, `ListEvents` and `ListMetrics`: the URL
that goes out, and the answer. -/
def live (lib : Library) (master : Aead) (cluster : Cluster) (s : State) (now : Time)
    (claims : Claims) (itemID : String) (kind : Resource) :
    Option Url × State × Reply (List String) :=
  match prepare lib master s now claims itemID with
  | .error e => (none, s, .error e)
  | .ok (client, namespaceName) =>
    (client.request (kind.path namespaceName),
      match client.list lib cluster kind namespaceName with
      | .error e => (s, .error e.reply)
      | .ok items =>
        ({ s with db := s.db.audit ⟨claims.subject.text, "item.k8s_fetch", "", ""⟩ }, .ok items))

/-! ## Paths -/

/-- The segments in front of the namespace. -/
def Resource.base : Resource → List String
  | .pods | .services | .events => ["api", "v1", "namespaces"]
  | .deployments => ["apis", "apps", "v1", "namespaces"]
  | .metrics => ["apis", "metrics.k8s.io", "v1beta1", "namespaces"]

/-- The segment behind it. -/
def Resource.last : Resource → String
  | .pods | .metrics => "pods"
  | .deployments => "deployments"
  | .services => "services"
  | .events => "events"

def Resource.segments (kind : Resource) (namespaceName : String) : List String :=
  kind.base ++ [namespaceName, kind.last]

/-- The URL leads to the resources of this namespace and nowhere else: behind the path of
the server itself the namespace is one segment between the fixed ones, and there is no
query. -/
structure Confined (serverPath : UrlText.Bytes) (kind : Resource) (namespaceName : String)
    (u : Url) : Prop where
  path : UrlText.segments u.path = UrlText.segments serverPath ++
    (kind.segments namespaceName).map fun s => UrlText.encode s.toList
  noDots : namespaceName ≠ "." ∧ namespaceName ≠ ".."
  query : u.rawQuery = []

/-- A server URL that ends with its path, and a namespace that is one plain segment. -/
structure Harmless (serverURL namespaceName : String) : Prop where
  server : '#' ∉ serverURL.toList ∧ '?' ∉ serverURL.toList
  marks : ∀ c ∈ ['/', '#', '?', '%'], c ∉ namespaceName.toList
  noDots : namespaceName ≠ "." ∧ namespaceName ≠ ".."

/-- The fixed segments as they stand in the path. -/
def Resource.stem (kind : Resource) : List Char := ['/'].intercalate (kind.base.map String.toList)

def Resource.tail (kind : Resource) (namespaceName : String) : List Char :=
  kind.stem ++ '/' :: (namespaceName.toList ++ '/' :: kind.last.toList)

theorem toList_path {front back namespaceName : String} {stem last : List Char}
    (hfront : front.toList = '/' :: (stem ++ ['/'])) (hback : back.toList = '/' :: last) :
    (front ++ namespaceName ++ back).toList =
      '/' :: (stem ++ '/' :: (namespaceName.toList ++ '/' :: last)) := by
  simp [hfront, hback]

theorem Resource.path_toList (kind : Resource) (namespaceName : String) :
    (kind.path namespaceName).toList = '/' :: kind.tail namespaceName := by
  cases kind <;> exact toList_path (by decide) (by decide)

theorem Resource.stem_segments (kind : Resource) :
    UrlText.segments (UrlText.encode kind.stem) =
      kind.base.map fun s => UrlText.encode s.toList := by
  cases kind <;> decide

theorem Resource.last_segment (kind : Resource) : '/' ∉ kind.last.toList := by
  cases kind <;> decide

theorem Resource.fixed_marks (kind : Resource) :
    ∀ c ∈ ['#', '?', '%'], c ∉ kind.stem ∧ c ∉ '/' :: kind.last.toList := by
  have hall : (['#', '?', '%'].all fun c =>
      !kind.stem.contains c && !('/' :: kind.last.toList).contains c) = true := by
    cases kind <;> decide
  intro c hc
  have hnot := List.all_eq_true.1 hall c hc
  rw [Bool.and_eq_true, Bool.not_eq_true', Bool.not_eq_true'] at hnot
  simpa using hnot

theorem Resource.tail_marks {kind : Resource} {namespaceName : String} {c : Char}
    (hc : c ∈ ['#', '?', '%']) :
    c ∉ kind.tail namespaceName ↔ c ∉ namespaceName.toList := by
  obtain ⟨hstem, hlast⟩ := kind.fixed_marks c hc
  have hslash : c ≠ '/' := fun h => hlast (h ▸ List.mem_cons_self)
  simp only [Resource.tail, List.mem_append, List.mem_cons, not_or] at hlast ⊢
  exact ⟨fun h => h.2.2.1, fun h => ⟨hstem, hslash, h, hlast⟩⟩

/-- The path of a namespace without slashes, cut into its segments. -/
theorem Resource.tail_segments {kind : Resource} {namespaceName : String}
    (h : '/' ∉ namespaceName.toList) :
    UrlText.segments (UrlText.encode (kind.tail namespaceName)) =
      (kind.segments namespaceName).map fun s => UrlText.encode s.toList := by
  have hslash : String.utf8EncodeChar '/' = [47] := by decide
  have hns := UrlText.segments_of_not_mem (mt UrlText.slash_mem_encode.mp h)
  have hlast := UrlText.segments_of_not_mem (mt UrlText.slash_mem_encode.mp kind.last_segment)
  rw [Resource.tail, UrlText.encode_append, UrlText.encode_cons, hslash, List.singleton_append,
    UrlText.segments_append, kind.stem_segments, UrlText.encode_append, UrlText.encode_cons, hslash,
    List.singleton_append, UrlText.segments_append, hns, hlast, Resource.segments]
  simp

section Confinement

variable {c : Client} {kind : Resource} {namespaceName : String} {server u : Url}

/-- A request that goes out is confined if the server URL and the namespace are harmless. -/
theorem confined_iff (hserver : UrlText.parse c.cfg.serverURL.toList = some server)
    (hhost : server.host ≠ [])
    (hu : UrlText.parse (c.cfg.serverURL.toList ++ '/' :: kind.tail namespaceName) = some u) :
    Confined server.path kind namespaceName u ↔ Harmless c.cfg.serverURL namespaceName := by
  have hpath := UrlText.path_eq_encode_iff hserver hhost hu
  constructor
  · intro h
    have hslash : '/' ∉ namespaceName.toList := by
      intro hmem
      have hseg : UrlText.encode namespaceName.toList ∈ UrlText.segments u.path := by
        rw [h.path]
        simp [Resource.segments]
      exact UrlText.not_mem_of_mem_segments hseg (UrlText.slash_mem_encode.mpr hmem)
    have hsegments := h.path
    rw [← Resource.tail_segments hslash, ← UrlText.segments_append] at hsegments
    obtain ⟨hs, hf, hq, hp⟩ := hpath.mp (UrlText.segments_injective hsegments)
    refine ⟨hs, ?_, h.noDots⟩
    intro ch hch
    rcases List.mem_cons.mp hch with rfl | hch
    · exact hslash
    · have htail : ch ∉ kind.tail namespaceName ↔ ch ∉ namespaceName.toList :=
        Resource.tail_marks hch
      refine htail.mp ?_
      simp only [List.mem_cons, List.not_mem_nil, or_false] at hch
      rcases hch with rfl | rfl | rfl
      · exact hf
      · exact hq
      · exact hp
  · intro h
    have htail : ∀ ch ∈ ['#', '?', '%'], ch ∉ kind.tail namespaceName := fun ch hch =>
      (Resource.tail_marks hch).mpr (h.marks ch (List.mem_cons_of_mem _ hch))
    have hq := htail '?' (by decide)
    refine ⟨?_, h.noDots, ?_⟩
    · have heq := hpath.mpr ⟨h.server, htail '#' (by decide), hq, htail '%' (by decide)⟩
      rw [heq, UrlText.segments_append, Resource.tail_segments (h.marks '/' (by decide))]
    · rcases UrlText.path_of_parse_append hserver hhost hu with ⟨hmark, _⟩ | ⟨_, _, hquery, _⟩
      · exact absurd hmark (not_or.mpr h.server)
      · rw [hquery, UrlText.cut_of_not_mem (htail '#' (by decide)), UrlText.cut_of_not_mem hq]

/-- The binding that a request stored is the binding of its item. -/
theorem setBinding_binding {s s' : State} {now : Time} {claims : Claims} {itemID : String}
    {req : BindRequest} (h : setBinding s now claims itemID req = .ok s') :
    ∃ item b, castUuid itemID = some item ∧ s'.binding? item = some b ∧
      b.namespaceName = req.namespaceName := by
  simp only [setBinding, Reply.bind_eq_ok, Reply.orElse_eq_ok, Option.bind_eq_some_iff] at h
  obtain ⟨_, _, _, _, _, _, item, hitem, clusterID, _, hput⟩ := h
  unfold State.upsertBinding at hput
  split at hput
  · cases hput
    have hlookup : Table.lookup Binding.itemId item
        (Table.upsert (fun r => r.itemId = item) (fun _ => ⟨item, clusterID, req.namespaceName⟩)
          ⟨item, clusterID, req.namespaceName⟩ s.bindings) =
        some ⟨item, clusterID, req.namespaceName⟩ := Table.lookup_upsert_self (by rfl) s.bindings
    exact ⟨item, _, hitem, hlookup, rfl⟩
  · cases hput

/-- A client is made of an accepted server URL, and asked about the namespace of the
binding. -/
theorem prepare_eq_ok {lib : Library} {master : Aead} {s : State} {now : Time}
    {claims : Claims} {itemID : String}
    (h : prepare lib master s now claims itemID = .ok (c, namespaceName)) :
    validateServerURL lib c.cfg.serverURL = .ok () ∧
      ((castUuid itemID).bind s.binding?).map Binding.namespaceName = some namespaceName := by
  simp only [prepare, Reply.bind_eq_ok] at h
  obtain ⟨_, _, h⟩ := h
  split at h
  · cases h
  · next found hfound =>
    cases h
    unfold resolveClient at hfound
    split at hfound
    · cases hfound
    · next b hb =>
      obtain ⟨cfg, _, hfound⟩ := bind_eq_ok.mp hfound
      obtain ⟨client, hclient, hfound⟩ := bind_eq_ok.mp hfound
      cases hfound
      exact ⟨(newClient_serverURL hclient).2, by rw [hb, Option.map_some]⟩

/-- Every binding that is stored, and every request on its item from then on while no other
one is stored for it. -/
theorem live_confined_iff {lib : Library} {master : Aead} {cluster : Cluster} {s₀ s₁ s : State}
    {now₀ now : Time} {claims₀ claims : Claims} {itemID₀ itemID : String} {req : BindRequest}
    (hset : setBinding s₀ now₀ claims₀ itemID₀ req = .ok s₁)
    (hitem : castUuid itemID = castUuid itemID₀)
    (hkept : ∀ item, castUuid itemID = some item → s.binding? item = s₁.binding? item) :
    (∀ u, (live lib master cluster s now claims itemID kind).1 = some u →
        ∃ c found server, prepare lib master s now claims itemID = .ok (c, found) ∧
          UrlText.parse c.cfg.serverURL.toList = some server ∧
          Confined server.path kind req.namespaceName u) ↔
      ∀ c found, prepare lib master s now claims itemID = .ok (c, found) →
        Refuses c.headers c.cfg.serverURL (kind.path req.namespaceName) ∨
          Harmless c.cfg.serverURL req.namespaceName := by
  cases hprepare : prepare lib master s now claims itemID with
  | error e => simp [live, hprepare]
  | ok p =>
    obtain ⟨c, found⟩ := p
    obtain ⟨hvalid, hfound⟩ := prepare_eq_ok hprepare
    obtain ⟨item, b, hcast, hbinding, hname⟩ := setBinding_binding hset
    have hsame : found = req.namespaceName := by
      rw [← hitem] at hcast
      rw [hcast, Option.bind_some, hkept item hcast, hbinding, Option.map_some, hname] at hfound
      exact (Option.some.inj hfound).symm
    obtain ⟨server, hserver, hport, -⟩ := exists_host hvalid
    have hhost : server.host ≠ [] := fun hnil => hport (by rw [hnil]; rfl)
    have hbase := hostIn_of_checked hvalid (kind.tail req.namespaceName)
    have hpath := kind.path_toList req.namespaceName
    have hlive : (live lib master cluster s now claims itemID kind).1 =
        sendURL c.headers (c.cfg.serverURL ++ kind.path req.namespaceName) := by
      rw [live, hprepare, ← hsame]
      rfl
    have hconfined : ∀ u,
        sendURL c.headers (c.cfg.serverURL ++ kind.path req.namespaceName) = some u →
        (Confined server.path kind req.namespaceName u ↔
          Harmless c.cfg.serverURL req.namespaceName) := by
      intro u hu
      obtain ⟨server', hserver', _, hparse, _⟩ := (sendURL_eq_some hbase hpath).mp hu
      exact confined_iff hserver hhost hparse
    rw [hlive]
    constructor
    · rintro h c' found' heq
      cases heq
      by_cases href : Refuses c.headers c.cfg.serverURL (kind.path req.namespaceName)
      · exact .inl href
      · obtain ⟨u, hu⟩ := (sendURL_isSome hbase hpath).mpr href
        obtain ⟨c', found', server', heq, hserver', hu'⟩ := h u hu
        cases heq
        rw [hserver] at hserver'
        cases hserver'
        exact .inr ((hconfined u hu).mp hu')
    · intro h u hu
      refine ⟨c, found, server, rfl, hserver, (hconfined u hu).mpr ?_⟩
      exact (h c found rfl).resolve_left ((sendURL_isSome hbase hpath).mp ⟨u, hu⟩)

end Confinement

/-! ## Concrete runs -/

/-- A library that reads every file and every body as empty. -/
def sampleLibrary : Library where
  unmarshalYAML _ := .error "yaml: unmarshal errors"
  decodeBase64 _ := .ok []
  appendCertsFromPEM _ := true
  x509KeyPair _ _ := .ok ()
  urlError s := s
  transportError s := s
  quote s := s
  unmarshalList _ := .ok []

/-- An item in a folder, and a cluster with a sealed token. -/
def sampleState : State where
  db := { folders := [sampleFolder 2 1], items := [sampleItem 3 2 1] }
  clusters := [⟨Uuid.ofNat 4, "https://k8s.example.com:6443", .token,
    checkingAead.sealBlob sampleNonce (bytesOf "t")
      (makeAAD "k8s_clusters" (Uuid.ofNat 4).text "token_enc"), [], none, false, true⟩]
  bindings := []

/-- The state with the item bound to a namespace of the cluster. -/
def boundState (namespaceName : String) : State :=
  { sampleState with bindings := [⟨Uuid.ofNat 3, Uuid.ofNat 4, namespaceName⟩] }

def sampleClaims : Claims := ⟨Uuid.ofNat 1, [.admin]⟩

def sampleCluster : Cluster := fun _ _ => .error ""

theorem setBinding_sample {namespaceName : String} (hne : namespaceName ≠ "")
    (hnul : '\x00' ∉ namespaceName.toList) :
    setBinding sampleState 0 sampleClaims (Uuid.ofNat 3).text
      ⟨(Uuid.ofNat 4).text, namespaceName⟩ = .ok (boundState namespaceName) := by
  have hid : (Uuid.ofNat 4).text ≠ "" := by decide
  have hitem : (sampleState.db.item? (Uuid.ofNat 3)).isSome = true := by decide
  have hcluster : (sampleState.cluster? (Uuid.ofNat 4)).isSome = true := by decide
  simp only [setBinding, castUuid_text, Option.bind_some, State.upsertBinding, hitem, hcluster,
    hnul, not_false_eq_true, and_self, if_true, Reply.bind_eq_ok, Reply.require_eq_ok,
    Reply.orElse_eq_ok, Reply.unlessAdmin_eq_ok]
  exact ⟨(), .inl rfl, (), hid, (), hne, rfl⟩

def secretsURL : Url where
  scheme := "https".toList
  host := UrlText.encode "k8s.example.com:6443".toList
  path := UrlText.encode "/api/v1/namespaces/kube-system/secrets".toList
  fragment := UrlText.encode "/pods".toList

/-- A slash and a number sign turn a namespace into another resource kind of another
namespace. -/
theorem live_confined_fails :
    ∃ u, setBinding sampleState 0 sampleClaims (Uuid.ofNat 3).text
        ⟨(Uuid.ofNat 4).text, "kube-system/secrets#"⟩ = .ok (boundState "kube-system/secrets#") ∧
      (live sampleLibrary checkingAead sampleCluster (boundState "kube-system/secrets#") 0
        sampleClaims (Uuid.ofNat 3).text .pods).1 = some u ∧
      u.path = UrlText.encode "/api/v1/namespaces/kube-system/secrets".toList ∧
      ¬ ∃ c found server,
        prepare sampleLibrary checkingAead (boundState "kube-system/secrets#") 0 sampleClaims
          (Uuid.ofNat 3).text = .ok (c, found) ∧
        UrlText.parse c.cfg.serverURL.toList = some server ∧
        Confined server.path .pods "kube-system/secrets#" u := by
  refine ⟨secretsURL, ?_, ?_, rfl, ?_⟩
  · exact setBinding_sample (by decide) (by decide)
  · decide
  · rintro ⟨c, found, server, -, -, h⟩
    have hseg : UrlText.encode "kube-system/secrets#".toList ∈
        UrlText.segments secretsURL.path := by
      rw [h.path]
      simp [Resource.segments]
    exact absurd hseg (by decide)

theorem live_confined_pods :
    (∀ u, (live sampleLibrary checkingAead sampleCluster (boundState "default") 0 sampleClaims
          (Uuid.ofNat 3).text .pods).1 = some u →
        ∃ c found server, prepare sampleLibrary checkingAead (boundState "default") 0 sampleClaims
          (Uuid.ofNat 3).text = .ok (c, found) ∧
          UrlText.parse c.cfg.serverURL.toList = some server ∧
          Confined server.path .pods "default" u) ↔
      ∀ c found, prepare sampleLibrary checkingAead (boundState "default") 0 sampleClaims
          (Uuid.ofNat 3).text = .ok (c, found) →
        Refuses c.headers c.cfg.serverURL (Resource.pods.path "default") ∨
          Harmless c.cfg.serverURL "default" :=
  live_confined_iff (setBinding_sample (by decide) (by decide)) rfl fun _ _ => rfl

end IronStock.K8s

import IronStock.Database
import IronStock.HttpTransport
import IronStock.Lib.HostText

/-!
# The Kubernetes client

`internal/k8s`: a client is made from the configuration of a cluster, whose server URL
is checked, and asks for the resources of a namespace under paths that are formatted
with its name. X.509, YAML and base64 are parameters, and so are the texts of their
errors and of those of the URL parser.
-/
namespace IronStock.K8s

open UrlText (Url)

/-! ## Configuration -/

/-- `KubeconfigAuth`. -/
structure KubeconfigAuth where
  serverURL : String
  caCertPEM : Bytes
  clientCert : Bytes
  clientKey : Bytes
  token : String

/-- The CHECK of `auth_mode`. -/
inductive AuthMode
  | token
  | kubeconfig
deriving DecidableEq

structure Config where
  serverURL : String
  authMode : AuthMode
  bearerToken : Bytes
  kubeconfig : Option KubeconfigAuth
  caCertPEM : String
  skipTLSVerify : Bool

/-! ## Kubeconfig files -/

structure KubeconfigClusterInline where
  server : String := ""
  certificateAuthorityData : String := ""
  certificateAuthority : String := ""
  insecureSkipTLSVerify : Bool := false

structure KubeconfigCluster where
  name : String
  cluster : KubeconfigClusterInline

structure KubeconfigUserInline where
  clientCertificateData : String := ""
  clientKeyData : String := ""
  clientCertificate : String := ""
  clientKey : String := ""
  token : String := ""
  tokenFile : String := ""
  /-- whether there is a value of `exec` -/
  exec : Bool := false

structure KubeconfigUser where
  name : String
  user : KubeconfigUserInline

structure KubeconfigContextInline where
  cluster : String
  user : String

structure KubeconfigContext where
  name : String
  context : KubeconfigContextInline

structure KubeconfigFile where
  currentContext : String
  clusters : List KubeconfigCluster
  users : List KubeconfigUser
  contexts : List KubeconfigContext

structure Library where
  /-- `yaml.Unmarshal` -/
  unmarshalYAML : Bytes → Except String KubeconfigFile
  /-- `base64.StdEncoding.DecodeString` -/
  decodeBase64 : String → Except String Bytes
  /-- `CertPool.AppendCertsFromPEM` -/
  appendCertsFromPEM : Bytes → Bool
  /-- `tls.X509KeyPair` -/
  x509KeyPair : (cert key : Bytes) → Except String Unit
  /-- the text of the error of `url.Parse` -/
  urlError : String → String
  /-- the text of the error of a transport that refuses a URL -/
  transportError : String → String
  /-- `strconv.Quote` -/
  quote : String → String
  /-- `json.Unmarshal` into a list of resources, its items rendered -/
  unmarshalList : String → Except String (List String)

/-- An inline value, decoded if there is one. -/
def decodeData (lib : Library) (what data : String) : Except String Bytes :=
  if data = "" then .ok []
  else
    match lib.decodeBase64 data with
    | .error e => .error ("k8s: decode " ++ what ++ ": " ++ e)
    | .ok b => .ok b

/-- `ParseKubeconfig`. -/
def parseKubeconfig (lib : Library) (data : Bytes) : Except String KubeconfigAuth := do
  let kc ←
    match lib.unmarshalYAML data with
    | .error e => .error ("k8s: parse kubeconfig: " ++ e)
    | .ok kc => .ok kc
  if kc.currentContext = "" then .error "k8s: kubeconfig has no current-context"
  let context := kc.contexts.find? (·.name = kc.currentContext)
  let ctxCluster := (context.map (·.context.cluster)).getD ""
  let ctxUser := (context.map (·.context.user)).getD ""
  if ctxCluster = "" then
    .error ("k8s: context " ++ lib.quote kc.currentContext ++ " not found in kubeconfig")
  match kc.clusters.find? (·.name = ctxCluster) with
  | none => .error ("k8s: cluster " ++ lib.quote ctxCluster ++ " not found in kubeconfig")
  | some cluster =>
    let cluster := cluster.cluster
    if cluster.certificateAuthority ≠ "" then
      .error ("k8s: file-path certificate-authority not supported — " ++
        "use certificate-authority-data (base64)")
    match kc.users.find? (·.name = ctxUser) with
    | none => .error ("k8s: user " ++ lib.quote ctxUser ++ " not found in kubeconfig")
    | some user =>
      let user := user.user
      if user.exec = true then
        .error ("k8s: exec-based auth not supported — " ++
          "use ServiceAccount token or client certificate")
      if user.clientCertificate ≠ "" ∨ user.clientKey ≠ "" then
        .error ("k8s: file-path client-certificate/client-key not supported — " ++
          "use client-certificate-data/client-key-data (base64)")
      if user.tokenFile ≠ "" then .error "k8s: tokenFile not supported — use inline token"
      let caCertPEM ←
        decodeData lib "certificate-authority-data" cluster.certificateAuthorityData
      let clientCert ← decodeData lib "client-certificate-data" user.clientCertificateData
      let clientKey ← decodeData lib "client-key-data" user.clientKeyData
      pure ⟨cluster.server, caCertPEM, clientCert, clientKey, user.token⟩

/-! ## The check of a server URL -/

def errSSRF := "k8s: server URL resolves to a private or loopback address"

/-- What the check knows of a host: an address in its own notation, and three texts. -/
def isBlockedHost (host : List Char) : Bool :=
  (IpText.parseIP host).any HostText.isLocal || host = "localhost".toList ||
    host = "metadata.google.internal".toList || host = "169.254.169.254".toList

def validateServerURL (lib : Library) (serverURL : String) : Except String Unit :=
  match UrlText.parse serverURL.toList with
  | none => .error ("k8s: invalid server URL: " ++ lib.urlError serverURL)
  | some u =>
    if u.hostname = [] then .error "k8s: server URL has no host"
    else if isBlockedHost u.hostname then .error errSSRF
    else .ok ()

/-! ## Clients -/

structure Client where
  cfg : Config
  bearer : Bytes

/-- Certificates that are there can be read. -/
def checkPEM (lib : Library) (pem : Bytes) (e : String) : Except String Unit :=
  if pem ≠ [] ∧ lib.appendCertsFromPEM pem = false then .error e else .ok ()

/-- What a kubeconfig puts in the place of the settings of the cluster. -/
def applyKubeconfig (lib : Library) (cfg : Config) (kc : KubeconfigAuth) :
    Except String Client := do
  checkPEM lib kc.caCertPEM "k8s: failed to parse kubeconfig CA certificate PEM"
  if kc.clientCert ≠ [] ∧ kc.clientKey ≠ [] then
    match lib.x509KeyPair kc.clientCert kc.clientKey with
    | .error e => .error ("k8s: failed to parse client cert/key: " ++ e)
    | .ok _ => .ok ()
  let bearer := if kc.token ≠ "" then bytesOf kc.token else cfg.bearerToken
  if kc.serverURL = "" then pure ⟨cfg, bearer⟩
  else
    validateServerURL lib kc.serverURL
    pure ⟨{ cfg with serverURL := kc.serverURL }, bearer⟩

/-- `New`. -/
def newClient (lib : Library) (cfg : Config) : Except String Client := do
  validateServerURL lib cfg.serverURL
  checkPEM lib (bytesOf cfg.caCertPEM) "k8s: failed to parse CA certificate PEM"
  match cfg.authMode, cfg.kubeconfig with
  | .kubeconfig, some kc => applyKubeconfig lib cfg kc
  | _, _ => pure ⟨cfg, cfg.bearerToken⟩

/-! ## Requests -/

/-- The values of the headers. -/
def Client.headers (c : Client) : List Bytes :=
  if c.bearer = [] then [bytesOf "application/json"]
  else [bytesOf "application/json", bytesOf "Bearer " ++ c.bearer]

/-- The URL that `doRequest` asks for. -/
def Client.request (c : Client) (path : String) : Option Url :=
  sendURL c.headers (c.cfg.serverURL ++ path)

/-- The answer of the cluster: a status and a body. -/
abbrev Cluster := Url → (bearer : Bytes) → Except String (Nat × String)

inductive RequestError
  | notFound
  | forbidden
  | metricsUnavailable
  | other (text : String)
deriving DecidableEq

/-- The characters of the first bytes of a text. A character that is cut shows as one
replacement character for each byte. -/
def cutBytes : (n : Nat) → List Char → List Char
  | _, [] => []
  | n, c :: s =>
    if c.utf8Size ≤ n then c :: cutBytes (n - c.utf8Size) s else List.replicate n '\uFFFD'

def truncate (s : String) (n : Nat) : String :=
  if s.utf8ByteSize ≤ n then s else String.ofList (cutBytes n s.toList) ++ "…"

def Client.doRequest (lib : Library) (cluster : Cluster) (c : Client) (path : String) :
    Except RequestError (List String) :=
  let url := c.cfg.serverURL ++ path
  if (UrlText.parse url.toList).isNone then
    .error (.other ("k8s: build request: " ++ lib.urlError url))
  else
    match c.request path with
    | none => .error (.other ("k8s: request failed: " ++ lib.transportError url))
    | some u =>
      match cluster u c.bearer with
      | .error e => .error (.other ("k8s: request failed: " ++ e))
      | .ok (status, body) =>
        if status = 200 then
          match lib.unmarshalList body with
          | .error e => .error (.other ("k8s: decode response: " ++ e))
          | .ok items => .ok items
        else if status = 404 then .error .notFound
        else if status = 403 ∨ status = 401 then .error .forbidden
        else if status = 503 then
          if path ≠ "" then .error .metricsUnavailable
          else .error (.other ("k8s: server returned " ++ toString status))
        else .error (.other
          ("k8s: server returned " ++ toString status ++ ": " ++ truncate body 256))

inductive Resource
  | pods
  | deployments
  | services
  | events
  | metrics
deriving DecidableEq

/-- The paths of `ListPods`, `ListDeployments`, `ListServices`, `ListEvents` and
`ListPodMetrics`. -/
def Resource.path (kind : Resource) (namespaceName : String) : String :=
  match kind with
  | .pods => "/api/v1/namespaces/" ++ namespaceName ++ "/pods"
  | .deployments => "/apis/apps/v1/namespaces/" ++ namespaceName ++ "/deployments"
  | .services => "/api/v1/namespaces/" ++ namespaceName ++ "/services"
  | .events => "/api/v1/namespaces/" ++ namespaceName ++ "/events"
  | .metrics => "/apis/metrics.k8s.io/v1beta1/namespaces/" ++ namespaceName ++ "/pods"

/-- The list calls: no metrics is no metrics server. -/
def Client.list (lib : Library) (cluster : Cluster) (c : Client) (kind : Resource)
    (namespaceName : String) : Except RequestError (List String) :=
  match c.doRequest lib cluster (kind.path namespaceName) with
  | .error .notFound => .error (if kind = .metrics then .metricsUnavailable else .notFound)
  | r => r

/-! ## What is accepted -/

variable {lib : Library} {cfg : Config} {c : Client}

theorem validateServerURL_eq_ok {serverURL : String} {e : Unit} :
    validateServerURL lib serverURL = .ok e ↔
      ∃ u, UrlText.parse serverURL.toList = some u ∧ u.hostname ≠ [] ∧
        isBlockedHost u.hostname = false := by
  unfold validateServerURL
  cases UrlText.parse serverURL.toList with
  | none => simp
  | some u =>
    by_cases hhost : u.hostname = []
    · simp [hhost]
    · cases hblocked : isBlockedHost u.hostname <;> simp [hhost, hblocked]

theorem bind_eq_ok {ε α β : Type} {x : Except ε α} {f : α → Except ε β} {b : β} :
    (x >>= f) = .ok b ↔ ∃ a, x = .ok a ∧ f a = .ok b := by
  cases x <;> simp [bind, Except.bind]

/-- A server URL of a kubeconfig takes the place of the one of the cluster. -/
theorem applyKubeconfig_cases {kc : KubeconfigAuth} (h : applyKubeconfig lib cfg kc = .ok c) :
    (kc.serverURL = "" ∧ c.cfg.serverURL = cfg.serverURL) ∨
      (kc.serverURL ≠ "" ∧ c.cfg.serverURL = kc.serverURL ∧
        validateServerURL lib kc.serverURL = .ok ()) := by
  simp only [applyKubeconfig, bind_eq_ok] at h
  obtain ⟨_, _, h⟩ := h
  have hserver : ∀ bearer, (if kc.serverURL = "" then pure ⟨cfg, bearer⟩
      else do
        validateServerURL lib kc.serverURL
        pure ⟨{ cfg with serverURL := kc.serverURL }, bearer⟩) = Except.ok c →
      (kc.serverURL = "" ∧ c.cfg.serverURL = cfg.serverURL) ∨
        (kc.serverURL ≠ "" ∧ c.cfg.serverURL = kc.serverURL ∧
          validateServerURL lib kc.serverURL = .ok ()) := by
    intro bearer hc
    split at hc
    · next hempty =>
      cases hc
      exact .inl ⟨hempty, rfl⟩
    · next hempty =>
      obtain ⟨_, hvalid, hc⟩ := bind_eq_ok.mp hc
      cases hc
      exact .inr ⟨hempty, rfl, hvalid⟩
  split at h
  · split at h
    · cases h
    · exact hserver _ h
  · exact hserver _ h

/-- The server URL that a configuration comes to. -/
def Config.chosenURL (cfg : Config) : String :=
  match cfg.authMode, cfg.kubeconfig with
  | .kubeconfig, some kc => if kc.serverURL = "" then cfg.serverURL else kc.serverURL
  | _, _ => cfg.serverURL

/-- Whichever server URL a client ends up with, it passed the check. -/
theorem newClient_serverURL (h : newClient lib cfg = .ok c) :
    c.cfg.serverURL = cfg.chosenURL ∧ validateServerURL lib c.cfg.serverURL = .ok () := by
  obtain ⟨_, hcfg, h⟩ := bind_eq_ok.mp h
  obtain ⟨_, _, h⟩ := bind_eq_ok.mp h
  unfold Config.chosenURL
  cases hmode : cfg.authMode with
  | token =>
    rw [hmode] at h
    cases h
    exact ⟨rfl, hcfg⟩
  | kubeconfig =>
    cases hkc : cfg.kubeconfig with
    | none =>
      rw [hmode, hkc] at h
      cases h
      exact ⟨rfl, hcfg⟩
    | some kc =>
      rw [hmode, hkc] at h
      obtain ⟨hempty, heq⟩ | ⟨hne, heq, hvalid⟩ := applyKubeconfig_cases h
      · exact ⟨by simp [heq, hempty], heq ▸ hcfg⟩
      · exact ⟨by simp [heq, hne], heq ▸ hvalid⟩

/-- A server URL that was accepted leads to a host. -/
theorem exists_host (h : validateServerURL lib c.cfg.serverURL = .ok ()) :
    ∃ server, UrlText.parse c.cfg.serverURL.toList = some server ∧
      removeEmptyPort server.host ≠ [] ∧ isBlockedHost server.hostname = false := by
  obtain ⟨server, hparse, hhost, hblocked⟩ := validateServerURL_eq_ok.mp h
  refine ⟨server, hparse, ?_, hblocked⟩
  intro hnil
  unfold removeEmptyPort at hnil
  split at hnil
  · next hlast =>
    have hcolon : server.host = [58] := by
      rw [← List.dropLast_append_getLast? _ hlast, hnil]
      rfl
    exact hhost (by rw [Url.hostname, hcolon]; rfl)
  · exact hhost (by rw [Url.hostname, hnil]; rfl)

theorem hostIn_of_checked (h : validateServerURL lib c.cfg.serverURL = .ok ()) (t : List Char) :
    HostIn c.cfg.serverURL.toList t := by
  obtain ⟨server, hserver, hport, -⟩ := exists_host h
  intro _ _ _ _
  refine ⟨server, hserver, fun hnil => ?_⟩
  rw [hnil] at hport
  exact hport rfl

end IronStock.K8s

import IronStock.K8sProxy

/-!
# The guard of server URLs

A client does not talk to the host it runs on, to its links or to the metadata server of
a cloud. The check of the server URL reads a host the way the URL is written, and the
connection reads it the way a resolver does.
-/
namespace IronStock.K8s

open UrlText (Url)
open HostText (isLocal aton stripDot)

/-! ## The host of a connection -/

/-- `idnaASCII`: what is ASCII stays as it is, and what `idna.Lookup.ToASCII` does not
map stays too. -/
def idnaASCII (toASCII : List Char → Option (List Char)) (host : List Char) : List Char :=
  if host.all fun c => c.toNat < 0x80 then host else (toASCII host).getD host

/-- The host that the transport dials for a URL. -/
def dialHost (toASCII : List Char → Option (List Char)) (u : Url) : List Char :=
  idnaASCII toASCII u.hostname

/-- The names that are out of bounds. -/
def guardedNames : List (List Char) := ["localhost".toList, "metadata.google.internal".toList]

/-- A resolver reads the host as a guarded name or as a local address. -/
def ReachesLocal (host : List Char) : Prop :=
  HostText.name host ∈ guardedNames ∨ (HostText.address host).any isLocal = true

/-! ## What the check misses -/

/-- A guarded name in other letters or with a dot at its end. -/
def RespelledName (host : List Char) : Prop :=
  host ∉ guardedNames ∧ HostText.name host ∈ guardedNames

/-- A local address with a zone. -/
def ZonedAddress (host : List Char) : Prop :=
  ':' ∈ host ∧ '%' ∈ host ∧ (IpText.parseIPv6 (host.takeWhile (· ≠ '%'))).any isLocal = true

/-- A local address of four bytes that is not dotted decimal of four fields. -/
def LooseAddress (host : List Char) : Prop :=
  ':' ∉ host ∧ IpText.parseIPv4 host = none ∧
    ((aton (stripDot host)).map IpText.ofV4).any isLocal = true

/-- A host that is not ASCII and stands for one that the check would have caught. -/
def MappedName (toASCII : List Char → Option (List Char)) (host : List Char) : Prop :=
  idnaASCII toASCII host ≠ host ∧ isBlockedHost (idnaASCII toASCII host) = true

/-- The hosts that are out of bounds and that the check does not know. -/
def Missed (toASCII : List Char → Option (List Char)) (host : List Char) : Prop :=
  MappedName toASCII host ∨ RespelledName (idnaASCII toASCII host) ∨
    ZonedAddress (idnaASCII toASCII host) ∨ LooseAddress (idnaASCII toASCII host)

section Host

variable {host : List Char}

/-- What the check blocks is out of bounds. -/
theorem reachesLocal_of_blocked (h : isBlockedHost host = true) : ReachesLocal host := by
  simp only [isBlockedHost, Bool.or_eq_true, decide_eq_true_eq] at h
  rcases h with ((hip | rfl) | rfl) | rfl
  · obtain ⟨a, ha, hlocal⟩ := (Option.any_eq_true _ _).mp hip
    right
    rw [HostText.address_of_parseIP ha]
    exact hlocal
  · left
    decide
  · left
    decide
  · right
    decide

theorem blocked_of_parseIP {a : IpText.Address} (h : IpText.parseIP host = some a)
    (hlocal : isLocal a = true) : isBlockedHost host = true := by
  simp [isBlockedHost, h, hlocal]

theorem blocked_of_mem (h : host ∈ guardedNames) : isBlockedHost host = true := by
  simp only [guardedNames, List.mem_cons, List.not_mem_nil, or_false] at h
  rcases h with rfl | rfl <;> decide

/-- An address that the check lets through has a zone or is loose. -/
theorem local_address_iff (h : isBlockedHost host = false) :
    (HostText.address host).any isLocal = true ↔ ZonedAddress host ∨ LooseAddress host := by
  have hopen : ∀ {a}, IpText.parseIP host = some a → isLocal a = true → False := by
    intro a ha hlocal
    rw [blocked_of_parseIP ha hlocal] at h
    cases h
  constructor
  · intro haddr
    by_cases hcolon : ':' ∈ host
    · rw [HostText.address, if_pos hcolon] at haddr
      by_cases hzone : '%' ∈ host
      · exact .inl ⟨hcolon, hzone, haddr⟩
      · have hwhole : host.takeWhile (· ≠ '%') = host :=
          congrArg Prod.fst (UrlText.cut_of_not_mem hzone)
        rw [hwhole] at haddr
        obtain ⟨a, ha, hlocal⟩ := (Option.any_eq_true _ _).mp haddr
        exact (hopen (HostText.parseIP_of_parseIPv6 ha) hlocal).elim
    · rw [HostText.address, if_neg hcolon] at haddr
      cases hv4 : IpText.parseIPv4 host with
      | none => exact .inr ⟨hcolon, hv4, haddr⟩
      | some w =>
        rw [HostText.stripDot_of_parseIPv4 hv4, HostText.aton_of_parseIPv4 hv4] at haddr
        exact (hopen (HostText.parseIP_of_parseIPv4 hv4) haddr).elim
  · rintro (⟨hcolon, _, haddr⟩ | ⟨hcolon, _, haddr⟩)
    · rw [HostText.address, if_pos hcolon]
      exact haddr
    · rw [HostText.address, if_neg hcolon]
      exact haddr

theorem reachesLocal_iff (h : isBlockedHost host = false) :
    ReachesLocal host ↔ RespelledName host ∨ ZonedAddress host ∨ LooseAddress host := by
  have hname : HostText.name host ∈ guardedNames ↔ RespelledName host := by
    refine ⟨fun hmem => ⟨fun hexact => ?_, hmem⟩, fun hname => hname.2⟩
    rw [blocked_of_mem hexact] at h
    cases h
  rw [ReachesLocal, hname, local_address_iff h]

/-- The hosts that get past the check and are out of bounds are the four kinds. -/
theorem accepted_reachesLocal_iff (toASCII : List Char → Option (List Char))
    (h : isBlockedHost host = false) :
    ReachesLocal (idnaASCII toASCII host) ↔ Missed toASCII host := by
  cases hdial : isBlockedHost (idnaASCII toASCII host) with
  | true =>
    have hne : idnaASCII toASCII host ≠ host := by
      intro heq
      rw [heq, h] at hdial
      cases hdial
    exact ⟨fun _ => .inl ⟨hne, hdial⟩, fun _ => reachesLocal_of_blocked hdial⟩
  | false =>
    have hmapped : ¬ MappedName toASCII host := by
      rintro ⟨_, hblocked⟩
      rw [hdial] at hblocked
      cases hblocked
    rw [reachesLocal_iff hdial, Missed, or_iff_right hmapped]

end Host

/-! ## Connections -/

/-- `GetServerVersion` asks for this path. -/
def versionPath : String := "/version"

/-- The paths the client asks for. -/
def IsRequestPath (path : String) : Prop :=
  path = versionPath ∨ ∃ (kind : Resource) (namespaceName : String), path = kind.path namespaceName

/-- Every connection of every client, whether its server URL comes from the settings of the
cluster or from a kubeconfig. -/
theorem connection_guarded_iff {lib : Library} {cfg : Config} {c : Client} {path : String}
    {u : Url} (toASCII : List Char → Option (List Char)) (h : newClient lib cfg = .ok c)
    (hpath : IsRequestPath path) (hu : c.request path = some u) :
    ¬ ReachesLocal (dialHost toASCII u) ↔
      ∀ server, UrlText.parse cfg.chosenURL.toList = some server →
        ¬ Missed toASCII server.hostname := by
  obtain ⟨hchosen, hvalid⟩ := newClient_serverURL h
  obtain ⟨server, hserver, hport, hblocked⟩ := exists_host hvalid
  have hhost : server.host ≠ [] := fun hnil => hport (by rw [hnil]; rfl)
  obtain ⟨t, ht⟩ : ∃ t, path.toList = '/' :: t := by
    obtain rfl | ⟨kind, namespaceName, rfl⟩ := hpath
    · exact ⟨"version".toList, by decide⟩
    · exact ⟨_, kind.path_toList namespaceName⟩
  obtain ⟨_, _, _, hparse, _⟩ := (sendURL_eq_some (hostIn_of_checked hvalid t) ht).mp hu
  have hname : u.hostname = server.hostname := by
    rw [Url.hostname, (UrlText.host_of_parse_append hserver hhost hparse).2, ← Url.hostname]
  rw [dialHost, hname, accepted_reachesLocal_iff toASCII hblocked, ← hchosen, hserver]
  constructor
  · rintro hmissed server' heq
    cases heq
    exact hmissed
  · exact fun hmissed => hmissed server rfl

/-! ## Concrete hosts -/

/-- The configuration of a cluster at this URL. -/
def sampleConfig (serverURL : String) : Config := ⟨serverURL, .token, bytesOf "t", none, "", false⟩

def sampleURL (host : String) : Url where
  scheme := "https".toList
  host := UrlText.encode host.toList
  path := UrlText.encode "/version".toList

/-- Capital letters are enough to reach the server's own host. -/
theorem connection_unguarded :
    newClient sampleLibrary (sampleConfig "https://LOCALHOST:6443") =
        .ok ⟨sampleConfig "https://LOCALHOST:6443", bytesOf "t"⟩ ∧
      Client.request ⟨sampleConfig "https://LOCALHOST:6443", bytesOf "t"⟩ versionPath =
        some (sampleURL "LOCALHOST:6443") ∧
      ReachesLocal (dialHost (fun _ => none) (sampleURL "LOCALHOST:6443")) := by
  refine ⟨?_, by decide, .inl (by decide)⟩
  have hvalid : validateServerURL sampleLibrary "https://LOCALHOST:6443" = .ok () :=
    validateServerURL_eq_ok.mpr
      ⟨{ sampleURL "LOCALHOST:6443" with path := [] }, by decide, by decide,
        by decide⟩
  rw [newClient, sampleConfig, hvalid]
  rfl

theorem connection_guarded_example :
    ¬ ReachesLocal (dialHost (fun _ => none) (sampleURL "k8s.example.com")) ↔
      ∀ server, UrlText.parse (sampleConfig "https://k8s.example.com").chosenURL.toList =
        some server → ¬ Missed (fun _ => none) server.hostname := by
  have hvalid : validateServerURL sampleLibrary "https://k8s.example.com" = .ok () :=
    validateServerURL_eq_ok.mpr
      ⟨{ sampleURL "k8s.example.com" with path := [] }, by decide, by decide,
        by decide⟩
  have hclient : newClient sampleLibrary (sampleConfig "https://k8s.example.com") =
      .ok ⟨sampleConfig "https://k8s.example.com", bytesOf "t"⟩ := by
    rw [newClient, sampleConfig, hvalid]
    rfl
  exact connection_guarded_iff (fun _ => none) hclient (.inl rfl) (by decide)

end IronStock.K8s

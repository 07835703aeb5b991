import IronStock.FrontDoors
import IronStock.Lib.Decimals
import IronStock.Lib.IpText

/-!
# The address a request comes from

`clientIP` of `middleware_ratelimit.go` takes the text after the last colon for a
port. Its result is the key of the rate limiters, and at sign-in `CheckIP` of
`geoip/check.go` compares it with the ranges of the account.
-/
namespace IronStock

open IpText

/-- `strings.LastIndex` of one character, nothing for -1. -/
def lastIndex (c : Char) : List Char → Option Nat
  | [] => none
  | a :: s =>
    match lastIndex c s with
    | some i => some (i + 1)
    | none => if a = c then some 0 else none

def clientIP (remoteAddr : String) : String :=
  let host := match lastIndex ':' remoteAddr.toList with
    | some i => if 0 < i then String.ofList (remoteAddr.toList.take i) else remoteAddr
    | none => remoteAddr
  if host = "" then "unknown" else host

/-! ## The ranges of an account -/

def isIPv6 (s : String) : Bool := s.toList.contains ':'

/-- The ranges as package `net` reads them. -/
def netLibrary (isTorExit : String → Bool) (country : String → String)
    (equalFold : String → String → Bool) : GeoLibrary where
  inRange cidr clientIP :=
    (parseCIDR cidr.toList).map (·.contains (parseIP clientIP.toList))
  isTorExit
  country
  equalFold

/-- A range of the account has the address. -/
def inRanges (a : Address) (cidrs : List String) : Bool :=
  cidrs.any fun cidr =>
    trimSpace cidr ≠ "" &&
      (parseCIDR (normaliseCIDR (trimSpace cidr)).toList).any (·.contains (some a))

/-! ## Remote addresses -/

/-- A text that `net.ParseIP` reads. -/
structure Host where
  text : String
  parses : (parseIP text.toList).isSome = true

def Host.address (h : Host) : Address := (parseIP h.text.toList).get h.parses

/-- What a request has in `RemoteAddr`: the peer of the connection as the server
writes it, or the header that `RealIP` puts in its place as it came. A peer of the
link has its zone in the brackets. -/
inductive RemoteAddr
  | hostPort (host : Host) (v4 : isIPv6 host.text = false) (port : Fin 65536)
  | bracketed (host : Host) (v6 : isIPv6 host.text = true) (zone : String) (port : Fin 65536)
  | bare (host : Host)

namespace RemoteAddr

def host : RemoteAddr → Host
  | hostPort host _ _ => host
  | bracketed host _ _ _ => host
  | bare host => host

def portText (port : Fin 65536) : List Char := Decimals.zeropad 1 port

def text : RemoteAddr → String
  | hostPort host _ port => String.ofList (host.text.toList ++ ':' :: portText port)
  | bracketed host _ zone port =>
    String.ofList (('[' :: (host.text.toList ++ zone.toList ++ [']'])) ++ ':' :: portText port)
  | bare host => host.text

/-- The key of the request is its address in full, is read as that address, has
the ranges compared with it, and is the key of no other address. -/
structure Exact (r : RemoteAddr) : Prop where
  full : clientIP r.text = r.host.text
  read : parseIP (clientIP r.text).toList = some r.host.address
  checked (isTorExit : String → Bool) (country : String → String)
    (equalFold : String → String → Bool) (cidrs : List String) :
    (netLibrary isTorExit country equalFold).inAnyRange (clientIP r.text) cidrs =
      inRanges r.host.address cidrs
  alone (r' : RemoteAddr) :
    r'.host.address ≠ r.host.address → clientIP r'.text ≠ clientIP r.text

end RemoteAddr

/-! ## The last colon -/

theorem lastIndex_eq_none {c : Char} {s : List Char} (h : c ∉ s) : lastIndex c s = none := by
  induction s with
  | nil => rfl
  | cons a s ih =>
    rw [List.mem_cons, not_or] at h
    rw [lastIndex, ih h.2]
    exact if_neg fun heq => h.1 heq.symm

theorem lastIndex_append {c : Char} (s : List Char) {t : List Char} (h : c ∉ t) :
    lastIndex c (s ++ c :: t) = some s.length := by
  induction s with
  | nil =>
    rw [List.nil_append, lastIndex, lastIndex_eq_none h]
    exact if_pos rfl
  | cons a s ih => rw [List.cons_append, lastIndex, ih, List.length_cons]

theorem exists_last_split {c : Char} {s : List Char} (h : c ∈ s) :
    ∃ p t, s = p ++ c :: t ∧ c ∉ t := by
  induction s with
  | nil => exact absurd h List.not_mem_nil
  | cons a s ih =>
    by_cases hs : c ∈ s
    · obtain ⟨p, t, rfl, ht⟩ := ih hs
      exact ⟨a :: p, t, rfl, ht⟩
    · obtain rfl : c = a := by
        rw [List.mem_cons] at h
        exact h.resolve_right hs
      exact ⟨[], s, rfl, hs⟩

theorem clientIP_of_no_colon {s : String} (hcolon : ':' ∉ s.toList) (hne : s ≠ "") :
    clientIP s = s := by
  simp only [clientIP, lastIndex_eq_none hcolon]
  exact if_neg hne

/-- What is before the last colon stays. -/
theorem clientIP_cut {p t : List Char} (hp : p ≠ []) (ht : ':' ∉ t) :
    clientIP (String.ofList (p ++ ':' :: t)) = String.ofList p := by
  have hlen : 0 < p.length := List.length_pos_iff.mpr hp
  have hne : String.ofList p ≠ "" := by
    intro heq
    have hnil := congrArg String.toList heq
    rw [String.toList_ofList] at hnil
    exact hp hnil
  simp only [clientIP, String.toList_ofList, lastIndex_append p ht, if_pos hlen,
    List.take_left]
  exact if_neg hne

theorem colon_not_mem_portText (port : Fin 65536) : ':' ∉ RemoteAddr.portText port :=
  fun h => absurd (Decimals.isDigit_of_mem_digits h) (by decide)

/-! ## The four shapes -/

namespace Host
variable (h : Host)

theorem parseIP_text : parseIP h.text.toList = some h.address :=
  (Option.some_get h.parses).symm

theorem ne_empty : h.text ≠ "" := by
  intro hempty
  have hparses := h.parses
  rw [hempty] at hparses
  exact absurd hparses (by decide)

theorem toList_ne_nil : h.text.toList ≠ [] := fun hnil => h.ne_empty (String.toList_eq_nil_iff.mp hnil)

variable {h}

theorem colon_mem (h6 : isIPv6 h.text = true) : ':' ∈ h.text.toList := List.contains_iff_mem.mp h6

theorem colon_not_mem (h4 : isIPv6 h.text = false) : ':' ∉ h.text.toList := fun hmem =>
  absurd (List.contains_iff_mem.mpr hmem) (ne_true_of_eq_false h4)

theorem two_le_colons (h6 : isIPv6 h.text = true) : 2 ≤ h.text.toList.count ':' := by
  obtain ⟨a, ha, -⟩ := Option.map_eq_some_iff.mp h.parseIP_text
  exact two_le_colons_of_parseAddr ha (colon_mem h6)

/-- The colons around the last group of a text. -/
theorem last_group (h6 : isIPv6 h.text = true) :
    ∃ p t, h.text.toList = p ++ ':' :: t ∧ ':' ∉ t ∧ ':' ∈ p := by
  obtain ⟨p, t, hsplit, ht⟩ := exists_last_split (colon_mem h6)
  have hcount := two_le_colons h6
  rw [hsplit, List.count_append, List.count_cons_self, List.count_eq_zero.mpr ht] at hcount
  exact ⟨p, t, hsplit, ht, List.count_pos_iff.mp (by omega)⟩

end Host

theorem clientIP_hostPort (host : Host) (h4 : isIPv6 host.text = false) (port : Fin 65536) :
    clientIP (RemoteAddr.hostPort host h4 port).text = host.text := by
  rw [RemoteAddr.text, clientIP_cut host.toList_ne_nil (colon_not_mem_portText port),
    String.ofList_toList]

/-- The brackets stay. -/
theorem clientIP_bracketed (host : Host) (h6 : isIPv6 host.text = true) (zone : String)
    (port : Fin 65536) :
    clientIP (RemoteAddr.bracketed host h6 zone port).text =
      String.ofList ('[' :: (host.text.toList ++ zone.toList ++ [']'])) :=
  clientIP_cut (List.cons_ne_nil _ _) (colon_not_mem_portText port)

/-- The last group of an address without a port is lost. -/
theorem clientIP_bare_v6 (host : Host) (h6 : isIPv6 host.text = true) :
    ∃ p t, host.text.toList = p ++ ':' :: t ∧ ':' ∉ t ∧ ':' ∈ p ∧
      clientIP (RemoteAddr.bare host).text = String.ofList p := by
  obtain ⟨p, t, hsplit, ht, hp⟩ := Host.last_group h6
  refine ⟨p, t, hsplit, ht, hp, ?_⟩
  have htext : host.text = String.ofList (p ++ ':' :: t) := by rw [← hsplit, String.ofList_toList]
  rw [RemoteAddr.text, htext]
  exact clientIP_cut (List.ne_nil_of_mem hp) ht

namespace RemoteAddr
variable {r : RemoteAddr}

theorem clientIP_v4 (h4 : isIPv6 r.host.text = false) : clientIP r.text = r.host.text := by
  cases r with
  | hostPort host hv4 port => exact clientIP_hostPort host hv4 port
  | bracketed host hv6 zone port => exact absurd (hv6.symm.trans h4) (by decide)
  | bare host => exact clientIP_of_no_colon (Host.colon_not_mem h4) host.ne_empty

/-- A group of the address is in the key, with its colon. -/
theorem colon_mem_clientIP (h6 : isIPv6 r.host.text = true) : ':' ∈ (clientIP r.text).toList := by
  cases r with
  | hostPort host hv4 port => exact absurd (hv4.symm.trans h6) (by decide)
  | bracketed host hv6 zone port =>
    rw [clientIP_bracketed, String.toList_ofList]
    have hmem := Host.colon_mem hv6
    simp [hmem]
  | bare host =>
    obtain ⟨p, t, -, -, hp, hkey⟩ := clientIP_bare_v6 host h6
    rw [hkey, String.toList_ofList]
    exact hp

theorem clientIP_v6_ne (h6 : isIPv6 r.host.text = true) : clientIP r.text ≠ r.host.text := by
  intro heq
  have hlen := congrArg (fun s => s.toList.length) heq
  cases r with
  | hostPort host hv4 port => exact absurd (hv4.symm.trans h6) (by decide)
  | bracketed host hv6 zone port =>
    simp only [clientIP_bracketed, String.toList_ofList, RemoteAddr.host, List.length_cons,
      List.length_append] at hlen
    omega
  | bare host =>
    obtain ⟨p, t, hsplit, -, -, hkey⟩ := clientIP_bare_v6 host h6
    simp only [hkey, String.toList_ofList, RemoteAddr.host, hsplit, List.length_append,
      List.length_cons] at hlen
    omega

end RemoteAddr

theorem inAnyRange_of_parseIP {a : Address} {ip : String} (h : parseIP ip.toList = some a)
    (isTorExit : String → Bool) (country : String → String) (equalFold : String → String → Bool)
    (cidrs : List String) :
    (netLibrary isTorExit country equalFold).inAnyRange ip cidrs = inRanges a cidrs := by
  rw [GeoLibrary.inAnyRange, inRanges]
  apply congrArg (cidrs.any ·)
  funext cidr
  cases hparse : parseCIDR (normaliseCIDR (trimSpace cidr)).toList <;>
    simp [netLibrary, h, hparse]

theorem Host.address_eq_of_text {h h' : Host} (htext : h.text = h'.text) : h.address = h'.address := by
  have hread := h.parseIP_text
  rw [htext, h'.parseIP_text] at hread
  exact (Option.some.inj hread).symm

/-- The keys are exact for the requests of the four-byte addresses, with a port
or without. -/
theorem clientIP_exact_iff (r : RemoteAddr) : r.Exact ↔ isIPv6 r.host.text = false := by
  constructor
  · intro hexact
    by_contra h6
    exact RemoteAddr.clientIP_v6_ne (Bool.not_eq_false _ ▸ h6) hexact.full
  · intro h4
    have hkey := RemoteAddr.clientIP_v4 h4
    constructor
    · exact hkey
    · rw [hkey]
      exact r.host.parseIP_text
    · rw [hkey]
      exact inAnyRange_of_parseIP r.host.parseIP_text
    · intro r' hne heq
      rw [hkey] at heq
      cases h6 : isIPv6 r'.host.text with
      | false =>
        rw [RemoteAddr.clientIP_v4 h6] at heq
        exact hne (Host.address_eq_of_text heq)
      | true =>
        have hcolon := RemoteAddr.colon_mem_clientIP h6
        rw [heq] at hcolon
        exact Host.colon_not_mem h4 hcolon

/-! ## What the other callers get -/

/-- The ranges of an account deny a caller whose key has brackets, all of them. -/
theorem checkIP_bracketed (isTorExit : String → Bool) (country : String → String)
    (equalFold : String → String → Bool) (host : Host) (h6 : isIPv6 host.text = true)
    (zone : String) (port : Fin 65536) (user : User) (hranges : user.allowedIPCIDRs ≠ []) :
    checkIP (netLibrary isTorExit country equalFold)
      (clientIP (RemoteAddr.bracketed host h6 zone port).text) user = some "ip_denied" := by
  have hcontains (n : Network) : n.contains none = false := by cases n <;> rfl
  have hnone : (netLibrary isTorExit country equalFold).inAnyRange
      (clientIP (RemoteAddr.bracketed host h6 zone port).text) user.allowedIPCIDRs = false := by
    rw [clientIP_bracketed, GeoLibrary.inAnyRange, List.any_eq_false]
    intro cidr _
    cases hparse : parseCIDR (normaliseCIDR (trimSpace cidr)).toList <;>
      simp [netLibrary, parseIP_bracket, hparse, hcontains]
  exact if_pos ⟨hranges, hnone⟩

/-- Callers without a port share a key when their addresses differ in the last group only. -/
theorem clientIP_bare_eq {host host' : Host} {p t t' : List Char} (hp : p ≠ []) (ht : ':' ∉ t)
    (ht' : ':' ∉ t') (htext : host.text = String.ofList (p ++ ':' :: t))
    (htext' : host'.text = String.ofList (p ++ ':' :: t')) :
    clientIP (RemoteAddr.bare host).text = clientIP (RemoteAddr.bare host').text := by
  rw [RemoteAddr.text, RemoteAddr.text, htext, htext', clientIP_cut hp ht, clientIP_cut hp ht']

/-- Two neighbours that `RealIP` writes without a port, and a peer in brackets. -/
theorem clientIP_collides : ∃ r r' b : RemoteAddr,
    r.text = "2001:db8::1" ∧ r'.text = "2001:db8::2" ∧ b.text = "[2001:db8::1]:443" ∧
      r.host.address ≠ r'.host.address ∧ clientIP r.text = clientIP r'.text ∧
      parseIP (clientIP r.text).toList = none ∧ parseIP (clientIP b.text).toList = none := by
  refine ⟨.bare ⟨"2001:db8::1", by decide⟩, .bare ⟨"2001:db8::2", by decide⟩,
    .bracketed ⟨"2001:db8::1", by decide⟩ (by decide) "" 443, rfl, rfl, ?_⟩
  decide

end IronStock

import IronStock.Crypto
import IronStock.Lib.UrlText

/-!
# Requests that go out

`net/http` from the text of a URL to the request on the wire: a request is not built if
the text is not a URL, and the transport refuses by itself a header that is none, a
scheme it does not know, and a URL without a host.
-/
namespace IronStock

open UrlText (Url)

/-- `httpguts.ValidHeaderFieldValue`: no control character but a tab. -/
def validHeaderFieldValue (v : Bytes) : Bool :=
  v.all fun b => b = 9 || (0x20 ≤ b.toNat && b ≠ 0x7f)

def removeEmptyPort (host : Bytes) : Bytes :=
  if host.getLast? = some 58 then host.dropLast else host

def isHTTP (scheme : List Char) : Bool := scheme = "http".toList || scheme = "https".toList

/-- The URL that a request with these header values is sent to. -/
def sendURL (headers : List Bytes) (text : String) : Option Url := do
  let u ← UrlText.parse text.toList
  if headers.all validHeaderFieldValue && isHTTP u.scheme && removeEmptyPort u.host ≠ [] then
    some u
  else none

/-- No request goes out for a path behind this text: a header is none, the text is not
the URL of a host that is asked over HTTP, or the path is not read behind it. -/
def Refuses (headers : List Bytes) (base path : String) : Prop :=
  headers.all validHeaderFieldValue = false ∨
    (∀ server, UrlText.parse base.toList = some server → removeEmptyPort server.host ≠ [] →
      isHTTP server.scheme = false) ∨
    UrlText.follows base.toList path.toList = false

/-- The host of a URL that starts with this text is in the text. -/
def HostIn (base : List Char) (t : List Char) : Prop :=
  ∀ u, UrlText.parse (base ++ '/' :: t) = some u → u.host ≠ [] → u.scheme ≠ [] →
    ∃ server, UrlText.parse base = some server ∧ server.host ≠ []

@[simp] theorem removeEmptyPort_nil : removeEmptyPort [] = [] := rfl

theorem scheme_ne_nil {scheme : List Char} (h : isHTTP scheme = true) : scheme ≠ [] := by
  rintro rfl
  cases h

section Send

variable {headers : List Bytes} {base path : String} {t : List Char} {u : Url}

theorem sendURL_eq_some (hbase : HostIn base.toList t) (hpath : path.toList = '/' :: t) :
    sendURL headers (base ++ path) = some u ↔
      ∃ server, UrlText.parse base.toList = some server ∧ removeEmptyPort server.host ≠ [] ∧
        UrlText.parse (base.toList ++ '/' :: t) = some u ∧
        headers.all validHeaderFieldValue = true ∧ isHTTP server.scheme = true := by
  rw [sendURL, String.toList_append, hpath]
  simp only [Option.bind_eq_bind, Option.bind_eq_some_iff]
  constructor
  · rintro ⟨u', hu', hsend⟩
    split at hsend
    · next hok =>
      cases hsend
      simp only [Bool.and_eq_true, decide_eq_true_eq] at hok
      obtain ⟨⟨hheaders, hscheme⟩, hport⟩ := hok
      have hhost : u.host ≠ [] := by
        intro hnil
        rw [hnil] at hport
        exact hport rfl
      obtain ⟨server, hserver, hhost'⟩ := hbase u hu' hhost (scheme_ne_nil hscheme)
      obtain ⟨hs, hh⟩ := UrlText.host_of_parse_append hserver hhost' hu'
      exact ⟨server, hserver, hh ▸ hport, hu', hheaders, hs ▸ hscheme⟩
    · cases hsend
  · rintro ⟨server, hserver, hport, hu, hheaders, hscheme⟩
    have hhost : server.host ≠ [] := by
      intro hnil
      rw [hnil] at hport
      exact hport rfl
    obtain ⟨hs, hh⟩ := UrlText.host_of_parse_append hserver hhost hu
    exact ⟨u, hu, if_pos (by simp [hheaders, hs, hscheme, hh, hport])⟩

/-- A request goes out unless it is refused. -/
theorem sendURL_isSome (hbase : HostIn base.toList t) (hpath : path.toList = '/' :: t) :
    (∃ u, sendURL headers (base ++ path) = some u) ↔ ¬ Refuses headers base path := by
  have hfollows : ∀ {server}, UrlText.parse base.toList = some server →
      removeEmptyPort server.host ≠ [] →
      (UrlText.parse (base.toList ++ '/' :: t)).isSome =
        UrlText.follows base.toList path.toList := by
    intro server hserver hport
    rw [hpath]
    refine UrlText.parse_append_isSome hserver fun hnil => ?_
    rw [hnil] at hport
    exact hport rfl
  rw [Refuses, not_or, not_or, Bool.not_eq_false, Bool.not_eq_false]
  constructor
  · rintro ⟨u, hu⟩
    obtain ⟨server, hserver, hport, hparse, hheaders, hscheme⟩ :=
      (sendURL_eq_some hbase hpath).mp hu
    refine ⟨hheaders, fun hall => ?_, ?_⟩
    · rw [hall server hserver hport] at hscheme
      cases hscheme
    · rw [← hfollows hserver hport, hparse]
      rfl
  · rintro ⟨hheaders, hserver, hfollow⟩
    simp only [not_forall, Bool.not_eq_false] at hserver
    obtain ⟨server, hserver, hport, hscheme⟩ := hserver
    rw [← hfollows hserver hport] at hfollow
    obtain ⟨u, hu⟩ := Option.isSome_iff_exists.mp hfollow
    exact ⟨u, (sendURL_eq_some hbase hpath).mpr ⟨server, hserver, hport, hu, hheaders, hscheme⟩⟩

end Send

end IronStock

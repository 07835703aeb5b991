import IronStock.ItemLinks
import IronStock.Lib.PathEscapes
import IronStock.MailMessages
import IronStock.PipelineDiagrams

/-!
# Annotations

`item_annotations.go`: freeform keys and values on an item, the key in the path of the
request. The router passes a segment on as the URL keeps it, decoded already where the
client wrote it as the server would; the handlers decode it in either case.
-/
namespace IronStock.Annotations

open UrlText (encode decode decodeBytes escapePath KeptPath keepPath)
open Links (Writable)

/-! ## The table -/

structure AnnotationRow where
  itemId : Uuid
  key : String
  value : String
  createdAt : Time
deriving DecidableEq

namespace AnnotationRow

def names (item : Uuid) (key : String) (a : AnnotationRow) : Bool := a.itemId = item ∧ a.key = key

/-- The primary key. -/
def id (a : AnnotationRow) : Uuid × String := (a.itemId, a.key)

end AnnotationRow

structure State where
  db : DB
  annotations : List AnnotationRow
  primaryKey : (annotations.map AnnotationRow.id).Nodup

namespace State
variable (s : State)

/-- `INSERT … ON CONFLICT (item_id, key) DO UPDATE SET value, created_at`. -/
def upsertRow (item : Uuid) (key value : String) (now : Time) : State :=
  { s with
    annotations := Table.upsert (AnnotationRow.names item key) (fun _ => ⟨item, key, value, now⟩)
      ⟨item, key, value, now⟩ s.annotations
    primaryKey := by
      refine Table.nodup_upsert ?_ ?_ s.primaryKey
      · intro a ha
        obtain ⟨hitem, hkey⟩ := of_decide_eq_true ha
        rw [AnnotationRow.id, AnnotationRow.id, hitem, hkey]
      · intro a ha
        obtain ⟨hitem, hkey⟩ := Prod.mk.inj ha
        exact decide_eq_true ⟨hitem, hkey⟩ }

/-- The statement with the checks and the reference of the table. -/
def insertRow (now : Time) (item : Uuid) (key value : String) : Except PgError State :=
  if key.length < 1 ∨ 256 < key.length ∨ 4096 < value.length then .error .checkViolation
  else if (s.db.item? item).isNone then .error .foreignKeyViolation
  else .ok (s.upsertRow item key value now)

/-- `DELETE FROM item_annotations WHERE item_id = $1 AND key = $2`. -/
def deleteRow (item : Uuid) (key : String) : State :=
  { s with
    annotations := Table.deleteWhere (AnnotationRow.names item key) s.annotations
    primaryKey := s.primaryKey.sublist (List.filter_sublist.map _) }

end State

/-- A `text` value: UTF-8 without a zero byte. -/
def castText (b : Bytes) : Option String :=
  (String.fromUTF8? ⟨b.toArray⟩).filter fun s => !s.toList.contains (Char.ofNat 0)

/-! ## The request -/

def itemsPrefix : List Char := "/api/v1/items/".toList

def annotationsInfix : List Char := "/annotations/".toList

/-- The target of a request, with the segment of the key as the client wrote it. -/
def annotationTarget (itemID : String) (e : List Char) : List Char :=
  itemsPrefix ++ itemID.toList ++ annotationsInfix ++ e

structure Env where
  /-- `chi.URLParam` of `id` and `key`, where the route matches -/
  urlParams : KeptPath → Option (Bytes × Bytes)
  /-- the collation -/
  le : String → String → Bool

/-- The router matches the path that is routed, and a parameter is a segment of it. -/
def Env.RoutesSegments (env : Env) : Prop :=
  ∀ (p : KeptPath) (id key : Bytes),
    p.routed = encode itemsPrefix ++ id ++ encode annotationsInfix ++ key →
      id ≠ [] → key ≠ [] → 47 ∉ id → 47 ∉ key → env.urlParams p = some (id, key)

/-! ## The handlers -/

structure AnnotationResponse where
  key : String
  value : String
  createdAt : Time
deriving DecidableEq

def itemNotFound : ApiError := ⟨404, errCodeNotFound, "Item bulunamadı."⟩

def permissionFailed : ApiError := internalError "İzin kontrolü başarısız."

def badKey : ApiError := badRequest "Geçersiz annotation key."

/-- `strings.TrimSpace` leaves nothing; a byte that begins no character is no space. -/
def isBlank (key : Bytes) : Bool := (String.fromUTF8? ⟨key.toArray⟩).any (trimSpace · = "")

/-- `url.PathUnescape` of the parameter, and the check of what it gives. -/
def annotationKey (rawKey : Bytes) : Reply Bytes := do
  let key ← .orElse (decodeBytes rawKey) badKey
  .require (isBlank key = false) badKey
  return key

def requireWrite (db : DB) (now : Time) (claims : Claims) (id : Bytes) : Reply Uuid := do
  let itemID ← .orElse (castText id) permissionFailed
  match resolveItemPermission db now claims.subject itemID with
  | .error _ => .error permissionFailed
  | .ok perm =>
    .require (perm ≠ .none) itemNotFound
    .require (perm.allowsWrite = true) ⟨403, errCodeForbidden, "Yazma izni gerekli."⟩
    .orElse (castUuid itemID) permissionFailed

/-- `ListAnnotations`. -/
def listAnnotations (env : Env) (s : State) (now : Time) (claims : Claims) (itemID : String) :
    Reply (List AnnotationResponse) := do
  let perm ← .orElse (resolveItemPermission s.db now claims.subject itemID).toOption
    permissionFailed
  .require (perm.allowsRead = true) itemNotFound
  let item ← .orElse (castUuid itemID) (internalError "Annotation'lar okunamadı.")
  let rows := (s.annotations.filter (·.itemId = item)).mergeSort fun a b => env.le a.key b.key
  return rows.map fun a => ⟨a.key, a.value, a.createdAt⟩

/-- `UpsertAnnotation`, with the value of the body if it is JSON. -/
def upsertAnnotation (s : State) (now : Time) (claims : Claims) (id rawKey : Bytes)
    (body : Option String) : Reply (State × AnnotationResponse) := do
  let key ← annotationKey rawKey
  .require (key.length ≤ 256) (validationError "Annotation key en fazla 256 karakter olabilir.")
  let value ← .orElse body (badRequest "Geçersiz JSON.")
  .require (value.utf8ByteSize ≤ 4096)
    (validationError "Annotation değeri en fazla 4096 karakter olabilir.")
  let item ← requireWrite s.db now claims id
  .orElse
    (do let key ← castText key
        let value ← castText (encode value.toList)
        let s ← (s.insertRow now item key value).toOption
        return (s, ⟨key, value, now⟩))
    (internalError "Annotation kaydedilemedi.")

/-- `DeleteAnnotation`. -/
def deleteAnnotation (s : State) (now : Time) (claims : Claims) (id rawKey : Bytes) :
    Reply State := do
  let key ← annotationKey rawKey
  let item ← requireWrite s.db now claims id
  let key ← .orElse (castText key) (internalError "Annotation silinemedi.")
  return s.deleteRow item key

section Server
variable (env : Env) (s : State) (now : Time) (claims : Claims) (target : List Char)

/-- The parameters of a request on the annotations path. -/
def route : Reply (Bytes × Bytes) := do
  let p ← .orElse (keepPath target) (badRequest "Bad Request")
  .orElse (env.urlParams p) ⟨404, errCodeNotFound, "404 page not found"⟩

def servePut (body : Option String) : Reply (State × AnnotationResponse) := do
  let (id, rawKey) ← route env target
  upsertAnnotation s now claims id rawKey body

def serveDelete : Reply State := do
  let (id, rawKey) ← route env target
  deleteAnnotation s now claims id rawKey

end Server

/-! ## Keys in paths -/

/-- A key percent-encoded as one segment: what may stand in a path as it is, or escapes. -/
structure EncodesSegment (e : List Char) (key : String) : Prop where
  decoded : decode e = some (encode key.toList)
  printable : ∀ c ∈ e, 0x21 ≤ c.toNat ∧ c.toNat ≤ 0x7e ∧ c ≠ '/' ∧ c ≠ '?' ∧ c ≠ '#'

/-- What the handlers make of the segment: the key is decoded a second time if it is
written as the server would write it. -/
def received (e : List Char) (key : String) : Option Bytes :=
  if e = escapePath (encode key.toList) then decode key.toList else some (encode key.toList)

/-- The key that a request addresses. -/
def addressed (env : Env) (target : List Char) : Reply Bytes := do
  let (_, rawKey) ← route env target
  annotationKey rawKey

/-! ## What the three requests owe -/

section Contract
variable (env : Env) (s : State) (now : Time) (claims : Claims) (x : Uuid) (key value : String)
  (e : List Char)

/-- After the key and the value were stored in `s'`. -/
structure Stores (s' : State) : Prop where
  db : s'.db = s.db
  rows : ∀ a, a ∈ s'.annotations ↔
    a = ⟨x, key, value, now⟩ ∨ a ∈ s.annotations ∧ a.names x key = false

/-- `List` and `DELETE`, at any time the caller may still write. -/
structure ReadsBack (s' : State) : Prop where
  listed : ∀ later, Writable s.db later claims x →
    ∃ out, listAnnotations env s' later claims x.text = .ok out ∧
      out.filter (·.key = key) = [⟨key, value, now⟩]
  deleted : ∀ later, Writable s.db later claims x →
    ∃ s'', serveDelete env s' later claims (annotationTarget x.text e) = .ok s'' ∧
      s''.db = s'.db ∧
      ∀ a, a ∈ s''.annotations ↔ a ∈ s'.annotations ∧ a.names x key = false

def RoundTrips : Prop :=
  ∃ s' out,
    servePut env s now claims (annotationTarget x.text e) (some value) = .ok (s', out) ∧
      Stores s now x key value s' ∧ ReadsBack env s now claims x key value e s'

/-- The key is not decoded twice to something else, it is not blank, and both texts are
short enough in bytes and without a zero byte. -/
structure Survives : Prop where
  once : e = escapePath (encode key.toList) → '%' ∉ key.toList
  notBlank : trimSpace key ≠ ""
  keyBytes : key.utf8ByteSize ≤ 256
  valueBytes : value.utf8ByteSize ≤ 4096
  keyText : Char.ofNat 0 ∉ key.toList
  valueText : Char.ofNat 0 ∉ value.toList

end Contract

section Proofs

variable {env : Env} {s : State} {now : Time} {claims : Claims} {x : Uuid} {key value : String}
  {e : List Char}

/-! ## Texts and their bytes -/

theorem length_encode (k : String) : (encode k.toList).length = k.utf8ByteSize := by
  rw [← Mail.bytesOf_ofList, String.ofList_toList, bytesOf]
  simp

theorem fromUTF8?_eq_some {b : Bytes} {k : String} :
    String.fromUTF8? ⟨b.toArray⟩ = some k ↔ b = encode k.toList := by
  have hbytes : encode k.toList = k.toByteArray.data.toList := by
    rw [← Mail.bytesOf_ofList, String.ofList_toList, bytesOf]
  rw [hbytes]
  constructor
  · intro h
    simp only [String.fromUTF8?] at h
    split at h
    · rw [Option.some.injEq] at h
      rw [← h]
      rfl
    · cases h
  · rintro rfl
    have hvalid : (⟨k.toByteArray.data.toList.toArray⟩ : ByteArray) = k.toByteArray := rfl
    simp only [String.fromUTF8?, hvalid, k.isValidUTF8, dif_pos]
    rfl

theorem castText_eq_some {b : Bytes} {k : String} :
    castText b = some k ↔ b = encode k.toList ∧ Char.ofNat 0 ∉ k.toList := by
  rw [castText, Option.filter_eq_some_iff, fromUTF8?_eq_some]
  simp

theorem isBlank_encode (k : String) : isBlank (encode k.toList) = true ↔ trimSpace k = "" := by
  rw [isBlank, fromUTF8?_eq_some.mpr rfl]
  simp

theorem text_chars (u : Uuid) {c : Char} (h : c ∈ u.text.toList) :
    c = '-' ∨ ∃ d, c = Uuid.hexDigit d := by
  rw [Uuid.text, String.toList_ofList] at h
  simp only [List.mem_append, List.mem_cons] at h
  have hdigit {l : List Char} (hl : l.Sublist (u.digits.map Uuid.hexDigit)) (hc : c ∈ l) :
      c = '-' ∨ ∃ d, c = Uuid.hexDigit d := by
    obtain ⟨d, -, rfl⟩ := List.mem_map.mp (hl.subset hc)
    exact .inr ⟨d, rfl⟩
  have hpart (n m : Nat) : (((u.digits.map Uuid.hexDigit).drop n).take m).Sublist
      (u.digits.map Uuid.hexDigit) :=
    (List.take_sublist _ _).trans (List.drop_sublist _ _)
  rcases h with h | rfl | h | rfl | h | rfl | h | rfl | h
  · exact hdigit (List.take_sublist _ _) h
  · exact .inl rfl
  · exact hdigit (hpart _ _) h
  · exact .inl rfl
  · exact hdigit (hpart _ _) h
  · exact .inl rfl
  · exact hdigit (hpart _ _) h
  · exact .inl rfl
  · exact hdigit (List.drop_sublist _ _) h

theorem text_plain (u : Uuid) {c : Char} (h : c ∈ u.text.toList) :
    c.toNat < 0x80 ∧ UrlText.pathChar c = true ∧ c ≠ '/' ∧ c ≠ Char.ofNat 0 := by
  have hdigit : ∀ d, (Uuid.hexDigit d).toNat < 0x80 ∧ UrlText.pathChar (Uuid.hexDigit d) = true ∧
      Uuid.hexDigit d ≠ '/' ∧ Uuid.hexDigit d ≠ Char.ofNat 0 := by
    decide
  rcases text_chars u h with rfl | ⟨d, rfl⟩
  · decide
  · exact hdigit d

theorem castText_text (u : Uuid) : castText (encode u.text.toList) = some u.text :=
  castText_eq_some.mpr ⟨rfl, fun h => (text_plain u h).2.2.2 rfl⟩

/-! ## Where a request leads -/

/-- The part of the target before the key stands for itself. -/
theorem target_plain (u : Uuid) :
    ∀ c ∈ itemsPrefix ++ u.text.toList ++ annotationsInfix,
      c.toNat < 0x80 ∧ UrlText.pathChar c = true := by
  have hfixed : ∀ c ∈ itemsPrefix ++ annotationsInfix,
      c.toNat < 0x80 ∧ UrlText.pathChar c = true :=
    UrlText.plain_of_all (by decide)
  intro c hc
  simp only [List.mem_append] at hc hfixed
  rcases hc with (hc | hc) | hc
  · exact hfixed c (.inl hc)
  · obtain ⟨hlt, hplain, -⟩ := text_plain u hc
    exact ⟨hlt, hplain⟩
  · exact hfixed c (.inr hc)

theorem EncodesSegment.of_all (hdecoded : decode e = some (encode key.toList))
    (h : e.all (fun c => 0x21 ≤ c.toNat ∧ c.toNat ≤ 0x7e ∧ c ≠ '/' ∧ c ≠ '?' ∧ c ≠ '#') = true) :
    EncodesSegment e key :=
  ⟨hdecoded, fun c hc => of_decide_eq_true (List.all_eq_true.mp h c hc)⟩

theorem EncodesSegment.slash (h : EncodesSegment e key) : '/' ∉ e :=
  fun hmem => (h.printable _ hmem).2.2.1 rfl

theorem EncodesSegment.ne_nil (h : EncodesSegment e key) (hkey : key ≠ "") : e ≠ [] := by
  rintro rfl
  have hnil : [] = encode key.toList := Option.some.inj h.decoded
  have hchars : key.toList ≠ [] := by simpa using hkey
  exact UrlText.encode_ne_nil hchars hnil.symm

/-- The router finds the item and the segment as it is kept, and the handler decodes it to
what it receives. -/
theorem route_target (henv : env.RoutesSegments) (h : EncodesSegment e key) (hkey : key ≠ "") :
    ∃ raw, route env (annotationTarget x.text e) = .ok (encode x.text.toList, raw) ∧
      decodeBytes raw = received e key := by
  have hkept : keepPath (annotationTarget x.text e) = _ :=
    UrlText.keepPath_append (target_plain x) h.decoded
  have hid : encode x.text.toList ≠ [] :=
    UrlText.encode_ne_nil (by simpa using x.text_ne_empty)
  have hidSlash : 47 ∉ encode x.text.toList := by
    rw [UrlText.slash_mem_encode]
    exact fun hmem => (text_plain x hmem).2.2.1 rfl
  by_cases hown : e = escapePath (encode key.toList)
  · have hslash : 47 ∉ encode key.toList := fun hmem =>
      h.slash (hown ▸ UrlText.slash_mem_escapePath hmem)
    have hroute := henv ⟨encode (itemsPrefix ++ x.text.toList ++ annotationsInfix) ++
        encode key.toList, []⟩ (encode x.text.toList) (encode key.toList)
      (by simp [KeptPath.routed]) hid (UrlText.encode_ne_nil (by simpa using hkey)) hidSlash hslash
    refine ⟨encode key.toList, ?_, ?_⟩
    · rw [if_pos hown] at hkept
      simp only [route, hkept, Reply.bind_eq_ok, Reply.orElse_eq_ok]
      exact ⟨_, rfl, hroute⟩
    · rw [received, if_pos hown, UrlText.decodeBytes_encode]
  · have hraw : annotationTarget x.text e ≠ [] :=
      fun hnil => h.ne_nil hkey (List.append_eq_nil_iff.mp hnil).2
    have hroute := henv ⟨encode (itemsPrefix ++ x.text.toList ++ annotationsInfix) ++
        encode key.toList, annotationTarget x.text e⟩ (encode x.text.toList) (encode e)
      (by rw [KeptPath.routed, if_neg hraw]; simp only [annotationTarget, UrlText.encode_append])
      hid (UrlText.encode_ne_nil (h.ne_nil hkey)) hidSlash
      (by rw [UrlText.slash_mem_encode]; exact h.slash)
    refine ⟨encode e, ?_, ?_⟩
    · rw [if_neg hown] at hkept
      simp only [route, hkept, Reply.bind_eq_ok, Reply.orElse_eq_ok]
      exact ⟨_, rfl, hroute⟩
    · rw [received, if_neg hown, UrlText.decodeBytes_encode, h.decoded]

/-! ## What the handlers do -/

theorem annotationKey_eq_ok {raw b : Bytes} :
    annotationKey raw = .ok b ↔ decodeBytes raw = some b ∧ isBlank b = false := by
  simp only [annotationKey, Reply.bind_eq_ok, Reply.orElse_eq_ok, Reply.require_eq_ok,
    Reply.pure_eq_ok]
  constructor
  · rintro ⟨_, hraw, _, hblank, rfl⟩
    exact ⟨hraw, hblank⟩
  · rintro ⟨hraw, hblank⟩
    exact ⟨b, hraw, (), hblank, rfl⟩

theorem requireWrite_eq_ok {db : DB} {item : Uuid} :
    requireWrite db now claims (encode x.text.toList) = .ok item ↔
      item = x ∧ Writable db now claims x := by
  simp only [requireWrite, castText_text, Reply.bind_eq_ok, Reply.orElse_eq_ok,
    Option.some.injEq, exists_eq_left', castUuid_text,
    resolveItemPermission_of_cast (castUuid_text x), Writable]
  cases itemPermissionOf db now claims.subject x with
  | error err => simp
  | ok perm =>
    simp only [Reply.bind_eq_ok, Reply.require_eq_ok, Reply.orElse_eq_ok, Option.some.injEq,
      Except.ok.injEq, exists_eq_left']
    constructor
    · rintro ⟨_, _, _, hallows, rfl⟩
      exact ⟨rfl, hallows⟩
    · rintro ⟨rfl, hallows⟩
      have hsome : perm ≠ .none := by
        rintro rfl
        cases hallows
      exact ⟨(), hsome, (), hallows, rfl⟩

theorem isSome_of_writable {db : DB} (h : Writable db now claims x) :
    (db.item? x).isSome = true := by
  obtain ⟨perm, hperm, hallows⟩ := h
  cases hitem : db.item? x with
  | some item => rfl
  | none =>
    rw [itemPermissionOf, hitem] at hperm
    cases hperm
    cases hallows

theorem insertRow_eq (hitem : (s.db.item? x).isSome = true) {k : String}
    (hblank : trimSpace k ≠ "") (hkey : k.utf8ByteSize ≤ 256)
    (hvalue : value.utf8ByteSize ≤ 4096) :
    s.insertRow now x k value = .ok (s.upsertRow x k value now) := by
  have hlength (t : String) : t.length ≤ t.utf8ByteSize := by
    rw [← length_encode, ← String.length_toList]
    exact UrlText.length_le_length_encode t.toList
  have hempty : ¬ k.length < 1 := by
    intro hlt
    have hnil : k = "" := by
      rw [← String.length_eq_zero_iff]
      omega
    rw [hnil] at hblank
    exact hblank (by decide)
  have hlong : ¬ 256 < k.length := by
    have := hlength k
    omega
  have hwide : ¬ 4096 < value.length := by
    have := hlength value
    omega
  have hfound : ¬ (s.db.item? x).isNone = true := by
    rw [← Option.not_isSome, hitem]
    decide
  rw [State.insertRow, if_neg (by simp only [hempty, hlong, hwide, or_self]; trivial),
    if_neg hfound]

/-- The key as it arrives is a text that the handlers accept. -/
structure Arrives (e : List Char) (key k : String) : Prop where
  received : received e key = some (encode k.toList)
  notBlank : trimSpace k ≠ ""
  text : Char.ofNat 0 ∉ k.toList

theorem servePut_eq_ok (henv : env.RoutesSegments) (h : EncodesSegment e key)
    (hkey : key ≠ "") (hwrite : Writable s.db now claims x) {s' : State}
    {out : AnnotationResponse} :
    servePut env s now claims (annotationTarget x.text e) (some value) = .ok (s', out) ↔
      ∃ k, Arrives e key k ∧ k.utf8ByteSize ≤ 256 ∧ value.utf8ByteSize ≤ 4096 ∧
        Char.ofNat 0 ∉ value.toList ∧ s' = s.upsertRow x k value now ∧ out = ⟨k, value, now⟩ := by
  obtain ⟨raw, hroute, hraw⟩ := route_target (x := x) henv h hkey
  have hput : servePut env s now claims (annotationTarget x.text e) (some value) =
      upsertAnnotation s now claims (encode x.text.toList) raw (some value) := by
    rw [servePut, hroute]
    rfl
  rw [hput]
  simp only [Reply.bind_eq_ok, upsertAnnotation, Reply.require_eq_ok, Reply.orElse_eq_ok,
    annotationKey_eq_ok, hraw, requireWrite_eq_ok, Option.bind_eq_bind, Option.bind_eq_some_iff,
    Option.pure_def, castText_eq_some]
  constructor
  · rintro ⟨b, ⟨hreceived, hblank⟩, _, hbytes, _, hbody, _, hvalue, _, ⟨rfl, -⟩, k, ⟨rfl, hzero⟩,
      v, ⟨hv, hvzero⟩, t, ht, hpair⟩
    obtain rfl := Option.some.inj hbody
    obtain ⟨rfl, rfl⟩ := Prod.mk.inj (Option.some.inj hpair)
    obtain rfl : value = v := by
      have hsame := fromUTF8?_eq_some.mpr hv
      exact Option.some.inj ((fromUTF8?_eq_some.mpr rfl).symm.trans hsame)
    have hnot : trimSpace k ≠ "" := by
      intro hnil
      rw [(isBlank_encode k).mpr hnil] at hblank
      cases hblank
    rw [length_encode] at hbytes
    rw [insertRow_eq (isSome_of_writable hwrite) hnot hbytes hvalue] at ht
    exact ⟨k, ⟨hreceived, hnot, hzero⟩, hbytes, hvalue, hvzero, (Option.some.inj ht).symm, rfl⟩
  · rintro ⟨k, harrives, hbytes, hvalue, hvzero, rfl, rfl⟩
    have hblank : isBlank (encode k.toList) = false := by
      rw [← Bool.not_eq_true, isBlank_encode]
      exact harrives.notBlank
    refine ⟨encode k.toList, ⟨harrives.received, hblank⟩, (), ?_, value, rfl, (), hvalue,
      x, ⟨rfl, hwrite⟩, k, ⟨rfl, harrives.text⟩, value, ⟨rfl, hvzero⟩, _, ?_, rfl⟩
    · rw [length_encode]
      exact hbytes
    · rw [insertRow_eq (isSome_of_writable hwrite) harrives.notBlank hbytes hvalue]
      rfl

theorem serveDelete_eq_ok (henv : env.RoutesSegments) (h : EncodesSegment e key)
    (hkey : key ≠ "") (hwrite : Writable s.db now claims x) {s' : State} :
    serveDelete env s now claims (annotationTarget x.text e) = .ok s' ↔
      ∃ k, Arrives e key k ∧ s' = s.deleteRow x k := by
  obtain ⟨raw, hroute, hraw⟩ := route_target (x := x) henv h hkey
  have hremove : serveDelete env s now claims (annotationTarget x.text e) =
      deleteAnnotation s now claims (encode x.text.toList) raw := by
    rw [serveDelete, hroute]
    rfl
  rw [hremove]
  simp only [Reply.bind_eq_ok, deleteAnnotation, Reply.orElse_eq_ok, Reply.pure_eq_ok,
    annotationKey_eq_ok, hraw, requireWrite_eq_ok, castText_eq_some]
  constructor
  · rintro ⟨b, ⟨hreceived, hblank⟩, _, ⟨rfl, -⟩, k, ⟨rfl, hzero⟩, rfl⟩
    refine ⟨k, ⟨hreceived, ?_, hzero⟩, rfl⟩
    intro hnil
    rw [(isBlank_encode k).mpr hnil] at hblank
    cases hblank
  · rintro ⟨k, harrives, rfl⟩
    have hblank : isBlank (encode k.toList) = false := by
      rw [← Bool.not_eq_true, isBlank_encode]
      exact harrives.notBlank
    exact ⟨_, ⟨harrives.received, hblank⟩, x, ⟨rfl, hwrite⟩, k, ⟨rfl, harrives.text⟩, rfl⟩

/-! ## Keys that arrive -/

theorem encode_injective {k k' : String} (h : encode k.toList = encode k'.toList) : k = k' :=
  Option.some.inj ((fromUTF8?_eq_some.mpr rfl).symm.trans (fromUTF8?_eq_some.mpr h))

/-- The second decoding does no harm to a key without a percent sign. -/
theorem received_eq_self_iff :
    received e key = some (encode key.toList) ↔
      (e = escapePath (encode key.toList) → '%' ∉ key.toList) := by
  rw [received]
  split
  · next hown =>
    constructor
    · intro h _
      exact UrlText.not_mem_of_decode h
    · intro h
      exact UrlText.decode_of_not_mem (h hown)
  · next hown => exact iff_of_true rfl fun h => absurd h hown

theorem Survives.arrives (h : Survives key value e) : Arrives e key key :=
  ⟨received_eq_self_iff.mpr h.once, h.notBlank, h.keyText⟩

theorem Arrives.unique {k k' : String} (h : Arrives e key k) (h' : Arrives e key k') : k = k' :=
  encode_injective (Option.some.inj (h.received.symm.trans h'.received))

/-! ## The round trip -/

theorem mem_upsertRow {k : String} {a : AnnotationRow} :
    a ∈ (s.upsertRow x k value now).annotations ↔
      a = ⟨x, k, value, now⟩ ∨ a ∈ s.annotations ∧ a.names x k = false :=
  Table.mem_upsert_const

theorem mem_deleteRow {k : String} {a : AnnotationRow} :
    a ∈ (s.deleteRow x k).annotations ↔ a ∈ s.annotations ∧ a.names x k = false :=
  Table.mem_deleteWhere

/-- A stored row is the one entry with its key. -/
theorem listAnnotations_filter (env : Env) (hwrite : Writable s.db now claims x) {a : AnnotationRow}
    (ha : a ∈ s.annotations) (hitem : a.itemId = x) :
    ∃ out, listAnnotations env s now claims x.text = .ok out ∧
      out.filter (·.key = a.key) = [⟨a.key, a.value, a.createdAt⟩] := by
  obtain ⟨perm, hperm, hallows⟩ := hwrite
  have hread : perm.allowsRead = true := by
    cases perm with
    | none | read => cases hallows
    | write => rfl
  let rows := (s.annotations.filter (·.itemId = x)).mergeSort fun a b => env.le a.key b.key
  refine ⟨rows.map fun a => ⟨a.key, a.value, a.createdAt⟩, ?_, ?_⟩
  · simp only [listAnnotations, Reply.bind_eq_ok, Reply.orElse_eq_ok, Reply.require_eq_ok,
      Reply.pure_eq_ok, resolveItemPermission_of_cast (castUuid_text x), hperm, castUuid_text]
    exact ⟨perm, rfl, (), hread, x, rfl, rfl⟩
  · have hrows : rows.Perm (s.annotations.filter (·.itemId = x)) := List.mergeSort_perm _ _
    have hkeys : (rows.map AnnotationRow.id).Nodup :=
      (hrows.map _).nodup_iff.mpr (s.primaryKey.sublist (List.filter_sublist.map _))
    have hmem : a ∈ rows := hrows.mem_iff.mpr (List.mem_filter.mpr ⟨ha, decide_eq_true hitem⟩)
    have hsame : ∀ b ∈ rows, decide (b.key = a.key) = decide (b.id = a.id) := by
      intro b hb
      have hb' := of_decide_eq_true (List.mem_filter.mp (hrows.mem_iff.mp hb)).2
      simp [AnnotationRow.id, hb', hitem]
    rw [List.filter_map]
    have hone : rows.filter ((fun r : AnnotationResponse => decide (r.key = a.key)) ∘
        fun a => ⟨a.key, a.value, a.createdAt⟩) = [a] :=
      (List.filter_congr hsame).trans (Table.filter_of_mem hkeys hmem)
    rw [hone]
    rfl

theorem roundTrips_iff (henv : env.RoutesSegments) (h : EncodesSegment e key) (hkey : key ≠ "")
    (hwrite : Writable s.db now claims x) :
    RoundTrips env s now claims x key value e ↔ Survives key value e := by
  constructor
  · rintro ⟨s', out, hput, hstores, hreads⟩
    obtain ⟨k, harrives, hbytes, hvalue, hzero, rfl, rfl⟩ :=
      (servePut_eq_ok henv h hkey hwrite).mp hput
    obtain ⟨s'', hremove, -, hrows⟩ := hreads.deleted now hwrite
    have hwrite' : Writable (s.upsertRow x k value now).db now claims x := hwrite
    obtain ⟨k', harrives', rfl⟩ := (serveDelete_eq_ok henv h hkey hwrite').mp hremove
    obtain rfl := harrives.unique harrives'
    have hsame : k = key := by
      by_contra hne
      -- the row would be stored under one key and removed under another
      have hstored := (hstores.rows ⟨x, key, value, now⟩).mpr (.inl rfl)
      have hother : (⟨x, key, value, now⟩ : AnnotationRow).names x k = false :=
        decide_eq_false fun hk => hne hk.2.symm
      have hleft := (hrows _).mp (mem_deleteRow.mpr ⟨hstored, hother⟩)
      exact absurd hleft.2 (by simp [AnnotationRow.names])
    subst hsame
    exact ⟨received_eq_self_iff.mp harrives.received, harrives.notBlank, hbytes, hvalue,
      harrives.text, hzero⟩
  · intro hsurvives
    have hput : servePut env s now claims (annotationTarget x.text e) (some value) =
        .ok (s.upsertRow x key value now, ⟨key, value, now⟩) :=
      (servePut_eq_ok henv h hkey hwrite).mpr ⟨key, hsurvives.arrives, hsurvives.keyBytes,
        hsurvives.valueBytes, hsurvives.valueText, rfl, rfl⟩
    refine ⟨_, _, hput, ⟨rfl, fun a => mem_upsertRow⟩, ?_, ?_⟩
    · intro later hlater
      have hlater' : Writable (s.upsertRow x key value now).db later claims x := hlater
      have hstored : ⟨x, key, value, now⟩ ∈ (s.upsertRow x key value now).annotations :=
        mem_upsertRow.mpr (.inl rfl)
      exact listAnnotations_filter env hlater' hstored rfl
    · intro later hlater
      have hlater' : Writable (s.upsertRow x key value now).db later claims x := hlater
      exact ⟨_, (serveDelete_eq_ok henv h hkey hlater').mpr ⟨key, hsurvives.arrives, rfl⟩,
        rfl, fun a => mem_deleteRow⟩

/-! ## Two keys -/

/-- No row is addressed by both requests. -/
def Apart (env : Env) (x : Uuid) (e e' : List Char) : Prop :=
  ∀ b, addressed env (annotationTarget x.text e) = .ok b →
    addressed env (annotationTarget x.text e') ≠ .ok b

theorem addressed_eq_ok (henv : env.RoutesSegments) (h : EncodesSegment e key) (hkey : key ≠ "")
    {b : Bytes} : addressed env (annotationTarget x.text e) = .ok b ↔
      received e key = some b ∧ isBlank b = false := by
  obtain ⟨raw, hroute, hraw⟩ := route_target (x := x) henv h hkey
  have haddressed : addressed env (annotationTarget x.text e) = annotationKey raw := by
    rw [addressed, hroute]
    rfl
  rw [haddressed, annotationKey_eq_ok, hraw]

theorem apart_iff (henv : env.RoutesSegments) {key' : String} {e' : List Char}
    (h : EncodesSegment e key) (hkey : key ≠ "") (h' : EncodesSegment e' key') (hkey' : key' ≠ "") :
    Apart env x e e' ↔
      ∀ b, received e key = some b → received e' key' = some b → isBlank b = true := by
  simp only [Apart, ne_eq, addressed_eq_ok henv h hkey, addressed_eq_ok henv h' hkey', not_and,
    Bool.not_eq_false, and_imp]
  constructor
  · intro hall b hb hb'
    by_contra hblank
    exact hblank (hall b hb (by simpa using hblank) hb')
  · intro hall b hb _ hb'
    exact hall b hb hb'

/-- A key with its value comes back through its own path exactly if it survives the way. Two
keys are apart exactly if they are not decoded to one text, in particular if neither is
decoded twice to something else. -/
theorem annotations_roundTrip_iff (env : Env) (henv : env.RoutesSegments) (s : State)
    (now : Time) (claims : Claims) (x : Uuid) (hwrite : Writable s.db now claims x)
    (key : String) (hkey : key ≠ "") (e : List Char) (h : EncodesSegment e key) (value : String) :
    (RoundTrips env s now claims x key value e ↔ Survives key value e) ∧
      ∀ (key' : String) (e' : List Char), key' ≠ "" → EncodesSegment e' key' → key ≠ key' →
        (Apart env x e e' ↔
          ∀ b, received e key = some b → received e' key' = some b → isBlank b = true) ∧
        ((e = escapePath (encode key.toList) → '%' ∉ key.toList) →
          (e' = escapePath (encode key'.toList) → '%' ∉ key'.toList) → Apart env x e e') := by
  refine ⟨roundTrips_iff henv h hkey hwrite, ?_⟩
  intro key' e' hkey' h' hne
  have hiff := apart_iff (x := x) henv h hkey h' hkey'
  refine ⟨hiff, ?_⟩
  intro honce honce'
  rw [hiff, received_eq_self_iff.mpr honce, received_eq_self_iff.mpr honce']
  rintro b hb hb'
  exact absurd (encode_injective (Option.some.inj (hb.trans hb'.symm))) hne

end Proofs

/-! ## A router -/

/-- The route `/api/v1/items/{id}/annotations/{key}` over the segments of the path. -/
def chiParams (p : KeptPath) : Option (Bytes × Bytes) :=
  match UrlText.segments p.routed with
  | [front, api, version, items, id, annotations, key] =>
    if front = [] ∧ api = encode "api".toList ∧ version = encode "v1".toList ∧
        items = encode "items".toList ∧ annotations = encode "annotations".toList ∧
        id ≠ [] ∧ key ≠ [] then some (id, key)
    else none
  | _ => none

def chiEnv : Env := ⟨chiParams, fun a b => a ≤ b⟩

theorem chiEnv_routesSegments : chiEnv.RoutesSegments := by
  intro p id key hrouted hid hkey hidSlash hkeySlash
  have hitems : encode itemsPrefix = 47 :: (encode "api".toList ++ 47 ::
      (encode "v1".toList ++ 47 :: (encode "items".toList ++ [47]))) := by
    decide
  have hannotations : encode annotationsInfix = 47 :: (encode "annotations".toList ++ [47]) := by
    decide
  have hpath : p.routed = [] ++ 47 :: (encode "api".toList ++ 47 :: (encode "v1".toList ++ 47 ::
      (encode "items".toList ++ 47 ::
        (id ++ 47 :: (encode "annotations".toList ++ 47 :: key))))) := by
    rw [hrouted, hitems, hannotations]
    simp only [List.cons_append, List.append_assoc, List.nil_append]
  have hplain : ∀ b ∈ [[], encode "api".toList, encode "v1".toList, encode "items".toList,
      encode "annotations".toList], 47 ∉ b := by
    decide
  simp only [List.forall_mem_cons] at hplain
  obtain ⟨hfront, hapi, hversion, hseg, hann, -⟩ := hplain
  have hsegments : UrlText.segments p.routed = [[], encode "api".toList, encode "v1".toList,
      encode "items".toList, id, encode "annotations".toList, key] := by
    rw [hpath]
    simp only [UrlText.segments_append, UrlText.segments_of_not_mem hfront,
      UrlText.segments_of_not_mem hapi, UrlText.segments_of_not_mem hversion,
      UrlText.segments_of_not_mem hseg, UrlText.segments_of_not_mem hann,
      UrlText.segments_of_not_mem hidSlash, UrlText.segments_of_not_mem hkeySlash]
    rfl
  simp only [chiEnv, chiParams, hsegments]
  exact if_pos ⟨trivial, trivial, trivial, trivial, trivial, hid, hkey⟩

/-! ## A dashboard and a percent sign -/

/-- The item 7 of the user 1. -/
def annotatedState : State where
  db := {
    users := [sampleUser 1 "ada"]
    folders := [sampleFolder 3 1]
    items := [sampleItem 7 3 1] }
  annotations := []
  primaryKey := List.nodup_nil

theorem annotatedState_writable :
    Writable annotatedState.db 0 ⟨Uuid.ofNat 1, []⟩ (Uuid.ofNat 7) :=
  ⟨.write, by decide, rfl⟩

theorem encodes_dashboard : EncodesSegment "a%2Fb".toList "a/b" := .of_all (by decide) (by decide)

/-- A key with a slash, as every client encodes it. -/
theorem annotations_roundTrip_dashboard :
    RoundTrips chiEnv annotatedState 0 ⟨Uuid.ofNat 1, []⟩ (Uuid.ofNat 7) "a/b" "on"
      "a%2Fb".toList :=
  (annotations_roundTrip_iff chiEnv chiEnv_routesSegments annotatedState 0 ⟨Uuid.ofNat 1, []⟩
    (Uuid.ofNat 7) annotatedState_writable "a/b" (by decide) "a%2Fb".toList encodes_dashboard
    "on").1.mpr ⟨by decide, by decide, by decide, by decide, by decide, by decide⟩

theorem encodes_percent : EncodesSegment "100%25".toList "100%" :=
  .of_all (by decide) (by decide)

/-- A percent sign that is encoded as the server does it is decoded twice. -/
theorem annotations_percent_fails :
    ¬ ∀ (env : Env), env.RoutesSegments → ∀ (s : State) (now : Time) (claims : Claims) (x : Uuid),
      Writable s.db now claims x → ∀ (key : String) (e : List Char), key ≠ "" →
        key.length ≤ 256 → EncodesSegment e key → ∀ value : String,
          RoundTrips env s now claims x key value e := by
  intro h
  have hround := h chiEnv chiEnv_routesSegments annotatedState 0 ⟨Uuid.ofNat 1, []⟩ (Uuid.ofNat 7)
    annotatedState_writable "100%" "100%25".toList (by decide) (by decide) encodes_percent "on"
  have hsurvives := (roundTrips_iff chiEnv_routesSegments encodes_percent (by decide)
    annotatedState_writable).mp hround
  exact hsurvives.once (by decide) (by decide)

end IronStock.Annotations

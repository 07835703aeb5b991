import IronStock.ItemKeys
import IronStock.ShareLinks
import IronStock.Lib.Base64Text

/-!
# The two ends of a share link

`share-link-dialog.tsx` and `share.tsx`, with the handlers between them. The key of a
link is behind the `#` of its URL and does not reach the server.
-/
namespace IronStock

open Interleaving

/-! ## The dialog -/

/-- `toBase64` -/
def toBase64 (b : Bytes) : String := String.ofList (Base64Text.encode b)

/-- `toBase64url` -/
def toBase64url (b : Bytes) : String := String.ofList (Base64Text.encodeUrl b)

/-- What the user chooses, and what is drawn. -/
structure ShareLinkForm where
  expiresIn : String
  viewLimit : Int
  linkKey : Bytes
  nonce : Nonce
  length_linkKey : linkKey.length = 32

/-- `handleCreate`, up to the request. -/
def shareLinkRequest (s : SubtleCrypto) (session : WebSession) (item : ItemResponse)
    (form : ShareLinkForm) : Option CreateShareLinkRequest :=
  match session.privateKey with
  | none => none
  | some privateKey =>
    match item.ownerDEK s privateKey with
    | .opened dek => (encryptPrivateKey s form.nonce dek form.linkKey).map fun dekWrapped =>
        ⟨toBase64 dekWrapped, form.expiresIn, form.viewLimit⟩
    | _ => none

/-- The token and the `hash` of `buildShareURL`. -/
def buildShareURL (token : String) (linkKey : Bytes) : String × String :=
  (token, "#" ++ toBase64url linkKey)

/-! ## The page -/

/-- `fromBase64url` -/
def fromBase64url (b64url : String) : Option Bytes := Base64Text.decodeUrl b64url.toList

/-- `readLinkKey`, from `window.location.hash`. -/
def readLinkKey (hash : String) : Option Bytes :=
  match hash.toList.drop 1 with
  | [] => none
  | fragment => (fromBase64url (String.ofList fragment)).filter (·.length = 32)

/-- What a row of the page shows. -/
inductive SharedValue
  | notSecret
  | decrypting
  | failed
  | value (text : String)
deriving DecidableEq

/-- `DecryptedFieldRow` -/
def decryptedFieldRow (s : SubtleCrypto) (dek : Bytes) (field : ShareLinkViewField) : SharedValue :=
  if field.isSecret then
    match truthy field.valueEnc, truthy field.valueNonce with
    | some enc, some nonce =>
      match decryptField s enc nonce dek with
      | some plain => .value plain
      | none => .failed
    | _, _ => .decrypting
  else .notSecret

inductive SharePage
  | missingKey
  | dekError
  | fields (rows : List (String × SharedValue))
deriving DecidableEq

/-- `SharePage`, once the server has answered. -/
def sharePage (s : SubtleCrypto) (hash : String) (payload : ShareLinkViewResponse) : SharePage :=
  match readLinkKey hash with
  | none => .missingKey
  | some linkKey =>
    match decryptPrivateKey s payload.dekWrapped linkKey with
    | .error _ => .dekError
    | .ok dek => .fields (payload.fields.map fun f => (f.label, decryptedFieldRow s dek f))

section Url

theorem fromBase64url_toBase64url (b : Bytes) : fromBase64url (toBase64url b) = some b := by
  rw [fromBase64url, toBase64url, String.toList_ofList, Base64Text.decodeUrl_encodeUrl]

/-- The page reads the key the dialog has put behind the `#`. -/
theorem readLinkKey_buildShareURL (token : String) {linkKey : Bytes} (h : linkKey.length = 32) :
    readLinkKey (buildShareURL token linkKey).2 = some linkKey := by
  have hdrop : (buildShareURL token linkKey).2.toList.drop 1 = (toBase64url linkKey).toList := by
    rw [buildShareURL, String.toList_append]
    rfl
  rw [readLinkKey, hdrop]
  split
  · next hnil =>
    have hempty := fromBase64url_toBase64url linkKey
    rw [fromBase64url, hnil] at hempty
    have hsome : some ([] : Bytes) = some linkKey := hempty
    rw [← Option.some.inj hsome] at h
    cases h
  · rw [String.ofList_toList, fromBase64url_toBase64url, Option.filter_some]
    simp [h]

end Url

/-! ## Runs -/

/-- The pages with their vault, and the requests about links. -/
structure LinkWorld where
  vaults : VaultWorld
  links : System LinkTable LinkCall LinkAnswer

inductive LinkAction
  | page (a : PageAction)
  | create (session : WebSession) (answer : Nat) (form : ShareLinkForm) (draw : LinkDraw)
  | revoke (claims : Claims) (itemID linkID : String)
  | view (token : String)
  | advance (call : Nat) (now : Time) (catalog : Catalog)

def LinkWorld.step (svc : Service) (base64 : Base64) (s : SubtleCrypto) (w : LinkWorld) :
    LinkAction → LinkWorld
  | .page a => { w with vaults := w.vaults.step svc s a }
  | .create session n form draw =>
    match w.vaults.pages.answer? session n with
    | none => w
    | some item =>
      match shareLinkRequest s session item form with
      | none => w
      | some req => { w with
          links := (shareLinkHandlers svc base64).step w.links
            (.begin (.create session.claims item.id req draw)) }
  | .revoke claims itemID linkID => { w with
      links := (shareLinkHandlers svc base64).step w.links (.begin (.revoke claims itemID linkID)) }
  | .view token => { w with
      links := (shareLinkHandlers svc base64).step w.links (.begin (.view token)) }
  | .advance call now catalog => { w with
      links := (shareLinkHandlers svc base64).step w.links
        (.advance call ⟨now, w.vaults.pages.db, catalog⟩) }

/-- What the vault has to show for a link to the item, with the definitions there are. -/
def Vault.sharedRows (v : Vault) (catalog : Catalog) (x : Uuid) (dek : Bytes) :
    List (String × SharedValue) :=
  (v.secrets x).filterMap fun e => (catalog.fieldDefinition e.1).map fun (_, label, _, isSecret) =>
    (label,
      if isSecret then (if dek = e.2.dek then .value e.2.text.text else .failed) else .notSecret)

/-- The payload of a link: the DEK of the item under the key of the link. -/
structure LinkSealed (s : SubtleCrypto) (keyFor : Digest → Bytes) (v : Vault) (x : Uuid)
    (tokenHash : Digest) (dekWrapped : Bytes) : Prop where
  answered : ∃ a ∈ v.loaded, a.item = x
  sealed : ∃ dek nonce, v.Wrapped x (· = dek) ∧
    encryptPrivateKey s nonce dek (keyFor tokenHash) = some dekWrapped

/-- The table has such payloads only. -/
def LinksSealed (s : SubtleCrypto) (keyFor : Digest → Bytes) (v : Vault) (t : LinkTable) : Prop :=
  ∀ r ∈ t.links, LinkSealed s keyFor v r.2.itemId r.2.tokenHash r.2.dekWrapped

/-- What a request about a link has in hand. -/
def LinkCallSealed (svc : Service) (s : SubtleCrypto) (keyFor : Digest → Bytes) (v : Vault) :
    LinkCall ⊕ LinkAnswer → Prop
  | .inl (.request (.create _ itemID req draw)) => ∃ x dekWrapped, castUuid itemID = some x ∧
      req.dekWrapped = toBase64 dekWrapped ∧
      LinkSealed s keyFor v x (svc.sha256 draw.raw) dekWrapped
  | .inl (.insertLink _ itemID link) => ∃ x, castUuid itemID = some x ∧
      LinkSealed s keyFor v x link.tokenHash link.dekWrapped
  | .inl (.readItem view) => hashShareToken svc view.token = some view.row.tokenHash ∧
      LinkSealed s keyFor v view.row.itemId view.row.tokenHash view.row.dekWrapped
  | _ => True

section Links

variable {svc : Service} {base64 : Base64} {s : SubtleCrypto} {keyFor : Digest → Bytes}
  {v v' : Vault}

theorem LinkSealed.change {creator : Uuid → Option Uuid} {action : PageAction} {x : Uuid}
    {tokenHash : Digest} {dekWrapped : Bytes} (h : LinkSealed s keyFor v x tokenHash dekWrapped)
    (hchange : v.Change s creator action v') : LinkSealed s keyFor v' x tokenHash dekWrapped := by
  obtain ⟨⟨a, ha, rfl⟩, dek, nonce, hwrapped, hblob⟩ := h
  refine ⟨⟨a, hchange.mem_loaded ha, rfl⟩, dek, nonce, hwrapped.change hchange ?_, hblob⟩
  intro _ _ _ _ _ _ hunknown
  exact absurd rfl (hunknown.2.2 a ha)

theorem LinkCallSealed.change {creator : Uuid → Option Uuid} {action : PageAction}
    {c : LinkCall ⊕ LinkAnswer} (h : LinkCallSealed svc s keyFor v c)
    (hchange : v.Change s creator action v') : LinkCallSealed svc s keyFor v' c := by
  cases c with
  | inr answer => trivial
  | inl call =>
    cases call with
    | request r =>
      cases r with
      | create claims itemID req draw =>
        obtain ⟨x, dekWrapped, hx, hreq, hsealed⟩ := h
        exact ⟨x, dekWrapped, hx, hreq, hsealed.change hchange⟩
      | revoke claims itemID linkID => trivial
      | view token => trivial
    | insertLink token itemID link =>
      obtain ⟨x, hx, hsealed⟩ := h
      exact ⟨x, hx, hsealed.change hchange⟩
    | deleteLink itemID linkID => trivial
    | readItem view => exact ⟨h.1, h.2.change hchange⟩

/-- A statement keeps the payloads of the table and of its call. -/
theorem linkCall_keeps (hstd : ∀ b, base64.decodeStd (toBase64 b) = some b) {t : LinkTable}
    (ht : LinksSealed s keyFor v t) (m : LinkMoment) {call : LinkCall}
    (hcall : LinkCallSealed svc s keyFor v (.inl call)) :
    Program.Keeps (LinksSealed s keyFor v) (fun _ => LinkCallSealed svc s keyFor v) t
      (call.exec svc base64 m t) := by
  have hsame : ∀ {c}, LinkCallSealed svc s keyFor v c →
      Program.Keeps (LinksSealed s keyFor v) (fun _ => LinkCallSealed svc s keyFor v) t (t, c) :=
    fun hc => ⟨ht, hc, fun _ h => h⟩
  cases call with
  | request r =>
    cases r with
    | create claims itemID req draw =>
      obtain ⟨x, dekWrapped, hx, hreq, hsealed⟩ := hcall
      simp only [LinkCall.exec, LinkRequest.exec]
      split
      · exact hsame trivial
      · next token link hnew =>
        simp only [newShareLink, Reply.bind_eq_ok, Reply.orElse_eq_ok, Reply.pure_eq_ok,
          Prod.mk.injEq] at hnew
        obtain ⟨_, _, _, _, dekBytes, hdek, _, rfl⟩ := hnew
        rw [hreq, hstd] at hdek
        obtain rfl := Option.some.inj hdek
        exact hsame ⟨x, hx, hsealed⟩
    | revoke claims itemID linkID =>
      simp only [LinkCall.exec, LinkRequest.exec]
      split <;> exact hsame trivial
    | view token =>
      simp only [LinkCall.exec, LinkRequest.exec]
      split
      · exact hsame trivial
      · next tokenHash hhash =>
        unfold LinkTable.takeView
        split
        · next heq =>
          split at heq
          · cases heq
            exact hsame trivial
          · cases heq
        · next t' n row heq =>
          split at heq
          · cases heq
          · next r hfind =>
            cases heq
            have hmatch : r.2.isViewable m.now tokenHash = true := by
              simpa using List.find?_some hfind
            simp only [ItemShareLink.isViewable, decide_eq_true_eq] at hmatch
            have hrow := ht r (List.mem_of_find?_eq_some hfind)
            refine ⟨fun q hq => ?_, ⟨?_, hrow⟩, fun _ h => h⟩
            · obtain ⟨q₀, hq₀, rfl⟩ := Table.mem_updateWhere.mp hq
              have hrow₀ := ht q₀ hq₀
              split
              · exact hrow₀
              · exact hrow₀
            · rw [hhash]
              exact congrArg some hmatch.1.symm
  | insertLink token itemID link =>
    obtain ⟨x, hx, hsealed⟩ := hcall
    simp only [LinkCall.exec, hx]
    split
    · exact hsame trivial
    · next t' hinsert =>
      unfold LinkTable.insertLink at hinsert
      split at hinsert
      · cases hinsert
        refine ⟨fun r hr => ?_, trivial, fun _ h => h⟩
        obtain hr | hr := List.mem_append.mp hr
        · exact ht r hr
        · rw [List.mem_singleton.mp hr]
          exact hsealed
      · cases hinsert
  | deleteLink itemID linkID =>
    simp only [LinkCall.exec]
    split
    · split
      · exact hsame trivial
      · next t' hdelete =>
        unfold LinkTable.deleteLink at hdelete
        split at hdelete
        · cases hdelete
        · cases hdelete
          exact ⟨fun r hr => ht r (Table.mem_deleteWhere.mp hr).1, trivial, fun _ h => h⟩
    · exact hsame trivial
  | readItem view =>
    simp only [LinkCall.exec]
    split <;> exact hsame trivial

/-- A stored value in a row of the page. -/
theorem FieldHeld.row (hs : s.Ideal) {r : ItemField} {e : Int × Secret}
    (h : FieldHeld s r.fieldDefinitionId r.value e) (dek : Bytes) (key label fieldType : String)
    (isSecret : Bool) :
    decryptedFieldRow s dek ⟨key, label, fieldType, isSecret, r.value.map Prod.fst,
        r.value.map fun v => v.2.bytes⟩ =
      if isSecret then (if dek = e.2.dek then .value e.2.text.text else .failed)
      else .notSecret := by
  obtain ⟨_, v, hv, henc⟩ := h
  have htext := truthy_of_ne (encryptField_ne_nil hs henc)
  have hnonce := truthy_of_ne v.2.bytes_ne_nil
  rw [decryptedFieldRow, hv]
  simp only [Option.map_some, htext, hnonce, decryptField_of_encrypt hs henc]
  cases isSecret with
  | false => rfl
  | true => by_cases hdek : dek = e.2.dek <;> simp [hdek]

/-- The rows of the page are those of the vault. -/
theorem publicFields_rows (hs : s.Ideal) {m : LinkMoment} {x : Uuid}
    (h : FieldsHeld s (m.db.itemFields.filter (·.itemId = x)) (v.secrets x)) (dek : Bytes) :
    (publicFields m x).map (fun f => (f.label, decryptedFieldRow s dek f)) =
      v.sharedRows m.catalog x dek := by
  rw [publicFields, h.inOrder.insertionSort_eq, Vault.sharedRows]
  have hheld := h.held
  clear h
  generalize m.db.itemFields.filter (·.itemId = x) = rows at *
  generalize v.secrets x = es at *
  induction hheld with
  | nil => rfl
  | @cons r e rows es hrow _ ih =>
    rw [List.filterMap_cons, List.filterMap_cons, hrow.id]
    cases hdef : m.catalog.fieldDefinition e.1 with
    | none => exact ih
    | some d =>
      obtain ⟨key, label, fieldType, isSecret⟩ := d
      simp only [Option.map_some, List.map_cons, hrow.row hs]
      rw [ih]

/-! ## From the dialog to the page -/

/-- What every step keeps. -/
structure LinksKept (svc : Service) (s : SubtleCrypto) (keyFor : Digest → Bytes)
    (w : LinkWorld) : Prop where
  vaults : VaultKept s w.vaults
  links : Program.Holds (LinksSealed s keyFor w.vaults.vault)
    (fun _ => LinkCallSealed svc s keyFor w.vaults.vault) w.links

/-- The key of a link goes with the bytes its token is made of. -/
def LinkAction.Keyed (svc : Service) (keyFor : Digest → Bytes) : LinkAction → Prop
  | .create _ _ form draw => form.linkKey = keyFor (svc.sha256 draw.raw)
  | _ => True

/-- What is in the request of the dialog. -/
theorem shareLinkRequest_eq_some {session : WebSession} {item : ItemResponse}
    {form : ShareLinkForm} {req : CreateShareLinkRequest}
    (h : shareLinkRequest s session item form = some req) :
    ∃ privateKey dek dekWrapped, item.ownerDEK s privateKey = .opened dek ∧
      encryptPrivateKey s form.nonce dek form.linkKey = some dekWrapped ∧
      req.dekWrapped = toBase64 dekWrapped := by
  unfold shareLinkRequest at h
  split at h
  · cases h
  · next privateKey _ =>
    split at h
    · next dek hdek =>
      obtain ⟨dekWrapped, hblob, rfl⟩ := Option.map_eq_some_iff.mp h
      exact ⟨privateKey, dek, dekWrapped, hdek, hblob, rfl⟩
    · cases h

theorem LinksKept.step (hs : s.Ideal) (hstd : ∀ b, base64.decodeStd (toBase64 b) = some b)
    {w : LinkWorld} (h : LinksKept svc s keyFor w) {a : LinkAction} (ha : a.Keyed svc keyFor) :
    LinksKept svc s keyFor (w.step svc base64 s a) := by
  have hlinks : ∀ m : Move LinkRequest LinkMoment,
      (∀ r, m = .begin r → LinkCallSealed svc s keyFor w.vaults.vault (.inl (.request r))) →
      LinksKept svc s keyFor
        { w with links := (shareLinkHandlers svc base64).step w.links m } := by
    intro m hbegin
    refine ⟨h.vaults, Program.holds_step _ w.links m h.links hbegin ?_⟩
    intro i t k _ hk
    exact linkCall_keeps hstd h.links.shared t (h.links.calls _ (List.mem_of_getElem? hk))
  cases a with
  | page action =>
    have hchange := @VaultHeld.change svc s w.vaults h.vaults.held action
    refine ⟨h.vaults.step hs action, fun r hr => (h.links.shared r hr).change hchange,
      fun c hc => (h.links.calls c hc).change hchange⟩
  | create session n form draw =>
    simp only [LinkWorld.step]
    split
    · exact h
    · next item hitem =>
      split
      · exact h
      · next req hreq =>
        apply hlinks
        intro r hr
        cases hr
        obtain ⟨privateKey, dek, dekWrapped, hdek, hblob, hbase64⟩ :=
          shareLinkRequest_eq_some hreq
        obtain ⟨answer, hanswer, hheld⟩ := h.vaults.held.answer hitem
        obtain ⟨k, hk, _, rfl⟩ := Vault.opened_key ((hheld.opened_iff hs privateKey dek).mp hdek)
        obtain ⟨common, hcommon⟩ := h.vaults.wraps answer.item
        have hmem := List.mem_of_getElem? hanswer
        have hsame := hcommon.answers answer hmem rfl k hk
        refine ⟨answer.item, dekWrapped, ?_, hbase64, ⟨answer, hmem, rfl⟩, common, form.nonce,
          hcommon, ?_⟩
        · rw [hheld.item, castUuid_text]
        · have hkeyed : form.linkKey = keyFor (svc.sha256 draw.raw) := ha
          rw [← hkeyed, ← hsame]
          exact hblob
  | revoke claims itemID linkID =>
    apply hlinks
    intro r hr
    cases hr
    trivial
  | view token =>
    apply hlinks
    intro r hr
    cases hr
    trivial
  | advance call now catalog =>
    apply hlinks
    intro r hr
    cases hr

/-- If a statement answers the view of a link, the URL its dialog built shows the item
as it is then, and no other key shows anything. -/
def ShowsLink (svc : Service) (base64 : Base64) (s : SubtleCrypto) (keyFor : Digest → Bytes)
    (w : LinkWorld) (a : LinkAction) : Prop :=
  ∀ call now catalog view payload (form : ShareLinkForm) (draw : LinkDraw),
    a = .advance call now catalog → w.links.calls[call]? = some (.inl (.readItem view)) →
    (w.step svc base64 s a).links.calls[call]? = some (.inr (.viewed view payload)) →
    form.linkKey = keyFor (svc.sha256 draw.raw) → draw.raw.length = 32 →
    view.token = (generateShareToken svc base64 draw.raw).1 →
    ∃ dek, w.vaults.vault.Wrapped view.row.itemId (· = dek) ∧
      sharePage s (buildShareURL view.token form.linkKey).2 payload =
        .fields (w.vaults.vault.sharedRows catalog view.row.itemId dek) ∧
      ∀ hash, readLinkKey hash ≠ some form.linkKey →
        sharePage s hash payload = .missingKey ∨ sharePage s hash payload = .dekError

theorem LinksKept.shows (hs : s.Ideal)
    (hurl : ∀ raw, svc.decodeBase64URL (base64.encodeRawURL raw) = some raw) {w : LinkWorld}
    (h : LinksKept svc s keyFor w) (a : LinkAction) : ShowsLink svc base64 s keyFor w a := by
  rintro call now catalog view payload form draw rfl hcall hafter hkey hlen htoken
  obtain ⟨hhash, hsealed⟩ := h.links.calls _ (List.mem_of_getElem? hcall)
  have hdigest : view.row.tokenHash = svc.sha256 draw.raw := by
    rw [htoken, generateShareToken, hashShareToken, hurl] at hhash
    simp only [hlen, if_true] at hhash
    exact (Option.some.inj hhash).symm
  obtain ⟨_, dek, nonce, hwrapped, hblob⟩ := hsealed
  rw [hdigest, ← hkey] at hblob
  have hread : payload.dekWrapped = view.row.dekWrapped ∧
      payload.fields = publicFields ⟨now, w.vaults.pages.db, catalog⟩ view.row.itemId := by
    simp only [LinkWorld.step, Program.step, hcall, shareLinkHandlers, LinkCall.exec] at hafter
    have hlt := (List.getElem?_eq_some_iff.mp hcall).1
    split at hafter
    · simp [hlt] at hafter
    · next name label fields hfetch =>
      simp only [System.put_calls, List.getElem?_set_self hlt, Option.some.injEq, Sum.inr.injEq,
        LinkAnswer.viewed.injEq, true_and] at hafter
      rw [← hafter]
      refine ⟨rfl, ?_⟩
      unfold fetchItemForPublicShare at hfetch
      split at hfetch
      · cases hfetch
      · split at hfetch
        · cases hfetch
          rfl
        · cases hfetch
  have hpage : ∀ hash, sharePage s hash payload =
      match readLinkKey hash with
      | none => .missingKey
      | some linkKey =>
        if linkKey = form.linkKey then
          .fields (w.vaults.vault.sharedRows catalog view.row.itemId dek)
        else .dekError := by
    intro hash
    rw [sharePage, hread.1, hread.2]
    cases readLinkKey hash with
    | none => rfl
    | some linkKey =>
      dsimp only
      rw [decryptPrivateKey_of_encrypt hs hblob]
      by_cases heq : linkKey = form.linkKey
      · rw [if_pos heq, if_pos heq]
        dsimp only
        rw [publicFields_rows hs (h.vaults.held.fields view.row.itemId)]
      · rw [if_neg heq, if_neg heq]
  refine ⟨dek, hwrapped, ?_, fun hash hne => ?_⟩
  · rw [hpage, readLinkKey_buildShareURL view.token form.length_linkKey]
    exact if_pos rfl
  · rw [hpage]
    cases hread : readLinkKey hash with
    | none => exact Or.inl rfl
    | some linkKey =>
      right
      dsimp only
      rw [if_neg]
      rintro rfl
      exact hne hread

/-- Whatever pages and links are used for meanwhile, and however the requests
interleave, a link shows what its item holds. -/
theorem showsLink_along_runs (svc : Service) (base64 : Base64) {s : SubtleCrypto} (hs : s.Ideal)
    (hstd : ∀ b, base64.decodeStd (toBase64 b) = some b)
    (hurl : ∀ raw, svc.decodeBase64URL (base64.encodeRawURL raw) = some raw)
    {keyFor : Digest → Bytes} {db : DB} (hshares : db.itemShares = [])
    (hfields : db.itemFields = []) (as : List LinkAction) (hkeyed : ∀ a ∈ as, a.Keyed svc keyFor) :
    Runs.Every (LinkWorld.step svc base64 s) (ShowsLink svc base64 s keyFor)
      ⟨.start db, ⟨{}, []⟩⟩ as := by
  have hstart : LinksKept svc s keyFor ⟨.start db, ⟨{}, []⟩⟩ :=
    ⟨VaultKept.start hshares hfields,
      ⟨fun r hr => absurd hr List.not_mem_nil, fun c hc => absurd hc List.not_mem_nil⟩⟩
  have hall := (Runs.every_const (LinkWorld.step svc base64 s) _
    (⟨.start db, ⟨{}, []⟩⟩ : LinkWorld) as).mpr hkeyed
  have hstep : ∀ w a, LinksKept svc s keyFor w → a.Keyed svc keyFor →
      LinksKept svc s keyFor (w.step svc base64 s a) := fun w a h ha => h.step hs hstd ha
  have halong := Runs.along_of_every hstep hstart hall
  exact Runs.every_of_along (fun w a h _ => h.shows hs hurl a) halong hall

/-- A service that reads tokens. -/
def linkService : Service := { sampleService with decodeBase64URL := fromBase64url }

def linkBase64 : Base64 := ⟨toBase64url, fun text => Base64Text.decode text.toList⟩

def linkCatalog : Catalog :=
  ⟨fun _ => some "Server", fun _ => some ("pw", "Password", "text", true)⟩

/-- User 1 makes a link to the item of the run, and somebody views it. -/
def linkShared : List LinkAction :=
  pagesShared.map .page ++
    [.create (pagesSession 1) 0
        ⟨"1d", 1, List.replicate 32 4, sampleNonce, List.length_replicate⟩
        ⟨List.replicate 32 6, Uuid.ofNat 20⟩,
      .advance 0 1 linkCatalog,
      .advance 0 1 linkCatalog,
      .view (toBase64url (List.replicate 32 6)),
      .advance 1 2 linkCatalog,
      .advance 1 2 linkCatalog]

theorem linkBase64_decodeStd (b : Bytes) : linkBase64.decodeStd (toBase64 b) = some b := by
  simp only [linkBase64, toBase64, String.toList_ofList, Base64Text.decode_encode]

theorem linkService_decodeBase64URL (raw : Bytes) :
    linkService.decodeBase64URL (linkBase64.encodeRawURL raw) = some raw := by
  simp only [linkService, linkBase64, fromBase64url_toBase64url]

theorem keyed_linkShared :
    ∀ a ∈ linkShared, a.Keyed linkService fun _ => List.replicate 32 4 := by
  intro a ha
  rw [linkShared, List.mem_append] at ha
  obtain ha | ha := ha
  · obtain ⟨action, _, rfl⟩ := List.mem_map.mp ha
    trivial
  · simp only [List.mem_cons, List.not_mem_nil, or_false] at ha
    obtain rfl | rfl | rfl | rfl | rfl | rfl := ha
    · rfl
    · trivial
    · trivial
    · trivial
    · trivial
    · trivial

theorem showsLink_along_linkShared :
    Runs.Every (LinkWorld.step linkService linkBase64 sampleSubtle)
      (ShowsLink linkService linkBase64 sampleSubtle fun _ => List.replicate 32 4)
      ⟨.start pagesState, ⟨{}, []⟩⟩ linkShared :=
  showsLink_along_runs linkService linkBase64 sampleSubtle_ideal linkBase64_decodeStd
    linkService_decodeBase64URL rfl rfl linkShared keyed_linkShared

end Links

end IronStock

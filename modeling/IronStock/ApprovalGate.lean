import IronStock.ItemReads
import IronStock.VaultHandlers

/-!
# The approval gate

An item that requires approval, and a caller who is neither an admin nor the
item's creator and has no active approval: which of the five read endpoints
give them a secret of the item. Only `Get` asks for the approval, and not of a
caller who has a share row.
-/
namespace IronStock

/-- An item behind the gate, for a caller the gate is meant for. -/
structure Gated (db : DB) (now : Time) (claims : Claims) (x : Uuid) (item : Item) : Prop where
  row : db.item? x = some item
  requiresApproval : item.requiresApproval = true
  notAdmin : claims.hasRole .admin = false
  notOwner : item.createdBy ≠ claims.subject
  noApproval : db.hasActiveApproval now x claims.subject = false

/-- No field value and no wrapped DEK in an answer of `Get`. -/
def ItemResponse.HidesSecrets (resp : ItemResponse) : Prop :=
  (∀ f ∈ resp.fields.getD [], f.valueEnc = none) ∧ resp.ownerDEKWrapped = none

/-- None of the read endpoints returns a secret of the item. -/
structure GateHolds (svc : Service) (vault : Option VaultClient) (storage : Storage) (db : DB)
    (now : Time) (claims : Claims) (itemID : String) : Prop where
  get : ∀ resp, (itemGet svc db now claims itemID).2 = .ok resp → resp.HidesSecrets
  listFieldVersions : ∀ fieldDefIDStr out,
    listFieldVersions svc db now claims itemID fieldDefIDStr = .ok out → out = []
  getDownloadURL : ∀ attID url, getDownloadURL storage db now claims itemID attID ≠ .ok url
  vaultFetch : ∀ data, (vaultFetch svc vault db now claims itemID).2 = .ok data → data = []
  issueDynamicCred : ∀ r, issueDynamicCred svc vault db now claims itemID ≠ .ok r

/-- The caller's level on the item is at least read. -/
def Readable (db : DB) (now : Time) (claims : Claims) (x : Uuid) : Prop :=
  ∃ perm, itemPermissionOf db now claims.subject x = .ok perm ∧ perm.allowsRead = true

/-- The external source the vault handlers would use. -/
def Item.source (svc : Service) (item : Item) : Option ExternalSourceVault :=
  item.externalSource.bind svc.unmarshalSource

/-- There is no secret of the item to be had with read on it. -/
structure NothingToRead (svc : Service) (vault : Option VaultClient) (storage : Storage) (db : DB)
    (now : Time) (claims : Claims) (x : Uuid) (item : Item) : Prop where
  share : fetchCallerDEK db x claims.subject = none ∨
    decryptItemName svc x.text item.serverDekWrapped item.nameEnc = none
  versions : ∀ d, isInt8 d = true → fieldVersionRows db x d = []
  attachments : ∀ att row, db.confirmedAttachment? att x = some row →
    storage.presignGetURL row.storageKey = none
  kv : ∀ client ∈ vault, ∀ src ∈ item.source svc, checkKVSource src = .ok () →
    ∀ data, client.readKV src = .ok data → data = []
  dynamic : ∀ client ∈ vault, ∀ src ∈ item.source svc, checkDynamicSource src = .ok () →
    client.issueDynamicCred now src.mount src.ttl = none

section Gate

variable {svc : Service} {vault : Option VaultClient} {storage : Storage} {db : DB} {now : Time}
  {claims : Claims} {itemID : String} {x : Uuid} {item : Item}

theorem requireItemRead_iff (hx : castUuid itemID = some x) {denied : ApiError} {u : Unit} :
    requireItemRead db now claims itemID denied = .ok u ↔ Readable db now claims x := by
  rw [requireItemRead_eq_ok, resolveItemPermission_of_cast hx, Readable]

/-- Letting stale approvals expire makes no approval active. -/
theorem hasActiveApproval_expire (db : DB) (now : Time) (x userID : Uuid) :
    (db.expireApprovals now x userID).hasActiveApproval now x userID =
      db.hasActiveApproval now x userID := by
  refine Table.any_updateWhere ?_ db.accessRequests
  intro r hstale
  simp only [decide_eq_true_eq] at hstale
  obtain ⟨_, _, _, hexp⟩ := hstale
  cases he : r.expiresAt with
  | none => simp [he] at hexp
  | some t =>
    rw [he] at hexp
    have hlt : ¬ now < t := by simpa using hexp
    simp [AccessRequest.isActive, he, hlt]

/-! ## One endpoint after the other -/

theorem itemGetFull_eq_ok (hx : castUuid itemID = some x) {y : Uuid} {resp : ItemResponse} :
    itemGetFull svc db now claims itemID = .ok (y, resp) ↔
      ∃ perm item full, readLevel db now claims itemID = .ok perm ∧ db.item? x = some item ∧
        fetchItemFull svc db item claims.subject = some full ∧ y = x ∧
        resp = { full with permission := perm } := by
  have hne : itemID ≠ "" := by
    rintro rfl
    simp at hx
  have hfetch : ∀ item, fetchItem db itemID = .ok item ↔ db.item? x = some item := by
    intro item
    simp [fetchItem, hx]
  have hid : ∀ item, db.item? x = some item → item.id = x :=
    fun item h => (Table.lookup_eq_some h).2
  simp only [itemGetFull, Reply.bind_eq_ok, Reply.require_eq_ok, Reply.orElse_eq_ok,
    Reply.pure_eq_ok, hfetch, Prod.mk.injEq]
  constructor
  · rintro ⟨_, _, perm, hperm, item, hitem, full, hfull, rfl, rfl⟩
    exact ⟨perm, item, full, hperm, hitem, hfull, hid item hitem, rfl⟩
  · rintro ⟨perm, item, full, hperm, hitem, hfull, rfl, rfl⟩
    exact ⟨(), hne, perm, hperm, item, hitem, full, hfull, hid item hitem, rfl⟩

theorem itemGetFull_of_gated (h : Gated db now claims x item) (hx : castUuid itemID = some x)
    {y : Uuid} {resp : ItemResponse} :
    itemGetFull svc db now claims itemID = .ok (y, resp) ↔
      ∃ perm full, itemPermissionOf db now claims.subject x = .ok perm ∧ perm.allowsRead = true ∧
        fetchItemFull svc db item claims.subject = some full ∧ y = x ∧
        resp = { full with permission := perm } := by
  have hlevel (perm : Perm) : readLevel db now claims itemID = .ok perm ↔
      itemPermissionOf db now claims.subject x = .ok perm ∧ perm.allowsRead = true := by
    simp only [readLevel, h.notAdmin, Bool.false_eq_true, if_false,
      resolveItemPermission_of_cast hx]
    cases itemPermissionOf db now claims.subject x with
    | error e => simp
    | ok p =>
      by_cases hp : p.allowsRead = true
      · simp only [hp, if_true, Except.ok.injEq]
        constructor
        · rintro rfl
          exact ⟨rfl, hp⟩
        · exact And.left
      · simp only [hp, if_false, reduceCtorEq, Except.ok.injEq, false_iff]
        rintro ⟨rfl, hr⟩
        exact hp hr
  rw [itemGetFull_eq_ok hx]
  constructor
  · rintro ⟨perm, row, full, hperm, hrow, hfull, rfl, rfl⟩
    rw [h.row] at hrow
    cases hrow
    obtain ⟨hperm, hread⟩ := (hlevel perm).mp hperm
    exact ⟨perm, full, hperm, hread, hfull, rfl, rfl⟩
  · rintro ⟨perm, full, hperm, hread, hfull, rfl, rfl⟩
    exact ⟨perm, item, full, (hlevel perm).mpr ⟨hperm, hread⟩, h.row, hfull, rfl, rfl⟩

theorem get_hides_iff (h : Gated db now claims x item) (hx : castUuid itemID = some x)
    (hread : Readable db now claims x) :
    (∀ resp, (itemGet svc db now claims itemID).2 = .ok resp → resp.HidesSecrets) ↔
      fetchCallerDEK db x claims.subject = none ∨
        decryptItemName svc x.text item.serverDekWrapped item.nameEnc = none := by
  obtain ⟨perm, hperm, hallows⟩ := hread
  have hid : item.id = x := (Table.lookup_eq_some h.row).2
  cases hname : decryptItemName svc x.text item.serverDekWrapped item.nameEnc with
  | none =>
    -- the name cannot be opened, so there is no answer
    have hfull : fetchItemFull svc db item claims.subject = none := by
      simp [fetchItemFull, hid, hname]
    refine iff_of_true ?_ (.inr rfl)
    intro resp hresp
    unfold itemGet at hresp
    split at hresp
    · cases hresp
    · next hok =>
      obtain ⟨_, _, _, _, hsome, _⟩ := (itemGetFull_of_gated h hx).mp hok
      rw [hfull] at hsome
      cases hsome
  | some name =>
    have hfull : fetchItemFull svc db item claims.subject =
        some (item.response svc db claims.subject name) := by
      rw [fetchItemFull, hid, hname]
      rfl
    have hok : itemGetFull svc db now claims itemID =
        .ok (x, { item.response svc db claims.subject name with permission := perm }) :=
      (itemGetFull_of_gated h hx).mpr ⟨perm, _, hperm, hallows, hfull, rfl, rfl⟩
    simp only [itemGet, hok, ItemResponse.isGated, Item.response, h.requiresApproval, h.notAdmin,
      hid, hasActiveApproval_expire, h.noApproval]
    cases hshare : fetchCallerDEK db x claims.subject with
    | none => simp [ItemResponse.HidesSecrets, ItemResponse.withheld]
    | some d => simp [ItemResponse.HidesSecrets]

theorem listFieldVersions_empty_iff (hx : castUuid itemID = some x)
    (hread : Readable db now claims x) :
    (∀ fieldDefIDStr out,
      listFieldVersions svc db now claims itemID fieldDefIDStr = .ok out → out = []) ↔
      ∀ d, isInt8 d = true → fieldVersionRows db x d = [] := by
  have hmay : MayReadItem db now claims itemID := by
    rw [MayReadItem, resolveItemPermission_of_cast hx]
    exact .inr hread
  constructor
  · intro hall d hd
    have hans : listFieldVersions svc db now claims itemID (int64Text d) =
        .ok ((fieldVersionRows db x d).map (·.output svc)) :=
      (listFieldVersions_eq_ok hx (parseInt64_int64Text hd)).mpr ⟨hmay, rfl⟩
    exact List.map_eq_nil_iff.mp (hall _ _ hans)
  · intro hnone fieldDefIDStr out hout
    obtain ⟨d, hd⟩ : ∃ d, parseInt64 fieldDefIDStr = some d := by
      simp only [listFieldVersions, Reply.bind_eq_ok, Reply.orElse_eq_ok] at hout
      obtain ⟨_, _, d, hd, _⟩ := hout
      exact ⟨d, hd⟩
    obtain ⟨_, hrows⟩ := (listFieldVersions_eq_ok hx hd).mp hout
    rw [← hrows, hnone d (isInt8_of_parseInt64 hd), List.map_nil]

theorem getDownloadURL_never_iff (h : Gated db now claims x item) (hx : castUuid itemID = some x)
    (hread : Readable db now claims x) :
    (∀ attID url, getDownloadURL storage db now claims itemID attID ≠ .ok url) ↔
      ∀ att row, db.confirmedAttachment? att x = some row →
        storage.presignGetURL row.storageKey = none := by
  have hne : itemID ≠ "" := by
    rintro rfl
    rw [castUuid_empty] at hx
    cases hx
  have hok (attID : String) (url : AttachmentDownloadURL) :
      getDownloadURL storage db now claims itemID attID = .ok url ↔
        attID ≠ "" ∧ ∃ att row u, castUuid attID = some att ∧
          db.confirmedAttachment? att x = some row ∧
          storage.presignGetURL row.storageKey = some u ∧
          (⟨u, now + attachmentDownloadExpiry⟩ : AttachmentDownloadURL) = url := by
    simp only [getDownloadURL, Reply.bind_eq_ok, Reply.require_eq_ok, Reply.orElse_eq_ok,
      Reply.unlessAdmin_eq_ok, requireItemRead_iff hx, Reply.pure_eq_ok, hx, h.notAdmin]
    constructor
    · rintro ⟨_, ⟨_, hatt⟩, _, _, y, hy, att, hcast, row, hrow, u, hu, rfl⟩
      cases hy
      exact ⟨hatt, att, row, u, hcast, hrow, hu, rfl⟩
    · rintro ⟨hatt, att, row, u, hcast, hrow, hu, rfl⟩
      exact ⟨(), ⟨hne, hatt⟩, (), .inr hread, x, rfl, att, hcast, row, hrow, u, hu, rfl⟩
  constructor
  · intro hnever att row hrow
    by_contra hsome
    obtain ⟨u, hu⟩ := Option.ne_none_iff_exists'.mp hsome
    exact hnever att.text _ ((hok att.text _).mpr
      ⟨Uuid.text_ne_empty att, att, row, u, castUuid_text att, hrow, hu, rfl⟩)
  · intro hnone attID url hurl
    obtain ⟨_, att, row, u, _, hrow, hu, _⟩ := (hok attID url).mp hurl
    rw [hnone att row hrow] at hu
    cases hu

theorem loadExternalSource_of_gated (h : Gated db now claims x item)
    (hx : castUuid itemID = some x) :
    loadExternalSource db itemID = .ok item.externalSource := by
  simp [loadExternalSource, hx, h.row]

theorem vaultFetchSource_of_gated (h : Gated db now claims x item) (hx : castUuid itemID = some x)
    (hread : Readable db now claims x) {client : VaultClient} {src : ExternalSourceVault} :
    vaultFetchSource svc db now claims itemID vault = .ok (client, src) ↔
      vault = some client ∧ item.source svc = some src ∧ checkKVSource src = .ok () := by
  have hne : itemID ≠ "" := by
    rintro rfl
    rw [castUuid_empty] at hx
    cases hx
  simp only [vaultFetchSource, Reply.bind_eq_ok, Reply.require_eq_ok, Reply.orElse_eq_ok,
    Reply.unlessAdmin_eq_ok, requireItemRead_iff hx, Reply.pure_eq_ok, requireVault,
    loadExternalSource_of_gated h hx, Except.ok.injEq, Prod.mk.injEq, Item.source,
    Option.bind_eq_some_iff]
  constructor
  · rintro ⟨_, _, c, hc, _, _, raw, rfl, text, htext, s, hs, _, hcheck, rfl, rfl⟩
    exact ⟨hc, ⟨text, htext, hs⟩, hcheck⟩
  · rintro ⟨hc, ⟨text, htext, hs⟩, hcheck⟩
    exact ⟨(), hne, client, hc, (), .inr hread, _, rfl, text, htext, src, hs, (), hcheck, rfl, rfl⟩

theorem vaultFetch_empty_iff (h : Gated db now claims x item) (hx : castUuid itemID = some x)
    (hread : Readable db now claims x) :
    (∀ data, (vaultFetch svc vault db now claims itemID).2 = .ok data → data = []) ↔
      ∀ client ∈ vault, ∀ src ∈ item.source svc, checkKVSource src = .ok () →
        ∀ data, client.readKV src = .ok data → data = [] := by
  constructor
  · intro hall client hclient src hsrc hcheck data hdata
    have hok := (vaultFetchSource_of_gated h hx hread).mpr ⟨hclient, hsrc, hcheck⟩
    exact hall data (by simp [vaultFetch, hok, hdata])
  · intro hnone data hdata
    unfold vaultFetch at hdata
    split at hdata
    · cases hdata
    · next client src hok =>
      obtain ⟨hclient, hsrc, hcheck⟩ := (vaultFetchSource_of_gated h hx hread).mp hok
      split at hdata
      · cases hdata
      · next kvData hkv =>
        cases hdata
        exact hnone client hclient src hsrc hcheck _ hkv

theorem issueDynamicCred_never_iff (h : Gated db now claims x item)
    (hx : castUuid itemID = some x) (hread : Readable db now claims x) :
    (∀ r, issueDynamicCred svc vault db now claims itemID ≠ .ok r) ↔
      ∀ client ∈ vault, ∀ src ∈ item.source svc, checkDynamicSource src = .ok () →
        client.issueDynamicCred now src.mount src.ttl = none := by
  have hne : itemID ≠ "" := by
    rintro rfl
    rw [castUuid_empty] at hx
    cases hx
  simp only [issueDynamicCred, ne_eq, Reply.bind_eq_ok, Reply.require_eq_ok, Reply.orElse_eq_ok,
    Reply.unlessAdmin_eq_ok, requireItemRead_iff hx, Reply.pure_eq_ok, requireVault,
    loadExternalSource_of_gated h hx, Except.ok.injEq, Item.source]
  constructor
  · intro hnever client hclient src hsrc hcheck
    by_contra hsome
    obtain ⟨cred, hcred⟩ := Option.ne_none_iff_exists'.mp hsome
    obtain ⟨text, htext, hs⟩ := Option.bind_eq_some_iff.mp hsrc
    exact hnever _ ⟨(), hne, client, hclient, (), .inr hread, _, rfl, text, htext, src, hs, (),
      hcheck, cred, hcred, rfl⟩
  · rintro hnone r ⟨_, _, client, hclient, _, _, raw, rfl, text, htext, src, hs, _, hcheck, cred,
      hcred, _⟩
    rw [hnone client hclient src (Option.bind_eq_some_iff.mpr ⟨text, htext, hs⟩) hcheck] at hcred
    cases hcred

/-- Without read on the item every endpoint refuses. -/
theorem gateHolds_of_not_readable (h : Gated db now claims x item)
    (hx : castUuid itemID = some x) (hread : ¬ Readable db now claims x) :
    GateHolds svc vault storage db now claims itemID := by
  have hdenied {denied : ApiError} : ∀ u, requireItemRead db now claims itemID denied ≠ .ok u :=
    fun u hu => hread ((requireItemRead_iff hx).mp hu)
  constructor
  · intro resp hresp
    unfold itemGet at hresp
    split at hresp
    · cases hresp
    · next hok =>
      obtain ⟨perm, _, hperm, hallows, _⟩ := (itemGetFull_of_gated h hx).mp hok
      exact absurd ⟨perm, hperm, hallows⟩ hread
  · intro fieldDefIDStr out hout
    simp [listFieldVersions, Reply.bind_eq_ok, h.notAdmin, hdenied] at hout
  · intro attID url hurl
    simp [getDownloadURL, Reply.bind_eq_ok, h.notAdmin, hdenied] at hurl
  · intro data hdata
    unfold vaultFetch at hdata
    split at hdata
    · cases hdata
    · next hok => simp [vaultFetchSource, Reply.bind_eq_ok, h.notAdmin, hdenied] at hok
  · intro r hr
    simp [issueDynamicCred, Reply.bind_eq_ok, h.notAdmin, hdenied] at hr

end Gate

/-- The gate holds exactly for callers who cannot read the item, and where
there is nothing to be read. -/
theorem approval_gate_iff (svc : Service) (vault : Option VaultClient) (storage : Storage)
    (db : DB) (now : Time) (claims : Claims) (itemID : String) {x : Uuid} {item : Item}
    (hx : castUuid itemID = some x) (h : Gated db now claims x item) :
    GateHolds svc vault storage db now claims itemID ↔
      ¬ Readable db now claims x ∨ NothingToRead svc vault storage db now claims x item := by
  by_cases hread : Readable db now claims x
  · constructor
    · intro hgate
      exact .inr {
        share := (get_hides_iff h hx hread).mp hgate.get
        versions := (listFieldVersions_empty_iff hx hread).mp hgate.listFieldVersions
        attachments := (getDownloadURL_never_iff h hx hread).mp hgate.getDownloadURL
        kv := (vaultFetch_empty_iff h hx hread).mp hgate.vaultFetch
        dynamic := (issueDynamicCred_never_iff h hx hread).mp hgate.issueDynamicCred }
    · rintro (hno | hnothing)
      · exact absurd hread hno
      · exact {
          get := (get_hides_iff h hx hread).mpr hnothing.share
          listFieldVersions := (listFieldVersions_empty_iff hx hread).mpr hnothing.versions
          getDownloadURL := (getDownloadURL_never_iff h hx hread).mpr hnothing.attachments
          vaultFetch := (vaultFetch_empty_iff h hx hread).mpr hnothing.kv
          issueDynamicCred := (issueDynamicCred_never_iff h hx hread).mpr hnothing.dynamic }
  · exact iff_of_true (gateHolds_of_not_readable h hx hread) (.inl hread)

/-- Item 5 of user 1, behind the gate, its name sealed for concrete runs. -/
def gatedItem : Item :=
  let dek := List.replicate keyLength 3
  { sampleItem 5 10 1 with
    requiresApproval := true
    serverDekWrapped := sampleService.master.sealBlob sampleNonce dek
      (makeAAD "items" (Uuid.ofNat 5).text "server_dek")
    nameEnc := (sampleService.aes dek).sealBlob sampleNonce (bytesOf "db")
      (makeAAD "items" (Uuid.ofNat 5).text "name_enc") }

/-- User 2 reads the folder of item 5 and has no approval. -/
def gatedState : DB where
  users := [sampleUser 1 "owner", sampleUser 2 "reader"]
  folders := [sampleFolder 10 1]
  folderPermissions := [⟨Uuid.ofNat 10, Uuid.ofNat 2, .read, false, .always, none⟩]
  items := [gatedItem]
  itemFields := [⟨0, Uuid.ofNat 5, 1, some ([7], sampleNonce), 0⟩]
  nextFieldId := 1

def sampleStorage : Storage := ⟨fun key => some ("https://storage/" ++ key)⟩

/-- A reader of the folder without a share row is shown nothing. -/
theorem approval_gate_iff_folder_reader :
    GateHolds sampleService none sampleStorage gatedState 0 ⟨Uuid.ofNat 2, [.read]⟩
      (Uuid.ofNat 5).text :=
  (approval_gate_iff sampleService none sampleStorage gatedState 0 ⟨Uuid.ofNat 2, [.read]⟩
    (Uuid.ofNat 5).text (castUuid_text _)
    ⟨(rfl : gatedState.item? (Uuid.ofNat 5) = some gatedItem), rfl, rfl, by decide, rfl⟩).mpr
    (.inr ⟨.inl rfl, fun _ _ => rfl, nofun, nofun, nofun⟩)

/-- The same item shared with user 2 for reading. -/
def gatedSharedState : DB :=
  { gatedState with
    itemShares := [⟨Uuid.ofNat 5, Uuid.ofNat 2, [9], sampleNonce, .read, Uuid.ofNat 1, none,
      .always⟩] }

/-- A recipient of a share counts as the owner and gets the wrapped DEK. -/
theorem approval_gate_open_for_share :
    ¬ ∀ (svc : Service) (vault : Option VaultClient) (storage : Storage) (db : DB) (now : Time)
      (claims : Claims) (itemID : String) (x : Uuid) (item : Item), castUuid itemID = some x →
      Gated db now claims x item → GateHolds svc vault storage db now claims itemID := by
  intro h
  have hget := (h sampleService none sampleStorage gatedSharedState 0 ⟨Uuid.ofNat 2, [.read]⟩
    (Uuid.ofNat 5).text (Uuid.ofNat 5) gatedItem (castUuid_text _)
    ⟨rfl, rfl, rfl, by decide, rfl⟩).get
  have hdek : (itemGet sampleService gatedSharedState 0 ⟨Uuid.ofNat 2, [.read]⟩
      (Uuid.ofNat 5).text).2.toOption.bind ItemResponse.ownerDEKWrapped = some [9] := by decide
  cases hresp : (itemGet sampleService gatedSharedState 0 ⟨Uuid.ofNat 2, [.read]⟩
      (Uuid.ofNat 5).text).2 with
  | error e =>
    rw [hresp] at hdek
    cases hdek
  | ok resp =>
    have hnone := (hget resp hresp).2
    rw [hresp] at hdek
    have hsome : resp.ownerDEKWrapped = some [9] := hdek
    rw [hnone] at hsome
    cases hsome

end IronStock

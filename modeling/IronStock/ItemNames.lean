import IronStock.ItemHandlers
import IronStock.Lib.IdealAead
import IronStock.Lib.Runs

/-!
# Item names

The envelope of a name is bound to the id as the client spelled it when the item
was created. Readers spell the id the way PostgreSQL prints it. Under an ideal
cipher they get the last name written exactly if the two spellings are one.
-/
namespace IronStock

/-! ## Blobs -/

theorem pack_unpack {data : Bytes} {nonceLen : Nat} {b : Blob} (h : unpack data nonceLen = some b) :
    pack b = data ∧ b.version = version1 ∧ b.nonce.length = nonceLen := by
  match data, h with
  | version :: algID :: rest, h =>
    simp only [unpack] at h
    split at h
    · cases h
    · next hlen =>
      split at h
      · cases h
      · next hversion =>
        cases h
        refine ⟨?_, by simpa using hversion, ?_⟩
        · simp only [pack, List.take_append_drop]
        · rw [List.length_take]
          omega

theorem unpack_short {data : Bytes} {nonceLen : Nat} (h : data.length < headerLen + nonceLen) :
    unpack data nonceLen = none := by
  match data with
  | [] => rfl
  | [_] => rfl
  | version :: algID :: rest =>
    have hrest : rest.length < nonceLen := by
      simp only [List.length_cons, headerLen] at h
      omega
    simp only [unpack, if_pos hrest]

theorem unpack_version {version : UInt8} {rest : Bytes} {nonceLen : Nat} (h : version ≠ version1) :
    unpack (version :: rest) nonceLen = none := by
  cases rest with
  | nil => rfl
  | cons algID rest => simp only [unpack, if_pos h, ite_self]

/-! ## Associated data -/

/-- A part of an associated data that keeps the parts apart. -/
def ColonFree (s : String) : Prop := ':' ∉ s.toList

instance (s : String) : Decidable (ColonFree s) := inferInstanceAs (Decidable (¬ _))

theorem bytesOf_injective : Function.Injective bytesOf := by
  intro s t h
  apply String.toByteArray_inj.mp
  apply ByteArray.ext
  apply Array.toList_inj.mp
  exact h

theorem makeAAD_injective {table rowID column table' rowID' column' : String}
    (htable : ColonFree table) (hrow : ColonFree rowID) (hcolumn : ColonFree column)
    (htable' : ColonFree table') (hrow' : ColonFree rowID') (hcolumn' : ColonFree column')
    (h : makeAAD table rowID column = makeAAD table' rowID' column') :
    table = table' ∧ rowID = rowID' ∧ column = column' := by
  have hsplit : ∀ t r c : String, ColonFree t → ColonFree r → ColonFree c →
      (t ++ ":" ++ r ++ ":" ++ c).toList.splitOn ':' = [t.toList, r.toList, c.toList] := by
    intro t r c ht hr hc
    have hjoin : (t ++ ":" ++ r ++ ":" ++ c).toList =
        [':'].intercalate [t.toList, r.toList, c.toList] := by
      simp [List.intercalate]
    rw [hjoin]
    apply List.splitOn_intercalate
    · simp only [List.mem_cons, List.not_mem_nil, or_false, forall_eq_or_imp, forall_eq]
      exact ⟨ht, hr, hc⟩
    · exact List.cons_ne_nil _ _
  have htext := congrArg (fun s : String => s.toList.splitOn ':') (bytesOf_injective h)
  rw [hsplit table rowID column htable hrow hcolumn,
    hsplit table' rowID' column' htable' hrow' hcolumn'] at htext
  simpa [String.toList_inj] using htext

/-- Within one column the row is all that differs. -/
theorem makeAAD_row {table rowID rowID' column : String}
    (h : makeAAD table rowID column = makeAAD table rowID' column) : rowID = rowID' := by
  have htext := congrArg String.toList (bytesOf_injective h)
  simp only [String.toList_append, List.append_assoc, List.append_cancel_left_eq] at htext
  rw [← List.append_assoc, ← List.append_assoc, List.append_cancel_right_eq,
    List.append_cancel_right_eq] at htext
  exact String.toList_inj.mp htext

theorem looksLikeUUID_colonFree {s : String} (h : looksLikeUUID s = true) : ColonFree s := by
  intro hmem
  simp only [looksLikeUUID, Bool.and_eq_true, List.all_eq_true] at h
  obtain ⟨i, hi, hget⟩ := List.mem_iff_getElem.mp hmem
  have hchar := h.2 (':', i) (by
    rw [List.mem_zipIdx_iff_getElem?]
    simp [hi, hget])
  simp only at hchar
  have hdash : (':' : Char) ≠ '-' := by decide
  have hletter : isHexLetter ':' = false := by decide
  simp [hdash, hletter] at hchar

/-! ## An ideal cipher -/

/-- The ciphers of all keys. -/
def Service.scheme (svc : Service) : IdealAead.Scheme Bytes Bytes Bytes Bytes Bytes where
  encrypt key nonce plaintext aad := (svc.aes key).encrypt nonce plaintext aad
  decrypt key nonce body aad := (svc.aes key).decrypt nonce body aad

section Ideal

variable {svc : Service}

theorem open_seal_eq (hideal : IdealAead.Ideal svc.scheme) (key : Bytes) (nonce : Nonce)
    (p aad aad' : Bytes) :
    (svc.aes key).openBlob ((svc.aes key).sealBlob nonce p aad) aad' =
      if aad = aad' then some p else none := by
  rw [openBlob_sealBlob]
  exact hideal.decrypt_encrypt_eq key nonce.bytes p aad aad'

/-- Under another associated data a blob opens with no key. -/
theorem open_seal_of_ne (hideal : IdealAead.Ideal svc.scheme) {aad aad' : Bytes} (h : aad ≠ aad')
    (key key' : Bytes) (nonce : Nonce) (p : Bytes) :
    (svc.aes key').openBlob ((svc.aes key).sealBlob nonce p aad) aad' = none := by
  rw [openBlob_sealBlob]
  exact hideal.decrypt_of_ne h key key' nonce.bytes nonce.bytes p

end Ideal

/-- The layers below the name. -/
structure BlobFormat (svc : Service) : Prop where
  aad_injective : ∀ table rowID column table' rowID' column', ColonFree table → ColonFree rowID →
    ColonFree column → ColonFree table' → ColonFree rowID' → ColonFree column' →
    makeAAD table rowID column = makeAAD table' rowID' column' →
    table = table' ∧ rowID = rowID' ∧ column = column'
  unpack_pack : ∀ b : Blob, b.version = version1 → unpack (pack b) b.nonce.length = some b
  pack_unpack : ∀ data nonceLen b, unpack data nonceLen = some b →
    pack b = data ∧ b.version = version1 ∧ b.nonce.length = nonceLen
  short : ∀ data nonceLen, data.length < headerLen + nonceLen → unpack data nonceLen = none
  version : ∀ version rest nonceLen, version ≠ version1 → unpack (version :: rest) nonceLen = none
  open_seal : ∀ key nonce p aad aad',
    (svc.aes key).openBlob ((svc.aes key).sealBlob nonce p aad) aad' =
      if aad = aad' then some p else none

theorem blobFormat {svc : Service} (hideal : IdealAead.Ideal svc.scheme) : BlobFormat svc where
  aad_injective _ _ _ _ _ _ := makeAAD_injective
  unpack_pack _ := unpack_pack
  pack_unpack _ _ _ := pack_unpack
  short _ _ := unpack_short
  version _ _ _ := unpack_version
  open_seal := open_seal_eq hideal

/-! ## Renames -/

/-- One update request. -/
structure Rename where
  now : Time
  claims : Claims
  id : String
  draw : EnvelopeDraw
  req : ItemRequest

/-- The database, and the last name written to the item. -/
structure NameState where
  db : DB
  name : String

/-- A refused update writes nothing, and an accepted one names the item its id reads as. -/
def NameState.step (svc : Service) (u : Uuid) (s : NameState) (r : Rename) : NameState :=
  match itemUpdate svc s.db r.now r.claims r.id r.draw r.req with
  | .error _ => s
  | .ok (db, _) => ⟨db, if castUuid r.id = some u then r.req.name else s.name⟩

/-- The columns of the item read back as the last name, and the ciphertext of the
name opens nowhere else. -/
structure NameKept (svc : Service) (u : Uuid) (s : NameState) : Prop where
  readsBack : ∃ item, s.db.item? u = some item ∧
    decryptItemName svc u.text item.serverDekWrapped item.nameEnc = some (bytesOf s.name)
  otherRow : ∀ item, s.db.item? u = some item → ∀ v, v ≠ u → ∀ dekWrapped,
    decryptItemName svc v.text dekWrapped item.nameEnc = none
  elsewhere : ∀ item, s.db.item? u = some item → ∀ key table rowID column, ColonFree table →
    ColonFree rowID → ColonFree column →
    ¬ (table = "items" ∧ castUuid rowID = some u ∧ column = "name_enc") →
    (svc.aes key).openBlob item.nameEnc (makeAAD table rowID column) = none

/-- The two blobs of the item, bound to the spelling `id` of its row. -/
structure SealedAs (svc : Service) (u : Uuid) (id : String) (dek : Bytes) (s : NameState) :
    Prop where
  spelling : castUuid id = some u
  colonFree : ColonFree id
  key : dek.length = keyLength
  columns : ∃ item dekNonce nameNonce, s.db.item? u = some item ∧
    item.serverDekWrapped = svc.master.sealBlob dekNonce dek (makeAAD "items" id "server_dek") ∧
    item.nameEnc = (svc.aes dek).sealBlob nameNonce (bytesOf s.name) (makeAAD "items" id "name_enc")

section Writes

variable {svc : Service}

theorem newCipher_eq_some {key : Bytes} {c : Aead} (h : svc.newCipher key = some c) :
    key.length = keyLength ∧ c = svc.aes key := by
  simp only [Service.newCipher, Option.ite_none_right_eq_some, Option.some.injEq] at h
  exact ⟨h.1, h.2.symm⟩

theorem newCipher_of_length {key : Bytes} (h : key.length = keyLength) :
    svc.newCipher key = some (svc.aes key) := if_pos h

theorem sealItemName_eq_ok {draw : EnvelopeDraw} {id name : String} {envelope : Envelope}
    (h : sealItemName svc draw id name = .ok envelope) :
    envelope.serverDekWrapped = svc.master.sealBlob draw.dekNonce draw.serverDek
        (makeAAD "items" id "server_dek") ∧
      envelope.nameEnc = (svc.aes draw.serverDek).sealBlob draw.nameNonce (bytesOf name)
        (makeAAD "items" id "name_enc") := by
  simp only [sealItemName, newCipher_of_length draw.length_serverDek] at h
  split at h
  · cases h
  · cases h
    exact ⟨rfl, rfl⟩

theorem NewItem.row_sealed {now : Time} {n : NewItem} {row : Item} (h : n.row svc now = .ok row) :
    row.serverDekWrapped = n.envelope.serverDekWrapped ∧ row.nameEnc = n.envelope.nameEnc := by
  simp only [NewItem.row] at h
  split at h
  · split at h
    · cases h
    · split at h
      · split at h
        · cases h
          exact ⟨rfl, rfl⟩
        · cases h
      · cases h
  · cases h
  · cases h

theorem createItemRow_eq_ok {db db' : DB} {now : Time} {claims : Claims} {req : ItemRequest}
    {envelope : Envelope} (h : createItemRow svc db now claims req envelope = .ok db') :
    ∃ row, castUuid req.id = some row.id ∧ db.item? row.id = none ∧
      row.serverDekWrapped = envelope.serverDekWrapped ∧ row.nameEnc = envelope.nameEnc ∧
      db' = db.addItem row := by
  simp only [createItemRow] at h
  split at h
  · cases h
  · split at h
    · next hinsert =>
      cases h
      obtain ⟨row, hrow, hfree, -, rfl⟩ := insertItem_fail_eq_ok hinsert
      obtain ⟨hwrapped, hname⟩ := NewItem.row_sealed hrow
      exact ⟨row, (NewItem.row_eq_ok hrow).1, hfree, hwrapped, hname, rfl⟩
    · split at h <;> cases h

/-- What an accepted create has written to the columns of the name. -/
theorem itemCreate_sealed {db db' : DB} {now : Time} {claims : Claims} {draw : EnvelopeDraw}
    {req : ItemRequest} {resp : ItemResponse} {u : Uuid}
    (h : itemCreate svc db now claims draw req = .ok (db', resp))
    (hid : castUuid req.id = some u) :
    SealedAs svc u req.id draw.serverDek ⟨db', req.name⟩ := by
  simp only [itemCreate, validateItemCreate, Reply.bind_eq_ok, Reply.require_eq_ok,
    statement_eq_ok, Reply.orElse_eq_ok, Reply.pure_eq_ok, Prod.mk.injEq] at h
  obtain ⟨_, ⟨_, hlooks, _⟩, _, _, envelope, henvelope, db₁, hrow, db₂, hshare, _, _, db₃,
    hfields, rfl, _⟩ := h
  have hsealed : sealItemName svc draw req.id req.name = .ok envelope := by
    simp only [envelopeReply] at henvelope
    split at henvelope
    · next hseal =>
      cases henvelope
      exact hseal
    · cases henvelope
    · cases henvelope
  obtain ⟨hwrapped, hname⟩ := sealItemName_eq_ok hsealed
  obtain ⟨row, hcast, hfree, hrowWrapped, hrowName, rfl⟩ := createItemRow_eq_ok hrow
  obtain rfl : row.id = u := Option.some.inj (hcast.symm.trans hid)
  obtain ⟨_, _, _, _, _, rfl⟩ := insertOwnerShare_fail_eq_ok hshare
  obtain ⟨fs, n, vs, rfl⟩ := insertItemFields_frame hfields
  refine ⟨hid, looksLikeUUID_colonFree hlooks, draw.length_serverDek, row, draw.dekNonce,
    draw.nameNonce, ?_, hrowWrapped.trans hwrapped, hrowName.trans hname⟩
  have hfind := item?_addItem db row row.id
  rw [hfree, if_pos rfl, Option.none_or] at hfind
  exact hfind

theorem resealItemName_eq_ok {draw : EnvelopeDraw} {existing : Item} {id name : String}
    {names : Bytes × Bytes} (h : resealItemName svc draw existing id name = .ok names) :
    ∃ dek, svc.master.openBlob existing.serverDekWrapped (makeAAD "items" id "server_dek") =
        some dek ∧
      names.1 = (svc.aes dek).sealBlob draw.nameNonce (bytesOf name)
        (makeAAD "items" id "name_enc") := by
  simp only [resealItemName, Reply.bind_eq_ok, Reply.orElse_eq_ok, Reply.pure_eq_ok] at h
  obtain ⟨dek, hopen, cipher, hcipher, _, _, rfl⟩ := h
  obtain ⟨-, rfl⟩ := newCipher_eq_some hcipher
  exact ⟨dek, hopen, rfl⟩

theorem updateItem_sets {db db' : DB} {now : Time} {existing : Item} {req : ItemRequest}
    {nameEnc nameSearch : Bytes}
    (h : updateItem svc db now existing req nameEnc nameSearch = .ok db') :
    ∃ c : ItemChange, c.nameEnc = nameEnc ∧
      db' = { db with items := Table.updateWhere (·.id = existing.id) (·.set c now) db.items } := by
  simp only [updateItem] at h
  split at h
  · cases h
  · next c hchange =>
    split at h
    · cases h
      refine ⟨c, ?_, rfl⟩
      simp only [itemChange] at hchange
      split at hchange
      · split at hchange
        · cases hchange
        · split at hchange
          · cases hchange
            rfl
          · cases hchange
      · cases hchange
      · cases hchange
    · cases h

theorem replaceItemFields_items {db db' : DB} {now : Time} {itemID : Uuid}
    {fields : Option (List ItemFieldInput)}
    (h : replaceItemFields db now itemID fields = some db') : db'.items = db.items := by
  cases fields with
  | none =>
    cases h
    rfl
  | some fields =>
    obtain ⟨fs, n, vs, rfl⟩ := insertItemFields_frame h
    rfl

/-- What an accepted update has written to them: it opens the key under its own
spelling of the id. -/
theorem itemUpdate_sealed {db db' : DB} {now : Time} {claims : Claims} {id : String}
    {draw : EnvelopeDraw} {req : ItemRequest} {links : List Uuid}
    (h : itemUpdate svc db now claims id draw req = .ok (db', links)) :
    ∃ existing dek c, castUuid id = some existing.id ∧ db.item? existing.id = some existing ∧
      svc.master.openBlob existing.serverDekWrapped (makeAAD "items" id "server_dek") = some dek ∧
      c.nameEnc = (svc.aes dek).sealBlob draw.nameNonce (bytesOf req.name)
        (makeAAD "items" id "name_enc") ∧
      db'.items = Table.updateWhere (·.id = existing.id) (·.set c now) db.items := by
  simp only [itemUpdate, Reply.bind_eq_ok, statement_eq_ok, Reply.orElse_eq_ok, Reply.pure_eq_ok,
    Prod.mk.injEq] at h
  obtain ⟨_, _, _, _, _, _, existing, hfetch, names, hnames, db₁, hupdate, db₂, hfields, rfl,
    _⟩ := h
  obtain ⟨dek, hopen, hname⟩ := resealItemName_eq_ok hnames
  obtain ⟨c, hc, rfl⟩ := updateItem_sets hupdate
  simp only [fetchItem] at hfetch
  split at hfetch
  · cases hfetch
  · next x hcast =>
    rw [Reply.orElse_eq_ok] at hfetch
    obtain rfl : existing.id = x := (Table.lookup_eq_some hfetch).2
    exact ⟨existing, dek, c, hcast, hfetch, hopen, hc.trans hname, replaceItemFields_items hfields⟩

/-- An update goes through under the spelling of the create only, and then the name
it writes is sealed the same way. -/
theorem SealedAs.step (hideal : IdealAead.Ideal svc.scheme) {u : Uuid} {id : String} {dek : Bytes}
    {s : NameState} (h : SealedAs svc u id dek s) (r : Rename) :
    SealedAs svc u id dek (s.step svc u r) := by
  simp only [NameState.step]
  cases hupdate : itemUpdate svc s.db r.now r.claims r.id r.draw r.req with
  | error e => exact h
  | ok result =>
    obtain ⟨db', links⟩ := result
    obtain ⟨existing, dek', c, hcast, hrow, hopen, hname, hitems⟩ := itemUpdate_sealed hupdate
    obtain ⟨hspelling, hcolon, hkey, item, dekNonce, nameNonce, hitem, hwrapped, henc⟩ := h
    have hfind : db'.item? u =
        some (if item.id = existing.id then item.set c r.now else item) := by
      have hset : ∀ x : Item, (x.set c r.now).id = x.id := fun _ => rfl
      rw [DB.item?] at hitem
      rw [DB.item?, hitems, Table.lookup_updateWhere hset, hitem]
      simp
    by_cases hu : castUuid r.id = some u
    · obtain rfl : existing.id = u := Option.some.inj (hcast.symm.trans hu)
      obtain rfl : item = existing := Option.some.inj (hitem.symm.trans hrow)
      rw [hwrapped, Service.master, open_seal_eq hideal, Option.ite_none_right_eq_some,
        Option.some.injEq] at hopen
      obtain ⟨haad, rfl⟩ := hopen
      have hid : id = r.id := makeAAD_row haad
      rw [if_pos rfl] at hfind
      refine ⟨hspelling, hcolon, hkey, _, dekNonce, r.draw.nameNonce, hfind, hwrapped, ?_⟩
      rw [if_pos hu, hid]
      exact hname
    · have hother : item.id ≠ existing.id := by
        intro heq
        have hid : item.id = u := (Table.lookup_eq_some hitem).2
        rw [hcast, ← heq, hid] at hu
        exact hu rfl
      rw [if_neg hother] at hfind
      rw [if_neg hu]
      exact ⟨hspelling, hcolon, hkey, item, dekNonce, nameNonce, hfind, hwrapped, henc⟩

/-- A sealed name reads back exactly if the create spelled the id like PostgreSQL. -/
theorem SealedAs.kept_iff (hideal : IdealAead.Ideal svc.scheme) {u : Uuid} {id : String}
    {dek : Bytes} {s : NameState} (h : SealedAs svc u id dek s) :
    NameKept svc u s ↔ id = u.text := by
  obtain ⟨hspelling, hcolon, hkey, item, dekNonce, nameNonce, hitem, hwrapped, hname⟩ := h
  constructor
  · rintro ⟨⟨item', hitem', hread⟩, -, -⟩
    obtain rfl : item = item' := Option.some.inj (hitem.symm.trans hitem')
    simp only [decryptItemName] at hread
    split at hread
    · cases hread
    · next dek' hopen =>
      rw [hwrapped, Service.master, open_seal_eq hideal, Option.ite_none_right_eq_some] at hopen
      exact makeAAD_row hopen.1
  · rintro rfl
    refine ⟨⟨item, hitem, ?_⟩, ?_, ?_⟩
    · simp only [decryptItemName, hwrapped, Service.master, open_seal_eq hideal, if_true,
        newCipher_of_length hkey, hname]
    · intro item' hitem' v hv dekWrapped
      obtain rfl : item = item' := Option.some.inj (hitem.symm.trans hitem')
      simp only [decryptItemName]
      split
      · rfl
      · split
        · rfl
        · next key cipher hcipher =>
          obtain ⟨-, rfl⟩ := newCipher_eq_some hcipher
          rw [hname]
          apply open_seal_of_ne hideal
          intro haad
          exact hv (Uuid.text_injective (makeAAD_row haad)).symm
    · intro item' hitem' key table rowID column htable hrow hcolumn hother
      obtain rfl : item = item' := Option.some.inj (hitem.symm.trans hitem')
      rw [hname]
      apply open_seal_of_ne hideal
      intro haad
      obtain ⟨rfl, rfl, rfl⟩ := makeAAD_injective (by decide) hcolon (by decide) htable hrow
        hcolumn haad
      exact hother ⟨rfl, hspelling, rfl⟩

end Writes

/-- After an accepted create and any updates, the name of the item reads back as the
last one written, and its ciphertext opens nowhere else, exactly if the create
spelled the id the canonical way. -/
theorem item_name_kept_iff (svc : Service) (hideal : IdealAead.Ideal svc.scheme) {db db' : DB}
    {now : Time} {claims : Claims} {draw : EnvelopeDraw} {req : ItemRequest} {resp : ItemResponse}
    (hcreate : itemCreate svc db now claims draw req = .ok (db', resp)) {u : Uuid}
    (hid : castUuid req.id = some u) (renames : List Rename) :
    BlobFormat svc ∧
        Runs.Along (NameState.step svc u) (NameKept svc u) ⟨db', req.name⟩ renames ↔
      req.id = u.text := by
  have hsealed := itemCreate_sealed hcreate hid
  constructor
  · rintro ⟨-, hkept⟩
    exact (hsealed.kept_iff hideal).mp hkept.head
  · intro hcanonical
    have hstep : ∀ s r, SealedAs svc u req.id draw.serverDek s →
        SealedAs svc u req.id draw.serverDek (NameState.step svc u s r) :=
      fun _ r h => h.step hideal r
    have halong := Runs.along_invariant hstep hsealed renames
    exact ⟨blobFormat hideal, halong.mono fun s h => (h.kept_iff hideal).mpr hcanonical⟩

/-- A service whose ciphers are ideal. -/
def idealService : Service :=
  { sampleService with
    aes := fun key =>
      ⟨(IdealAead.tagged 1 0).encrypt key, (IdealAead.tagged 1 0).decrypt key⟩ }

theorem idealService_ideal : IdealAead.Ideal idealService.scheme :=
  IdealAead.tagged_ideal (by decide)

/-- An administrator, and a folder. -/
def nameState : DB where
  users := [sampleUser 1 "ada"]
  folders := [sampleFolder 2 1]
  itemTypes := [⟨1, none⟩]

def nameDraw : EnvelopeDraw :=
  ⟨List.replicate keyLength 0, sampleNonce, sampleNonce, length_zeroKey⟩

def nameRequest (id name : String) : ItemRequest where
  id := id
  folderID := (Uuid.ofNat 2).text
  itemTypeID := 1
  name := name
  description := none
  fields := none
  ownerDEKWrapped := [1]
  ownerWrapNonce := sampleNonce.bytes
  externalSource := ""
  expiresAt := none
  rotationIntervalDays := none

def createNamed (id : String) : Reply (DB × ItemResponse) :=
  itemCreate idealService nameState 0 ⟨Uuid.ofNat 1, [.admin]⟩ nameDraw (nameRequest id "mail")

def renamed (name : String) : Rename where
  now := 1
  claims := ⟨Uuid.ofNat 1, [.admin]⟩
  id := (Uuid.ofNat 10).text
  draw := nameDraw
  req := nameRequest (Uuid.ofNat 10).text name

theorem createNamed_eq_ok {id : String} (h : (createNamed id).isOk = true) :
    ∃ db resp, createNamed id = .ok (db, resp) := by
  cases hcreate : createNamed id with
  | error e =>
    rw [hcreate] at h
    cases h
  | ok result => exact ⟨result.1, result.2, rfl⟩

theorem item_name_kept_canonical :
    ∃ db resp, createNamed (Uuid.ofNat 10).text = .ok (db, resp) ∧
      Runs.Along (NameState.step idealService (Uuid.ofNat 10))
        (NameKept idealService (Uuid.ofNat 10)) ⟨db, "mail"⟩ [renamed "post", renamed "letters"] := by
  obtain ⟨db, resp, hcreate⟩ := @createNamed_eq_ok (Uuid.ofNat 10).text (by decide +kernel)
  refine ⟨db, resp, hcreate, ?_⟩
  exact ((item_name_kept_iff idealService idealService_ideal hcreate (castUuid_text _) _).mpr rfl).2

/-- An item created under an upper-case id has a name nobody can read. -/
theorem item_name_lost_upper_case :
    ∃ db resp, createNamed "00000000-0000-0000-0000-00000000000A" = .ok (db, resp) ∧
      ¬ NameKept idealService (Uuid.ofNat 10) ⟨db, "mail"⟩ := by
  have hcast : castUuid "00000000-0000-0000-0000-00000000000A" = some (Uuid.ofNat 10) := by decide
  obtain ⟨db, resp, hcreate⟩ := createNamed_eq_ok
    (show (createNamed "00000000-0000-0000-0000-00000000000A").isOk = true by decide +kernel)
  refine ⟨db, resp, hcreate, ?_⟩
  have hsealed := itemCreate_sealed hcreate hcast
  exact fun hkept => absurd ((hsealed.kept_iff idealService_ideal).mp hkept) (by decide)

end IronStock

import IronStock.ClientPages
import IronStock.OwnerShares
import IronStock.ShareKeys
import IronStock.Lib.Runs

/-!
# Who reads what

What is behind the ciphertexts: for each item and user the key the DEK is wrapped under,
and for each value the DEK and the text. The vault is a machine of its own that takes
part in the same steps, and the pages show what it says.
-/
namespace IronStock

/-! ## The vault -/

structure Secret where
  dek : Bytes
  text : FieldText
deriving DecidableEq

/-- What an answer about an item holds. -/
structure VaultAnswer where
  item : Uuid
  key : Option SealedKey
  secrets : List (Int × Secret)

structure Vault where
  key : Uuid → Uuid → Option SealedKey
  secrets : Uuid → List (Int × Secret)
  loaded : List VaultAnswer

def secretsOf (dek : Bytes) (texts : List (Int × FieldText)) : List (Int × Secret) :=
  texts.map fun e => (e.1, ⟨dek, e.2⟩)

/-- The texts under this DEK. -/
def shownUnder (dek : Bytes) (secrets : List (Int × Secret)) : List (Int × String) :=
  secrets.filterMap fun e => if dek = e.2.dek then some (e.1, e.2.text.text) else none

namespace VaultAnswer

/-- The DEK that somebody with this wrap key gets. -/
def opened (a : VaultAnswer) (wrapKey : Bytes) : Option Bytes :=
  (a.key.filter (wrapKey = ·.wrapKey)).map SealedKey.dek

/-- What the detail page shows them. -/
def page (a : VaultAnswer) (wrapKey : Bytes) : Decryption :=
  match a.key with
  | none => .missing
  | some k => if wrapKey = k.wrapKey then .success (shownUnder k.dek a.secrets) else .failed

/-- The DEK an edit goes on with. -/
def editDEK (a : VaultAnswer) (f : EditForm) (wrapKey : Bytes) : Option Bytes :=
  if f.ready then a.opened wrapKey else none

/-- What an edit leaves of the item. -/
def edited (a : VaultAnswer) (f : EditForm) (fresh wrapKey : Bytes) : List (Int × Secret) :=
  secretsOf ((a.editDEK f wrapKey).getD fresh)
    (f.fields ((a.editDEK f wrapKey).map (shownUnder · a.secrets))).texts

end VaultAnswer

namespace Vault

def answer (v : Vault) (x u : Uuid) : VaultAnswer := ⟨x, v.key x u, v.secrets x⟩

def setKey (v : Vault) (x : Uuid) (e : Uuid × SealedKey) : Vault :=
  { v with key := fun x' u' => if x = x' ∧ e.1 = u' then some e.2 else v.key x' u' }

def setSecrets (v : Vault) (x : Uuid) (es : List (Int × Secret)) : Vault :=
  { v with secrets := fun x' => if x = x' then es else v.secrets x' }

/-- The key of a member of a group, as the share modal seals it. -/
def memberKey (s : SubtleCrypto) (dek : Bytes) (m : MemberWrap) : Option (Uuid × SealedKey) :=
  match castUuid m.userID, s.deriveSharedBits m.ephemeral m.publicKey with
  | some user, some bits => some (user, ⟨s.publicKey m.ephemeral, bits, dek⟩)
  | _, _ => none

/-- What the vault makes of an action the server has accepted; of a group share it
has written this many rows. -/
def apply (s : SubtleCrypto) (v : Vault) (written : Nat) : PageAction → Vault
  | .load _ claims itemID =>
    match castUuid itemID with
    | some x => { v with loaded := v.loaded ++ [v.answer x claims.subject] }
    | none => v
  | .create _ _ session form draw =>
    match session.privateKey, castUuid form.id with
    | some privateKey, some x =>
      (v.setSecrets x (secretsOf draw.dek form.fields.texts)).setKey x
        (session.claims.subject, ⟨draw.ephPubPlaceholder, s.sha256 privateKey, draw.dek⟩)
    | _, _ => v
  | .edit _ _ session n form draw =>
    match v.loaded[n]?, session.privateKey with
    | some a, some privateKey =>
      v.setSecrets a.item (a.edited form draw.dek (s.sha256 privateKey))
    | _, _ => v
  | .share _ session n form =>
    match v.loaded[n]?, session.privateKey with
    | some a, some privateKey =>
      match a.opened (s.sha256 privateKey) with
      | some dek =>
        match memberKey s dek
          ⟨form.recipientId, form.publicKey, form.ephemeral, form.wrapNonce⟩ with
        | some e => v.setKey a.item e
        | none => v
      | none => v
    | _, _ => v
  | .shareGroup _ session n form =>
    match v.loaded[n]?, session.privateKey with
    | some a, some privateKey =>
      match a.opened (s.sha256 privateKey) with
      | some dek =>
        ((form.members.take written).filterMap (memberKey s dek)).foldl (setKey · a.item ·) v
      | none => v
    | _, _ => v
  | .unshare .. => v

end Vault

/-- How many share rows a group share writes. -/
def groupRows (w : PageWorld) (now : Time) (claims : Claims) (itemID : String)
    (req : ShareGroupRequest) : Nat :=
  ((ShareOp.shareGroup now claims itemID req).writes w.db).length

/-- Whether the server accepts what the page sends, and how many rows of a group share
it writes. -/
def PageAction.outcome (svc : Service) (s : SubtleCrypto) (w : PageWorld) :
    PageAction → Option Nat
  | .load now claims itemID =>
    if (itemGet svc w.db now claims itemID).2.isOk then some 0 else none
  | .create now envelope session form draw => do
    let req ← createItemRequest s session form draw
    if (itemCreate svc w.db now session.claims envelope req).isOk then some 0 else none
  | .edit now envelope session n form draw => do
    let item ← w.answer? session n
    let req ← editItemRequest s session item form draw
    if (itemUpdate svc w.db now session.claims item.id envelope req).isOk then some 0 else none
  | .share now session n form => do
    let item ← w.answer? session n
    let req ← shareUserRequest s session item form
    if (IronStock.share w.db now session.claims item.id req).isOk then some 0 else none
  | .shareGroup now session n form => do
    let item ← w.answer? session n
    let req ← shareGroupUserRequest s session item form
    some (groupRows w now session.claims item.id req)
  | .unshare .. => none

/-- The pages and the vault, step by step. -/
structure VaultWorld where
  pages : PageWorld
  vault : Vault

def VaultWorld.step (svc : Service) (s : SubtleCrypto) (w : VaultWorld) (a : PageAction) :
    VaultWorld where
  pages := w.pages.step svc s a
  vault :=
    match a.outcome svc s w.pages with
    | some written => w.vault.apply s written a
    | none => w.vault

/-! ## Ciphertexts and what is behind them -/

/-- A stored value is this text under this DEK. -/
structure FieldHeld (s : SubtleCrypto) (id : Int) (value : Option FieldValue)
    (e : Int × Secret) : Prop where
  id : id = e.1
  value : ∃ v, value = some v ∧ encryptField s v.2 e.2.text.text e.2.dek = some v

/-- The stored values of an item, in the order of their positions. -/
structure FieldsHeld (s : SubtleCrypto) (rows : List ItemField) (es : List (Int × Secret)) :
    Prop where
  held : List.Forall₂ (fun r e => FieldHeld s r.fieldDefinitionId r.value e) rows es
  inOrder : rows.Pairwise byPosition

def WrapHeld (s : SubtleCrypto) (wrap : Option (Bytes × Nonce)) (key : Option SealedKey) : Prop :=
  Option.Rel (fun w k => Wraps s k w.1 w.2) wrap key

/-- An answer without a wrap may come without fields. -/
structure AnswerHeld (s : SubtleCrypto) (resp : ItemResponse) (a : VaultAnswer) : Prop where
  item : resp.id = a.item.text
  key : ∃ wrap, resp.ownerDEKWrapped = wrap.map Prod.fst ∧
    resp.ownerWrapNonce = wrap.map (·.2.bytes) ∧ WrapHeld s wrap a.key
  fields : a.key.isSome = true →
    ∃ rows, resp.fields = some (rows.map ItemField.output) ∧ FieldsHeld s rows a.secrets

/-- The database and the answers are those of the vault. -/
structure VaultHeld (s : SubtleCrypto) (w : VaultWorld) : Prop where
  keys : ∀ x u, WrapHeld s (fetchCallerDEK w.pages.db x u) (w.vault.key x u)
  fields : ∀ x, FieldsHeld s (w.pages.db.itemFields.filter (·.itemId = x)) (w.vault.secrets x)
  loaded : List.Forall₂ (fun e a => AnswerHeld s e.2 a) w.pages.loaded w.vault.loaded
  /-- the vault has nothing of an item that is not there -/
  known : ∀ x, w.pages.db.item? x = none →
    (∀ u, w.vault.key x u = none) ∧ w.vault.secrets x = [] ∧ ∀ a ∈ w.vault.loaded, a.item ≠ x

section Held

variable {s : SubtleCrypto}

theorem truthy_of_ne {b : Bytes} (h : b ≠ []) : truthy (some b) = some b := by
  simp [truthy, h]

theorem Nonce.bytes_ne_nil (n : Nonce) : n.bytes ≠ [] := by
  intro h
  have hlen := n.length_bytes
  rw [h] at hlen
  cases hlen

theorem encryptField_ne_nil (hs : s.Ideal) {nonce : Nonce} {text : String} {dek : Bytes}
    {v : Bytes × Nonce} (h : encryptField s nonce text dek = some v) : v.1 ≠ [] := by
  obtain ⟨c, hc, rfl⟩ := Option.map_eq_some_iff.mp h
  have hlen := SubtleCrypto.length_encrypt hs hc
  rintro rfl
  exact absurd hlen (by decide)

/-- A stored value shows its text to whoever has its DEK. -/
theorem FieldHeld.decrypt (hs : s.Ideal) {r : ItemField} {e : Int × Secret}
    (h : FieldHeld s r.fieldDefinitionId r.value e) (dek : Bytes) :
    decryptFields s dek [r.output] =
      (if dek = e.2.dek then some (e.1, e.2.text.text) else none).toList := by
  obtain ⟨hid, v, hv, henc⟩ := h
  have htext := truthy_of_ne (encryptField_ne_nil hs henc)
  have hnonce := truthy_of_ne v.2.bytes_ne_nil
  simp only [decryptFields, ItemField.output, hv, Option.map_some, List.filterMap_cons,
    List.filterMap_nil, htext, hnonce, decryptField_of_encrypt hs henc, hid]
  by_cases hdek : dek = e.2.dek
  · simp [hdek]
  · simp [hdek]

theorem decryptFields_cons (dek : Bytes) (f : ItemFieldOutput) (fs : List ItemFieldOutput) :
    decryptFields s dek (f :: fs) = decryptFields s dek [f] ++ decryptFields s dek fs := by
  rw [decryptFields, ← List.singleton_append, List.filterMap_append]
  rfl

theorem FieldsHeld.decrypt (hs : s.Ideal) {rows : List ItemField} {es : List (Int × Secret)}
    (h : FieldsHeld s rows es) (dek : Bytes) :
    decryptFields s dek (rows.map ItemField.output) = shownUnder dek es := by
  have hheld := h.held
  clear h
  induction hheld with
  | nil => rfl
  | @cons r e rows es hrow _ ih =>
    rw [List.map_cons, decryptFields_cons, hrow.decrypt hs, ih]
    by_cases hdek : dek = e.2.dek
    · simp [shownUnder, hdek]
    · simp [shownUnder, hdek]

theorem AnswerHeld.ownerDEK (hs : s.Ideal) {resp : ItemResponse} {a : VaultAnswer}
    (h : AnswerHeld s resp a) (privateKey : Bytes) :
    resp.ownerDEK s privateKey =
      match a.key with
      | none => .missing
      | some k => if s.sha256 privateKey = k.wrapKey then .opened k.dek else .failed := by
  obtain ⟨wrap, hwrapped, hnonce, hwrap⟩ := h.key
  rw [ItemResponse.ownerDEK, hwrapped, hnonce]
  revert hwrap
  cases wrap with
  | none =>
    intro hwrap
    cases hk : a.key with
    | none => rfl
    | some k => rw [hk] at hwrap; cases hwrap
  | some w =>
    intro hwrap
    cases hk : a.key with
    | none => rw [hk] at hwrap; cases hwrap
    | some k =>
      rw [hk] at hwrap
      cases hwrap with
      | some hwraps =>
        have hne : w.1 ≠ [] := by
          intro hnil
          have hlen := hwraps.length_le hs
          rw [hnil] at hlen
          exact absurd hlen (by decide)
        simp only [Option.map_some, truthy_of_ne hne, truthy_of_ne w.2.bytes_ne_nil,
          hwraps.openDEKWithKEK hs]
        by_cases heq : s.sha256 privateKey = k.wrapKey
        · simp [heq]
        · simp [heq]

theorem AnswerHeld.opened_iff (hs : s.Ideal) {resp : ItemResponse} {a : VaultAnswer}
    (h : AnswerHeld s resp a) (privateKey dek : Bytes) :
    resp.ownerDEK s privateKey = .opened dek ↔
      a.opened (s.sha256 privateKey) = some dek := by
  rw [h.ownerDEK hs, VaultAnswer.opened]
  cases a.key with
  | none => simp
  | some k =>
    by_cases heq : s.sha256 privateKey = k.wrapKey
    · simp [heq]
    · simp [heq]

/-- The detail page shows what the vault says. -/
theorem AnswerHeld.itemDetail (hs : s.Ideal) {resp : ItemResponse} {a : VaultAnswer}
    (h : AnswerHeld s resp a) (privateKey : Bytes) :
    itemDetail s resp (some privateKey) = a.page (s.sha256 privateKey) := by
  have hdek := h.ownerDEK hs privateKey
  cases hk : a.key with
  | none =>
    simp only [hk] at hdek
    simp only [IronStock.itemDetail, hdek, VaultAnswer.page, hk]
  | some k =>
    simp only [hk] at hdek
    obtain ⟨rows, hrows, hheld⟩ := h.fields (by rw [hk]; rfl)
    by_cases heq : s.sha256 privateKey = k.wrapKey
    · rw [if_pos heq] at hdek
      simp only [IronStock.itemDetail, hdek, VaultAnswer.page, hk, if_pos heq, hrows,
        Option.getD_some, hheld.decrypt hs]
    · rw [if_neg heq] at hdek
      simp only [IronStock.itemDetail, hdek, VaultAnswer.page, hk, if_neg heq]

end Held

/-! ## Statements on the tables -/

section Tables

variable {db db' : DB}

/-- `UNIQUE (item_id, user_id)`. -/
def ItemShare.key (r : ItemShare) : Uuid × Uuid := (r.itemId, r.userId)

theorem fetchCallerDEK_eq_lookup (db : DB) (x u : Uuid) :
    fetchCallerDEK db x u =
      (Table.lookup ItemShare.key (x, u) db.itemShares).map fun r =>
        (r.e2eDekWrapped, r.wrapNonce) := by
  simp only [fetchCallerDEK, Table.lookup, ItemShare.key, Prod.mk.injEq]

theorem fetchCallerDEK_congr (h : db'.itemShares = db.itemShares) :
    fetchCallerDEK db' = fetchCallerDEK db := by
  funext x u
  rw [fetchCallerDEK, fetchCallerDEK, h]

theorem fetchCallerDEK_addShare {r : ItemShare} (h : db.hasShare r.itemId r.userId = false)
    (x u : Uuid) :
    fetchCallerDEK (db.addShare r) x u =
      if r.itemId = x ∧ r.userId = u then some (r.e2eDekWrapped, r.wrapNonce)
      else fetchCallerDEK db x u := by
  rw [fetchCallerDEK_eq_lookup, fetchCallerDEK_eq_lookup, DB.addShare, Table.lookup_append]
  by_cases hkey : r.itemId = x ∧ r.userId = u
  · obtain ⟨rfl, rfl⟩ := hkey
    have hnone : Table.lookup ItemShare.key (r.itemId, r.userId) db.itemShares = none := by
      rw [Table.lookup_eq_none]
      intro r' hr' heq
      simp only [ItemShare.key, Prod.mk.injEq] at heq
      rw [DB.hasShare, List.any_eq_false] at h
      exact h r' hr' (by simpa using heq)
    simp [hnone, ItemShare.key]
  · have hne : ¬ r.key = (x, u) := by simpa [ItemShare.key] using hkey
    rw [if_neg hne, if_neg hkey, Option.or_none]

theorem putShare_eq_upsert (r : ItemShare) :
    (db.putShare r).itemShares =
      Table.upsert (fun x : ItemShare => x.key = r.key) (fun _ => r) r db.itemShares := by
  have hsame : (fun x : ItemShare => x.isFor r.itemId r.userId) =
      fun x : ItemShare => decide (x.key = r.key) := by
    funext x
    simp only [ItemShare.isFor, ItemShare.key, Prod.mk.injEq]
  rw [DB.putShare]
  dsimp only
  rw [hsame]

theorem fetchCallerDEK_putShare (r : ItemShare) (x u : Uuid) :
    fetchCallerDEK (db.putShare r) x u =
      if r.itemId = x ∧ r.userId = u then some (r.e2eDekWrapped, r.wrapNonce)
      else fetchCallerDEK db x u := by
  have hself : r.key = r.key := rfl
  rw [fetchCallerDEK_eq_lookup, fetchCallerDEK_eq_lookup, putShare_eq_upsert]
  by_cases hkey : r.itemId = x ∧ r.userId = u
  · obtain ⟨rfl, rfl⟩ := hkey
    have hpair : (r.itemId, r.userId) = r.key := rfl
    rw [hpair, Table.lookup_upsert_self hself, if_pos ⟨rfl, rfl⟩]
    rfl
  · have hne : (x, u) ≠ r.key := by
      simp only [ne_eq, ItemShare.key, Prod.mk.injEq]
      exact fun h => hkey ⟨h.1.symm, h.2.symm⟩
    rw [Table.lookup_upsert_of_ne hself hne, if_neg hkey]

theorem fetchCallerDEK_revokeShare (now : Time) (itemID userID : Uuid) :
    fetchCallerDEK (db.revokeShare now itemID userID) = fetchCallerDEK db := by
  funext x u
  have hkey : ∀ r : ItemShare, ItemShare.key { r with revokedAt := some now } = r.key :=
    fun _ => rfl
  rw [fetchCallerDEK_eq_lookup, fetchCallerDEK_eq_lookup, DB.revokeShare]
  dsimp only
  rw [Table.lookup_updateWhere hkey, Option.map_map]
  congr 1
  funext r
  simp only [Function.comp_apply]
  split <;> rfl

/-- Fields an item does not have yet are appended. -/
theorem insertItemFields_rows {now : Time} {x : Uuid} {fs : List ItemFieldInput}
    (hnodup : (fs.map ItemFieldInput.fieldDefinitionID).Nodup)
    (hfree : ∀ f ∈ fs, db.field? x f.fieldDefinitionID = none)
    (h : insertItemFields db now x fs = some db') :
    ∃ rows, db'.itemFields = db.itemFields ++ rows ∧
      List.Forall₂ (fun (r : ItemField) (f : ItemFieldInput) => r.itemId = x ∧
        r.fieldDefinitionId = f.fieldDefinitionID ∧ f.value = some r.value ∧
        r.position = f.position) rows fs := by
  induction fs generalizing db with
  | nil =>
    cases h
    exact ⟨[], (List.append_nil _).symm, List.Forall₂.nil⟩
  | cons f fs ih =>
    rw [insertItemFields] at h
    split at h
    · cases h
    · next db₁ hfirst =>
      rw [List.map_cons, List.nodup_cons] at hnodup
      have hnone := hfree f List.mem_cons_self
      obtain ⟨value, hvalue, hdb₁⟩ : ∃ value, f.value = some value ∧
          db₁ = db.addField x f.fieldDefinitionID value f.position := by
        unfold insertItemField at hfirst
        split at hfirst
        · cases hfirst
        · split at hfirst
          · cases hfirst
          · next value hvalue =>
            split at hfirst
            · cases hfirst
            · rw [hnone] at hfirst
              simp only [Option.ite_none_right_eq_some, Option.some.injEq] at hfirst
              exact ⟨value, hvalue, hfirst.2.symm⟩
      have hfree' : ∀ g ∈ fs, db₁.field? x g.fieldDefinitionID = none := by
        intro g hg
        have hne : f.fieldDefinitionID ≠ g.fieldDefinitionID := by
          intro heq
          exact hnodup.1 (heq ▸ List.mem_map_of_mem hg)
        have hold := hfree g (List.mem_cons_of_mem f hg)
        rw [DB.field?] at hold
        rw [hdb₁, DB.field?, DB.addField, List.find?_append, hold]
        simp [ItemField.isFor, hne]
      obtain ⟨rows, hrows, hheld⟩ := ih hnodup.2 hfree' h
      refine ⟨⟨db.nextFieldId, x, f.fieldDefinitionID, value, f.position⟩ :: rows, ?_,
        List.Forall₂.cons ⟨rfl, rfl, hvalue, rfl⟩ hheld⟩
      rw [hrows, hdb₁, DB.addField, List.append_assoc]
      rfl

end Tables

/-! ## What a form stores -/

section Forms

variable {s : SubtleCrypto} {dek : Bytes} {nonce : Nat → Nonce}

/-- A field of a request with a text under a DEK. -/
structure InputHeld (s : SubtleCrypto) (f : ItemFieldInput) (e : Int × Secret) : Prop where
  id : f.fieldDefinitionID = e.1
  value : ∃ v, f.value = some (some v) ∧ encryptField s v.2 e.2.text.text e.2.dek = some v

theorem encryptEntry_held (hs : s.Ideal) {e : (Int × FieldText) × Nat} {f : ItemFieldInput}
    (h : encryptEntry s dek nonce e = some f) :
    InputHeld s f (e.1.1, ⟨dek, e.1.2⟩) ∧ f.position = e.2 := by
  obtain ⟨v, hv, rfl⟩ := Option.map_eq_some_iff.mp h
  have hne := encryptField_ne_nil hs hv
  have hlen : v.1.length ≠ 0 := by simpa using hne
  have hbytes : v.2.bytes.length ≠ 0 := by
    rw [v.2.length_bytes]
    decide
  have hnonce : v.2 = nonce e.2 := by
    obtain ⟨c, _, rfl⟩ := Option.map_eq_some_iff.mp hv
    rfl
  refine ⟨⟨rfl, v, ?_, by rw [hnonce]; exact hv⟩, rfl⟩
  simp only [ItemFieldInput.value, Option.getD_some, hlen, hbytes, false_and, or_self, if_false,
    Nonce.ofBytes_bytes, Option.map_some]

theorem mapM_encryptEntry_held (hs : s.Ideal) (texts : List (Int × FieldText)) (k : Nat)
    {fs : List ItemFieldInput} (h : (texts.zipIdx k).mapM (encryptEntry s dek nonce) = some fs) :
    List.Forall₂ (InputHeld s) fs (secretsOf dek texts) ∧
      (∀ f ∈ fs, (k : Int) ≤ f.position) ∧ fs.Pairwise fun a b => a.position ≤ b.position := by
  induction texts generalizing k fs with
  | nil =>
    cases h
    exact ⟨List.Forall₂.nil, by simp, List.Pairwise.nil⟩
  | cons e texts ih =>
    rw [List.zipIdx_cons, List.mapM_cons] at h
    obtain ⟨f, hf, h⟩ := Option.bind_eq_some_iff.mp h
    obtain ⟨rest, hrest, h⟩ := Option.bind_eq_some_iff.mp h
    obtain rfl := Option.some.inj h
    obtain ⟨hheld, hpos⟩ := encryptEntry_held hs hf
    obtain ⟨hrestHeld, hafter, hsorted⟩ := ih (k + 1) hrest
    refine ⟨List.Forall₂.cons hheld hrestHeld, ?_, List.Pairwise.cons (fun g hg => ?_) hsorted⟩
    · intro g hg
      obtain rfl | hg := List.mem_cons.mp hg
      · rw [hpos]
      · have hle := hafter g hg
        omega
    · have hle := hafter g hg
      rw [hpos]
      show (k : Int) ≤ g.position
      omega

theorem texts_nodup (m : FieldMap) : (m.texts.map Prod.fst).Nodup := by
  have hids : m.texts.map Prod.fst =
      (m.entries.filter fun e => jsTrim e.2 ≠ "").map Prod.fst := by
    rw [FieldMap.texts, List.map_map]
    rfl
  have hsorted : (m.entries.filter fun e => jsTrim e.2 ≠ "").Pairwise fun a b => a.1 < b.1 :=
    m.sorted.sublist List.filter_sublist
  rw [hids, List.Nodup, List.pairwise_map]
  exact hsorted.imp fun hlt => ne_of_lt hlt

/-- The rows the fields of a form become. -/
theorem rows_held {x : Uuid} {rows : List ItemField} {fs : List ItemFieldInput}
    {es : List (Int × Secret)}
    (hrows : List.Forall₂ (fun (r : ItemField) (f : ItemFieldInput) => r.itemId = x ∧
      r.fieldDefinitionId = f.fieldDefinitionID ∧ f.value = some r.value ∧
      r.position = f.position) rows fs)
    (hheld : List.Forall₂ (InputHeld s) fs es)
    (hsorted : fs.Pairwise fun a b => a.position ≤ b.position) :
    FieldsHeld s rows es ∧ ∀ r ∈ rows, r.itemId = x := by
  have hpositions : rows.map ItemField.position = fs.map ItemFieldInput.position := by
    clear hheld hsorted
    induction hrows with
    | nil => rfl
    | cons hrow _ ih => rw [List.map_cons, List.map_cons, ih, hrow.2.2.2]
  refine ⟨⟨?_, ?_⟩, ?_⟩
  · clear hsorted hpositions
    induction hrows generalizing es with
    | nil =>
      cases hheld
      exact List.Forall₂.nil
    | cons hrow _ ih =>
      cases hheld with
      | cons hinput hrest =>
        obtain ⟨_, hid, hvalue, _⟩ := hrow
        obtain ⟨hfid, v, hv, henc⟩ := hinput
        refine List.Forall₂.cons ⟨hid.trans hfid, v, ?_, henc⟩ (ih hrest)
        rw [hv] at hvalue
        exact (Option.some.inj hvalue).symm
  · have hpair : (rows.map ItemField.position).Pairwise (· ≤ ·) := by
      rw [hpositions, List.pairwise_map]
      exact hsorted
    rw [List.pairwise_map] at hpair
    exact hpair
  · intro r hr
    obtain ⟨f, _, hrow⟩ := Table.exists_right_of_mem hrows hr
    exact hrow.1

theorem inputs_ids {fs : List ItemFieldInput} {es : List (Int × Secret)}
    (h : List.Forall₂ (InputHeld s) fs es) :
    fs.map ItemFieldInput.fieldDefinitionID = es.map Prod.fst := by
  induction h with
  | nil => rfl
  | cons hinput _ ih => rw [List.map_cons, List.map_cons, ih, hinput.id]

theorem insertItemFields_held (hs : s.Ideal) {db db' : DB} {now : Time} {x : Uuid}
    {fs : List ItemFieldInput} {m : FieldMap} (henc : encryptFields s dek nonce m = some fs)
    (hfree : ∀ r ∈ db.itemFields, r.itemId ≠ x) (h : insertItemFields db now x fs = some db') :
    FieldsHeld s (db'.itemFields.filter (·.itemId = x)) (secretsOf dek m.texts) ∧
      (∀ y, x ≠ y → db'.itemFields.filter (·.itemId = y) = db.itemFields.filter (·.itemId = y)) ∧
      ∀ r ∈ db'.itemFields, r ∈ db.itemFields ∨ r.itemId = x := by
  obtain ⟨hheld, _, hsorted⟩ := mapM_encryptEntry_held hs m.texts 0 henc
  have hids : fs.map ItemFieldInput.fieldDefinitionID = m.texts.map Prod.fst := by
    rw [inputs_ids hheld, secretsOf, List.map_map]
    rfl
  have hnofield : ∀ f ∈ fs, db.field? x f.fieldDefinitionID = none := by
    intro f _
    rw [DB.field?, List.find?_eq_none]
    intro r hr
    simp [ItemField.isFor, hfree r hr]
  obtain ⟨rows, hrows, hinputs⟩ := insertItemFields_rows (hids ▸ texts_nodup m) hnofield h
  obtain ⟨hrowsHeld, hmine⟩ := rows_held hinputs hheld hsorted
  refine ⟨?_, ?_, ?_⟩
  · have hold : db.itemFields.filter (·.itemId = x) = [] := by
      rw [List.filter_eq_nil_iff]
      intro r hr
      simp [hfree r hr]
    have hnew : rows.filter (·.itemId = x) = rows := by
      rw [List.filter_eq_self]
      intro r hr
      simp [hmine r hr]
    rw [hrows, List.filter_append, hold, hnew]
    exact hrowsHeld
  · intro y hy
    have hnew : rows.filter (·.itemId = y) = [] := by
      rw [List.filter_eq_nil_iff]
      intro r hr
      simp [hmine r hr, hy]
    rw [hrows, List.filter_append, hnew, List.append_nil]
  · intro r hr
    rw [hrows, List.mem_append] at hr
    exact hr.imp_right (hmine r)

end Forms

/-! ## Answers of the server -/

section Answers

variable {svc : Service} {s : SubtleCrypto} {db : DB} {now : Time} {claims : Claims}
  {itemID : String}

/-- `Get` touches access requests only. -/
theorem itemGet_tables :
    (itemGet svc db now claims itemID).1.itemShares = db.itemShares ∧
      (itemGet svc db now claims itemID).1.itemFields = db.itemFields ∧
      (itemGet svc db now claims itemID).1.items = db.items := by
  unfold itemGet
  split
  · exact ⟨rfl, rfl, rfl⟩
  · split
    · dsimp only
      split <;> exact ⟨rfl, rfl, rfl⟩
    · exact ⟨rfl, rfl, rfl⟩

theorem itemGet_fields {x : Uuid} (hx : castUuid itemID = some x) {resp : ItemResponse}
    (h : (itemGet svc db now claims itemID).2 = .ok resp) :
    (db.item? x).isSome = true ∧ resp.id = x.text ∧
      (resp.ownerDEKWrapped = none ∨ resp.fields = some (fetchItemFields db x)) := by
  have hfull : ∀ {y full}, itemGetFull svc db now claims itemID = .ok (y, full) →
      (db.item? x).isSome = true ∧ full.id = x.text ∧
        full.fields = some (fetchItemFields db x) := by
    intro y full hok
    obtain ⟨perm, item, full, _, hitem, hfetched, _, rfl⟩ := (itemGetFull_eq_ok hx).mp hok
    obtain ⟨name, _, rfl⟩ := Option.map_eq_some_iff.mp hfetched
    have hid : item.id = x := (Table.lookup_eq_some hitem).2
    exact ⟨by rw [hitem]; rfl, by rw [← hid]; rfl, by rw [← hid]; rfl⟩
  unfold itemGet at h
  split at h
  · cases h
  · next y full hok =>
    obtain ⟨hitem, hid, hfields⟩ := hfull hok
    split at h
    · dsimp only at h
      split at h
      · cases h
        exact ⟨hitem, hid, Or.inr hfields⟩
      · cases h
        exact ⟨hitem, hid, Or.inl rfl⟩
    · cases h
      exact ⟨hitem, hid, Or.inr hfields⟩

theorem itemGet_castUuid {resp : ItemResponse}
    (h : (itemGet svc db now claims itemID).2 = .ok resp) : (castUuid itemID).isSome = true := by
  cases hx : castUuid itemID with
  | some x => rfl
  | none =>
    exfalso
    obtain ⟨y, full, hok⟩ := itemGet_isOk.mp ⟨resp, h⟩
    simp only [itemGetFull, Reply.bind_eq_ok, Reply.require_eq_ok] at hok
    obtain ⟨_, _, perm, _, item, hitem, _⟩ := hok
    rw [fetchItem, hx] at hitem
    cases hitem

end Answers

end IronStock

import IronStock.ClientCrypto
import IronStock.ItemReads
import IronStock.ItemShares

/-!
# The item pages of the web client

`item-detail.tsx`, `item-form-modal.tsx` and `item-share-modal.tsx`, over the handlers of
the server. A page works on an answer of `GET /items/{id}` that its user got at some
time. Bytes travel as base64 and arrive as they were sent.
-/
namespace IronStock

/-! ## An answer and its key -/

/-- Who is signed in, and the private key in memory. -/
structure WebSession where
  claims : Claims
  privateKey : Option Bytes

/-- A member of the answer that is there and not the empty text. -/
def truthy (b : Option Bytes) : Option Bytes := b.filter (· ≠ [])

/-- What a page gets out of `owner_dek_wrapped` and `owner_wrap_nonce`. -/
inductive OwnerDEK
  | missing
  | failed
  | opened (dek : Bytes)
deriving DecidableEq

def ItemResponse.ownerDEK (s : SubtleCrypto) (item : ItemResponse) (privateKey : Bytes) :
    OwnerDEK :=
  match truthy item.ownerDEKWrapped, truthy item.ownerWrapNonce with
  | some wrapped, some nonce =>
    match openDEKWithKEK s wrapped nonce privateKey with
    | some dek => .opened dek
    | none => .failed
  | _, _ => .missing

/-- The loop over `item.fields`, which goes on after a value that does not open. -/
def decryptFields (s : SubtleCrypto) (dek : Bytes) (fields : List ItemFieldOutput) :
    List (Int × String) :=
  fields.filterMap fun f =>
    match truthy f.valueEnc, truthy f.valueNonce with
    | some enc, some nonce => (decryptField s enc nonce dek).map (f.fieldDefinitionID, ·)
    | _, _ => none

/-- The state `decryption` of `ItemDetail`. -/
inductive Decryption
  | idle
  | missing
  | failed
  | success (values : List (Int × String))
deriving DecidableEq

def itemDetail (s : SubtleCrypto) (item : ItemResponse) (privateKey : Option Bytes) : Decryption :=
  match privateKey with
  | none => .idle
  | some privateKey =>
    match item.ownerDEK s privateKey with
    | .missing => .missing
    | .failed => .failed
    | .opened dek => .success (decryptFields s dek (item.fields.getD []))

/-! ## The form -/

/-- Insert or replace under a number, in the order of `Object.entries`. -/
def setEntry (id : Int) (value : String) : List (Int × String) → List (Int × String)
  | [] => [(id, value)]
  | e :: es =>
    if id < e.1 then (id, value) :: e :: es
    else if id = e.1 then (id, value) :: es
    else e :: setEntry id value es

theorem mem_setEntry {id : Int} {value : String} {es : List (Int × String)} {e : Int × String}
    (h : e ∈ setEntry id value es) : e = (id, value) ∨ e ∈ es := by
  induction es with
  | nil => exact Or.inl (List.mem_singleton.mp h)
  | cons a es ih =>
    rw [setEntry] at h
    split at h
    · exact List.mem_cons.mp h
    · split at h
      · obtain rfl | h := List.mem_cons.mp h
        · exact Or.inl rfl
        · exact Or.inr (List.mem_cons_of_mem a h)
      · obtain rfl | h := List.mem_cons.mp h
        · exact Or.inr List.mem_cons_self
        · obtain h | h := ih h
          · exact Or.inl h
          · exact Or.inr (List.mem_cons_of_mem a h)

theorem sorted_setEntry (id : Int) (value : String) {es : List (Int × String)}
    (h : es.Pairwise fun a b => a.1 < b.1) :
    (setEntry id value es).Pairwise fun a b => a.1 < b.1 := by
  induction es with
  | nil => exact List.pairwise_singleton _ _
  | cons e es ih =>
    obtain ⟨hrest, hsorted⟩ := List.pairwise_cons.mp h
    rw [setEntry]
    split
    · next hlt =>
      refine List.Pairwise.cons (fun b hb => ?_) h
      obtain rfl | hb := List.mem_cons.mp hb
      · exact hlt
      · exact lt_trans hlt (hrest b hb)
    · next hnlt =>
      split
      · next heq =>
        refine List.Pairwise.cons (fun b hb => ?_) hsorted
        rw [heq]
        exact hrest b hb
      · next hne =>
        refine List.Pairwise.cons (fun b hb => ?_) (ih hsorted)
        obtain rfl | hb := mem_setEntry hb
        · show e.1 < id
          omega
        · exact hrest b hb

/-- The state of `fieldReducer`: values by field definition. -/
structure FieldMap where
  entries : List (Int × String)
  sorted : entries.Pairwise fun a b => a.1 < b.1

def FieldMap.empty : FieldMap := ⟨[], List.Pairwise.nil⟩

/-- `dispatchFields({ type: 'set', … })`. -/
def FieldMap.set (m : FieldMap) (e : Int × String) : FieldMap :=
  ⟨setEntry e.1 e.2 m.entries, sorted_setEntry e.1 e.2 m.sorted⟩

def FieldMap.setAll (m : FieldMap) (es : List (Int × String)) : FieldMap := es.foldl .set m

/-- `id` and `key` of a field definition. -/
structure FieldDefinition where
  id : Int
  key : String

/-- `buildInitialFields`. -/
def buildInitialFields (suggested : List String) (defs : List FieldDefinition) : FieldMap :=
  FieldMap.empty.setAll (suggested.filterMap fun key =>
    (defs.find? (·.key = key)).map fun d => (d.id, ""))

/-- What the page draws to save a form. -/
structure PageDraw where
  dek : Bytes
  wrapNonce : Nonce
  ephPubPlaceholder : Bytes
  fieldNonce : Nat → Nonce
  length_dek : dek.length = 32
  length_placeholder : ephPubPlaceholder.length = 32

/-- The values of a form that are not blank, as they are stored. -/
def FieldMap.texts (m : FieldMap) : List (Int × FieldText) :=
  (m.entries.filter fun e => jsTrim e.2 ≠ "").map fun e => (e.1, .ofTyped e.2)

/-- A value encrypted, with its place in the form. -/
def encryptEntry (s : SubtleCrypto) (dek : Bytes) (nonce : Nat → Nonce)
    (e : (Int × FieldText) × Nat) : Option ItemFieldInput :=
  (encryptField s (nonce e.2) e.1.2.text dek).map fun v =>
    ⟨e.1.1, some v.1, some v.2.bytes, e.2⟩

/-- `encryptedFields`. -/
def encryptFields (s : SubtleCrypto) (dek : Bytes) (nonce : Nat → Nonce) (m : FieldMap) :
    Option (List ItemFieldInput) :=
  m.texts.zipIdx.mapM (encryptEntry s dek nonce)

/-- What both forms have beside the fields. -/
structure FormData where
  name : String
  description : String
  expiresAt : Option String
  rotationIntervalDays : Option Int

/-- `description.trim() || undefined`. -/
def FormData.descriptionOrUndefined (f : FormData) : Option String :=
  if jsTrim f.description = "" then none else some (jsTrim f.description)

/-- The form of a new item, and of a copy of one. -/
structure CreateForm extends FormData where
  /-- `crypto.randomUUID()` -/
  id : String
  folderID : String
  itemTypeID : Option Int
  suggested : List String
  defs : List FieldDefinition
  /-- the values of the item that is copied, for the suggested fields only -/
  duplicateFrom : Int → Option String
  externalSource : String
  typed : List (Int × String)

def CreateForm.initial (f : CreateForm) : FieldMap :=
  let blank := buildInitialFields f.suggested f.defs
  blank.setAll (blank.entries.filterMap fun e => (f.duplicateFrom e.1).map (e.1, ·))

def CreateForm.fields (f : CreateForm) : FieldMap := f.initial.setAll f.typed

/-- `handleSubmit` for a new item. -/
def createItemRequest (s : SubtleCrypto) (session : WebSession) (f : CreateForm) (draw : PageDraw) :
    Option ItemRequest :=
  match session.privateKey, f.itemTypeID with
  | some privateKey, some itemTypeID =>
    if jsTrim f.name = "" then none
    else
      match sealDEKWithKEK s draw.wrapNonce draw.ephPubPlaceholder draw.dek privateKey,
        encryptFields s draw.dek draw.fieldNonce f.fields with
      | some (wrapped, nonce), some fields => some {
          id := f.id, folderID := f.folderID, itemTypeID := itemTypeID, name := jsTrim f.name
          description := f.descriptionOrUndefined, fields := some fields
          ownerDEKWrapped := wrapped, ownerWrapNonce := nonce.bytes
          externalSource := f.externalSource, expiresAt := f.expiresAt
          rotationIntervalDays := f.rotationIntervalDays }
      | _, _ => none
  | _, _ => none

/-- The form of an item that is there. -/
structure EditForm extends FormData where
  /-- the key of the answer was tried before the form was sent -/
  ready : Bool
  /-- what the reducer held before -/
  held : FieldMap
  /-- the suggested fields of the item's type, if the type is known -/
  suggested : Option (List String)
  defs : List FieldDefinition
  typed : List (Int × String)

/-- The fields the effect puts into the form, from the values that opened. -/
def EditForm.initial (f : EditForm) (values : Option (List (Int × String))) : FieldMap :=
  match f.ready, values, f.suggested with
  | false, _, _ => f.held
  | true, some values, some suggested => (buildInitialFields suggested f.defs).setAll values
  | true, some values, none => FieldMap.empty.setAll values
  | true, none, some suggested => buildInitialFields suggested f.defs
  | true, none, none => f.held

def EditForm.fields (f : EditForm) (values : Option (List (Int × String))) : FieldMap :=
  (f.initial values).setAll f.typed

/-- `editDek`. -/
def EditForm.editDEK (s : SubtleCrypto) (f : EditForm) (item : ItemResponse) (privateKey : Bytes) :
    Option Bytes :=
  match f.ready, item.ownerDEK s privateKey with
  | true, .opened dek => some dek
  | _, _ => none

/-- `handleSubmit` for an item that is there. The wrap of the DEK is sent, and the
server does not look at it. -/
def editItemRequest (s : SubtleCrypto) (session : WebSession) (item : ItemResponse) (f : EditForm)
    (draw : PageDraw) : Option ItemRequest :=
  match session.privateKey with
  | none => none
  | some privateKey =>
    if jsTrim f.name = "" then none
    else
      let editDEK := f.editDEK s item privateKey
      let dek := editDEK.getD draw.dek
      let values := editDEK.map fun dek => decryptFields s dek (item.fields.getD [])
      match sealDEKWithKEK s draw.wrapNonce draw.ephPubPlaceholder dek privateKey,
        encryptFields s dek draw.fieldNonce (f.fields values) with
      | some (wrapped, nonce), some fields => some {
          id := "", folderID := "", itemTypeID := 0, name := jsTrim f.name
          description := f.descriptionOrUndefined, fields := some fields
          ownerDEKWrapped := wrapped, ownerWrapNonce := nonce.bytes
          externalSource := "", expiresAt := f.expiresAt
          rotationIntervalDays := f.rotationIntervalDays }
      | _, _ => none

/-! ## The share modal -/

structure ShareForm where
  recipientId : String
  /-- the answer of `GET /users/{id}/public-key` -/
  publicKey : Bytes
  permission : String
  validFrom : Option Time
  validUntil : Option Time
  ephemeral : Bytes
  wrapNonce : Nonce

/-- `handleUserSubmit`. -/
def shareUserRequest (s : SubtleCrypto) (session : WebSession) (item : ItemResponse)
    (f : ShareForm) : Option ShareItemRequest :=
  if f.recipientId = "" ∨ ¬ windowOrdered f.validFrom f.validUntil then none
  else
    match session.privateKey with
    | none => none
    | some privateKey =>
      match item.ownerDEK s privateKey with
      | .opened dek =>
        (sealDEK s f.wrapNonce f.ephemeral dek f.publicKey).map fun (wrapped, nonce) => {
          userID := f.recipientId, permission := f.permission
          dekWrapped := wrapped, wrapNonce := nonce.bytes
          validFrom := f.validFrom, validUntil := f.validUntil }
      | _ => none

/-- A member of the group, with their public key and what is drawn for them. -/
structure MemberWrap where
  userID : String
  publicKey : Bytes
  ephemeral : Bytes
  wrapNonce : Nonce

structure ShareGroupForm where
  groupID : String
  permission : String
  members : List MemberWrap
  validFrom : Option Time
  validUntil : Option Time

/-- `handleGroupSubmit`. -/
def shareGroupUserRequest (s : SubtleCrypto) (session : WebSession) (item : ItemResponse)
    (f : ShareGroupForm) : Option ShareGroupRequest :=
  if f.groupID = "" ∨ ¬ windowOrdered f.validFrom f.validUntil ∨ f.members = [] then none
  else
    match session.privateKey with
    | none => none
    | some privateKey =>
      match item.ownerDEK s privateKey with
      | .opened dek =>
        (f.members.mapM fun m =>
          (sealDEK s m.wrapNonce m.ephemeral dek m.publicKey).map fun (wrapped, nonce) =>
            ⟨m.userID, wrapped, nonce.bytes⟩).map fun members =>
          ⟨f.groupID, f.permission, members, f.validFrom, f.validUntil⟩
      | _ => none

/-! ## Runs -/

/-- The database, and the answers of `GET /items/{id}` so far, each with who got it. -/
structure PageWorld where
  db : DB
  loaded : List (Uuid × ItemResponse)

inductive PageAction
  | load (now : Time) (claims : Claims) (itemID : String)
  | create (now : Time) (envelope : EnvelopeDraw) (session : WebSession) (form : CreateForm)
      (draw : PageDraw)
  | edit (now : Time) (envelope : EnvelopeDraw) (session : WebSession) (answer : Nat)
      (form : EditForm) (draw : PageDraw)
  | share (now : Time) (session : WebSession) (answer : Nat) (form : ShareForm)
  | shareGroup (now : Time) (session : WebSession) (answer : Nat) (form : ShareGroupForm)
  | unshare (now : Time) (claims : Claims) (itemID target : String)

/-- An answer the signed-in user got. -/
def PageWorld.answer? (w : PageWorld) (session : WebSession) (n : Nat) : Option ItemResponse :=
  (w.loaded[n]?.filter fun a => a.1 = session.claims.subject).map Prod.snd

def PageWorld.step (svc : Service) (s : SubtleCrypto) (w : PageWorld) : PageAction → PageWorld
  | .load now claims itemID =>
    match itemGet svc w.db now claims itemID with
    | (db, .error _) => { w with db := db }
    | (db, .ok item) => ⟨db, w.loaded ++ [(claims.subject, item)]⟩
  | .create now envelope session form draw =>
    match createItemRequest s session form draw with
    | none => w
    | some req =>
      match itemCreate svc w.db now session.claims envelope req with
      | .error _ => w
      | .ok (db, _) => { w with db := db }
  | .edit now envelope session n form draw =>
    match w.answer? session n with
    | none => w
    | some item =>
      match editItemRequest s session item form draw with
      | none => w
      | some req =>
        match itemUpdate svc w.db now session.claims item.id envelope req with
        | .error _ => w
        | .ok (db, _) => { w with db := db }
  | .share now session n form =>
    match w.answer? session n with
    | none => w
    | some item =>
      match shareUserRequest s session item form with
      | none => w
      | some req =>
        match IronStock.share w.db now session.claims item.id req with
        | .error _ => w
        | .ok db => { w with db := db }
  | .shareGroup now session n form =>
    match w.answer? session n with
    | none => w
    | some item =>
      match shareGroupUserRequest s session item form with
      | none => w
      | some req => { w with db := (IronStock.shareGroup w.db now session.claims item.id req).1 }
  | .unshare now claims itemID target =>
    match IronStock.unshare w.db now claims itemID target with
    | .error _ => w
    | .ok db => { w with db := db }

end IronStock

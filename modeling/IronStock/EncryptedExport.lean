import IronStock.AnsibleInventory

/-!
# The encrypted export

`POST /api/v1/admin/export/encrypted`. Items, fields, shares and keypairs are read
by one statement each, and the statements for fields and shares are built from the
ids of the items that were read before.
-/
namespace IronStock.EncryptedExport

open SqlNames (Schema Ddl Select)

/-! ## Schema and statements -/

/-- The migrations of the tables that the statements read. -/
def migrations : List Ddl :=
  Ansible.migrations ++
    [.createTable "item_shares" ["id", "item_id", "user_id", "e2e_dek_wrapped", "wrap_nonce",
        "permission", "granted_by", "granted_at", "revoked_at"],
      .addColumn "item_shares" "valid_from",
      .addColumn "item_shares" "valid_until",
      .createTable "user_keypairs" ["user_id", "version", "public_key", "private_key_enc",
        "kek_salt", "kek_params", "created_at", "rotated_at"]]

def schema : Schema := SqlNames.migrate migrations

/-- The value of `scope`: with the text behind the colon, or the uuid it stands for. -/
inductive Scope (α : Type)
  | all
  | folder (arg : α)
  | user (arg : α)
deriving DecidableEq

/-- `$1::uuid`. -/
def Scope.cast : Scope String → Option (Scope Uuid)
  | all => some all
  | folder arg => (castUuid arg).map folder
  | user arg => (castUuid arg).map user

/-- The statement for the items; the clause of a scope is put in after the joins. -/
def itemsQuery {α : Type} (scope : Scope α) : Select where
  tables := [("i", "items"), ("itg", "item_tags"), ("t", "tags")] ++
    match scope with
    | .user _ => [("isu", "item_shares")]
    | _ => []
  refs :=
    [("itg", "item_id"), ("i", "id"), ("t", "id"), ("itg", "tag_id")] ++
    (match scope with
    | .all => []
    | .folder _ => [("i", "folder_id")]
    | .user _ => [("isu", "item_id"), ("i", "id"), ("isu", "user_id"), ("isu", "revoked_at")]) ++
    [("i", "id"), ("i", "item_type_id"), ("i", "folder_id"), ("i", "name_enc"),
      ("i", "name_nonce"), ("i", "server_dek_wrapped"), ("i", "description"),
      ("i", "expires_at"), ("i", "created_at"), ("i", "updated_at"), ("t", "name"),
      ("t", "name"), ("t", "id"), ("i", "id"), ("i", "created_at")]

def fieldsQuery : Select where
  tables := [("f", "item_fields"), ("fd", "field_definitions")]
  refs := [("fd", "id"), ("f", "field_def_id"), ("f", "item_id"), ("f", "field_def_id"),
    ("f", "value_enc"), ("f", "value_nonce"), ("fd", "is_secret"), ("f", "item_id"),
    ("f", "item_id"), ("f", "field_def_id")]

def sharesQuery : Select where
  tables := [("s", "item_shares")]
  refs := [("s", "id"), ("s", "item_id"), ("s", "user_id"), ("s", "e2e_dek_wrapped"),
    ("s", "wrap_nonce"), ("s", "permission"), ("s", "granted_by"), ("s", "granted_at"),
    ("s", "revoked_at"), ("s", "item_id")]

/-- The table has no alias, and its columns no qualifier. -/
def keypairsQuery : Select where
  tables := [("user_keypairs", "user_keypairs")]
  refs := ["user_id", "version", "public_key", "private_key_enc", "kek_salt", "kek_params",
    "created_at", "created_at"].map ("user_keypairs", ·)

theorem itemsQuery_resolves {α : Type} (scope : Scope α) :
    (itemsQuery scope).resolve schema = .ok () := by
  cases scope with
  | all =>
    change (itemsQuery (.all : Scope Unit)).resolve schema = .ok ()
    decide
  | folder arg =>
    change (itemsQuery (.folder ())).resolve schema = .ok ()
    decide
  | user arg =>
    change (itemsQuery (.user ())).resolve schema = .ok ()
    decide

theorem sharesQuery_resolves : sharesQuery.resolve schema = .ok () := by decide

theorem keypairsQuery_resolves : keypairsQuery.resolve schema = .ok () := by decide

/-- No migration creates `item_fields.field_def_id`. -/
theorem fieldsQuery_refused : ∃ e, fieldsQuery.resolve schema = .error e := by
  have href : ("f", "field_def_id") ∈ fieldsQuery.refs := by simp [fieldsQuery]
  have htable : fieldsQuery.tableOf "f" = some "item_fields" := by
    simp [fieldsQuery, Select.tableOf]
  have hnone : ∀ d ∈ migrations, d.declares "item_fields" "field_def_id" = false := by
    simp [migrations, Ansible.migrations, Ddl.declares]
  exact SqlNames.Select.resolve_migrate_ne_ok href htable hnone

/-! ## The tables -/

/-- The tables of the catalog, with the columns that only the export reads. -/
structure State extends CatalogState where
  /-- `is_secret` of `field_definitions` -/
  isSecret : Int → Bool
  /-- `id` of the share of an item with a user -/
  shareId : Uuid × Uuid → Uuid
  /-- `granted_at` of it -/
  grantedAt : Uuid × Uuid → Time
  /-- `created_at` of the keypair of a user -/
  keypairCreatedAt : Uuid → Time

/-- The keys of the tables, and the rows they refer to. -/
structure State.Conforms (s : State) : Prop where
  itemIds : (s.db.items.map Item.id).Nodup
  shareKeys : ShareKeysUnique s.db
  shareItems : ∀ sh ∈ s.db.itemShares, ∃ item ∈ s.db.items, item.id = sh.itemId
  definitionIds : s.db.fieldDefinitions.Nodup
  fieldDefs : ∀ f ∈ s.db.itemFields, f.fieldDefinitionId ∈ s.db.fieldDefinitions

/-! ## The archive -/

/-- A field, before its bytes are written in base64. -/
structure ExportField where
  fieldDefID : Int
  value : Option FieldValue
  isSecret : Bool
deriving DecidableEq

structure ExportItem where
  id : String
  itemTypeID : Int
  folderID : String
  nameEnc : Bytes
  nameNonce : Nonce
  serverDEKWrapped : Bytes
  description : Option String
  tags : List String
  expiresAt : Option Time
  createdAt : Time
  updatedAt : Time
  fields : List ExportField
deriving DecidableEq

structure ExportShare where
  id : String
  itemID : String
  userID : String
  e2eDEKWrapped : Bytes
  wrapNonce : Nonce
  permission : Grant
  grantedBy : String
  grantedAt : Time
deriving DecidableEq

structure ExportKeypair where
  userID : String
  version : Int
  publicKey : Bytes
  privateKeyEnc : Bytes
  kekSalt : Bytes
  kekParams : String
  createdAt : Time
deriving DecidableEq

structure Manifest where
  version : String
  exportedAt : Time
  scope : String
  itemCount : Nat
  shareCount : Nat
  keypairCount : Nat
  ironStockBuild : String
deriving DecidableEq

/-- The four entries of the ZIP. -/
structure Archive where
  manifest : Manifest
  items : List ExportItem
  shares : List ExportShare
  keypairs : List ExportKeypair
deriving DecidableEq

/-! ## The rows -/

section Rows
variable (ops : TextOps) (s : State)

/-- How often an item is joined: once by itself, and with the scope of a user once
for each share that is in force. -/
def copies (item : Item) : Scope Uuid → Nat
  | .all => 1
  | .folder folder => if item.folderId = folder then 1 else 0
  | .user user => s.db.itemShares.countP fun isu =>
      isu.itemId = item.id ∧ isu.userId = user ∧ isu.revokedAt = none

/-- The names `t.name` that are joined to an item. -/
def tagRows (item : Uuid) : List String :=
  (s.itemTags.filter (·.itemId = item)).filterMap fun itg =>
    (Table.lookup Tag.id itg.tagId s.tags).map Tag.name

/-- The group of an item, of which there are `n` copies. -/
def itemRow (n : Nat) (item : Item) : ExportItem where
  id := item.id.text
  itemTypeID := item.itemTypeId
  folderID := item.folderId.text
  nameEnc := item.nameEnc
  nameNonce := item.nameNonce
  serverDEKWrapped := item.serverDekWrapped
  description := item.description
  tags := (List.replicate n (tagRows s item.id)).flatten.mergeSort ops.le
  expiresAt := item.expiresAt
  createdAt := item.createdAt
  updatedAt := item.updatedAt
  fields := []

/-- The rows of the first statement: `GROUP BY i.id ORDER BY i.created_at`. -/
def itemRows (scope : Scope Uuid) : List ExportItem :=
  ((s.db.items.filter fun item => 0 < copies s item scope).map fun item =>
    itemRow ops s (copies s item scope) item).mergeSort fun a b => a.createdAt ≤ b.createdAt

/-- The rows of the second statement, with the item in front. The column that it
names is read as the id of the definition. -/
def fieldRows (itemIDs : List String) : List (String × ExportField) :=
  ((s.db.itemFields.filter fun f => itemIDs.contains f.itemId.text).flatMap fun f =>
    (s.db.fieldDefinitions.filter (· = f.fieldDefinitionId)).map fun fd =>
      (f.itemId.text, ⟨f.fieldDefinitionId, f.value, s.isSecret fd⟩)).mergeSort
    fun a b => a.1 < b.1 ∨ (a.1 = b.1 ∧ a.2.fieldDefID ≤ b.2.fieldDefID)

def shareRow (sh : ItemShare) : ExportShare where
  id := (s.shareId (sh.itemId, sh.userId)).text
  itemID := sh.itemId.text
  userID := sh.userId.text
  e2eDEKWrapped := sh.e2eDekWrapped
  wrapNonce := sh.wrapNonce
  permission := sh.permission
  grantedBy := sh.grantedBy.text
  grantedAt := s.grantedAt (sh.itemId, sh.userId)

/-- The rows of the third statement, with the clause for the items or without. -/
def shareRows (itemIDs : Option (List String)) : List ExportShare :=
  (s.db.itemShares.filter fun sh =>
    sh.revokedAt = none ∧ itemIDs.all (·.contains sh.itemId.text) = true).map (shareRow s)

def keypairRow (kp : UserKeypair) : ExportKeypair where
  userID := kp.userId.text
  version := kp.version
  publicKey := kp.publicKey
  privateKeyEnc := kp.privateKeyEnc
  kekSalt := kp.kekSalt
  kekParams := kp.kekParams
  createdAt := s.keypairCreatedAt kp.userId

def keypairRows : List ExportKeypair :=
  (s.db.userKeypairs.map (keypairRow s)).mergeSort fun a b => a.createdAt ≤ b.createdAt

end Rows

/-! ## The handler -/

/-- The rest of a text behind a prefix. -/
def cutPrefix? (pre text : String) : Option String :=
  if pre.toList <+: text.toList then some (String.ofList (text.toList.drop pre.length)) else none

def badScope : ApiError :=
  badRequest "scope 'all', 'folder:\x7buuid\x7d' veya 'user:\x7buuid\x7d' olmalı."

def parseScope (scope : String) : Reply (Scope String) :=
  if scope = "all" then .ok .all
  else if scope.utf8ByteSize < 8 then .error badScope
  else
    match cutPrefix? "folder:" scope, cutPrefix? "user:" scope with
    | some arg, _ => .ok (.folder arg)
    | none, some arg => .ok (.user arg)
    | none, none => .error badScope

section Handler
variable (sch : Schema) (ops : TextOps) (s : State)

/-- A statement that the server accepts, or the error of the handler. -/
def accepted (q : Select) (message : String) : Reply Unit :=
  match q.resolve sch with
  | .ok () => .ok ()
  | .error _ => .error (internalError message)

/-- The fields are put to the items that were read, if there are any. -/
def withFields (items : List ExportItem) : Reply (List ExportItem) := do
  let itemIDs := items.map ExportItem.id
  if itemIDs = [] then pure items
  else
    accepted sch fieldsQuery "Field değerleri yüklenemedi."
    let rows := fieldRows s itemIDs
    pure (items.map fun ei =>
      { ei with fields := (rows.filter fun r => r.1 = ei.id).map Prod.snd })

/-- The archive, read from one state. -/
def archive (now : Time) (text : String) (scope : Scope String) : Reply Archive := do
  accepted sch (itemsQuery scope) "Item'lar yüklenemedi."
  let clause ← .orElse scope.cast (internalError "Item'lar yüklenemedi.")
  let rows := itemRows ops s clause
  let itemIDs := rows.map ExportItem.id
  let items ← withFields sch s rows
  accepted sch sharesQuery "Paylaşımlar yüklenemedi."
  let shares := shareRows s (if text ≠ "all" ∧ itemIDs ≠ [] then some itemIDs else none)
  accepted sch keypairsQuery "Keypair'ler yüklenemedi."
  let keypairs := keypairRows s
  pure {
    manifest := ⟨"1.0", now, text, items.length, shares.length, keypairs.length, "pr-export"⟩
    items, shares, keypairs }

def audited (claims : Claims) (action : String) : State :=
  { s with db := s.db.audit ⟨claims.subject.text, action, "", ""⟩ }

/-- `ExportEncrypted`: the state after the request, and its answer. -/
def exportEncrypted (now : Time) (claims : Option Claims) (scope : String) :
    State × Reply Archive :=
  match claims with
  | none => (s, .error ⟨403, errCodeForbidden, "Admin yetkisi gerekli."⟩)
  | some claims =>
    if !claims.hasRole .admin then
      (s, .error ⟨403, errCodeForbidden, "Admin yetkisi gerekli."⟩)
    else
      let text := if scope = "" then "all" else scope
      match parseScope text with
      | .error e => (s, .error e)
      | .ok parsed =>
        let s := audited s claims "admin.export_encrypted_started"
        match archive sch ops s now text parsed with
        | .error e => (s, .error e)
        | .ok a => (audited s claims "admin.export_encrypted_completed", .ok a)

end Handler

/-! ## What the archive should hold -/

/-- The texts `all`, `folder:` and `user:` with the uuid behind the colon. -/
inductive Names : String → Scope Uuid → Prop
  | empty : Names "" .all
  | all : Names "all" .all
  | folder {arg : String} {id : Uuid} (h : castUuid arg = some id) :
      Names ("folder:" ++ arg) (.folder id)
  | user {arg : String} {id : Uuid} (h : castUuid arg = some id) :
      Names ("user:" ++ arg) (.user id)

section Spec
variable (s : State)

/-- The items of a scope: all, those in the folder, or those shared with the user. -/
def InScope (item : Item) : Scope Uuid → Prop
  | .all => True
  | .folder folder => item.folderId = folder
  | .user user => ∃ sh ∈ s.db.itemShares,
      sh.itemId = item.id ∧ sh.userId = user ∧ sh.revokedAt = none

def fieldEntry (f : ItemField) : ExportField :=
  ⟨f.fieldDefinitionId, f.value, s.isSecret f.fieldDefinitionId⟩

/-- The entry of an item: its columns, its tags and its fields. -/
structure Describes (item : Item) (e : ExportItem) : Prop where
  columns : (e.id, e.itemTypeID, e.folderID, e.nameEnc, e.nameNonce, e.serverDEKWrapped) =
    (item.id.text, item.itemTypeId, item.folderId.text, item.nameEnc, item.nameNonce,
      item.serverDekWrapped)
  dates : (e.description, e.expiresAt, e.createdAt, e.updatedAt) =
    (item.description, item.expiresAt, item.createdAt, item.updatedAt)
  tags : e.tags.Perm (tagRows s item.id)
  fields : e.fields.Perm ((s.db.itemFields.filter (·.itemId = item.id)).map (fieldEntry s))

/-- The entry of a share that is in force and whose item is exported. -/
def Shared (scope : Scope Uuid) (e : ExportShare) : Prop :=
  ∃ sh ∈ s.db.itemShares, sh.revokedAt = none ∧
    (∃ item ∈ s.db.items, item.id = sh.itemId ∧ InScope s item scope) ∧ e = shareRow s sh

/-- The archive of a scope is complete and closed. -/
structure Complete (scope : Scope Uuid) (a : Archive) : Prop where
  once : (a.items.map ExportItem.id).Nodup
  items : ∀ e ∈ a.items, ∃ item ∈ s.db.items, InScope s item scope ∧ Describes s item e
  every : ∀ item ∈ s.db.items, InScope s item scope → ∃ e ∈ a.items, Describes s item e
  sharesOnce : (a.shares.map fun e => (e.itemID, e.userID)).Nodup
  shares : ∀ e, e ∈ a.shares ↔ Shared s scope e
  counts : (a.manifest.itemCount, a.manifest.shareCount, a.manifest.keypairCount) =
    (a.items.length, a.shares.length, a.keypairs.length)

end Spec

/-- The request succeeds with the archive that it should. -/
def Exports (s : State) (scope : Scope Uuid) (reply : Reply Archive) : Prop :=
  ∃ a, reply = .ok a ∧ Complete s scope a

/-! ## The scope -/

theorem readBytes_length {n : Nat} {cs : List Char} {r : List (Fin 16) × List Char}
    (h : Uuid.readBytes n cs = some r) : 2 * n ≤ cs.length := by
  induction n generalizing cs r with
  | zero => exact Nat.zero_le _
  | succ n ih =>
    cases cs with
    | nil => simp [Uuid.readBytes] at h
    | cons a cs =>
      cases cs with
      | nil => simp [Uuid.readBytes] at h
      | cons b cs =>
        simp only [Uuid.readBytes] at h
        have hskip : (Uuid.skipDash cs).length ≤ cs.length := by
          unfold Uuid.skipDash
          split
          · exact Nat.le_succ _
          · exact Nat.le_refl _
        split at h
        · split at h
          · next hrest =>
            have hlen := ih hrest
            split at hlen
            · simp only [List.length_cons]
              omega
            · simp only [List.length_cons]
              omega
          · cases h
        · cases h

theorem length_le_utf8ByteSize (cs : List Char) :
    cs.length ≤ (String.ofList cs).utf8ByteSize := by
  induction cs with
  | nil => exact Nat.zero_le _
  | cons c cs ih =>
    rw [String.ofList_cons, String.utf8ByteSize_append, String.utf8ByteSize_singleton, List.length_cons]
    have := Char.utf8Size_pos c
    omega

theorem size_of_castUuid {arg : String} {id : Uuid} (h : castUuid arg = some id) :
    32 ≤ arg.utf8ByteSize := by
  have hlen : 32 ≤ arg.toList.length := by
    unfold castUuid at h
    split at h
    · next cs hcs =>
      rw [hcs, List.length_cons]
      split at h
      · next hread =>
        have := readBytes_length hread
        omega
      · cases h
    · split at h
      · next hread => exact readBytes_length hread
      · cases h
  have := length_le_utf8ByteSize arg.toList
  rw [String.ofList_toList] at this
  omega
theorem cutPrefix?_append (pre arg : String) : cutPrefix? pre (pre ++ arg) = some arg := by
  unfold cutPrefix?
  rw [String.toList_append, if_pos (List.prefix_append _ _), ← String.length_toList,
    List.drop_left, String.ofList_toList]

theorem cutPrefix?_folder_user (arg : String) : cutPrefix? "folder:" ("user:" ++ arg) = none := by
  unfold cutPrefix?
  rw [String.toList_append, if_neg]
  rintro ⟨rest, h⟩
  simp at h

/-- A scope that names a clause is accepted, and its uuid is cast to that of the
clause. -/
theorem parseScope_names {scope : String} {clause : Scope Uuid} (h : Names scope clause) :
    ∃ parsed, parseScope (if scope = "" then "all" else scope) = .ok parsed ∧
      parsed.cast = some clause ∧
      ((if scope = "" then "all" else scope) = "all" ↔ clause = .all) := by
  have hne (pre : String) {arg : String} {id : Uuid}
      (hpre : pre.toList.head?.any (· ≠ 'a') = true) (hcast : castUuid arg = some id) :
      pre ++ arg ≠ "" ∧ pre ++ arg ≠ "all" ∧ ¬ (pre ++ arg).utf8ByteSize < 8 := by
    have harg := size_of_castUuid hcast
    obtain ⟨c, cs, hpre, hc⟩ : ∃ c cs, pre.toList = c :: cs ∧ c ≠ 'a' := by
      cases hlist : pre.toList with
      | nil => simp [hlist] at hpre
      | cons c cs => exact ⟨c, cs, rfl, by simpa [hlist] using hpre⟩
    refine ⟨?_, ?_, ?_⟩
    · rw [← String.toList_inj.ne, String.toList_append, hpre]
      simp
    · rw [← String.toList_inj.ne, String.toList_append, hpre]
      simp [hc]
    · rw [String.utf8ByteSize_append]
      omega
  cases h with
  | empty => exact ⟨.all, by decide, rfl, by simp⟩
  | all => exact ⟨.all, by decide, rfl, by simp⟩
  | @folder arg id hcast =>
    obtain ⟨hempty, hall, hsize⟩ := hne "folder:" (by decide) hcast
    rw [if_neg hempty]
    refine ⟨.folder arg, ?_, ?_, ?_⟩
    · rw [parseScope, if_neg hall, if_neg hsize, cutPrefix?_append]
    · rw [Scope.cast, hcast]
      rfl
    · simp [hall]
  | @user arg id hcast =>
    obtain ⟨hempty, hall, hsize⟩ := hne "user:" (by decide) hcast
    rw [if_neg hempty]
    refine ⟨.user arg, ?_, ?_, ?_⟩
    · rw [parseScope, if_neg hall, if_neg hsize, cutPrefix?_folder_user, cutPrefix?_append]
    · rw [Scope.cast, hcast]
      rfl
    · simp [hall]

/-! ## The rows of a scope -/

section Contents
variable {s : State} {ops : TextOps} {clause : Scope Uuid}

/-- An item has at most one share with a user. -/
theorem countP_shares_le_one (h : s.Conforms) (item user : Uuid) :
    s.db.itemShares.countP (fun isu =>
      isu.itemId = item ∧ isu.userId = user ∧ isu.revokedAt = none) ≤ 1 := by
  have hcount := List.nodup_iff_count_le_one.1 h.shareKeys (item, user)
  rw [List.count_eq_countP, List.countP_map] at hcount
  apply Nat.le_trans _ hcount
  apply List.countP_mono_left
  intro sh _ hsh
  have := of_decide_eq_true hsh
  simp [this.1, this.2.1]

theorem copies_eq (h : s.Conforms) (item : Item) :
    copies s item clause = 0 ∧ ¬ InScope s item clause ∨
      copies s item clause = 1 ∧ InScope s item clause := by
  cases clause with
  | all => exact .inr ⟨rfl, trivial⟩
  | folder folder =>
    by_cases hf : item.folderId = folder
    · exact .inr ⟨if_pos hf, hf⟩
    · exact .inl ⟨if_neg hf, hf⟩
  | user user =>
    have hle := countP_shares_le_one h item.id user
    by_cases hin : InScope s item (.user user)
    · obtain ⟨sh, hsh, hkey⟩ := hin
      refine .inr ⟨?_, sh, hsh, hkey⟩
      have hpos : 0 < copies s item (.user user) :=
        List.countP_pos_iff.2 ⟨sh, hsh, decide_eq_true hkey⟩
      exact Nat.le_antisymm hle hpos
    · refine .inl ⟨List.countP_eq_zero.2 ?_, hin⟩
      intro sh hsh hkey
      exact hin ⟨sh, hsh, of_decide_eq_true hkey⟩

theorem mem_itemRows (h : s.Conforms) {e : ExportItem} :
    e ∈ itemRows ops s clause ↔
      ∃ item ∈ s.db.items, InScope s item clause ∧ e = itemRow ops s 1 item := by
  unfold itemRows
  rw [List.mem_mergeSort, List.mem_map]
  constructor
  · rintro ⟨item, hitem, rfl⟩
    obtain ⟨hmem, hpos⟩ := List.mem_filter.1 hitem
    rcases @copies_eq s clause h item with ⟨hzero, -⟩ | ⟨hone, hin⟩
    · simp [hzero] at hpos
    · exact ⟨item, hmem, hin, by rw [hone]⟩
  · rintro ⟨item, hmem, hin, rfl⟩
    rcases @copies_eq s clause h item with ⟨-, hout⟩ | ⟨hone, -⟩
    · exact absurd hin hout
    · exact ⟨item, List.mem_filter.2 ⟨hmem, by simp [hone]⟩, by rw [hone]⟩

theorem itemRows_ids_nodup (h : s.Conforms) :
    ((itemRows ops s clause).map ExportItem.id).Nodup := by
  have hperm := (List.mergeSort_perm ((s.db.items.filter fun item =>
    0 < copies s item clause).map fun item => itemRow ops s (copies s item clause) item)
    fun a b => a.createdAt ≤ b.createdAt).map ExportItem.id
  apply hperm.nodup_iff.2
  have hids := h.itemIds.map fun _ _ => Uuid.text_injective
  rw [List.map_map] at hids
  rw [List.map_map]
  exact hids.sublist (List.filter_sublist.map _)

/-- A field refers to one definition. -/
theorem filter_definition (h : s.Conforms) {f : ItemField} (hf : f ∈ s.db.itemFields) :
    s.db.fieldDefinitions.filter (· = f.fieldDefinitionId) = [f.fieldDefinitionId] := by
  have hbeq : (fun fd => decide (fd = f.fieldDefinitionId)) = (· == f.fieldDefinitionId) := rfl
  rw [hbeq, List.filter_beq, List.count_eq_one_of_mem h.definitionIds (h.fieldDefs f hf)]
  rfl

/-- The fields of an item that was read, in the order of the definitions. -/
theorem fieldRows_perm (h : s.Conforms) {itemIDs : List String} {item : Uuid}
    (hmem : item.text ∈ itemIDs) :
    ((((fieldRows s itemIDs).filter fun r => r.1 = item.text).map Prod.snd).Perm
      ((s.db.itemFields.filter (·.itemId = item)).map (fieldEntry s))) := by
  unfold fieldRows
  refine (((List.mergeSort_perm _ _).filter _).map _).trans (.of_eq ?_)
  have hone : ∀ f ∈ s.db.itemFields.filter (fun f => itemIDs.contains f.itemId.text),
      ((s.db.fieldDefinitions.filter (· = f.fieldDefinitionId)).map fun fd =>
        (f.itemId.text, (⟨f.fieldDefinitionId, f.value, s.isSecret fd⟩ : ExportField))) =
      [(f.itemId.text, fieldEntry s f)] := by
    intro f hf
    rw [filter_definition h (List.mem_filter.1 hf).1]
    rfl
  rw [List.flatMap_congr hone, ← List.map_eq_flatMap, List.filter_map, List.map_map,
    List.filter_filter]
  congr 1
  apply List.filter_congr
  intro f _
  by_cases heq : f.itemId = item
  · simp [heq, hmem]
  · have hne : f.itemId.text ≠ item.text := fun ht => heq (Uuid.text_injective ht)
    simp [heq, hne]

end Contents


/-! ## The export -/

section Export
variable (sch : Schema) (s : State) (ops : TextOps) (now : Time) (text : String)
  (clause : Scope Uuid)

/-- The four lists as the statements give them. -/
def contents : Archive :=
  let rows := itemRows ops s clause
  let itemIDs := rows.map ExportItem.id
  let items := rows.map fun ei =>
    { ei with fields := ((fieldRows s itemIDs).filter fun r => r.1 = ei.id).map Prod.snd }
  let shares := shareRows s (if text ≠ "all" ∧ itemIDs ≠ [] then some itemIDs else none)
  let keypairs := keypairRows s
  { manifest := ⟨"1.0", now, text, items.length, shares.length, keypairs.length, "pr-export"⟩
    items, shares, keypairs }

/-- The statements that are executed name nothing that is missing. -/
structure Resolves : Prop where
  items : (itemsQuery clause).resolve sch = .ok ()
  fields : (∃ item ∈ s.db.items, InScope s item clause) → fieldsQuery.resolve sch = .ok ()
  shares : sharesQuery.resolve sch = .ok ()
  keypairs : keypairsQuery.resolve sch = .ok ()

end Export

section Export
variable {sch : Schema} {s : State} {ops : TextOps} {now : Time} {text : String}
  {clause : Scope Uuid}

@[simp] theorem accepted_eq_ok {q : Select} {message : String} {u : Unit} :
    accepted sch q message = .ok u ↔ q.resolve sch = .ok () := by
  unfold accepted
  cases hq : q.resolve sch with
  | ok v => simp
  | error e => simp

theorem itemsQuery_cast {parsed : Scope String} (h : parsed.cast = some clause) :
    (itemsQuery parsed).resolve sch = (itemsQuery clause).resolve sch := by
  cases parsed with
  | all =>
    cases h
    rfl
  | folder arg =>
    obtain ⟨u, -, rfl⟩ := Option.map_eq_some_iff.1 h
    rfl
  | user arg =>
    obtain ⟨u, -, rfl⟩ := Option.map_eq_some_iff.1 h
    rfl

theorem itemRows_eq_nil (h : s.Conforms) :
    itemRows ops s clause = [] ↔ ¬ ∃ item ∈ s.db.items, InScope s item clause := by
  rw [List.eq_nil_iff_forall_not_mem]
  constructor
  · rintro hnone ⟨item, hitem, hin⟩
    exact hnone _ ((mem_itemRows h).2 ⟨item, hitem, hin, rfl⟩)
  · rintro hnone e he
    obtain ⟨item, hitem, hin, -⟩ := (mem_itemRows h).1 he
    exact hnone ⟨item, hitem, hin⟩

theorem withFields_eq_ok (h : s.Conforms) {items : List ExportItem} :
    withFields sch s (itemRows ops s clause) = .ok items ↔
      ((∃ item ∈ s.db.items, InScope s item clause) → fieldsQuery.resolve sch = .ok ()) ∧
        (contents s ops now text clause).items = items := by
  unfold withFields contents
  by_cases hrows : itemRows ops s clause = []
  · have hnone := (itemRows_eq_nil h).1 hrows
    simp [hrows, hnone]
  · have hsome : ∃ item ∈ s.db.items, InScope s item clause :=
      not_not.1 fun hnone => hrows ((itemRows_eq_nil h).2 hnone)
    have hids : (itemRows ops s clause).map ExportItem.id ≠ [] := by simpa using hrows
    simp only [hids, if_false, hsome, forall_const, Reply.bind_eq_ok, accepted_eq_ok,
      Reply.pure_eq_ok, exists_const]

/-- The archive of a scope is made if the statements resolve, and then it holds the
rows. -/
theorem archive_eq_ok (h : s.Conforms) {parsed : Scope String}
    (hcast : parsed.cast = some clause) {a : Archive} :
    archive sch ops s now text parsed = .ok a ↔
      Resolves sch s clause ∧ contents s ops now text clause = a := by
  unfold archive
  simp only [Reply.bind_eq_ok, accepted_eq_ok, itemsQuery_cast hcast, hcast,
    Reply.orElse_eq_ok, Reply.pure_eq_ok, Option.some.injEq]
  constructor
  · rintro ⟨_, hitems, _, rfl, items, hfields, _, hshares, _, hkeypairs, rfl⟩
    obtain ⟨hresolve, rfl⟩ := (@withFields_eq_ok _ _ _ now text _ h _).1 hfields
    exact ⟨⟨hitems, hresolve, hshares, hkeypairs⟩, rfl⟩
  · rintro ⟨⟨hitems, hfields, hshares, hkeypairs⟩, rfl⟩
    have hitem := (@withFields_eq_ok _ _ ops now text _ h _).2 ⟨hfields, rfl⟩
    exact ⟨(), hitems, clause, rfl, _, hitem, (), hshares, (), hkeypairs, rfl⟩

/-- The entry of an item is right, whatever the scope it is read for. -/
theorem describes_entry (h : s.Conforms) {item : Item} (hitem : item ∈ s.db.items)
    (hin : InScope s item clause) :
    Describes s item { itemRow ops s 1 item with
      fields := ((fieldRows s ((itemRows ops s clause).map ExportItem.id)).filter fun r =>
        r.1 = item.id.text).map Prod.snd } where
  columns := rfl
  dates := rfl
  tags := by
    have hone : (List.replicate 1 (tagRows s item.id)).flatten = tagRows s item.id := by simp
    simp only [itemRow, hone]
    exact List.mergeSort_perm _ _
  fields := fieldRows_perm h
    (List.mem_map_of_mem ((mem_itemRows h).2 ⟨item, hitem, hin, rfl⟩))

/-- The shares of the archive: those of exported items, unless no item is. -/
theorem mem_contents_shares (h : s.Conforms) (htext : text = "all" ↔ clause = .all)
    {e : ExportShare} :
    e ∈ (contents s ops now text clause).shares ↔
      Shared s clause e ∨ (¬ ∃ item ∈ s.db.items, InScope s item clause) ∧
        ∃ sh ∈ s.db.itemShares, sh.revokedAt = none ∧ e = shareRow s sh := by
  have hids : ∀ item : Uuid, item.text ∈ (itemRows ops s clause).map ExportItem.id ↔
      ∃ i ∈ s.db.items, i.id = item ∧ InScope s i clause := by
    intro item
    rw [List.mem_map]
    constructor
    · rintro ⟨e, he, hid⟩
      obtain ⟨i, hi, hin, rfl⟩ := (mem_itemRows h).1 he
      exact ⟨i, hi, Uuid.text_injective hid, hin⟩
    · rintro ⟨i, hi, rfl, hin⟩
      exact ⟨_, (mem_itemRows h).2 ⟨i, hi, hin, rfl⟩, rfl⟩
  have hmem : e ∈ (contents s ops now text clause).shares ↔ ∃ sh ∈ s.db.itemShares,
      (sh.revokedAt = none ∧ (text ≠ "all" ∧ itemRows ops s clause ≠ [] →
        ∃ i ∈ s.db.items, i.id = sh.itemId ∧ InScope s i clause)) ∧ shareRow s sh = e := by
    simp only [contents, shareRows, List.mem_map, List.mem_filter, decide_eq_true_eq, ← hids,
      and_assoc]
    refine exists_congr fun sh => and_congr_right fun _ => and_congr_right fun _ =>
      and_congr_left fun _ => ?_
    split
    · next hcond => simp [show itemRows ops s clause ≠ [] by simpa using hcond.2, hcond.1]
    · next hcond => simpa using fun h₁ h₂ => absurd ⟨h₁, by simpa using h₂⟩ hcond
  rw [hmem]
  by_cases hany : ∃ item ∈ s.db.items, InScope s item clause
  · have hrows : itemRows ops s clause ≠ [] := fun hnil => (itemRows_eq_nil h).1 hnil hany
    simp only [hany, not_true, false_and, or_false, Shared]
    constructor
    · rintro ⟨sh, hsh, ⟨hrev, hscope⟩, rfl⟩
      refine ⟨sh, hsh, hrev, ?_, rfl⟩
      by_cases htextall : text = "all"
      · obtain ⟨item, hitem, hid⟩ := h.shareItems sh hsh
        rw [htext.1 htextall]
        exact ⟨item, hitem, hid, trivial⟩
      · exact hscope ⟨htextall, hrows⟩
    · rintro ⟨sh, hsh, hrev, hscope, rfl⟩
      exact ⟨sh, hsh, ⟨hrev, fun _ => hscope⟩, rfl⟩
  · have hrows : itemRows ops s clause = [] := (itemRows_eq_nil h).2 hany
    constructor
    · rintro ⟨sh, hsh, ⟨hrev, -⟩, rfl⟩
      exact .inr ⟨hany, sh, hsh, hrev, rfl⟩
    · rintro (⟨sh, hsh, hrev, ⟨item, hitem, -, hin⟩, rfl⟩ | ⟨-, sh, hsh, hrev, rfl⟩)
      · exact absurd ⟨item, hitem, hin⟩ hany
      · exact ⟨sh, hsh, ⟨hrev, fun hcond => absurd hrows hcond.2⟩, rfl⟩

theorem contents_shares_nodup (h : s.Conforms) :
    ((contents s ops now text clause).shares.map fun e => (e.itemID, e.userID)).Nodup := by
  have hkeys : ((s.db.itemShares.map fun sh => (sh.itemId, sh.userId)).map fun p =>
      (p.1.text, p.2.text)).Nodup := by
    apply h.shareKeys.map
    rintro ⟨a, b⟩ ⟨a', b'⟩ heq
    simp only [Prod.mk.injEq] at heq ⊢
    exact ⟨Uuid.text_injective heq.1, Uuid.text_injective heq.2⟩
  rw [List.map_map] at hkeys
  simp only [contents, shareRows, List.map_map]
  exact hkeys.sublist (List.filter_sublist.map _)

/-- Were the statements to resolve, the archive would be complete and closed but for
the shares of a scope without items. -/
theorem contents_complete (h : s.Conforms) (htext : text = "all" ↔ clause = .all) :
    Complete s clause (contents s ops now text clause) ↔
      ((∃ item ∈ s.db.items, InScope s item clause) ∨
        ∀ sh ∈ s.db.itemShares, sh.revokedAt ≠ none) := by
  constructor
  · intro hc
    by_contra hnot
    push Not at hnot
    obtain ⟨hnone, sh, hsh, hrev⟩ := hnot
    have hshare : shareRow s sh ∈ (contents s ops now text clause).shares :=
      (mem_contents_shares h htext).2
        (.inr ⟨fun ⟨item, hitem, hin⟩ => hnone item hitem hin, sh, hsh, hrev, rfl⟩)
    obtain ⟨-, -, -, ⟨item, hitem, -, hin⟩, -⟩ := (hc.shares _).1 hshare
    exact hnone item hitem hin
  · intro hcond
    refine ⟨?_, ?_, ?_, contents_shares_nodup h, ?_, rfl⟩
    · simp only [contents, List.map_map]
      exact itemRows_ids_nodup h
    · intro e he
      obtain ⟨e₀, he₀, rfl⟩ := List.mem_map.1 he
      obtain ⟨item, hitem, hin, rfl⟩ := (mem_itemRows h).1 he₀
      exact ⟨item, hitem, hin, describes_entry h hitem hin⟩
    · intro item hitem hin
      exact ⟨_, List.mem_map_of_mem ((mem_itemRows h).2 ⟨item, hitem, hin, rfl⟩),
        describes_entry h hitem hin⟩
    · intro e
      rw [mem_contents_shares h htext]
      constructor
      · rintro (hshared | ⟨hnone, sh, hsh, hrev, -⟩)
        · exact hshared
        · exact absurd hrev (hcond.resolve_left hnone sh hsh)
      · exact .inl

/-- Over any schema: the export is as it should be if and only if its statements
resolve and the scope has an item or there is no share in force. -/
theorem exports_iff_resolves (h : s.Conforms) {claims : Claims}
    (hrole : claims.hasRole .admin = true) {scope : String} (hscope : Names scope clause) :
    Exports s clause (exportEncrypted sch ops s now (some claims) scope).2 ↔
      Resolves sch s clause ∧ ((∃ item ∈ s.db.items, InScope s item clause) ∨
        ∀ sh ∈ s.db.itemShares, sh.revokedAt ≠ none) := by
  obtain ⟨parsed, hparse, hcast, htext⟩ := parseScope_names hscope
  have hreply : ∀ a, (exportEncrypted sch ops s now (some claims) scope).2 = .ok a ↔
      archive sch ops s now (if scope = "" then "all" else scope) parsed = .ok a := by
    intro a
    have hsame : archive sch ops (audited s claims "admin.export_encrypted_started") now
        (if scope = "" then "all" else scope) parsed =
          archive sch ops s now (if scope = "" then "all" else scope) parsed := rfl
    simp only [exportEncrypted, hrole, Bool.not_true, Bool.false_eq_true, if_false, hparse, hsame]
    cases archive sch ops s now (if scope = "" then "all" else scope) parsed with
    | error e => simp
    | ok a => simp
  simp only [Exports, hreply, archive_eq_ok h hcast]
  constructor
  · rintro ⟨a, ⟨hres, rfl⟩, hc⟩
    exact ⟨hres, (contents_complete h htext).1 hc⟩
  · rintro ⟨hres, hcond⟩
    exact ⟨_, ⟨hres, rfl⟩, (contents_complete h htext).2 hcond⟩

end Export

/-- Rows that are exported with their own ids. -/
def sampleExport (db : DB) : State where
  toCatalogState := bareCatalog db
  isSecret := fun _ => false
  shareId := Prod.fst
  grantedAt := fun _ => 0
  keypairCreatedAt := fun _ => 0

theorem sampleExport_conforms {db : DB} (hitems : (db.items.map Item.id).Nodup)
    (hshares : db.itemShares = []) (hfields : db.itemFields = [])
    (hdefs : db.fieldDefinitions.Nodup) : (sampleExport db).Conforms where
  itemIds := hitems
  shareKeys := by
    change (db.itemShares.map _).Nodup
    rw [hshares]
    exact List.nodup_nil
  shareItems := by
    change ∀ sh ∈ db.itemShares, _
    simp [hshares]
  definitionIds := hdefs
  fieldDefs := by
    change ∀ f ∈ db.itemFields, _
    simp [hfields]

end IronStock.EncryptedExport

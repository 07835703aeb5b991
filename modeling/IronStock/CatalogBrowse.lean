import IronStock.ItemSearch
import IronStock.PipelineDiagrams

/-!
# The catalog

`GET /api/v1/catalog/items`. The listing has its own three-armed test of what a
caller may see and its own labels for what they may do, both simpler than the
resolver. The page query, the count query and the folder names are read from
one state.
-/
namespace IronStock

open Strongest

/-! ## Health -/

inductive HealthSeverity
  | healthy
  | warning
  | critical
deriving DecidableEq, Repr

/-- `health.Severity`. -/
def healthSeverity (score : Int) : HealthSeverity :=
  if 80 ≤ score then .healthy else if 50 ≤ score then .warning else .critical

/-- `health.SeverityRange`. -/
def severityRange : HealthSeverity → Int × Int
  | .healthy => (80, 100)
  | .warning => (50, 79)
  | .critical => (0, 49)

/-- The range of a severity holds the scores it is reported for. -/
theorem mem_severityRange {score : Int} (h : 0 ≤ score ∧ score ≤ 100) (sev : HealthSeverity) :
    ((severityRange sev).1 ≤ score ∧ score ≤ (severityRange sev).2) ↔
      healthSeverity score = sev := by
  simp only [healthSeverity]
  split
  · cases sev <;> simp [severityRange] <;> omega
  · split
    · cases sev <;> simp [severityRange] <;> omega
    · cases sev <;> simp [severityRange] <;> omega

/-! ## The tables -/

structure Tag where
  id : Uuid
  name : String

structure ItemTag where
  itemId : Uuid
  tagId : Uuid

structure UserFavorite where
  userId : Uuid
  itemId : Uuid

structure CatalogState where
  db : DB
  /-- the column `health_score` of `items` -/
  healthScore : Uuid → Option Int
  tags : List Tag
  itemTags : List ItemTag
  lifecycleStages : List ItemLifecycleStage
  relationships : List ItemRelationship
  favorites : List UserFavorite
  /-- `CHECK (health_score IS NULL OR (health_score >= 0 AND health_score <= 100))` -/
  scoreRange : ∀ id, (healthScore id).all (fun n => 0 ≤ n ∧ n ≤ 100) = true

/-- The names of the tags of an item, in the order of the collation. -/
def CatalogState.tagNames (s : CatalogState) (ops : TextOps) (item : Uuid) : List String :=
  ((s.itemTags.filter (·.itemId = item)).filterMap fun itag =>
    (Table.lookup Tag.id itag.tagId s.tags).map Tag.name).mergeSort ops.le

/-! ## Parameters -/

/-- The query string; a missing parameter is empty. -/
structure CatalogBrowseRequest where
  typeID : String := ""
  limit : String := ""
  offset : String := ""
  q : String := ""
  tag : String := ""
  severity : String := ""

structure CatalogFilters where
  typeID : Option Int
  q : String
  tag : String
  severity : Option HealthSeverity

/-- `catalogBrowseParams`. -/
structure CatalogBrowseParams extends CatalogFilters where
  limit : Nat
  offset : Nat

def catalogMaxLimit : Int := 200
def catalogDefaultLimit : Int := 50

/-- An optional number of at least `min`; the outer `none` is an error. -/
def optionalNumber (raw : String) (parse : String → Option Int) (min : Int) :
    Option (Option Int) :=
  if raw = "" then some none else ((parse raw).filter fun n => min ≤ n).map some

/-- `strconv.ParseInt(s, 10, 16)`. -/
def parseInt16 (s : String) : Option Int :=
  (parseInt64 s).filter fun n => -32768 ≤ n ∧ n ≤ 32767

def severityOf : String → Option (Option HealthSeverity)
  | "" => some none
  | "healthy" => some (some .healthy)
  | "warning" => some (some .warning)
  | "critical" => some (some .critical)
  | _ => none

/-- `parseCatalogBrowseParams`. -/
def parseCatalogBrowseParams (req : CatalogBrowseRequest) : Reply CatalogBrowseParams := do
  let typeID ← Reply.orElse (optionalNumber req.typeID parseInt16 1)
    (validationError "type_id geçersiz")
  let limit ← Reply.orElse (optionalNumber req.limit parseInt64 1)
    (validationError "limit geçersiz")
  let offset ← Reply.orElse (optionalNumber req.offset parseInt64 0)
    (validationError "offset geçersiz")
  let severity ← Reply.orElse (severityOf req.severity)
    (validationError "severity geçersiz: healthy | warning | critical olmalı")
  return {
    typeID, severity, q := trimSpace req.q, tag := trimSpace req.tag
    limit := (min (limit.getD catalogDefaultLimit) catalogMaxLimit).toNat
    offset := (offset.getD 0).toNat }

/-! ## The queries -/

/-- `whereExtra`. -/
def CatalogFilters.selects (f : CatalogFilters) (ops : TextOps) (s : CatalogState) (item : Item) :
    Bool :=
  f.typeID.all (item.itemTypeId = ·) &&
    (f.q = "" || item.namePlain.any (ops.ilike · ("%" ++ f.q ++ "%"))) &&
    (f.tag = "" || (s.tagNames ops item.id).contains f.tag) &&
    f.severity.all fun sev => (s.healthScore item.id).any fun score =>
      (severityRange sev).1 ≤ score ∧ score ≤ (severityRange sev).2

/-- The CTE `folder_grants`: the two arms of the search, and one's own folders. -/
def DB.folderGrants (db : DB) (now : Time) (userID : Uuid) : List Uuid :=
  db.accessible now userID ++ (db.folders.filter (·.createdBy = userID)).map (·.id)

/-- The test of both queries: all items for an admin, otherwise three arms. -/
def catalogVisible (db : DB) (now : Time) (claims : Claims) (item : Item) : Bool :=
  claims.hasRole .admin || item.createdBy = claims.subject ||
    (db.itemShares.any fun s => s.userId = claims.subject ∧ s.inForce now ∧ s.itemId = item.id) ||
    (db.folderGrants now claims.subject).contains item.folderId

inductive CatalogPermission
  | admin
  | owner
  | write
  | read
deriving DecidableEq, Repr

/-- `permExpr`; it does not look at the window of the share. -/
def catalogPermission (db : DB) (claims : Claims) (item : Item) : CatalogPermission :=
  if claims.hasRole .admin then .admin
  else if item.createdBy = claims.subject then .owner
  else if db.itemShares.any fun s => s.itemId = item.id ∧ s.userId = claims.subject ∧
      s.revokedAt = none ∧ s.permission = .write then .write
  else .read

/-- `ORDER BY i.updated_at DESC, i.name_plain ASC`. -/
def catalogLe (ops : TextOps) (a b : Item) : Bool :=
  if a.updatedAt = b.updatedAt then ops.nameLe a.namePlain b.namePlain
  else b.updatedAt < a.updatedAt

/-- The rows of both queries. -/
def catalogRows (ops : TextOps) (s : CatalogState) (now : Time) (claims : Claims)
    (f : CatalogFilters) : List Item :=
  s.db.items.filter fun item => catalogVisible s.db now claims item && f.selects ops s item

/-! ## The handler -/

structure CatalogBrowseItem where
  id : String
  itemTypeID : Int
  folderID : String
  folderName : Bytes
  name : String
  description : String
  healthScore : Option Int
  healthSeverity : Option HealthSeverity
  expiresAt : Option String
  tags : List String
  lifecycleStageIDs : List Int
  relationshipCount : Nat
  isFavorite : Bool
  permission : CatalogPermission

structure CatalogBrowseResponse where
  items : List CatalogBrowseItem
  total : Nat

/-- `decryptFolderName`. -/
def decryptFolderName (svc : Service) (enc : Bytes) : Option Bytes :=
  svc.master.openBlob enc (makeAAD "folders" "*" "name_enc")

/-- A row of the answer; a folder name that cannot be decrypted is empty. -/
def catalogItem (svc : Service) (ops : TextOps) (s : CatalogState) (claims : Claims) (item : Item) :
    CatalogBrowseItem where
  id := item.id.text
  itemTypeID := item.itemTypeId
  folderID := item.folderId.text
  folderName := ((s.db.folder? item.folderId).bind fun f => decryptFolderName svc f.nameEnc).getD []
  name := item.namePlain.getD ""
  description := item.description.getD ""
  healthScore := s.healthScore item.id
  healthSeverity := (s.healthScore item.id).map healthSeverity
  expiresAt := item.expiresAt.map svc.timestampText
  tags := s.tagNames ops item.id
  lifecycleStageIDs := ((s.lifecycleStages.filter (·.itemId = item.id)).map
    (·.lifecycleStageId)).mergeSort (· ≤ ·)
  relationshipCount := (s.relationships.filter fun r =>
    r.sourceItemId = item.id ∨ r.targetItemId = item.id).length
  isFavorite := !claims.hasRole .admin &&
    s.favorites.any fun f => f.itemId = item.id ∧ f.userId = claims.subject
  permission := catalogPermission s.db claims item

/-- `List`. -/
def catalogBrowse (svc : Service) (ops : TextOps) (s : CatalogState) (now : Time) (claims : Claims)
    (req : CatalogBrowseRequest) : Reply CatalogBrowseResponse := do
  let params ← parseCatalogBrowseParams req
  let rows := catalogRows ops s now claims params.toCatalogFilters
  return {
    items := (((rows.mergeSort (catalogLe ops)).drop params.offset).take params.limit).map
      (catalogItem svc ops s claims)
    total := rows.length }

/-- An answer filtered by a severity reports that severity on every row. -/
theorem catalogItem_severity (svc : Service) {ops : TextOps} {s : CatalogState} (claims : Claims)
    {f : CatalogFilters} {item : Item} (h : f.selects ops s item = true) {sev : HealthSeverity}
    (hsev : f.severity = some sev) :
    (catalogItem svc ops s claims item).healthSeverity = some sev := by
  simp only [CatalogFilters.selects, hsev, Bool.and_eq_true, Option.all_some, Option.any_eq_true,
    decide_eq_true_eq] at h
  obtain ⟨_, score, hscore, hrange⟩ := h
  have hcheck := s.scoreRange item.id
  simp only [hscore, Option.all_some, decide_eq_true_eq] at hcheck
  rw [catalogItem, hscore, Option.map_some, (mem_severityRange hcheck sev).mp hrange]

/-! ## What is listed -/

section Listing

variable {svc : Service} {ops : TextOps} {s : CatalogState} {db : DB} {now : Time} {claims : Claims}
  {user : Uuid} {item : Item}

/-- A direct share in force. -/
inductive SharedInForce (db : DB) (now : Time) (user : Uuid) (item : Item) (g : Grant) : Prop
  | intro {s : ItemShare} (hrow : s ∈ db.itemShares) (hitem : s.itemId = item.id)
      (huser : s.userId = user) (hforce : InForce s.revokedAt s.window now)
      (hgrant : s.permission = g)

/-- Why an item is in a caller's catalog. -/
inductive CatalogListed (db : DB) (now : Time) (claims : Claims) (item : Item) : Prop
  | admin (hadmin : claims.hasRole .admin = true)
  | created (howner : item.createdBy = claims.subject)
  | shared {g : Grant} (hshare : SharedInForce db now claims.subject item g)
  | folderCreated {f : Folder} (hrow : f ∈ db.folders) (hfolder : f.id = item.folderId)
      (howner : f.createdBy = claims.subject)
  | granted (hgranted : GrantedFolder db now claims.subject item.folderId)

theorem mem_folderGrants {folder : Uuid} :
    folder ∈ db.folderGrants now user ↔ GrantedFolder db now user folder ∨
      ∃ f ∈ db.folders, f.id = folder ∧ f.createdBy = user := by
  simp only [DB.folderGrants, List.mem_append, mem_accessible, List.mem_map, List.mem_filter,
    decide_eq_true_eq]
  refine or_congr_right ⟨?_, ?_⟩
  · rintro ⟨f, ⟨hrow, howner⟩, hfolder⟩
    exact ⟨f, hrow, hfolder, howner⟩
  · rintro ⟨f, hrow, hfolder, howner⟩
    exact ⟨f, ⟨hrow, howner⟩, hfolder⟩

theorem any_share_iff :
    (db.itemShares.any fun s => s.userId = user ∧ s.inForce now ∧ s.itemId = item.id) = true ↔
      ∃ g, SharedInForce db now user item g := by
  simp only [List.any_eq_true, decide_eq_true_eq]
  simp only [ItemShare.inForce, inForce_iff]
  constructor
  · rintro ⟨s, hrow, huser, hforce, hitem⟩
    exact ⟨s.permission, .intro hrow hitem huser hforce rfl⟩
  · rintro ⟨g, hrow, hitem, huser, hforce, -⟩
    exact ⟨_, hrow, huser, hforce, hitem⟩

theorem catalogVisible_iff :
    catalogVisible db now claims item = true ↔ CatalogListed db now claims item := by
  simp only [catalogVisible, Bool.or_eq_true, any_share_iff, List.contains_iff_mem,
    mem_folderGrants, decide_eq_true_eq]
  constructor
  · rintro (((hadmin | howner) | ⟨g, hshare⟩) | hgranted | ⟨f, hrow, hfolder, howner⟩)
    · exact .admin hadmin
    · exact .created howner
    · exact .shared hshare
    · exact .granted hgranted
    · exact .folderCreated hrow hfolder howner
  · intro h
    cases h with
    | admin hadmin => exact .inl (.inl (.inl hadmin))
    | created howner => exact .inl (.inl (.inr howner))
    | shared hshare => exact .inl (.inr ⟨_, hshare⟩)
    | granted hgranted => exact .inr (.inl hgranted)
    | folderCreated hrow hfolder howner => exact .inr (.inr ⟨_, hrow, hfolder, howner⟩)

/-- What the three arms leave out: shares with a group, and grants on a folder
above. -/
inductive OutsideCatalog (db : DB) (now : Time) (user : Uuid) (item : Item) : Prop
  | groupShared {s : ItemGroupShare} (hrow : s ∈ db.itemGroupShares) (hitem : s.itemId = item.id)
      (hmember : ⟨s.groupId, user⟩ ∈ db.groupMembers) (hforce : InForce s.revokedAt s.window now)
  | inherited {p : FolderPermissionRow} (hrow : p ∈ db.folderPermissions) (huser : p.userId = user)
      (hforce : InForce p.revokedAt p.window now) (hinherit : p.inheritToChildren = true)
      (habove : Forest.StrictlyAbove db.parentOf item.folderId p.folderId)
  | groupInherited {p : FolderGroupPermissionRow} (hrow : p ∈ db.folderGroupPermissions)
      (hmember : ⟨p.groupId, user⟩ ∈ db.groupMembers)
      (hforce : InForce p.revokedAt p.window now) (hinherit : p.inheritToChildren = true)
      (habove : Forest.StrictlyAbove db.parentOf item.folderId p.folderId)

theorem ReadElsewhere.listed_or_outside (h : ReadElsewhere db now claims.subject item) :
    CatalogListed db now claims item ∨ OutsideCatalog db now claims.subject item := by
  cases h with
  | created howner => exact .inl (.created howner)
  | shared hrow hitem huser hforce _ => exact .inl (.shared (.intro hrow hitem huser hforce rfl))
  | groupShared hrow hitem hmember hforce _ => exact .inr (.groupShared hrow hitem hmember hforce)
  | folderCreated hfolder howner _ =>
    obtain ⟨hrow, hid⟩ := Table.lookup_eq_some hfolder
    exact .inl (.folderCreated hrow hid howner)
  | inherited hrow huser hforce hinherit _ habove _ =>
    exact .inr (.inherited hrow huser hforce hinherit habove)
  | groupInherited hrow hmember hforce hinherit _ habove _ =>
    exact .inr (.groupInherited hrow hmember hforce hinherit habove)

/-- A listed item has a source of a level. -/
theorem CatalogListed.hasLevel (h : CatalogListed db now claims item)
    (hadmin : claims.hasRole .admin = false) (hfolders : (db.folders.map Folder.id).Nodup)
    (hfolder : (db.folder? item.folderId).isSome = true) :
    ∃ l, ItemLevel db now claims.subject item l ∨
      FolderLevel db now claims.subject item.folderId l := by
  cases h with
  | admin hyes => rw [hadmin] at hyes; cases hyes
  | created howner => exact ⟨_, .inl (.owner howner)⟩
  | shared hshare =>
    obtain ⟨hrow, hitem, huser, hforce, -⟩ := hshare
    exact ⟨_, .inl (.direct hrow hitem huser hforce)⟩
  | @folderCreated f hrow hid howner =>
    have hlookup : db.folder? item.folderId = some f := hid ▸ Table.lookup_of_mem hfolders hrow
    exact ⟨_, .inr (.owner hlookup howner)⟩
  | granted hgranted =>
    obtain ⟨l, hl⟩ := hgranted.hasLevel hfolder
    exact ⟨l, .inr hl⟩

end Listing

/-! ## Labels and levels -/

/-- The keys of `ItemKeys`, and that of the folders. -/
structure CatalogKeys (db : DB) : Prop extends ItemKeys db where
  folderIds : (db.folders.map Folder.id).Nodup

/-- What the label of a listed item says of the level the resolver gives. -/
structure LabelFits (db : DB) (now : Time) (claims : Claims) (item : Item)
    (label : CatalogPermission) : Prop where
  admin : claims.hasRole .admin = true → label = .admin
  owner : claims.hasRole .admin = false → item.createdBy = claims.subject →
    label = .owner ∧ itemPermissionOf db now claims.subject item.id = .ok .write
  write : claims.hasRole .admin = false → item.createdBy ≠ claims.subject →
    SharedInForce db now claims.subject item .write →
    label = .write ∧ itemPermissionOf db now claims.subject item.id = .ok .write
  read : claims.hasRole .admin = false → item.createdBy ≠ claims.subject →
    (∀ s ∈ db.itemShares, s.itemId = item.id → s.userId = claims.subject →
      s.permission = .write → s.revokedAt ≠ none) → label = .read
  readable : claims.hasRole .admin = false →
    ItemLevel db now claims.subject item .write ∨ WalkEnds db item →
    Readable db now claims item.id
  readOnly : claims.hasRole .admin = false → WalkEnds db item →
    ¬ ItemLevel db now claims.subject item .write →
    ¬ FolderLevel db now claims.subject item.folderId .write →
    itemPermissionOf db now claims.subject item.id = .ok .read

/-- A readable item is only readable where nothing gives write. -/
theorem itemPermissionOf_read {db : DB} (hkeys : ShareKeysUnique db) {now : Time}
    {user itemID : Uuid} {item : Item} (hitem : db.item? itemID = some item)
    (hends : WalkEnds db item) (hown : ¬ ItemLevel db now user item .write)
    (hfolder : ¬ FolderLevel db now user item.folderId .write) {p : Perm}
    (hp : itemPermissionOf db now user itemID = .ok p) (hread : p.allowsRead = true) :
    p = .read := by
  obtain ⟨fromFolder, hfrom⟩ := (folderPermissionOf_isOk db now user item.folderId).mpr hends
  obtain ⟨q, hq, hstrong⟩ := itemPermissionOf_isStrongest hkeys hitem hfrom
  rw [hp] at hq
  cases hq
  cases p with
  | none => cases hread
  | read => rfl
  | write =>
    rcases (isStrongest_iff.mp hstrong).1 with hbot | hmem | rfl
    · cases hbot
    · exact absurd hmem hown
    · have hlevel := (isStrongest_iff.mp (folderPermissionOf_isStrongest hfrom)).1
      exact absurd (hlevel.resolve_left (by decide)) hfolder

theorem catalogPermission_fits {db : DB} (hkeys : CatalogKeys db) {now : Time} {claims : Claims}
    {item : Item} (hitem : item ∈ db.items) (hlisted : CatalogListed db now claims item) :
    LabelFits db now claims item (catalogPermission db claims item) := by
  have hlookup : db.item? item.id = some item := Table.lookup_of_mem hkeys.items hitem
  have hreadable (hadmin : claims.hasRole .admin = false)
      (hend : ItemLevel db now claims.subject item .write ∨ WalkEnds db item) :
      Readable db now claims item.id := by
    refine (itemPermissionOf_allowsRead_iff hkeys.shares hlookup).mpr ?_
    exact hend.imp_right fun hends =>
      ⟨hends, hlisted.hasLevel hadmin hkeys.folderIds (hkeys.folders item hitem)⟩
  constructor
  · intro hadmin
    rw [catalogPermission, if_pos hadmin]
  · intro hadmin howner
    refine ⟨?_, itemPermissionOf_of_write hkeys.shares hlookup (.owner howner)⟩
    rw [catalogPermission, hadmin, if_neg (by decide), if_pos howner]
  · rintro hadmin howner ⟨hrow, hid, huser, hforce, hgrant⟩
    have hwrite : ItemLevel db now claims.subject item _ := .direct hrow hid huser hforce
    rw [hgrant] at hwrite
    refine ⟨?_, itemPermissionOf_of_write hkeys.shares hlookup hwrite⟩
    rw [catalogPermission, hadmin, if_neg (by decide), if_neg howner, if_pos]
    exact List.any_eq_true.mpr ⟨_, hrow, by simp [hid, huser, hforce.unrevoked, hgrant]⟩
  · intro hadmin howner hnone
    rw [catalogPermission, hadmin, if_neg (by decide), if_neg howner, if_neg]
    intro hany
    obtain ⟨s, hrow, hmatch⟩ := List.any_eq_true.mp hany
    simp only [decide_eq_true_eq] at hmatch
    obtain ⟨hid, huser, hunrevoked, hgrant⟩ := hmatch
    exact hnone s hrow hid huser hgrant hunrevoked
  · exact hreadable
  · intro hadmin hends hown hfolder
    obtain ⟨p, hp, hread⟩ := hreadable hadmin (.inr hends)
    rw [hp, itemPermissionOf_read hkeys.shares hlookup hends hown hfolder hp hread]

/-- Texts for concrete runs. -/
def sampleText : TextOps where
  lower := id
  le a b := a ≤ b
  similar a b := a = b
  similarity _ _ := 0
  castInt2 _ := none

/-- A state with these tables and nothing around them. -/
def bareCatalog (db : DB) : CatalogState where
  db := db
  healthScore _ := none
  tags := []
  itemTags := []
  lifecycleStages := []
  relationships := []
  favorites := []
  scoreRange _ := rfl

/-- Item 7 lies in folder 3, below folder 2 on which user 5 has an inherited
grant. -/
def inheritedItem : DB := { inheritedGrant with items := [sampleItem 7 3 1] }

theorem inheritedItem_keys : CatalogKeys inheritedItem := by
  refine ⟨⟨by decide, by decide, ?_⟩, by decide⟩
  intro item hitem
  obtain rfl := List.mem_singleton.mp hitem
  rfl

end IronStock

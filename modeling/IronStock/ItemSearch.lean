import IronStock.ApprovalGate
import IronStock.ItemLevels

/-!
# Searching items

`GET /api/v1/items/search`. Which items a caller without the role admin can find
is decided by a CTE over the grants on folders; the resolver is not asked. The
audit entry is written in the background and is left out.
-/
namespace IronStock

/-! ## What the database does with texts -/

/-- `text LIKE pattern`, for patterns that do not end in the escape character. -/
def like : List Char → List Char → Bool
  | [], text => text.isEmpty
  | '%' :: pattern, text => text.tails.any (like pattern)
  | '\\' :: c :: pattern, text => text.head? = some c && like pattern text.tail
  | '_' :: pattern, text => !text.isEmpty && like pattern text.tail
  | c :: pattern, text => text.head? = some c && like pattern text.tail

/-- The locale of the database, and `pg_trgm`. -/
structure TextOps where
  /-- `lower` -/
  lower : String → String
  /-- the collation -/
  le : String → String → Bool
  /-- the operator `%` -/
  similar : String → String → Bool
  similarity : String → String → Rat
  /-- the input function of `smallint` -/
  castInt2 : String → Option Int

namespace TextOps

variable (ops : TextOps)

/-- `lower(text) LIKE lower(pattern)`, which `text ILIKE pattern` is too. -/
def ilike (text pattern : String) : Bool := like (ops.lower pattern).toList (ops.lower text).toList

/-- `ORDER BY name_plain`: ascending, NULL last. -/
def nameLe : Option String → Option String → Bool
  | _, none => true
  | none, some _ => false
  | some a, some b => ops.le a b

end TextOps

/-! ## The handler -/

/-- The query string; a missing parameter is empty. -/
structure ItemSearchRequest where
  q : String
  typeID : String := ""
  limit : String := ""
  fuzzy : String := ""
  kind : String := ""

/-- `parseIntDefault`. -/
def parseIntDefault (s : String) (default min max : Int) : Int :=
  match parseInt64 s with
  | none => default
  | some n => if n < min then min else if max < n then max else n

namespace ItemSearchRequest

variable (req : ItemSearchRequest)

def term : String := trimSpace req.q

def rowLimit : Nat := (parseIntDefault req.limit 50 1 100).toNat

def isFuzzy : Bool := req.fuzzy = "true"

def kindKeys : List String :=
  (((trimSpace req.kind).splitOn ",").map trimSpace).filter (· ≠ "")

/-- The parameter of `i.item_type_id = …`, if there is one; the outer `none` is
a failed cast. -/
def typeRef (ops : TextOps) : Option (Option Int) :=
  if req.typeID = "" then some none else (ops.castInt2 req.typeID).map some

/-- `whereExpr`; NULL is not true. -/
def matchesText (svc : Service) (ops : TextOps) (item : Item) : Bool :=
  if req.isFuzzy then
    item.namePlain.any (ops.similar · req.term) ||
      ops.similar (item.description.getD "") req.term
  else
    let pattern := "%" ++ svc.toLower req.term ++ "%"
    item.namePlain.any (ops.ilike · pattern) || ops.ilike (item.description.getD "") pattern

/-- The whole `WHERE`, with the type that was asked for. -/
def selects (svc : Service) (ops : TextOps) (db : DB) (typeID : Option Int) (item : Item) : Bool :=
  req.matchesText svc ops item && typeID.all (item.itemTypeId = ·) &&
    (req.kindKeys.isEmpty ||
      ((db.itemTypes.find? (·.id = item.itemTypeId)).bind ItemType.kindKey).any
        (req.kindKeys.contains ·))

/-- `orderExpr`. -/
def orderLe (ops : TextOps) (a b : Item) : Bool :=
  let score (item : Item) : Rat := ops.similarity (item.namePlain.getD "") req.term
  if req.isFuzzy && score a ≠ score b then score b < score a
  else ops.nameLe a.namePlain b.namePlain

end ItemSearchRequest

/-- The CTE `accessible`: folders with a grant in force on the folder itself. Its
`UNION` leaves one row for a folder, so joining it is a test. -/
def DB.accessible (db : DB) (now : Time) (userID : Uuid) : List Uuid :=
  (db.folderPermissions.filter fun p => p.userId = userID ∧ p.inForce now).map (·.folderId) ++
    (db.folderGroupPermissions.filter fun p => db.isMember p.groupId userID ∧ p.inForce now).map
      (·.folderId)

/-- The items before the `WHERE`. -/
def searchFrom (db : DB) (now : Time) (claims : Claims) : List Item :=
  if claims.hasRole .admin then db.items
  else db.items.filter fun item => (db.accessible now claims.subject).contains item.folderId

/-- A row of the answer; a name that cannot be decrypted drops it. -/
def searchResult (svc : Service) (db : DB) (item : Item) : Option ItemResponse :=
  (decryptItemName svc item.id.text item.serverDekWrapped item.nameEnc).map fun name =>
    { id := item.id.text, folderID := item.folderId.text, itemTypeID := item.itemTypeId
      name := name, description := none, fields := none
      createdBy := item.createdBy, createdAt := svc.timestampText item.createdAt
      updatedAt := svc.timestampText item.updatedAt, permission := .none
      ownerDEKWrapped := none, ownerWrapNonce := none
      expiresAt := item.expiresAt.map svc.timestampText
      rotationIntervalDays := item.rotationIntervalDays
      lastRotatedAt := item.lastRotatedAt.map svc.timestampText
      requiresApproval := none, myAccessRequest := none
      kind := kindOf db item.itemTypeId, ownerRef := none }

/-- `Search`. -/
def itemSearch (svc : Service) (ops : TextOps) (db : DB) (now : Time) (claims : Claims)
    (req : ItemSearchRequest) : Reply (List ItemResponse) := do
  Reply.require (2 ≤ req.term.utf8ByteSize) (badRequest "Arama terimi en az 2 karakter olmalı.")
  let typeID ← Reply.orElse (req.typeRef ops) (internalError "Arama hatası.")
  let rows := (searchFrom db now claims).filter (req.selects svc ops db typeID)
  return ((rows.mergeSort (req.orderLe ops)).take req.rowLimit).filterMap (searchResult svc db)

/-- What there is to find, whatever the text and on however many pages. -/
def searchHits (svc : Service) (db : DB) (now : Time) (claims : Claims) : List ItemResponse :=
  (searchFrom db now claims).filterMap (searchResult svc db)

/-! ## What an answer holds -/

section Handler

variable {svc : Service} {ops : TextOps} {db : DB} {now : Time} {claims : Claims}
  {req : ItemSearchRequest} {out : List ItemResponse}

/-- The limit is a number from 1 to 100, whatever was asked for. -/
theorem ItemSearchRequest.rowLimit_mem (req : ItemSearchRequest) :
    1 ≤ req.rowLimit ∧ req.rowLimit ≤ 100 := by
  simp only [rowLimit, parseIntDefault]
  cases parseInt64 req.limit with
  | none => decide
  | some n =>
    dsimp only
    split
    · decide
    · split <;> omega

theorem itemSearch_eq_ok (h : itemSearch svc ops db now claims req = .ok out) :
    ∃ typeID, req.typeRef ops = some typeID ∧
      out = ((((searchFrom db now claims).filter (req.selects svc ops db typeID)).mergeSort
        (req.orderLe ops)).take req.rowLimit).filterMap (searchResult svc db) := by
  simp only [itemSearch, Reply.bind_eq_ok, Reply.orElse_eq_ok, Reply.pure_eq_ok] at h
  obtain ⟨_, _, typeID, htype, rfl⟩ := h
  exact ⟨typeID, htype, rfl⟩

/-- An answer holds nothing but hits that the filters select, and unless the
limit cuts it holds all of them. -/
theorem itemSearch_hits (h : itemSearch svc ops db now claims req = .ok out) :
    ∃ typeID, req.typeRef ops = some typeID ∧
      (∀ r ∈ out, ∃ item ∈ searchFrom db now claims,
        req.selects svc ops db typeID item = true ∧ searchResult svc db item = some r) ∧
      (((searchFrom db now claims).filter (req.selects svc ops db typeID)).length ≤ req.rowLimit →
        ∀ item ∈ searchFrom db now claims, req.selects svc ops db typeID item = true →
          ∀ r, searchResult svc db item = some r → r ∈ out) := by
  obtain ⟨typeID, htype, rfl⟩ := itemSearch_eq_ok h
  refine ⟨typeID, htype, ?_, ?_⟩
  · intro r hr
    obtain ⟨item, hitem, hresult⟩ := List.mem_filterMap.mp hr
    have hrow := List.mem_mergeSort.mp (List.mem_of_mem_take hitem)
    exact ⟨item, List.mem_of_mem_filter hrow, List.of_mem_filter hrow, hresult⟩
  · intro hfit item hitem hselect r hr
    have hlength := (List.mergeSort_perm ((searchFrom db now claims).filter
      (req.selects svc ops db typeID)) (req.orderLe ops)).length_eq
    rw [List.take_of_length_le (hlength.trans_le hfit)]
    have hrow := List.mem_filter.mpr ⟨hitem, hselect⟩
    exact List.mem_filterMap.mpr ⟨item, List.mem_mergeSort.mpr hrow, hr⟩

end Handler

/-! ## Found and readable -/

section Sources

variable {svc : Service} {db : DB} {now : Time} {user : Uuid} {item : Item}

/-- A grant in force on the folder itself. -/
inductive GrantedFolder (db : DB) (now : Time) (user folder : Uuid) : Prop
  | direct {p : FolderPermissionRow} (hrow : p ∈ db.folderPermissions) (huser : p.userId = user)
      (hfolder : p.folderId = folder) (hforce : InForce p.revokedAt p.window now)
  | group {p : FolderGroupPermissionRow} (hrow : p ∈ db.folderGroupPermissions)
      (hmember : ⟨p.groupId, user⟩ ∈ db.groupMembers) (hfolder : p.folderId = folder)
      (hforce : InForce p.revokedAt p.window now)

theorem mem_accessible {folder : Uuid} :
    folder ∈ db.accessible now user ↔ GrantedFolder db now user folder := by
  simp only [DB.accessible, List.mem_append, List.mem_map, List.mem_filter, decide_eq_true_eq]
  simp only [isMember_iff, FolderPermissionRow.inForce, FolderGroupPermissionRow.inForce,
    inForce_iff]
  constructor
  · rintro (⟨p, ⟨hrow, huser, hforce⟩, hfolder⟩ | ⟨p, ⟨hrow, hmember, hforce⟩, hfolder⟩)
    · exact .direct hrow huser hfolder hforce
    · exact .group hrow hmember hfolder hforce
  · rintro (⟨hrow, huser, hfolder, hforce⟩ | ⟨hrow, hmember, hfolder, hforce⟩)
    · exact .inl ⟨_, ⟨hrow, huser, hforce⟩, hfolder⟩
    · exact .inr ⟨_, ⟨hrow, hmember, hforce⟩, hfolder⟩

/-- The walk up from the folder of the item has an end. -/
abbrev WalkEnds (db : DB) (item : Item) : Prop := Forest.Ends db.parentOf item.folderId

/-- What lets a user read an item besides a grant on its own folder. A share for
reading counts where the walk up the folders has an end. -/
inductive ReadElsewhere (db : DB) (now : Time) (user : Uuid) (item : Item) : Prop
  | created (howner : item.createdBy = user)
  | shared {s : ItemShare} (hrow : s ∈ db.itemShares) (hitem : s.itemId = item.id)
      (huser : s.userId = user) (hforce : InForce s.revokedAt s.window now)
      (hwalk : s.permission = .write ∨ WalkEnds db item)
  | groupShared {s : ItemGroupShare} (hrow : s ∈ db.itemGroupShares) (hitem : s.itemId = item.id)
      (hmember : ⟨s.groupId, user⟩ ∈ db.groupMembers) (hforce : InForce s.revokedAt s.window now)
      (hwalk : s.permission = .write ∨ WalkEnds db item)
  | folderCreated {f : Folder} (hfolder : db.folder? item.folderId = some f)
      (howner : f.createdBy = user) (hwalk : WalkEnds db item)
  | inherited {p : FolderPermissionRow} (hrow : p ∈ db.folderPermissions) (huser : p.userId = user)
      (hforce : InForce p.revokedAt p.window now) (hinherit : p.inheritToChildren = true)
      (hexists : (db.folder? p.folderId).isSome = true)
      (habove : Forest.StrictlyAbove db.parentOf item.folderId p.folderId)
      (hwalk : WalkEnds db item)
  | groupInherited {p : FolderGroupPermissionRow} (hrow : p ∈ db.folderGroupPermissions)
      (hmember : ⟨p.groupId, user⟩ ∈ db.groupMembers)
      (hforce : InForce p.revokedAt p.window now) (hinherit : p.inheritToChildren = true)
      (hexists : (db.folder? p.folderId).isSome = true)
      (habove : Forest.StrictlyAbove db.parentOf item.folderId p.folderId)
      (hwalk : WalkEnds db item)

theorem readElsewhere_of_itemLevel {l : Perm} (h : ItemLevel db now user item l)
    (hwalk : l = .write ∨ WalkEnds db item) : ReadElsewhere db now user item := by
  cases h with
  | owner howner => exact .created howner
  | direct hrow hitem huser hforce =>
    exact .shared hrow hitem huser hforce (hwalk.imp_left Perm.ofGrant_eq_write.mp)
  | group hrow hitem hmember hforce =>
    exact .groupShared hrow hitem hmember hforce (hwalk.imp_left Perm.ofGrant_eq_write.mp)

theorem ReadElsewhere.write_or_walkEnds (h : ReadElsewhere db now user item) :
    ItemLevel db now user item .write ∨ WalkEnds db item := by
  cases h with
  | created howner => exact .inl (.owner howner)
  | shared hrow hitem huser hforce hwalk =>
    refine hwalk.imp_left fun hp => ?_
    have hl : ItemLevel db now user item _ := .direct hrow hitem huser hforce
    rwa [hp] at hl
  | groupShared hrow hitem hmember hforce hwalk =>
    refine hwalk.imp_left fun hp => ?_
    have hl : ItemLevel db now user item _ := .group hrow hitem hmember hforce
    rwa [hp] at hl
  | folderCreated _ _ hwalk => exact .inr hwalk
  | inherited _ _ _ _ _ _ hwalk => exact .inr hwalk
  | groupInherited _ _ _ _ _ _ hwalk => exact .inr hwalk

theorem ReadElsewhere.hasLevel (h : ReadElsewhere db now user item) :
    ∃ l, ItemLevel db now user item l ∨ FolderLevel db now user item.folderId l := by
  cases h with
  | created howner => exact ⟨_, .inl (.owner howner)⟩
  | shared hrow hitem huser hforce _ => exact ⟨_, .inl (.direct hrow hitem huser hforce)⟩
  | groupShared hrow hitem hmember hforce _ => exact ⟨_, .inl (.group hrow hitem hmember hforce)⟩
  | folderCreated hfolder howner _ => exact ⟨_, .inr (.owner hfolder howner)⟩
  | inherited hrow huser hforce hinherit hexists habove _ =>
    exact ⟨_, .inr (.direct hrow huser hforce ⟨hexists, .inr ⟨hinherit, habove⟩⟩)⟩
  | groupInherited hrow hmember hforce hinherit hexists habove _ =>
    exact ⟨_, .inr (.group hrow hmember hforce ⟨hexists, .inr ⟨hinherit, habove⟩⟩)⟩

theorem GrantedFolder.hasLevel {folder : Uuid} (h : GrantedFolder db now user folder)
    (hfolder : (db.folder? folder).isSome = true) : ∃ l, FolderLevel db now user folder l := by
  cases h with
  | direct hrow huser hself hforce =>
    exact ⟨_, .direct hrow huser hforce ⟨hself ▸ hfolder, .inl hself⟩⟩
  | group hrow hmember hself hforce =>
    exact ⟨_, .group hrow hmember hforce ⟨hself ▸ hfolder, .inl hself⟩⟩

/-- All sources of a level: those elsewhere, and a grant on the folder. -/
theorem hasSource_iff (hfolder : (db.folder? item.folderId).isSome = true) :
    HasSource db now user item ↔ ReadElsewhere db now user item ∨
      GrantedFolder db now user item.folderId ∧
        (ItemLevel db now user item .write ∨ WalkEnds db item) := by
  constructor
  · rintro (hwrite | ⟨hends, l, hl | hl⟩)
    · exact .inl (readElsewhere_of_itemLevel hwrite (.inl rfl))
    · exact .inl (readElsewhere_of_itemLevel hl (.inr hends))
    · cases hl with
      | owner hf howner => exact .inl (.folderCreated hf howner hends)
      | direct hrow huser hforce hcounts =>
        obtain ⟨hexists, hself | ⟨hinherit, habove⟩⟩ := hcounts
        · exact .inr ⟨.direct hrow huser hself hforce, .inr hends⟩
        · exact .inl (.inherited hrow huser hforce hinherit hexists habove hends)
      | group hrow hmember hforce hcounts =>
        obtain ⟨hexists, hself | ⟨hinherit, habove⟩⟩ := hcounts
        · exact .inr ⟨.group hrow hmember hself hforce, .inr hends⟩
        · exact .inl (.groupInherited hrow hmember hforce hinherit hexists habove hends)
  · rintro (helse | ⟨hgranted, hend⟩)
    · exact helse.write_or_walkEnds.imp_right fun hends => ⟨hends, helse.hasLevel⟩
    · refine hend.imp_right fun hends => ?_
      obtain ⟨l, hl⟩ := hgranted.hasLevel hfolder
      exact ⟨hends, l, .inr hl⟩

end Sources

/-- The keys of the schema that the items and their shares rely on. -/
structure ItemKeys (db : DB) : Prop where
  shares : ShareKeysUnique db
  items : (db.items.map Item.id).Nodup
  folders : ∀ item ∈ db.items, (db.folder? item.folderId).isSome = true

/-- The item is found exactly if it is readable: whoever reads it for another
reason also has a grant on its folder, and with such a grant the name can be
decrypted just where the resolver says at least read. -/
structure FoundAsReadable (svc : Service) (db : DB) (now : Time) (user : Uuid) (item : Item) :
    Prop where
  granted : ReadElsewhere db now user item → GrantedFolder db now user item.folderId
  opens : GrantedFolder db now user item.folderId →
    ((decryptItemName svc item.id.text item.serverDekWrapped item.nameEnc).isSome = true ↔
      ItemLevel db now user item .write ∨ WalkEnds db item)

theorem foundAsReadable_iff {svc : Service} {db : DB} {now : Time} {user : Uuid} {item : Item} :
    ((GrantedFolder db now user item.folderId ∧
        (decryptItemName svc item.id.text item.serverDekWrapped item.nameEnc).isSome = true) ↔
      ReadElsewhere db now user item ∨ GrantedFolder db now user item.folderId ∧
        (ItemLevel db now user item .write ∨ WalkEnds db item)) ↔
      FoundAsReadable svc db now user item := by
  have hwalk : ReadElsewhere db now user item →
      ItemLevel db now user item .write ∨ WalkEnds db item := ReadElsewhere.write_or_walkEnds
  constructor
  · intro hiff
    refine ⟨fun helse => (hiff.mpr (.inl helse)).1, fun hgranted => ?_⟩
    constructor
    · intro hopens
      rcases hiff.mp ⟨hgranted, hopens⟩ with helse | ⟨_, hend⟩
      · exact hwalk helse
      · exact hend
    · exact fun hend => (hiff.mpr (.inr ⟨hgranted, hend⟩)).2
  · intro h
    constructor
    · rintro ⟨hgranted, hopens⟩
      exact .inr ⟨hgranted, (h.opens hgranted).mp hopens⟩
    · rintro (helse | ⟨hgranted, hend⟩)
      · have hgranted := h.granted helse
        exact ⟨hgranted, (h.opens hgranted).mpr (hwalk helse)⟩
      · exact ⟨hgranted, (h.opens hgranted).mpr hend⟩

/-- A hit is a row of `items`. -/
theorem searchHits_item {svc : Service} {db : DB} {now : Time} {claims : Claims} {r : ItemResponse}
    (hr : r ∈ searchHits svc db now claims) : ∃ item ∈ db.items, r.id = item.id.text := by
  obtain ⟨item, hfrom, hresult⟩ := List.mem_filterMap.mp hr
  obtain ⟨name, _, rfl⟩ := Option.map_eq_some_iff.mp hresult
  refine ⟨item, ?_, rfl⟩
  simp only [searchFrom] at hfrom
  split at hfrom
  · exact hfrom
  · exact List.mem_of_mem_filter hfrom

theorem mem_searchHits_iff {svc : Service} {db : DB} {now : Time} {claims : Claims}
    (hkeys : ItemKeys db) (hadmin : claims.hasRole .admin = false) {item : Item}
    (hitem : item ∈ db.items) :
    (∃ r ∈ searchHits svc db now claims, r.id = item.id.text) ↔
      GrantedFolder db now claims.subject item.folderId ∧
        (decryptItemName svc item.id.text item.serverDekWrapped item.nameEnc).isSome = true := by
  have hfrom (i : Item) : i ∈ searchFrom db now claims ↔
      i ∈ db.items ∧ GrantedFolder db now claims.subject i.folderId := by
    rw [searchFrom, hadmin, if_neg (by decide), List.mem_filter, List.contains_iff_mem,
      mem_accessible]
  constructor
  · rintro ⟨r, hr, hid⟩
    obtain ⟨found, hfound, hresult⟩ := List.mem_filterMap.mp hr
    obtain ⟨hrow, hgranted⟩ := (hfrom found).mp hfound
    obtain ⟨name, hname, rfl⟩ := Option.map_eq_some_iff.mp hresult
    -- the answer names the row by its id, and that is a key
    have hsame : found = item :=
      List.inj_on_of_nodup_map hkeys.items hrow hitem (Uuid.text_injective hid)
    subst hsame
    exact ⟨hgranted, by rw [hname]; rfl⟩
  · rintro ⟨hgranted, hopens⟩
    obtain ⟨name, hname⟩ := Option.isSome_iff_exists.mp hopens
    have hresult : ∃ r, searchResult svc db item = some r ∧ r.id = item.id.text := by
      rw [searchResult, hname]
      exact ⟨_, rfl, rfl⟩
    obtain ⟨r, hr, hid⟩ := hresult
    exact ⟨r, List.mem_filterMap.mpr ⟨item, (hfrom item).mpr ⟨hitem, hgranted⟩, hr⟩, hid⟩

/-- Searching finds the readable items and no others exactly when everything a
caller reads lies in folders with a grant of their own. -/
theorem item_search_finds_readable_iff (svc : Service) {db : DB} (hkeys : ItemKeys db) (now : Time)
    (claims : Claims) (hadmin : claims.hasRole .admin = false) :
    (∀ x : Uuid, (∃ r ∈ searchHits svc db now claims, r.id = x.text) ↔
        Readable db now claims x) ↔
      ∀ item ∈ db.items, FoundAsReadable svc db now claims.subject item := by
  have hone {item : Item} (hitem : item ∈ db.items) :
      ((∃ r ∈ searchHits svc db now claims, r.id = item.id.text) ↔
        Readable db now claims item.id) ↔ FoundAsReadable svc db now claims.subject item := by
    have hlookup : db.item? item.id = some item := Table.lookup_of_mem hkeys.items hitem
    rw [mem_searchHits_iff hkeys hadmin hitem, Readable,
      itemPermissionOf_allowsRead_iff hkeys.shares hlookup,
      hasSource_iff (hkeys.folders item hitem), foundAsReadable_iff]
  constructor
  · intro hall item hitem
    exact (hone hitem).mp (hall item.id)
  · intro hfound x
    cases hlookup : db.item? x with
    | some item =>
      obtain ⟨hitem, rfl⟩ := Table.lookup_eq_some hlookup
      exact (hone hitem).mpr (hfound item hitem)
    | none =>
      -- neither side knows an item that does not exist
      constructor
      · rintro ⟨r, hr, hid⟩
        obtain ⟨item, hitem, hsame⟩ := searchHits_item hr
        have hx : item.id = x := Uuid.text_injective (hsame.symm.trans hid)
        exact absurd hx (Table.lookup_eq_none.mp hlookup item hitem)
      · rintro ⟨perm, hperm, hread⟩
        rw [itemPermissionOf, hlookup] at hperm
        cases hperm
        cases hread

theorem gatedState_keys : ItemKeys gatedState := by
  refine ⟨by decide, by decide, ?_⟩
  intro item hitem
  obtain rfl := List.mem_singleton.mp hitem
  rfl

/-- User 2 finds item 5 through the grant on its folder. -/
theorem item_search_finds_readable_iff_reader :
    ∃ r ∈ searchHits sampleService gatedState 0 ⟨Uuid.ofNat 2, [.read]⟩,
      r.id = (Uuid.ofNat 5).text := by
  have hgranted : GrantedFolder gatedState 0 (Uuid.ofNat 2) (Uuid.ofNat 10) :=
    mem_accessible.mp (by decide)
  have hfound : ∀ item ∈ gatedState.items,
      FoundAsReadable sampleService gatedState 0 (Uuid.ofNat 2) item := by
    intro item hitem
    obtain rfl := List.mem_singleton.mp hitem
    exact ⟨fun _ => hgranted, fun _ => iff_of_true (by decide) (.inr (.root (by decide)))⟩
  have hagrees := (item_search_finds_readable_iff sampleService gatedState_keys 0
    ⟨Uuid.ofNat 2, [.read]⟩ (by decide)).mpr hfound
  exact (hagrees (Uuid.ofNat 5)).mpr ⟨.read, by decide, rfl⟩

/-- User 1, who made the item and its folder, does not find it. -/
theorem item_search_misses_own_item :
    ¬ ∀ (svc : Service) (db : DB) (now : Time) (claims : Claims) (x : Uuid), ItemKeys db →
      claims.hasRole .admin = false →
      ((∃ r ∈ searchHits svc db now claims, r.id = x.text) ↔ Readable db now claims x) := by
  intro h
  have hread : Readable gatedState 0 ⟨Uuid.ofNat 1, [.write]⟩ (Uuid.ofNat 5) :=
    ⟨.write, by decide, rfl⟩
  obtain ⟨r, hr, _⟩ := (h sampleService gatedState 0 ⟨Uuid.ofNat 1, [.write]⟩ (Uuid.ofNat 5)
    gatedState_keys (by decide)).mpr hread
  have hnone : searchHits sampleService gatedState 0 ⟨Uuid.ofNat 1, [.write]⟩ = [] := by decide
  rw [hnone] at hr
  cases hr

end IronStock

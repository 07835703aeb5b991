import IronStock.CatalogBrowse
import IronStock.Lib.SqlText

/-!
# The duplicate check

`GET /api/v1/items/duplicates`. The text of its statement is put together from
fragments, with a placeholder for the optional `exclude_id` whose `$` is written
twice. What a caller can see is decided by the CTE of the search, which looks at
grants on the folder itself and not at those above it.
-/
namespace IronStock.Duplicates

open SqlText (isPrepared)

/-! ## The statement -/

/-- `FormatArgN`. -/
def formatArgN (n : Nat) : String := "$" ++ String.ofList [Char.ofNat (48 + n)]

def selectCols : List String :=
  ["\nSELECT i.id::text, i.folder_id::text, i.item_type_id,",
    "\n       i.name_enc, i.server_dek_wrapped,",
    "\n       i.created_by::text, i.created_at::text, i.updated_at::text,",
    "\n       i.expires_at::text, i.rotation_interval_days, i.last_rotated_at::text",
    "\nFROM items i\n"]

def accessibleCTE : List String :=
  ["\nWITH accessible AS (",
    "\n    SELECT DISTINCT folder_id FROM folder_permissions",
    "\n    WHERE user_id = $1::uuid AND permission IN ('read','write','admin')",
    "\n      AND revoked_at IS NULL",
    "\n      AND (valid_from IS NULL OR valid_from <= NOW())",
    "\n      AND (valid_until IS NULL OR valid_until > NOW())",
    "\n    UNION",
    "\n    SELECT DISTINCT fgp.folder_id FROM folder_group_permissions fgp",
    "\n    JOIN group_members gm ON gm.group_id = fgp.group_id",
    "\n    WHERE gm.user_id = $1::uuid",
    "\n      AND fgp.revoked_at IS NULL",
    "\n      AND (fgp.valid_from IS NULL OR fgp.valid_from <= NOW())",
    "\n      AND (fgp.valid_until IS NULL OR fgp.valid_until > NOW())",
    "\n)\n"]

def accessibleJoin : List String :=
  ["\nJOIN accessible a ON a.folder_id = i.folder_id", "\nWHERE i.name_search = $2\n"]

/-- The length of `args` without and with `exclude_id`. -/
def argCount (isAdmin excludes : Bool) : Nat :=
  (if isAdmin then 2 else 3) + if excludes then 1 else 0

def duplicatesSql (isAdmin excludes : Bool) : List String :=
  let exclude :=
    if excludes then [" AND i.id::text != $", formatArgN (argCount isAdmin excludes)] else []
  if isAdmin then
    selectCols ++ ("WHERE i.name_search = $1" :: exclude ++ [" ORDER BY i.name_plain LIMIT $2"])
  else
    accessibleCTE ++ (selectCols ++
      (accessibleJoin ++ exclude ++ [" ORDER BY i.name_plain LIMIT $3"]))

/-! ## Which statements are taken -/

theorem run_selectCols :
    SqlText.run .text (selectCols.flatMap String.toList) = some (.text, []) := by
  simp only [selectCols, List.flatMap_cons, List.flatMap_nil]
  -- the literals as lists of their characters: the kernel would decode their bytes one by one
  repeat rw [String.toList_ofList]
  decide +kernel

theorem run_accessibleCTE :
    SqlText.run .text (accessibleCTE.flatMap String.toList) = some (.text, [1, 1]) := by
  simp only [accessibleCTE, List.flatMap_cons, List.flatMap_nil]
  repeat rw [String.toList_ofList]
  decide +kernel

/-- The quote that `$$` opens is never closed. -/
theorem params_duplicatesSql (isAdmin excludes : Bool) :
    SqlText.params (duplicatesSql isAdmin excludes) =
      if excludes then none else some (if isAdmin then [1, 2] else [1, 1, 2, 3]) := by
  cases isAdmin with
  | true =>
    rw [duplicatesSql, if_pos rfl, SqlText.params_append run_selectCols]
    cases excludes <;> decide
  | false =>
    rw [duplicatesSql, if_neg (by decide), SqlText.params_append run_accessibleCTE,
      SqlText.params_append run_selectCols]
    cases excludes <;> decide +kernel

theorem isPrepared_duplicatesSql (isAdmin excludes : Bool) :
    isPrepared (duplicatesSql isAdmin excludes) (argCount isAdmin excludes) = !excludes := by
  rw [isPrepared, params_duplicatesSql]
  cases isAdmin <;> cases excludes <;> rfl

/-! ## The handler -/

structure DuplicateCheckRequest where
  name : String
  excludeID : String := ""
  limit : String := ""

namespace DuplicateCheckRequest
variable (req : DuplicateCheckRequest)

def term : String := trimSpace req.name

def exclude : String := trimSpace req.excludeID

def rowLimit : Nat := (parseIntDefault req.limit 10 1 50).toNat

end DuplicateCheckRequest

structure DuplicateCheckResponse where
  count : Nat
  items : List ItemResponse

/-- The rows before the `LIMIT`, in the order of `name_plain`. -/
def duplicateRows (ops : TextOps) (db : DB) (now : Time) (claims : Claims) (nameSearch : Bytes)
    (excludeID : String) : List Item :=
  ((searchFrom db now claims).filter fun item => item.nameSearch = nameSearch ∧
    (excludeID = "" ∨ item.id.text ≠ excludeID)).mergeSort
      fun a b => ops.nameLe a.namePlain b.namePlain

/-- A row of the answer; a name that cannot be decrypted drops it. -/
def duplicateResult (svc : Service) (item : Item) : Option ItemResponse :=
  (decryptItemName svc item.id.text item.serverDekWrapped item.nameEnc).map fun name =>
    { id := item.id.text, folderID := item.folderId.text, itemTypeID := item.itemTypeId
      name := name, description := none, fields := none
      createdBy := item.createdBy, createdAt := svc.timestampText item.createdAt
      updatedAt := svc.timestampText item.updatedAt, permission := .none
      ownerDEKWrapped := none, ownerWrapNonce := none
      expiresAt := item.expiresAt.map svc.timestampText
      rotationIntervalDays := item.rotationIntervalDays
      lastRotatedAt := item.lastRotatedAt.map svc.timestampText
      requiresApproval := none, myAccessRequest := none
      kind := none, ownerRef := none }

/-- `CheckDuplicates`. -/
def checkDuplicates (svc : Service) (ops : TextOps) (db : DB) (now : Time) (claims : Claims)
    (req : DuplicateCheckRequest) : Reply DuplicateCheckResponse := do
  .require (1 ≤ req.term.utf8ByteSize) (badRequest "name parametresi zorunlu.")
  let nameSearch ← .orElse (svc.searchHash req.term)
    (internalError "Arama hash hesaplanamadı.")
  let isAdmin := claims.hasRole .admin
  let excludes : Bool := req.exclude ≠ ""
  .require (isPrepared (duplicatesSql isAdmin excludes) (argCount isAdmin excludes) = true)
    (internalError "Duplicate sorgusu başarısız.")
  let rows := (duplicateRows ops db now claims nameSearch req.exclude).take req.rowLimit
  let out := rows.filterMap (duplicateResult svc)
  return ⟨out.length, out⟩

/-! ## What it should answer -/

section Exactness
variable (svc : Service) (ops : TextOps) (db : DB) (now : Time) (claims : Claims)
  (req : DuplicateCheckRequest)

/-- An item that is to be found: it has the index of the name, it is not the one to
leave out, and the caller can read its folder. -/
structure Wanted (item : Item) : Prop where
  index : svc.searchHash req.name = some item.nameSearch
  notExcluded : castUuid req.exclude ≠ some item.id
  readable : claims.hasRole .admin = true ∨ ∃ perm,
    folderPermissionOf db now claims.subject item.folderId = .ok perm ∧ perm.allowsRead = true

/-- The wanted items and no others, each once, all of them unless the limit is reached. -/
structure AnswersExactly (resp : DuplicateCheckResponse) : Prop where
  count : resp.count = resp.items.length
  wanted : ∀ r ∈ resp.items, ∃ item ∈ db.items,
    r.id = item.id.text ∧ Wanted svc db now claims req item
  once : (resp.items.map ItemResponse.id).Nodup
  limited : resp.items.length ≤ req.rowLimit
  complete : resp.items.length < req.rowLimit → ∀ item ∈ db.items,
    Wanted svc db now claims req item → ∃ r ∈ resp.items, r.id = item.id.text

def Opens (item : Item) : Prop :=
  (decryptItemName svc item.id.text item.serverDekWrapped item.nameEnc).isSome = true

instance (item : Item) : Decidable (Opens svc item) := inferInstanceAs (Decidable (_ = true))

/-- The items with the index of the trimmed name, in folders with a grant of their own. -/
def granted : List Item :=
  (searchFrom db now claims).filter fun item => svc.searchHash req.term = some item.nameSearch

/-- The first of them by name. -/
def firstGranted : List Item :=
  ((granted svc db now claims req).mergeSort
    fun a b => ops.nameLe a.namePlain b.namePlain).take req.rowLimit

/-- Nothing is to be left out, and the name is not blank. The spaces around it do not
matter to what is shown, and the folders of these items have no endless walk above them.
Unless the limit is reached, no readable item is missed for a grant that lies on a folder
above, for a folder of the caller's own, for the spaces or for a name that does not open. -/
structure Foreseen : Prop where
  noExclude : req.exclude = ""
  named : req.term ≠ ""
  key : svc.searchKey.length = keyLength
  shown : ∀ item ∈ firstGranted svc ops db now claims req, Opens svc item →
    svc.searchHash req.name = svc.searchHash req.term ∧
      (claims.hasRole .admin = true ∨ WalkEnds db item)
  missed : ((firstGranted svc ops db now claims req).countP fun item => Opens svc item) <
      req.rowLimit →
    ∀ item ∈ db.items, Wanted svc db now claims req item →
      item ∈ firstGranted svc ops db now claims req ∧ Opens svc item

end Exactness

section Proofs

variable {svc : Service} {ops : TextOps} {db : DB} {now : Time} {claims : Claims}
  {req : DuplicateCheckRequest}

/-! ## What the answer shows -/

/-- An answer is the first granted items that open. -/
def shownResults (svc : Service) (ops : TextOps) (db : DB) (now : Time) (claims : Claims)
    (req : DuplicateCheckRequest) : List ItemResponse :=
  (firstGranted svc ops db now claims req).filterMap (duplicateResult svc)

theorem checkDuplicates_eq_ok {resp : DuplicateCheckResponse} :
    checkDuplicates svc ops db now claims req = .ok resp ↔
      req.exclude = "" ∧ req.term ≠ "" ∧ svc.searchKey.length = keyLength ∧
        resp = ⟨(shownResults svc ops db now claims req).length,
          shownResults svc ops db now claims req⟩ := by
  have hnamed : 1 ≤ req.term.utf8ByteSize ↔ req.term ≠ "" := by
    rw [Nat.one_le_iff_ne_zero, Ne, String.utf8ByteSize_eq_zero_iff]
  have hexclude : (isPrepared (duplicatesSql (claims.hasRole .admin) (req.exclude ≠ ""))
      (argCount (claims.hasRole .admin) (req.exclude ≠ "")) = true) ↔ req.exclude = "" := by
    rw [isPrepared_duplicatesSql]
    simp
  have hrows {nameSearch : Bytes} (hhash : svc.searchHash req.term = some nameSearch) :
      duplicateRows ops db now claims nameSearch "" =
        (granted svc db now claims req).mergeSort
          fun a b => ops.nameLe a.namePlain b.namePlain := by
    simp only [duplicateRows, granted, hhash, Option.some.injEq, @eq_comm _ nameSearch, true_or,
      and_true]
  simp only [checkDuplicates, Reply.bind_eq_ok, Reply.require_eq_ok, Reply.orElse_eq_ok,
    Reply.pure_eq_ok, hnamed, hexclude]
  constructor
  · rintro ⟨_, hterm, nameSearch, hhash, _, hnone, rfl⟩
    have hkey : svc.searchKey.length = keyLength := by
      by_contra hno
      simp [Service.searchHash, hno] at hhash
    rw [hnone, hrows hhash]
    exact ⟨rfl, hterm, hkey, rfl⟩
  · rintro ⟨hnone, hterm, hkey, rfl⟩
    obtain ⟨nameSearch, hhash⟩ : ∃ h, svc.searchHash req.term = some h := by
      simp [Service.searchHash, hkey]
    refine ⟨(), hterm, nameSearch, hhash, (), hnone, ?_⟩
    rw [hnone, hrows hhash]
    rfl

theorem duplicateResult_id {item : Item} {r : ItemResponse}
    (h : duplicateResult svc item = some r) : r.id = item.id.text ∧ Opens svc item := by
  obtain ⟨name, hname, rfl⟩ := Option.map_eq_some_iff.mp h
  exact ⟨rfl, by rw [Opens, hname]; rfl⟩

/-- The ids shown are those of the rows that open. -/
theorem map_id_filterMap (rows : List Item) :
    (rows.filterMap (duplicateResult svc)).map ItemResponse.id =
      (rows.filter fun item => Opens svc item).map (·.id.text) := by
  induction rows with
  | nil => rfl
  | cons item rows ih =>
    cases h : duplicateResult svc item with
    | some r =>
      obtain ⟨hid, hopens⟩ := duplicateResult_id h
      rw [List.filterMap_cons_some h, List.filter_cons_of_pos (by simpa using hopens),
        List.map_cons, List.map_cons, hid, ih]
    | none =>
      have hshut : ¬ Opens svc item := by
        rw [Opens, Option.map_eq_none_iff.mp h]
        decide
      rw [List.filterMap_cons_none h, List.filter_cons_of_neg (by simpa using hshut), ih]

theorem mem_firstGranted {item : Item} (h : item ∈ firstGranted svc ops db now claims req) :
    item ∈ db.items ∧ svc.searchHash req.term = some item.nameSearch ∧
      (claims.hasRole .admin = true ∨ GrantedFolder db now claims.subject item.folderId) := by
  have hrow := List.mem_mergeSort.mp (List.mem_of_mem_take h)
  obtain ⟨hfrom, hhash⟩ := List.mem_filter.mp hrow
  refine ⟨?_, of_decide_eq_true hhash, ?_⟩
  · simp only [searchFrom] at hfrom
    split at hfrom
    · exact hfrom
    · exact List.mem_of_mem_filter hfrom
  · simp only [searchFrom] at hfrom
    split at hfrom
    · next hadmin => exact .inl hadmin
    · rw [List.mem_filter, List.contains_iff_mem, mem_accessible] at hfrom
      exact .inr hfrom.2

/-- An item is shown if it is among the first and opens. -/
theorem shown_iff (hkeys : ItemKeys db) {item : Item} (hitem : item ∈ db.items) :
    (∃ r ∈ shownResults svc ops db now claims req, r.id = item.id.text) ↔
      item ∈ firstGranted svc ops db now claims req ∧ Opens svc item := by
  have hids : (∃ r ∈ shownResults svc ops db now claims req, r.id = item.id.text) ↔
      item.id.text ∈ (shownResults svc ops db now claims req).map ItemResponse.id :=
    List.mem_map.symm
  rw [hids, shownResults, map_id_filterMap, List.mem_map]
  constructor
  · rintro ⟨found, hfound, hid⟩
    obtain ⟨hfirst, hopens⟩ := List.mem_filter.mp hfound
    have hsame : found = item := List.inj_on_of_nodup_map hkeys.items (mem_firstGranted hfirst).1
      hitem (Uuid.text_injective hid)
    subst hsame
    exact ⟨hfirst, of_decide_eq_true hopens⟩
  · rintro ⟨hfirst, hopens⟩
    exact ⟨item, List.mem_filter.mpr ⟨hfirst, decide_eq_true hopens⟩, rfl⟩

theorem shownResults_once (hkeys : ItemKeys db) :
    ((shownResults svc ops db now claims req).map ItemResponse.id).Nodup := by
  rw [shownResults, map_id_filterMap]
  have hitems : ((searchFrom db now claims).map Item.id).Nodup := by
    rw [searchFrom]
    split
    · exact hkeys.items
    · exact hkeys.items.sublist (List.filter_sublist.map _)
  have hgranted : ((granted svc db now claims req).map Item.id).Nodup :=
    hitems.sublist (List.filter_sublist.map _)
  have hsorted := ((List.mergeSort_perm (granted svc db now claims req)
    fun a b => ops.nameLe a.namePlain b.namePlain).map Item.id).nodup_iff.mpr hgranted
  have hfirst : (((firstGranted svc ops db now claims req).filter
      fun item => Opens svc item).map Item.id).Nodup :=
    hsorted.sublist ((List.filter_sublist.trans (List.take_sublist _ _)).map _)
  have htext := hfirst.map (fun _ _ h => Uuid.text_injective h : Function.Injective Uuid.text)
  rwa [List.map_map] at htext

theorem length_shownResults : (shownResults svc ops db now claims req).length =
    (firstGranted svc ops db now claims req).countP fun item => Opens svc item := by
  have hlength := congrArg List.length
    (@map_id_filterMap svc (firstGranted svc ops db now claims req))
  rwa [List.length_map, List.length_map, ← List.countP_eq_length_filter] at hlength

/-! ## The folders -/

/-- A grant on the folder itself gives read where the walk up has an end. -/
theorem readable_iff_walkEnds (hkeys : ItemKeys db) {item : Item} (hitem : item ∈ db.items)
    (hgranted : GrantedFolder db now claims.subject item.folderId) :
    (∃ perm, folderPermissionOf db now claims.subject item.folderId = .ok perm ∧
      perm.allowsRead = true) ↔ WalkEnds db item := by
  rw [WalkEnds, ← folderPermissionOf_isOk db now claims.subject]
  constructor
  · rintro ⟨perm, hperm, _⟩
    exact ⟨perm, hperm⟩
  · rintro ⟨perm, hperm⟩
    obtain ⟨l, hl⟩ := hgranted.hasLevel (hkeys.folders item hitem)
    have hne := (folderPermissionOf_isStrongest hperm).ne_bot_iff.mpr ⟨l, hl, hl.ne_none⟩
    exact ⟨perm, hperm, (Perm.allowsRead_iff perm).mpr hne⟩

theorem wanted_iff (hkeys : ItemKeys db) (hnone : req.exclude = "") {item : Item}
    (h : item ∈ firstGranted svc ops db now claims req) :
    Wanted svc db now claims req item ↔ svc.searchHash req.name = svc.searchHash req.term ∧
      (claims.hasRole .admin = true ∨ WalkEnds db item) := by
  obtain ⟨hitem, hhash, hadmin⟩ := mem_firstGranted h
  have hreadable : (claims.hasRole .admin = true ∨ ∃ perm,
      folderPermissionOf db now claims.subject item.folderId = .ok perm ∧
        perm.allowsRead = true) ↔ claims.hasRole .admin = true ∨ WalkEnds db item := by
    rcases hadmin with hadmin | hgranted
    · simp [hadmin]
    · rw [readable_iff_walkEnds hkeys hitem hgranted]
  rw [hhash, ← hreadable]
  constructor
  · intro h
    exact ⟨h.index, h.readable⟩
  · rintro ⟨hindex, hread⟩
    exact ⟨hindex, by simp [hnone], hread⟩

/-- The check answers exactly what it should if and only if the request and the state are
foreseen: no `exclude_id`, no spaces that matter, grants on the folders themselves, and
names that open. -/
theorem checkDuplicates_exact_iff (svc : Service) (ops : TextOps) {db : DB} (hkeys : ItemKeys db)
    (now : Time) (claims : Claims) (req : DuplicateCheckRequest) :
    (∃ resp, checkDuplicates svc ops db now claims req = .ok resp ∧
        AnswersExactly svc db now claims req resp) ↔
      Foreseen svc ops db now claims req := by
  constructor
  · rintro ⟨resp, hok, hexact⟩
    obtain ⟨hnone, hterm, hkey, rfl⟩ := checkDuplicates_eq_ok.mp hok
    refine ⟨hnone, hterm, hkey, ?_, ?_⟩
    · intro item hfirst hopens
      have hitem := (mem_firstGranted hfirst).1
      obtain ⟨r, hr, hid⟩ := (shown_iff hkeys hitem).mpr ⟨hfirst, hopens⟩
      obtain ⟨wanted, hmem, hwid, hwanted⟩ := hexact.wanted r hr
      have hsame : wanted = item := List.inj_on_of_nodup_map hkeys.items hmem hitem
        (Uuid.text_injective (hwid.symm.trans hid))
      subst hsame
      exact (wanted_iff hkeys hnone hfirst).mp hwanted
    · intro hfew item hitem hwanted
      rw [← length_shownResults] at hfew
      exact (shown_iff hkeys hitem).mp (hexact.complete hfew item hitem hwanted)
  · intro h
    refine ⟨_, checkDuplicates_eq_ok.mpr ⟨h.noExclude, h.named, h.key, rfl⟩, rfl, ?_,
      shownResults_once hkeys, ?_, ?_⟩
    · intro r hr
      obtain ⟨item, hfirst, hresult⟩ := List.mem_filterMap.mp hr
      obtain ⟨hid, hopens⟩ := duplicateResult_id hresult
      exact ⟨item, (mem_firstGranted hfirst).1, hid,
        (wanted_iff hkeys h.noExclude hfirst).mpr (h.shown item hfirst hopens)⟩
    · exact (List.length_filterMap_le _ _).trans (List.length_take_le _ _)
    · intro hfew item hitem hwanted
      change (shownResults svc ops db now claims req).length < req.rowLimit at hfew
      rw [length_shownResults] at hfew
      exact (shown_iff hkeys hitem).mpr (h.missed hfew item hitem hwanted)

end Proofs

/-! ## Somebody's only item -/

/-- The item 5 with the index of its name. -/
def onlyItem : Item :=
  { gatedItem with nameSearch := (sampleService.searchHash "db").getD [] }

def onlyItemState : DB := { gatedState with items := [onlyItem] }

theorem onlyItemState_keys : ItemKeys onlyItemState := by
  refine ⟨by decide, by decide, ?_⟩
  intro item hitem
  obtain rfl := List.mem_singleton.mp hitem
  decide

/-- The reader of the folder is told of it. -/
theorem checkDuplicates_exact_reader :
    ∃ resp, checkDuplicates sampleService sampleText onlyItemState 0
        ⟨Uuid.ofNat 2, [.read]⟩ ⟨"db", "", ""⟩ = .ok resp ∧
      AnswersExactly sampleService onlyItemState 0 ⟨Uuid.ofNat 2, [.read]⟩ ⟨"db", "", ""⟩ resp := by
  refine (checkDuplicates_exact_iff sampleService sampleText onlyItemState_keys 0
    ⟨Uuid.ofNat 2, [.read]⟩ ⟨"db", "", ""⟩).mpr ⟨by decide, by decide, rfl, ?_, ?_⟩
  · intro item hfirst _
    obtain rfl := List.mem_singleton.mp (mem_firstGranted hfirst).1
    exact ⟨by decide, .inr ((ancestors_isSome _ _).mp (by decide))⟩
  · intro _ item hitem _
    obtain rfl := List.mem_singleton.mp hitem
    refine ⟨?_, by decide⟩
    rw [firstGranted, List.take_of_length_le (by rw [List.length_mergeSort]; decide),
      List.mem_mergeSort]
    exact List.mem_filter.mpr ⟨List.mem_filter.mpr ⟨List.mem_singleton.mpr rfl, by decide⟩,
      by decide⟩

/-- Whoever edits the item and leaves it out is answered with an error. -/
theorem checkDuplicates_exclude_fails :
    ¬ ∀ (svc : Service) (ops : TextOps) (db : DB), ItemKeys db → ∀ (now : Time) (claims : Claims)
      (req : DuplicateCheckRequest), req.name ≠ "" →
        ∃ resp, checkDuplicates svc ops db now claims req = .ok resp ∧
          AnswersExactly svc db now claims req resp := by
  intro h
  obtain ⟨resp, hok, -⟩ := h sampleService sampleText onlyItemState onlyItemState_keys 0
    ⟨Uuid.ofNat 2, [.read]⟩ ⟨"db", (Uuid.ofNat 5).text, ""⟩ (by decide)
  have hnone := (checkDuplicates_eq_ok.mp hok).1
  exact absurd hnone (by decide)

end IronStock.Duplicates

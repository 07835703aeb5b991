import IronStock.Database
import IronStock.Lib.Forest

/-!
# Effective permissions

`ResolveFolderPermission` and `ResolveItemPermission` of `internal/auth`. The
folder query walks the ancestors with a recursive CTE that has no depth bound,
so it has an answer only where the walk ends.
-/
namespace IronStock

/-- The level a resolver returns. The folder and the item side use the same
three values. -/
inductive Perm
  | none
  | read
  | write
deriving DecidableEq, Repr

namespace Perm

def allowsRead : Perm → Bool
  | .none => false
  | _ => true

def allowsWrite : Perm → Bool
  | .write => true
  | _ => false

def ofGrant : Grant → Perm
  | .read => .read
  | .write => .write

@[simp] theorem allowsRead_ofGrant (g : Grant) : (ofGrant g).allowsRead = true := by
  cases g <;> rfl

end Perm

def maxItemPerm (a b : Perm) : Perm :=
  if a = .write ∨ b = .write then .write
  else if a = .read ∨ b = .read then .read
  else .none

theorem maxItemPerm_allowsRead (a b : Perm) :
    (maxItemPerm a b).allowsRead = (a.allowsRead || b.allowsRead) := by
  cases a <;> cases b <;> rfl

/-- Why a resolver returns an error instead of a level. -/
inductive ResolveError
  | emptyArgument
  | invalidUuid
  | endlessWalk
deriving DecidableEq, Repr

/-! ## Folders -/

/-- The recursive CTE `ancestors`: the folder and the folders above it, each
with its depth. Recursion that does not end has no result. -/
def ancestors (db : DB) (folderID : Uuid) : Option (List (Folder × Nat)) :=
  (Forest.walk db.parentOf (db.folders.length + 1) folderID).map fun chain =>
    (chain.filterMap db.folder?).zipIdx

/-- A row of the CTE `perms`. -/
structure PermRow where
  depth : Nat
  createdBy : Uuid
  inheritToChildren : Bool
  permission : Option Grant

/-- `revoked_at IS NULL` and inside the window. -/
def FolderPermissionRow.inForce (p : FolderPermissionRow) (now : Time) : Bool :=
  p.revokedAt.isNone && p.window.contains now

def FolderGroupPermissionRow.inForce (p : FolderGroupPermissionRow) (now : Time) : Bool :=
  p.revokedAt.isNone && p.window.contains now

/-- The direct grants of one ancestor, `LEFT JOIN`ed. -/
def directPermRows (db : DB) (now : Time) (userID : Uuid) (a : Folder × Nat) : List PermRow :=
  match db.folderPermissions.filter fun p =>
      p.folderId = a.1.id ∧ p.userId = userID ∧ p.inForce now with
  | [] => [⟨a.2, a.1.createdBy, false, none⟩]
  | ps => ps.map fun p => ⟨a.2, a.1.createdBy, p.inheritToChildren, some p.permission⟩

/-- The group grants of one ancestor. -/
def groupPermRows (db : DB) (now : Time) (userID : Uuid) (a : Folder × Nat) : List PermRow :=
  (db.folderGroupPermissions.filter fun p =>
      p.folderId = a.1.id ∧ p.inForce now ∧ db.isMember p.groupId userID).map
    fun p => ⟨a.2, a.1.createdBy, p.inheritToChildren, some p.permission⟩

def permRows (db : DB) (now : Time) (userID : Uuid) (chain : List (Folder × Nat)) :
    List PermRow :=
  chain.flatMap (directPermRows db now userID) ++ chain.flatMap (groupPermRows db now userID)

/-- The final `SELECT` and the branches after it. -/
def folderPermOfRows (userID : Uuid) (chain : List (Folder × Nat)) (rows : List PermRow) : Perm :=
  if chain.isEmpty then .none
  else if rows.any fun r => r.depth = 0 ∧ r.createdBy = userID then .write
  else if rows.any fun r => (r.depth = 0 ∨ r.inheritToChildren) ∧ r.permission = some .write then
    .write
  else if rows.any fun r => (r.depth = 0 ∨ r.inheritToChildren) ∧ r.permission.isSome then .read
  else .none

def folderPermissionOf (db : DB) (now : Time) (userID folderID : Uuid) :
    Except ResolveError Perm :=
  match ancestors db folderID with
  | none => .error .endlessWalk
  | some chain => .ok (folderPermOfRows userID chain (permRows db now userID chain))

/-- `ResolveFolderPermission`. The caller is the subject of a token, which is
never empty; the folder is text from the request. -/
def resolveFolderPermission (db : DB) (now : Time) (userID : Uuid) (folderID : String) :
    Except ResolveError Perm :=
  if folderID = "" then .error .emptyArgument
  else match castUuid folderID with
    | none => .error .invalidUuid
    | some folder => folderPermissionOf db now userID folder

theorem resolveFolderPermission_of_cast {folderID : String} {folder : Uuid}
    (h : castUuid folderID = some folder) (db : DB) (now : Time) (userID : Uuid) :
    resolveFolderPermission db now userID folderID = folderPermissionOf db now userID folder := by
  have hne : folderID ≠ "" := by
    rintro rfl
    simp at h
  simp only [resolveFolderPermission, hne, if_false, h]

theorem parentOf_mem {db : DB} {a b : Uuid} (h : db.parentOf a = some b) :
    a ∈ db.folders.map Folder.id := by
  unfold DB.parentOf at h
  rw [Option.bind_eq_some_iff] at h
  obtain ⟨f, hf, _⟩ := h
  obtain ⟨hmem, hid⟩ := Table.lookup_eq_some hf
  exact List.mem_map.mpr ⟨f, hmem, hid⟩

/-- The walk of the query ends exactly where the parents do. -/
theorem ancestors_isSome (db : DB) (folderID : Uuid) :
    (ancestors db folderID).isSome = true ↔ Forest.Ends db.parentOf folderID := by
  unfold ancestors
  rw [Option.isSome_map]
  apply (Forest.ends_iff_walk (fun a b => parentOf_mem) _ folderID).symm
  simp

/-- The folder query has an answer exactly where the walk ends. -/
theorem folderPermissionOf_isOk (db : DB) (now : Time) (userID folderID : Uuid) :
    (∃ p, folderPermissionOf db now userID folderID = .ok p) ↔
      Forest.Ends db.parentOf folderID := by
  rw [← ancestors_isSome]
  unfold folderPermissionOf
  cases ancestors db folderID <;> simp

/-! ## Items -/

def ItemShare.inForce (s : ItemShare) (now : Time) : Bool :=
  s.revokedAt.isNone && s.window.contains now

def ItemGroupShare.inForce (s : ItemGroupShare) (now : Time) : Bool :=
  s.revokedAt.isNone && s.window.contains now

/-- Sub-query 2: the direct share, `LIMIT 1`. -/
def directSharePerm (db : DB) (now : Time) (userID itemID : Uuid) : Perm :=
  match db.itemShares.find? fun s => s.itemId = itemID ∧ s.userId = userID ∧ s.inForce now with
  | none => .none
  | some s => .ofGrant s.permission

/-- Sub-query 3: the strongest share through a group of the user. -/
def groupSharePerm (db : DB) (now : Time) (userID itemID : Uuid) : Perm :=
  let rows := db.itemGroupShares.filter fun s =>
    s.itemId = itemID ∧ s.inForce now ∧ db.isMember s.groupId userID
  if rows.any fun s => s.permission = .write then .write
  else if rows.isEmpty then .none
  else .read

def itemPermissionOf (db : DB) (now : Time) (userID itemID : Uuid) : Except ResolveError Perm :=
  match db.item? itemID with
  | none => .ok .none
  | some item =>
    if item.createdBy = userID then .ok .write
    else
      let fromShare := directSharePerm db now userID itemID
      if fromShare = .write then .ok .write
      else
        let fromGroupShare := groupSharePerm db now userID itemID
        if fromGroupShare = .write then .ok .write
        else
          match folderPermissionOf db now userID item.folderId with
          | .error e => .error e
          | .ok fromFolder => .ok (maxItemPerm (maxItemPerm fromShare fromGroupShare) fromFolder)

/-- `ResolveItemPermission`. -/
def resolveItemPermission (db : DB) (now : Time) (userID : Uuid) (itemID : String) :
    Except ResolveError Perm :=
  if itemID = "" then .error .emptyArgument
  else match castUuid itemID with
    | none => .error .invalidUuid
    | some item => itemPermissionOf db now userID item

theorem resolveItemPermission_of_cast {itemID : String} {item : Uuid}
    (h : castUuid itemID = some item) (db : DB) (now : Time) (userID : Uuid) :
    resolveItemPermission db now userID itemID = itemPermissionOf db now userID item := by
  have hne : itemID ≠ "" := by
    rintro rfl
    simp at h
  simp only [resolveItemPermission, hne, if_false, h]

/-- The creator of an item has write on it, whatever the grants. -/
theorem itemPermissionOf_creator {db : DB} {now : Time} {itemID : Uuid} {item : Item}
    (h : db.item? itemID = some item) :
    itemPermissionOf db now item.createdBy itemID = .ok .write := by
  simp [itemPermissionOf, h]

/-- A direct share in force gives at least read, unless the query fails. -/
theorem itemPermissionOf_share {db : DB} {now : Time} {userID itemID : Uuid} {p : Perm}
    {s : ItemShare} (hok : itemPermissionOf db now userID itemID = .ok p)
    (hitem : (db.item? itemID).isSome = true)
    (hs : (db.itemShares.find? fun s =>
      s.itemId = itemID ∧ s.userId = userID ∧ s.inForce now) = some s) : p.allowsRead = true := by
  obtain ⟨item, hitem⟩ := Option.isSome_iff_exists.mp hitem
  have hdirect : directSharePerm db now userID itemID = .ofGrant s.permission := by
    simp only [directSharePerm, hs]
  simp only [itemPermissionOf, hitem, hdirect] at hok
  split at hok
  · cases hok; rfl
  · split at hok
    · cases hok; rfl
    · split at hok
      · cases hok; rfl
      · split at hok
        · cases hok
        · cases hok
          simp [maxItemPerm_allowsRead]

/-! ## What the resolvers read -/

/-- Two states with the same folders, folder grants and memberships. -/
structure SameFolderAcl (db db' : DB) : Prop where
  folders : db'.folders = db.folders
  folderPermissions : db'.folderPermissions = db.folderPermissions
  folderGroupPermissions : db'.folderGroupPermissions = db.folderGroupPermissions
  groupMembers : db'.groupMembers = db.groupMembers

theorem SameFolderAcl.refl (db : DB) : SameFolderAcl db db := ⟨rfl, rfl, rfl, rfl⟩

theorem SameFolderAcl.trans {a b c : DB} (h : SameFolderAcl a b) (h' : SameFolderAcl b c) :
    SameFolderAcl a c :=
  ⟨h'.folders.trans h.folders, h'.folderPermissions.trans h.folderPermissions,
    h'.folderGroupPermissions.trans h.folderGroupPermissions,
    h'.groupMembers.trans h.groupMembers⟩

theorem SameFolderAcl.ancestors {db db' : DB} (h : SameFolderAcl db db') :
    ancestors db' = ancestors db := by
  have hfolder : db'.folder? = db.folder? := by
    funext id
    rw [DB.folder?, DB.folder?, h.folders]
  have hparent : db'.parentOf = db.parentOf := by
    funext id
    rw [DB.parentOf, DB.parentOf, hfolder]
  funext id
  rw [IronStock.ancestors, IronStock.ancestors, hparent, hfolder, h.folders]

theorem SameFolderAcl.isMember {db db' : DB} (h : SameFolderAcl db db') :
    db'.isMember = db.isMember := by
  funext group user
  rw [DB.isMember, DB.isMember, h.groupMembers]

/-- The folder resolver reads nothing else. -/
theorem SameFolderAcl.folderPermissionOf {db db' : DB} (h : SameFolderAcl db db')
    (now : Time) (userID folderID : Uuid) :
    folderPermissionOf db' now userID folderID = folderPermissionOf db now userID folderID := by
  have hdirect : directPermRows db' now userID = directPermRows db now userID := by
    funext a
    rw [directPermRows, directPermRows, h.folderPermissions]
  have hgroup : groupPermRows db' now userID = groupPermRows db now userID := by
    funext a
    rw [groupPermRows, groupPermRows, h.folderGroupPermissions, h.isMember]
  rw [IronStock.folderPermissionOf, IronStock.folderPermissionOf, h.ancestors]
  simp only [permRows, hdirect, hgroup]

theorem SameFolderAcl.resolveFolderPermission {db db' : DB} (h : SameFolderAcl db db')
    (now : Time) (userID : Uuid) (folderID : String) :
    resolveFolderPermission db' now userID folderID =
      resolveFolderPermission db now userID folderID := by
  simp only [IronStock.resolveFolderPermission, h.folderPermissionOf]

/-- Two states that show the item resolver the same about one item. -/
structure SameItemAcl (db db' : DB) (itemID : Uuid) : Prop extends SameFolderAcl db db' where
  item : db'.item? itemID = db.item? itemID
  shares : db'.itemShares.filter (·.itemId = itemID) = db.itemShares.filter (·.itemId = itemID)
  groupShares : db'.itemGroupShares = db.itemGroupShares

/-- Looking for a row of an item only sees the rows of that item. -/
theorem find?_share_of_item (shares : List ItemShare) (itemID : Uuid) (p : ItemShare → Prop)
    [DecidablePred p] :
    (shares.find? fun s => s.itemId = itemID ∧ p s) =
      (shares.filter (·.itemId = itemID)).find? fun s => p s := by
  rw [List.find?_filter]
  congr 1
  funext s
  simp

theorem SameItemAcl.itemPermissionOf {db db' : DB} {itemID : Uuid} (h : SameItemAcl db db' itemID)
    (now : Time) (userID : Uuid) :
    itemPermissionOf db' now userID itemID = itemPermissionOf db now userID itemID := by
  have hdirect : directSharePerm db' now userID itemID = directSharePerm db now userID itemID := by
    simp only [directSharePerm]
    rw [find?_share_of_item db'.itemShares, find?_share_of_item db.itemShares, h.shares]
  have hgroup : groupSharePerm db' now userID itemID = groupSharePerm db now userID itemID := by
    simp only [groupSharePerm, h.groupShares, h.toSameFolderAcl.isMember]
  simp only [IronStock.itemPermissionOf, h.item, hdirect, hgroup,
    h.toSameFolderAcl.folderPermissionOf]

end IronStock

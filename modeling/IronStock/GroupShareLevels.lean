import IronStock.ItemLevels
import IronStock.OwnerShares

/-!
# What a group share does to the levels

ShareGroup overwrites the row of the group and the row of every member that the
request brings a wrap for. The levels after it are those of the rows it leaves
and the one it grants, so it lowers nobody exactly when each overwritten grant
is covered by one of these or by the folder.
-/
namespace IronStock

open Strongest

/-! ## Two states with the same folders -/

/-- No user has less at any time. A query without an answer gives no level. -/
def NeverLowers (db db' : DB) : Prop :=
  ∀ (t : Time) (user : Uuid) (itemID : String) (p : Perm),
    resolveItemPermission db t user itemID = .ok p →
      ∃ p', resolveItemPermission db' t user itemID = .ok p' ∧ p ≤ p'

/-- What the folder gives is as strong. Where its query has no answer, only an
earlier write counts. -/
def FolderCovers (db : DB) (t : Time) (user : Uuid) (item : Item) (l : Perm) : Prop :=
  match folderPermissionOf db t user item.folderId with
  | .ok fromFolder => l ≤ fromFolder
  | .error _ => l ≠ .write

theorem itemPermissionOf_error {db : DB} (hkeys : ShareKeysUnique db) {t : Time}
    {user itemID : Uuid} {item : Item} (hitem : db.item? itemID = some item) {e : ResolveError}
    (hfolder : folderPermissionOf db t user item.folderId = .error e) {p : Perm} :
    itemPermissionOf db t user itemID = .ok p ↔
      p = .write ∧ ItemLevel db t user item .write := by
  by_cases hwrite : ItemLevel db t user item .write
  · rw [itemPermissionOf_of_write hkeys hitem hwrite, Except.ok.injEq, and_iff_left hwrite, eq_comm]
  · rw [itemPermissionOf_of_not_write hkeys hitem hwrite, hfolder]
    simp [Except.map, hwrite]

/-- The result for an item goes down exactly where some level of it has no
match among the new levels and the folder. -/
theorem itemPermissionOf_le_iff {db db' : DB} (hkeys : ShareKeysUnique db)
    (hkeys' : ShareKeysUnique db') (hacl : SameFolderAcl db db') {t : Time} {user itemID : Uuid}
    {item : Item} (hitem : db.item? itemID = some item) (hitem' : db'.item? itemID = some item) :
    (∀ p, itemPermissionOf db t user itemID = .ok p →
        ∃ p', itemPermissionOf db' t user itemID = .ok p' ∧ p ≤ p') ↔
      ∀ l, ItemLevel db t user item l →
        (∃ l', ItemLevel db' t user item l' ∧ l ≤ l') ∨ FolderCovers db t user item l := by
  cases hfolder : folderPermissionOf db t user item.folderId with
  | ok f =>
    have hfolder' := (hacl.folderPermissionOf t user item.folderId).trans hfolder
    obtain ⟨p, hp, hstrong⟩ := itemPermissionOf_isStrongest hkeys hitem hfolder
    obtain ⟨p', hp', hstrong'⟩ := itemPermissionOf_isStrongest hkeys' hitem' hfolder'
    simp only [FolderCovers, hfolder, hp, hp', Except.ok.injEq, forall_eq', exists_eq_left']
    constructor
    · intro hle l hl
      have hlp : l ≤ p' := ((isStrongest_iff.mp hstrong).2 l (.inl hl)).trans hle
      obtain rfl | hmem | rfl := (isStrongest_iff.mp hstrong').1
      · exact .inr (hlp.trans bot_le)
      · exact .inl ⟨p', hmem, hlp⟩
      · exact .inr hlp
    · intro hcover
      refine hstrong.le hstrong' ?_
      rintro l (hl | rfl)
      · obtain ⟨l', hl', hle⟩ | hle := hcover l hl
        · exact ⟨l', .inl hl', hle⟩
        · exact ⟨f, .inr rfl, hle⟩
      · exact ⟨l, .inr rfl, le_rfl⟩
  | error e =>
    have hfolder' := (hacl.folderPermissionOf t user item.folderId).trans hfolder
    simp only [FolderCovers, hfolder, itemPermissionOf_error hkeys hitem hfolder,
      itemPermissionOf_error hkeys' hitem' hfolder']
    constructor
    · intro hle l hl
      by_cases hwrite : l = .write
      · subst hwrite
        obtain ⟨p', ⟨rfl, hl'⟩, hle⟩ := hle .write ⟨rfl, hl⟩
        exact .inl ⟨.write, hl', hle⟩
      · exact .inr hwrite
    · rintro hcover p ⟨rfl, hl⟩
      obtain ⟨l', hl', hle⟩ | hne := hcover .write hl
      · obtain rfl : l' = .write := top_le_iff.mp hle
        exact ⟨.write, ⟨rfl, hl'⟩, le_rfl⟩
      · exact absurd rfl hne
/-! ## Writes -/

/-- The row of a group share, after the casts and the CHECKs. -/
def groupShareRow (itemID groupID permission : String) (grantedBy : Uuid)
    (validFrom validUntil : Option Time) : Except PgError ItemGroupShare :=
  match castUuid itemID, castUuid groupID with
  | some item, some group =>
    match Grant.ofText permission, Window.ofBounds validFrom validUntil with
    | some permission, some window => .ok ⟨item, group, permission, grantedBy, none, window⟩
    | _, _ => .error .checkViolation
  | _, _ => .error .invalidText

/-- The row of a key `(item_id, group_id)`. -/
def ItemGroupShare.isFor (s : ItemGroupShare) (itemID groupID : Uuid) : Bool :=
  s.itemId = itemID ∧ s.groupId = groupID

def DB.putGroupShare (db : DB) (g : ItemGroupShare) : DB :=
  { db with
    itemGroupShares :=
      Table.upsert (·.isFor g.itemId g.groupId) (fun _ => g) g db.itemGroupShares }

def ItemGroupShare.referencesExist (db : DB) (g : ItemGroupShare) : Bool :=
  (db.item? g.itemId).isSome ∧ (db.group? g.groupId).isSome ∧ (db.user? g.grantedBy).isSome

theorem upsertGroupShare_eq (db : DB) (itemID groupID permission : String) (grantedBy : Uuid)
    (validFrom validUntil : Option Time) :
    upsertGroupShare db itemID groupID permission grantedBy validFrom validUntil =
      match groupShareRow itemID groupID permission grantedBy validFrom validUntil with
      | .error e => .error e
      | .ok g =>
        if g.referencesExist db then .ok (db.putGroupShare g) else .error .foreignKeyViolation := by
  unfold upsertGroupShare groupShareRow
  cases castUuid itemID with
  | none => rfl
  | some item =>
    cases castUuid groupID with
    | none => rfl
    | some group =>
      cases Grant.ofText permission with
      | none => rfl
      | some p =>
        cases Window.ofBounds validFrom validUntil with
        | none => rfl
        | some w => simp [ItemGroupShare.referencesExist, DB.putGroupShare, ItemGroupShare.isFor]

/-- What a group share writes: the row of the group, and the rows of the members
before the first that the database refuses. -/
structure GroupShareWrites where
  group : ItemGroupShare
  rows : List ItemShare

def GroupShareWrites.recipients (w : GroupShareWrites) : List Uuid := w.rows.map ItemShare.userId

def groupShareWrites (db : DB) (now : Time) (claims : Claims) (itemID : String)
    (req : ShareGroupRequest) : Option GroupShareWrites :=
  match checkShareGroup db now claims itemID req,
      groupShareRow itemID req.groupID req.permission claims.subject req.validFrom
        req.validUntil with
  | .ok (), .ok g =>
    if g.referencesExist db then
      some ⟨g, writtenRows (db.putGroupShare g) (req.members.map (req.row itemID claims.subject))⟩
    else none
  | _, _ => none

def GroupShareWrites.apply (w : GroupShareWrites) (db : DB) : DB :=
  w.rows.foldl DB.putShare (db.putGroupShare w.group)

/-- Whatever a group share answers, it has made its writes, with an entry or without. -/
theorem shareGroup_writes (db : DB) (now : Time) (claims : Claims) (itemID : String)
    (req : ShareGroupRequest) :
    match groupShareWrites db now claims itemID req with
    | none => (shareGroup db now claims itemID req).1 = db
    | some w =>
      (shareGroup db now claims itemID req).1 = w.apply db ∨
        ∃ e, (shareGroup db now claims itemID req).1 = (w.apply db).audit e := by
  unfold shareGroup groupShareWrites
  cases checkShareGroup db now claims itemID req with
  | error e => rfl
  | ok u =>
    simp only [upsertGroupShare_eq]
    cases groupShareRow itemID req.groupID req.permission claims.subject req.validFrom
        req.validUntil with
    | error e => rfl
    | ok g =>
      by_cases hrefs : g.referencesExist db = true
      · simp only [hrefs, if_true, GroupShareWrites.apply]
        rw [← shareMembers_db]
        split
        · next heq => exact .inl (by rw [heq])
        · next heq => exact .inr ⟨_, by rw [heq]⟩
      · simp only [hrefs, Bool.false_eq_true, if_false]

/-- The rows have the item, the permission and the window of the group's. -/
theorem groupShareWrites_rows {db : DB} {now : Time} {claims : Claims} {itemID : String}
    {req : ShareGroupRequest} {w : GroupShareWrites}
    (h : groupShareWrites db now claims itemID req = some w) :
    w.group.revokedAt = none ∧ castUuid itemID = some w.group.itemId ∧
      castUuid req.groupID = some w.group.groupId ∧ (db.item? w.group.itemId).isSome = true ∧
      ∀ s ∈ w.rows, s.itemId = w.group.itemId ∧ s.permission = w.group.permission ∧
        s.window = w.group.window ∧ s.revokedAt = none := by
  unfold groupShareWrites at h
  split at h
  · next g hg =>
    split at h
    · next hrefs =>
      obtain rfl := Option.some.inj h
      unfold groupShareRow at hg
      split at hg
      · next item group hitem hgroup =>
        split at hg
        · next p win hp hwin =>
          cases hg
          simp only [ItemGroupShare.referencesExist, decide_eq_true_eq] at hrefs
          refine ⟨rfl, hitem, hgroup, hrefs.1, ?_⟩
          intro s hs
          obtain ⟨m, -, hrow⟩ := List.mem_map.mp (writtenRows_mem hs)
          rw [ShareGroupRequest.row, shareRow, hitem, hp, hwin] at hrow
          split at hrow
          · next hi _ =>
            split at hrow
            · next hperm hwindow =>
              cases hrow
              cases hi
              cases hperm
              cases hwindow
              exact ⟨rfl, rfl, rfl, rfl⟩
            · cases hrow
          · cases hrow
        · cases hg
      · cases hg
    · cases h
  · cases h

/-! ## The levels after the writes -/

theorem directLevels_putShare (db : DB) (s : ItemShare) (t : Time) (user itemID : Uuid) :
    directLevels (db.putShare s) t user itemID =
      if s.isFor itemID user then {l | InForce s.revokedAt s.window t ∧ l = .ofGrant s.permission}
      else directLevels db t user itemID := by
  ext l
  simp only [directLevels, DB.putShare, Table.mem_upsert_const, Set.mem_ofPred_eq,
    ItemShare.isFor, decide_eq_true_eq, decide_eq_false_iff_not]
  split
  · next hkey =>
    obtain ⟨rfl, rfl⟩ := hkey
    rw [Set.mem_ofPred_eq]
    constructor
    · rintro ⟨r, rfl | ⟨-, hother⟩, hitem, huser, hforce, rfl⟩
      · exact ⟨hforce, rfl⟩
      · exact absurd ⟨hitem, huser⟩ hother
    · rintro ⟨hforce, rfl⟩
      exact ⟨s, .inl rfl, rfl, rfl, hforce, rfl⟩
  · next hkey =>
    rw [Set.mem_ofPred_eq]
    constructor
    · rintro ⟨r, rfl | ⟨hr, -⟩, hitem, huser, hforce, rfl⟩
      · exact absurd ⟨hitem, huser⟩ hkey
      · exact ⟨r, hr, hitem, huser, hforce, rfl⟩
    · rintro ⟨r, hr, hitem, huser, hforce, rfl⟩
      refine ⟨r, .inr ⟨hr, ?_⟩, hitem, huser, hforce, rfl⟩
      rintro ⟨hri, hru⟩
      exact hkey ⟨hri.symm.trans hitem, hru.symm.trans huser⟩

/-- Rows of one item that are alike but for the user. -/
def AlikeRows (rows : List ItemShare) (itemID : Uuid) (permission : Grant) (window : Window) : Prop :=
  ∀ s ∈ rows, s.itemId = itemID ∧ s.permission = permission ∧ s.window = window ∧ s.revokedAt = none

theorem directLevels_putShares {rows : List ItemShare} {x : Uuid} {permission : Grant}
    {window : Window} (hrows : AlikeRows rows x permission window) (db : DB) (t : Time)
    (user itemID : Uuid) :
    directLevels (rows.foldl DB.putShare db) t user itemID =
      if itemID = x ∧ user ∈ rows.map ItemShare.userId then
        {l | InForce none window t ∧ l = .ofGrant permission}
      else directLevels db t user itemID := by
  induction rows generalizing db with
  | nil => simp
  | cons s rows ih =>
    obtain ⟨⟨hitem, hperm, hwin, hrev⟩, hrest⟩ := List.forall_mem_cons.mp hrows
    rw [List.foldl_cons, ih hrest, directLevels_putShare]
    simp only [ItemShare.isFor, hitem, hperm, hwin, hrev, List.map_cons, List.mem_cons,
      decide_eq_true_eq]
    by_cases hx : itemID = x
    · subst hx
      by_cases hu : user = s.userId
      · simp [hu]
      · simp [hu, Ne.symm hu]
    · simp [hx, Ne.symm hx]

theorem groupLevels_putGroupShare (db : DB) (g : ItemGroupShare) (t : Time) (user itemID : Uuid)
    (l : Perm) :
    l ∈ groupLevels (db.putGroupShare g) t user itemID ↔
      (g.itemId = itemID ∧ ⟨g.groupId, user⟩ ∈ db.groupMembers ∧ InForce g.revokedAt g.window t ∧
          l = .ofGrant g.permission) ∨
        ∃ s ∈ db.itemGroupShares, s.isFor g.itemId g.groupId = false ∧ s.itemId = itemID ∧
          ⟨s.groupId, user⟩ ∈ db.groupMembers ∧ InForce s.revokedAt s.window t ∧
          l = .ofGrant s.permission := by
  simp only [groupLevels, DB.putGroupShare, Table.mem_upsert_const, Set.mem_ofPred_eq]
  constructor
  · rintro ⟨s, rfl | ⟨hs, hother⟩, hitem, hmember, hforce, rfl⟩
    · exact .inl ⟨hitem, hmember, hforce, rfl⟩
    · exact .inr ⟨s, hs, hother, hitem, hmember, hforce, rfl⟩
  · rintro (⟨hitem, hmember, hforce, rfl⟩ | ⟨s, hs, hother, hitem, hmember, hforce, rfl⟩)
    · exact ⟨g, .inl rfl, hitem, hmember, hforce, rfl⟩
    · exact ⟨s, .inr ⟨hs, hother⟩, hitem, hmember, hforce, rfl⟩

theorem groupLevels_putShares (rows : List ItemShare) (db : DB) (t : Time) (user itemID : Uuid) :
    groupLevels (rows.foldl DB.putShare db) t user itemID = groupLevels db t user itemID := by
  induction rows generalizing db with
  | nil => rfl
  | cons s rows ih => exact ih (db.putShare s)

section
variable (db : DB) (w : GroupShareWrites)

/-- The levels of the rows that the writes leave as they are. -/
inductive KeptLevel (t : Time) (user : Uuid) (item : Item) : Perm → Prop
  | owner (howner : item.createdBy = user) : KeptLevel t user item .write
  | direct {s : ItemShare} (hrow : s ∈ db.itemShares) (hitem : s.itemId = item.id)
      (huser : s.userId = user) (hforce : InForce s.revokedAt s.window t)
      (hkept : ¬ (item.id = w.group.itemId ∧ user ∈ w.recipients)) :
      KeptLevel t user item (.ofGrant s.permission)
  | group {s : ItemGroupShare} (hrow : s ∈ db.itemGroupShares) (hitem : s.itemId = item.id)
      (hmember : ⟨s.groupId, user⟩ ∈ db.groupMembers) (hforce : InForce s.revokedAt s.window t)
      (hkept : s.isFor w.group.itemId w.group.groupId = false) :
      KeptLevel t user item (.ofGrant s.permission)

/-- The user is in the group or brings a wrap. -/
def Reached (user : Uuid) (item : Item) : Prop :=
  item.id = w.group.itemId ∧
    (user ∈ w.recipients ∨ ⟨w.group.groupId, user⟩ ∈ db.groupMembers)
end

variable {db : DB} {w : GroupShareWrites}

theorem directLevels_apply
    (hrows : AlikeRows w.rows w.group.itemId w.group.permission w.group.window) (t : Time)
    (user itemID : Uuid) :
    directLevels (w.apply db) t user itemID =
      if itemID = w.group.itemId ∧ user ∈ w.recipients then
        {l | InForce none w.group.window t ∧ l = .ofGrant w.group.permission}
      else directLevels db t user itemID :=
  directLevels_putShares hrows (db.putGroupShare w.group) t user itemID

theorem itemLevel_apply (hrows : AlikeRows w.rows w.group.itemId w.group.permission w.group.window)
    (hactive : w.group.revokedAt = none) (t : Time) (user : Uuid) (item : Item) (l : Perm) :
    ItemLevel (w.apply db) t user item l ↔
      KeptLevel db w t user item l ∨
        Reached db w user item ∧ InForce none w.group.window t ∧ l = .ofGrant w.group.permission := by
  have hgroups : groupLevels (w.apply db) t user item.id =
      groupLevels (db.putGroupShare w.group) t user item.id :=
    groupLevels_putShares w.rows (db.putGroupShare w.group) t user item.id
  rw [itemLevel_iff, directLevels_apply hrows, hgroups, groupLevels_putGroupShare, hactive]
  constructor
  · rintro (⟨rfl, howner⟩ | hdirect | ⟨hitem, hmember, hforce, rfl⟩ |
      ⟨s, hs, hother, hitem, hmember, hforce, rfl⟩)
    · exact .inl (.owner howner)
    · split at hdirect
      · next hkey =>
        obtain ⟨hforce, rfl⟩ := hdirect
        exact .inr ⟨⟨hkey.1, .inl hkey.2⟩, hforce, rfl⟩
      · next hkey =>
        obtain ⟨s, hs, hitem, huser, hforce, rfl⟩ := hdirect
        exact .inl (.direct hs hitem huser hforce hkey)
    · exact .inr ⟨⟨hitem.symm, .inr hmember⟩, hforce, rfl⟩
    · exact .inl (.group hs hitem hmember hforce hother)
  · rintro (hkept | ⟨⟨hitem, huser | hmember⟩, hforce, rfl⟩)
    · cases hkept with
      | owner howner => exact .inl ⟨rfl, howner⟩
      | direct hrow hitem huser hforce hkept =>
        refine .inr (.inl ?_)
        rw [if_neg hkept]
        exact ⟨_, hrow, hitem, huser, hforce, rfl⟩
      | group hrow hitem hmember hforce hkept =>
        exact .inr (.inr (.inr ⟨_, hrow, hkept, hitem, hmember, hforce, rfl⟩))
    · refine .inr (.inl ?_)
      rw [if_pos ⟨hitem, huser⟩]
      exact ⟨hforce, rfl⟩
    · exact .inr (.inr (.inl ⟨hitem.symm, hmember, hforce, rfl⟩))

/-- A level before the writes is of a row that stays or of one that they overwrite. -/
theorem ItemLevel.kept_or_overwritten {t : Time} {user : Uuid} {item : Item} {l : Perm}
    (h : ItemLevel db t user item l) :
    KeptLevel db w t user item l ∨ item.id = w.group.itemId ∧
      ((user ∈ w.recipients ∧ ∃ s ∈ db.itemShares, s.isFor item.id user = true ∧
          InForce s.revokedAt s.window t ∧ l = .ofGrant s.permission) ∨
        ⟨w.group.groupId, user⟩ ∈ db.groupMembers ∧ ∃ s ∈ db.itemGroupShares,
          s.isFor item.id w.group.groupId = true ∧ InForce s.revokedAt s.window t ∧
          l = .ofGrant s.permission) := by
  cases h with
  | owner howner => exact .inl (.owner howner)
  | @direct s hrow hitem huser hforce =>
    by_cases hkey : item.id = w.group.itemId ∧ user ∈ w.recipients
    · exact .inr ⟨hkey.1, .inl ⟨hkey.2, s, hrow, by simp [ItemShare.isFor, hitem, huser], hforce, rfl⟩⟩
    · exact .inl (.direct hrow hitem huser hforce hkey)
  | @group s hrow hitem hmember hforce =>
    cases hkey : s.isFor w.group.itemId w.group.groupId with
    | false => exact .inl (.group hrow hitem hmember hforce hkey)
    | true =>
      have hkey' := hkey
      simp only [ItemGroupShare.isFor, decide_eq_true_eq] at hkey'
      have hid : item.id = w.group.itemId := hitem.symm.trans hkey'.1
      refine .inr ⟨hid, .inr ⟨hkey'.2 ▸ hmember, s, hrow, ?_, hforce, rfl⟩⟩
      rw [hid]
      exact hkey

/-! ## Overwritten grants -/

/-- A level of the user is matched by the grant of the request while its window
is open, by a row that stays, or by the folder. -/
def Covered (db : DB) (w : GroupShareWrites) (t : Time) (user : Uuid) (item : Item) (l : Perm) :
    Prop :=
  (InForce none w.group.window t ∧ l ≤ .ofGrant w.group.permission) ∨
    (∃ l', KeptLevel db w t user item l' ∧ l ≤ l') ∨ FolderCovers db t user item l

/-- Each grant that the writes overwrite is covered for as long as it runs: the
earlier share of a recipient, and the earlier share with the group for each of
its members. -/
structure Harmless (db : DB) (w : GroupShareWrites) (item : Item) : Prop where
  shares : ∀ s ∈ db.itemShares, s.itemId = item.id → s.userId ∈ w.recipients →
    ∀ t, InForce s.revokedAt s.window t → Covered db w t s.userId item (.ofGrant s.permission)
  groupShares : ∀ s ∈ db.itemGroupShares, s.isFor item.id w.group.groupId = true →
    ∀ user, ⟨w.group.groupId, user⟩ ∈ db.groupMembers →
      ∀ t, InForce s.revokedAt s.window t → Covered db w t user item (.ofGrant s.permission)

/-! ## The law -/

theorem neverLowers_iff_levels {db' : DB} (hkeys : ShareKeysUnique db)
    (hkeys' : ShareKeysUnique db') (hacl : SameFolderAcl db db') (hitems : db'.items = db.items) :
    NeverLowers db db' ↔
      ∀ t user itemID item, db.item? itemID = some item → ∀ l, ItemLevel db t user item l →
        (∃ l', ItemLevel db' t user item l' ∧ l ≤ l') ∨ FolderCovers db t user item l := by
  have hlookup : db'.item? = db.item? := by
    funext x
    rw [DB.item?, DB.item?, hitems]
  constructor
  · intro hnever t user itemID item hitem
    have hitem' : db'.item? itemID = some item := hlookup ▸ hitem
    rw [← itemPermissionOf_le_iff hkeys hkeys' hacl hitem hitem']
    intro p hp
    have hle := hnever t user itemID.text p
    simp only [resolveItemPermission_of_cast (castUuid_text itemID)] at hle
    exact hle hp
  · intro hlevels t user itemID p hp
    cases hcast : castUuid itemID with
    | none =>
      rw [resolveItemPermission, hcast] at hp
      split at hp <;> cases hp
    | some x =>
      rw [resolveItemPermission_of_cast hcast] at hp ⊢
      cases hitem : db.item? x with
      | none =>
        have hitem' : db'.item? x = none := hlookup ▸ hitem
        rw [itemPermissionOf, hitem] at hp
        rw [itemPermissionOf, hitem']
        exact ⟨.none, rfl, (Except.ok.inj hp) ▸ le_rfl⟩
      | some item =>
        have hitem' : db'.item? x = some item := hlookup ▸ hitem
        exact (itemPermissionOf_le_iff hkeys hkeys' hacl hitem hitem').mpr
          (hlevels t user x item hitem) p hp

theorem putShares_frame (rows : List ItemShare) (db : DB) :
    ∃ ss, rows.foldl DB.putShare db = { db with itemShares := ss } := by
  induction rows generalizing db with
  | nil => exact ⟨_, rfl⟩
  | cons s rows ih => exact ih (db.putShare s)

theorem GroupShareWrites.apply_frame (w : GroupShareWrites) (db : DB) :
    (w.apply db).items = db.items ∧ SameFolderAcl db (w.apply db) ∧
      (w.apply db).itemGroupShares = (db.putGroupShare w.group).itemGroupShares := by
  obtain ⟨ss, happly⟩ := putShares_frame w.rows (db.putGroupShare w.group)
  rw [GroupShareWrites.apply, happly]
  exact ⟨rfl, ⟨rfl, rfl, rfl, rfl⟩, rfl⟩

theorem ShareKeysUnique.putShare (h : ShareKeysUnique db) (s : ItemShare) :
    ShareKeysUnique (db.putShare s) := by
  refine Table.nodup_upsert ?_ ?_ h
  · intro x hx
    simp only [ItemShare.isFor, decide_eq_true_eq] at hx
    rw [hx.1, hx.2]
  · intro x hx
    simpa [ItemShare.isFor] using hx

theorem ShareKeysUnique.apply (h : ShareKeysUnique db) (w : GroupShareWrites) :
    ShareKeysUnique (w.apply db) := by
  have hrows : ∀ (rows : List ItemShare) (d : DB), ShareKeysUnique d →
      ShareKeysUnique (rows.foldl DB.putShare d) := by
    intro rows
    induction rows with
    | nil => exact fun d hd => hd
    | cons s rows ih => exact fun d hd => ih (d.putShare s) (hd.putShare s)
  exact hrows w.rows _ h

section Law
variable {now : Time} {claims : Claims} {itemID : String} {req : ShareGroupRequest} {item : Item}

/-- The writes lower nobody exactly when what they overwrite is covered. -/
theorem neverLowers_apply_iff (hkeys : ShareKeysUnique db)
    (hw : groupShareWrites db now claims itemID req = some w)
    (hitem : db.item? w.group.itemId = some item) :
    NeverLowers db (w.apply db) ↔ Harmless db w item := by
  obtain ⟨hactive, -, -, -, hrows⟩ := groupShareWrites_rows hw
  obtain ⟨hitems, hacl, -⟩ := w.apply_frame db
  have hid : item.id = w.group.itemId := (Table.lookup_eq_some hitem).2
  rw [neverLowers_iff_levels hkeys (hkeys.apply w) hacl hitems]
  simp only [itemLevel_apply hrows hactive]
  constructor
  · intro hlevels
    -- what matches a level after the writes covers it
    have hcovered : ∀ t user l, ItemLevel db t user item l → Covered db w t user item l := by
      intro t user l hl
      obtain ⟨l', hkept | ⟨-, hforce, rfl⟩, hle⟩ | hfolder := hlevels t user _ item hitem l hl
      · exact .inr (.inl ⟨l', hkept, hle⟩)
      · exact .inl ⟨hforce, hle⟩
      · exact .inr (.inr hfolder)
    constructor
    · intro s hs hsitem _ t hforce
      exact hcovered t s.userId _ (.direct hs hsitem rfl hforce)
    · intro s hs hkey user hmember t hforce
      simp only [ItemGroupShare.isFor, decide_eq_true_eq] at hkey
      exact hcovered t user _ (.group hs hkey.1 (hkey.2 ▸ hmember) hforce)
  · intro hharmless t user x item' hitem' l hl
    obtain hkept | ⟨hid', hover⟩ := hl.kept_or_overwritten (w := w)
    · exact .inl ⟨l, .inl hkept, le_rfl⟩
    · obtain rfl : item' = item := by
        rw [← (Table.lookup_eq_some hitem').2, hid', hitem] at hitem'
        exact (Option.some.inj hitem').symm
      have hreached : Reached db w user item' := by
        obtain ⟨huser, -⟩ | ⟨hmember, -⟩ := hover
        · exact ⟨hid', .inl huser⟩
        · exact ⟨hid', .inr hmember⟩
      have hcovered : Covered db w t user item' l := by
        obtain ⟨huser, s, hs, hkey, hforce, rfl⟩ | ⟨hmember, s, hs, hkey, hforce, rfl⟩ := hover
        · simp only [ItemShare.isFor, decide_eq_true_eq] at hkey
          obtain ⟨hsitem, rfl⟩ := hkey
          exact hharmless.shares s hs hsitem huser t hforce
        · exact hharmless.groupShares s hs hkey user hmember t hforce
      obtain ⟨hforce, hle⟩ | ⟨l', hkept, hle⟩ | hfolder := hcovered
      · exact .inl ⟨_, .inr ⟨hreached, hforce, rfl⟩, hle⟩
      · exact .inl ⟨l', .inl hkept, hle⟩
      · exact .inr hfolder

theorem unshareGroup_keeps {db' : DB} {groupID : String} {x g : Uuid}
    (h : unshareGroup db now claims itemID groupID = .ok db') (hx : castUuid itemID = some x)
    (hg : castUuid groupID = some g) :
    db'.items = db.items ∧ db'.itemShares = db.itemShares ∧ SameFolderAcl db db' ∧
      ∀ s ∈ db.itemGroupShares, s.isFor x g = false → s ∈ db'.itemGroupShares := by
  simp only [unshareGroup, Reply.bind_eq_ok, Reply.orElse_eq_ok, hx, hg] at h
  obtain ⟨-, -, -, -, x', hx', g', hg', h⟩ := h
  obtain rfl := Option.some.inj hx'
  obtain rfl := Option.some.inj hg'
  split at h
  · rw [Reply.pure_eq_ok] at h
    subst h
    refine ⟨rfl, rfl, ⟨rfl, rfl, rfl, rfl⟩, ?_⟩
    intro s hs hother
    refine Table.mem_updateWhere.mpr ⟨s, hs, if_neg ?_⟩
    simp only [ItemGroupShare.isFor, decide_eq_false_iff_not] at hother
    simp only [decide_eq_true_eq]
    exact fun hactive => hother ⟨hactive.1, hactive.2.1⟩
  · rw [Reply.pure_eq_ok] at h
    subst h
    exact ⟨rfl, rfl, .refl _, fun s hs _ => hs⟩

theorem unshareGroup_casts {db' : DB} {groupID : String}
    (h : unshareGroup db now claims itemID groupID = .ok db') :
    ∃ x g, castUuid itemID = some x ∧ castUuid groupID = some g := by
  simp only [unshareGroup, Reply.bind_eq_ok, Reply.orElse_eq_ok] at h
  obtain ⟨-, -, -, -, x, hx, g, hg, -⟩ := h
  exact ⟨x, g, hx, hg⟩

/-- No share of the item with the group, revoked or not. -/
def NoEarlierShare (db : DB) (itemID groupID : String) : Prop :=
  ∀ s ∈ db.itemGroupShares, castUuid itemID = some s.itemId → castUuid groupID ≠ some s.groupId

theorem NoEarlierShare.isFor (h : NoEarlierShare db itemID req.groupID) {x g : Uuid}
    (hx : castUuid itemID = some x) (hg : castUuid req.groupID = some g) :
    ∀ s ∈ db.itemGroupShares, s.isFor x g = false := by
  intro s hs
  simp only [ItemGroupShare.isFor, decide_eq_false_iff_not]
  rintro ⟨rfl, rfl⟩
  exact h s hs hx hg

/-- Revoking the share with the group alone takes nothing that was there before it. -/
theorem neverLowers_unshare (hkeys : ShareKeysUnique db)
    (hw : groupShareWrites db now claims itemID req = some w)
    (hitem : db.item? w.group.itemId = some item) (hharmless : Harmless db w item)
    (hnone : NoEarlierShare db itemID req.groupID) {d db' : DB}
    (hd : d = w.apply db ∨ ∃ e, d = (w.apply db).audit e) {later : Time} {claims' : Claims}
    (hun : unshareGroup d later claims' itemID req.groupID = .ok db') : NeverLowers db db' := by
  obtain ⟨hactive, hx, hg, -, hrows⟩ := groupShareWrites_rows hw
  obtain ⟨hitems, hacl, hgroups⟩ := w.apply_frame db
  obtain ⟨hitems', hshares', hacl', hkept'⟩ := unshareGroup_keeps hun hx hg
  have hsame : d.items = (w.apply db).items ∧ d.itemShares = (w.apply db).itemShares ∧
      SameFolderAcl (w.apply db) d ∧ d.itemGroupShares = (w.apply db).itemGroupShares := by
    obtain rfl | ⟨e, rfl⟩ := hd
    · exact ⟨rfl, rfl, .refl _, rfl⟩
    · exact ⟨rfl, rfl, ⟨rfl, rfl, rfl, rfl⟩, rfl⟩
  obtain ⟨hditems, hdshares, hdacl, hdgroups⟩ := hsame
  have hacl'' : SameFolderAcl db db' := (hacl.trans hdacl).trans hacl'
  have hshares : db'.itemShares = (w.apply db).itemShares := hshares'.trans hdshares
  have hkeys' : ShareKeysUnique db' := by
    unfold ShareKeysUnique
    rw [hshares]
    exact hkeys.apply w
  have hdirect : ∀ t user x l, l ∈ directLevels (w.apply db) t user x →
      l ∈ directLevels db' t user x := by
    intro t user x l hl
    rw [directLevels, hshares]
    exact hl
  have hkept : ∀ s ∈ db.itemGroupShares, s ∈ db'.itemGroupShares := by
    intro s hs
    have hother := hnone.isFor hx hg s hs
    refine hkept' s ?_ hother
    rw [hdgroups, hgroups]
    exact Table.mem_upsert_const.mpr (.inr ⟨hs, hother⟩)
  -- the rows of the members and the rows that the share has left are still there
  have hlevel : ∀ t user item' l, KeptLevel db w t user item' l → ItemLevel db' t user item' l := by
    intro t user item' l hl
    cases hl with
    | owner howner => exact .owner howner
    | direct hrow hsitem huser hforce hkey =>
      refine itemLevel_iff.mpr (.inr (.inl (hdirect _ _ _ _ ?_)))
      rw [directLevels_apply hrows, if_neg hkey]
      exact ⟨_, hrow, hsitem, huser, hforce, rfl⟩
    | group hrow hsitem hmember hforce _ =>
      exact .group (hkept _ hrow) hsitem (hacl''.groupMembers ▸ hmember) hforce
  rw [neverLowers_iff_levels hkeys hkeys' hacl'' ((hitems'.trans hditems).trans hitems)]
  intro t user x item' hitem' l hl
  obtain hkeep | ⟨hid, ⟨huser, s, hs, hkey, hforce, rfl⟩ | ⟨-, s, hs, hkey, -⟩⟩ :=
    hl.kept_or_overwritten (w := w)
  · exact .inl ⟨l, hlevel t user item' l hkeep, le_rfl⟩
  · obtain rfl : item' = item := by
      rw [← (Table.lookup_eq_some hitem').2, hid, hitem] at hitem'
      exact (Option.some.inj hitem').symm
    simp only [ItemShare.isFor, decide_eq_true_eq] at hkey
    obtain ⟨hsitem, rfl⟩ := hkey
    obtain ⟨hopen, hle⟩ | ⟨l', hkeep, hle⟩ | hfolder :=
      hharmless.shares s hs hsitem huser t hforce
    · refine .inl ⟨_, itemLevel_iff.mpr (.inr (.inl (hdirect _ _ _ _ ?_))), hle⟩
      rw [directLevels_apply hrows, if_pos ⟨hid, huser⟩]
      exact ⟨hopen, rfl⟩
    · exact .inl ⟨l', hlevel t s.userId item' l' hkeep, hle⟩
    · exact .inr hfolder
  · rw [hid, hnone.isFor hx hg s hs] at hkey
    exact absurd hkey (by decide)

theorem neverLowers_refl (db : DB) : NeverLowers db db := fun _ _ _ p hp => ⟨p, hp, le_rfl⟩

/-- Without the writes there is nothing to revoke. -/
theorem neverLowers_unshare_of_none (hkeys : ShareKeysUnique db)
    (hnone : NoEarlierShare db itemID req.groupID) {db' : DB} {later : Time} {claims' : Claims}
    (hun : unshareGroup db later claims' itemID req.groupID = .ok db') : NeverLowers db db' := by
  obtain ⟨x, g, hx, hg⟩ := unshareGroup_casts hun
  obtain ⟨hitems, hshares, hacl, hkept⟩ := unshareGroup_keeps hun hx hg
  have hkeys' : ShareKeysUnique db' := by
    unfold ShareKeysUnique
    rw [hshares]
    exact hkeys
  rw [neverLowers_iff_levels hkeys hkeys' hacl hitems]
  intro t user _ item _ l hl
  refine .inl ⟨l, ?_, le_rfl⟩
  cases hl with
  | owner howner => exact .owner howner
  | direct hrow hsitem huser hforce => exact .direct (hshares ▸ hrow) hsitem huser hforce
  | group hrow hsitem hmember hforce =>
    exact .group (hkept _ hrow (hnone.isFor hx hg _ hrow)) hsitem
      (hacl.groupMembers ▸ hmember) hforce

end Law

/-- Nobody has less after a group share, nor after it is revoked where there was
none with the group before. -/
def GroupSharingOnlyAdds (db : DB) (now : Time) (claims : Claims) (itemID : String)
    (req : ShareGroupRequest) : Prop :=
  NeverLowers db (shareGroup db now claims itemID req).1 ∧
    (NoEarlierShare db itemID req.groupID → ∀ later claims' db',
      unshareGroup (shareGroup db now claims itemID req).1 later claims' itemID req.groupID =
        .ok db' → NeverLowers db db')

/-- Item 7 of user 1, which user 5 of group 8 may write without limit. -/
def writerInGroup : DB where
  users := [sampleUser 1 "ada", sampleUser 5 "bob"]
  groups := [⟨Uuid.ofNat 8, "ops", none⟩]
  groupMembers := [⟨Uuid.ofNat 8, Uuid.ofNat 5⟩]
  folders := [sampleFolder 3 1]
  items := [sampleItem 7 3 1]
  itemShares := [⟨Uuid.ofNat 7, Uuid.ofNat 5, [], sampleNonce, .write, Uuid.ofNat 1, none, .always⟩]

/-- A share with the group for reading, with a wrap for that user. -/
def readForGroup : ShareGroupRequest where
  groupID := (Uuid.ofNat 8).text
  permission := "read"
  members := [⟨(Uuid.ofNat 5).text, [1], List.replicate aesGcmNonceLen 0⟩]
  validFrom := none
  validUntil := none

end IronStock

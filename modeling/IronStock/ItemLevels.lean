import IronStock.FolderLevels

/-!
# Item permissions as the strongest source

The item resolver asks its sources one after the other and stops at the first
write. Its answer is the strongest level of all of them.
-/
namespace IronStock

open Strongest

theorem maxItemPerm_eq_max (a b : Perm) : maxItemPerm a b = max a b := by
  cases a <;> cases b <;> decide

/-- The levels `user` has on `item`, one for each source. -/
inductive ItemLevel (db : DB) (now : Time) (user : Uuid) (item : Item) : Perm → Prop
  | owner (howner : item.createdBy = user) : ItemLevel db now user item .write
  | direct {s : ItemShare} (hrow : s ∈ db.itemShares) (hitem : s.itemId = item.id)
      (huser : s.userId = user) (hforce : InForce s.revokedAt s.window now) :
      ItemLevel db now user item (.ofGrant s.permission)
  | group {s : ItemGroupShare} (hrow : s ∈ db.itemGroupShares) (hitem : s.itemId = item.id)
      (hmember : ⟨s.groupId, user⟩ ∈ db.groupMembers)
      (hforce : InForce s.revokedAt s.window now) :
      ItemLevel db now user item (.ofGrant s.permission)

/-- `item_shares_unique`: one row for an item and a user. -/
def ShareKeysUnique (db : DB) : Prop := (db.itemShares.map fun s => (s.itemId, s.userId)).Nodup

instance (db : DB) : Decidable (ShareKeysUnique db) :=
  inferInstanceAs (Decidable (List.Nodup _))

/-- The levels of the direct shares. -/
def directLevels (db : DB) (now : Time) (user itemID : Uuid) : Set Perm :=
  {l | ∃ s ∈ db.itemShares, s.itemId = itemID ∧ s.userId = user ∧
    InForce s.revokedAt s.window now ∧ l = .ofGrant s.permission}

/-- The levels of the shares through a group. -/
def groupLevels (db : DB) (now : Time) (user itemID : Uuid) : Set Perm :=
  {l | ∃ s ∈ db.itemGroupShares, s.itemId = itemID ∧ ⟨s.groupId, user⟩ ∈ db.groupMembers ∧
    InForce s.revokedAt s.window now ∧ l = .ofGrant s.permission}

theorem itemLevel_iff {db : DB} {now : Time} {user : Uuid} {item : Item} {l : Perm} :
    ItemLevel db now user item l ↔
      (l = .write ∧ item.createdBy = user) ∨ l ∈ directLevels db now user item.id ∨
        l ∈ groupLevels db now user item.id := by
  constructor
  · intro h
    cases h with
    | owner howner => exact .inl ⟨rfl, howner⟩
    | direct hrow hitem huser hforce => exact .inr (.inl ⟨_, hrow, hitem, huser, hforce, rfl⟩)
    | group hrow hitem hmember hforce =>
      exact .inr (.inr ⟨_, hrow, hitem, hmember, hforce, rfl⟩)
  · rintro (⟨rfl, howner⟩ | ⟨s, hrow, hitem, huser, hforce, rfl⟩ |
      ⟨s, hrow, hitem, hmember, hforce, rfl⟩)
    · exact .owner howner
    · exact .direct hrow hitem huser hforce
    · exact .group hrow hitem hmember hforce

theorem directSharePerm_isStrongest {db : DB} (hkeys : ShareKeysUnique db) (now : Time)
    (user itemID : Uuid) :
    IsStrongest (directLevels db now user itemID) (directSharePerm db now user itemID) := by
  unfold directSharePerm
  split
  · next hnone =>
    have hempty : directLevels db now user itemID = ∅ := by
      rw [Set.eq_empty_iff_forall_notMem]
      rintro l ⟨s, hs, hitem, huser, hforce, -⟩
      have hnot := List.find?_eq_none.mp hnone s hs
      simp [hitem, huser, ItemShare.inForce, (inForce_iff _ _ _).mpr hforce] at hnot
    rw [hempty]
    exact isStrongest_empty
  · next s hfind =>
    have hs := List.mem_of_find?_eq_some hfind
    have hmatch := List.find?_some hfind
    simp only [decide_eq_true_eq] at hmatch
    obtain ⟨hitem, huser, hforce⟩ := hmatch
    rw [isStrongest_iff]
    refine ⟨.inr ⟨s, hs, hitem, huser, (inForce_iff _ _ _).mp hforce, rfl⟩, ?_⟩
    -- the unique key leaves no second row
    rintro l ⟨s', hs', hitem', huser', -, rfl⟩
    have heq : s' = s :=
      List.inj_on_of_nodup_map hkeys hs' hs (by rw [hitem, huser, hitem', huser'])
    rw [heq]

theorem groupSharePerm_isStrongest (db : DB) (now : Time) (user itemID : Uuid) :
    IsStrongest (groupLevels db now user itemID) (groupSharePerm db now user itemID) := by
  have hrow : ∀ s, s ∈ (db.itemGroupShares.filter fun s =>
      s.itemId = itemID ∧ s.inForce now ∧ db.isMember s.groupId user) ↔
      s ∈ db.itemGroupShares ∧ s.itemId = itemID ∧ ⟨s.groupId, user⟩ ∈ db.groupMembers ∧
        InForce s.revokedAt s.window now := by
    intro s
    rw [List.mem_filter, decide_eq_true_eq, isMember_iff, ItemGroupShare.inForce, inForce_iff]
    tauto
  simp only [groupSharePerm]
  split
  · next hwrite =>
    rw [List.any_eq_true] at hwrite
    obtain ⟨s, hs, hw⟩ := hwrite
    obtain ⟨hmem, hitem, hmember, hforce⟩ := (hrow s).mp hs
    exact isStrongest_top ⟨s, hmem, hitem, hmember, hforce, by
      rw [of_decide_eq_true hw]; rfl⟩
  · next hwrite =>
    split
    · next hempty =>
      rw [List.isEmpty_iff] at hempty
      have hnone : groupLevels db now user itemID = ∅ := by
        rw [Set.eq_empty_iff_forall_notMem]
        rintro l ⟨s, hs, hitem, hmember, hforce, -⟩
        have hmem := (hrow s).mpr ⟨hs, hitem, hmember, hforce⟩
        rw [hempty] at hmem
        cases hmem
      rw [hnone]
      exact isStrongest_empty
    · next hsome =>
      rw [List.isEmpty_iff] at hsome
      obtain ⟨s, hs⟩ := List.exists_mem_of_ne_nil _ hsome
      have hread : ∀ s, s.itemId = itemID → s ∈ db.itemGroupShares →
          ⟨s.groupId, user⟩ ∈ db.groupMembers → InForce s.revokedAt s.window now →
          s.permission = .read := by
        intro s hitem hmem hmember hforce
        cases hp : s.permission with
        | read => rfl
        | write =>
          exact absurd (List.any_eq_true.mpr
            ⟨s, (hrow s).mpr ⟨hmem, hitem, hmember, hforce⟩, by simp [hp]⟩) hwrite
      obtain ⟨hmem, hitem, hmember, hforce⟩ := (hrow s).mp hs
      rw [isStrongest_iff]
      refine ⟨.inr ⟨s, hmem, hitem, hmember, hforce, by
        rw [hread s hitem hmem hmember hforce]; rfl⟩, ?_⟩
      rintro l ⟨s', hmem', hitem', hmember', hforce', rfl⟩
      rw [hread s' hitem' hmem' hmember' hforce']
      exact le_refl _

/-- The queries before the folder, and the write they stop at. -/
theorem itemPermissionOf_of_write {db : DB} (hkeys : ShareKeysUnique db) {now : Time}
    {user itemID : Uuid} {item : Item} (hitem : db.item? itemID = some item)
    (hwrite : ItemLevel db now user item .write) :
    itemPermissionOf db now user itemID = .ok .write := by
  have hid : item.id = itemID := (Table.lookup_eq_some hitem).2
  have hdirect := directSharePerm_isStrongest hkeys now user itemID
  have hgroup := groupSharePerm_isStrongest db now user itemID
  have htop : ∀ {s : Set Perm} {p : Perm}, IsStrongest s p → .write ∈ s → p = .write :=
    fun hp hmem => hp.unique (isStrongest_top hmem)
  rw [itemPermissionOf, hitem]
  rcases itemLevel_iff.mp hwrite with ⟨-, howner⟩ | hmem | hmem
  · simp [howner]
  · simp [htop hdirect (hid ▸ hmem)]
  · simp [htop hgroup (hid ▸ hmem)]

/-- Without a write among the sources before it, the folder decides. -/
theorem itemPermissionOf_of_not_write {db : DB} (hkeys : ShareKeysUnique db) {now : Time}
    {user itemID : Uuid} {item : Item} (hitem : db.item? itemID = some item)
    (hwrite : ¬ ItemLevel db now user item .write) :
    itemPermissionOf db now user itemID =
      (folderPermissionOf db now user item.folderId).map fun fromFolder =>
        max (max (directSharePerm db now user itemID) (groupSharePerm db now user itemID))
          fromFolder := by
  have hid : item.id = itemID := (Table.lookup_eq_some hitem).2
  have hmem : ∀ {s : Set Perm} {p : Perm}, IsStrongest s p → p = .write → .write ∈ s := by
    rintro s p hp rfl
    exact (isStrongest_iff.mp hp).1.resolve_left (by decide)
  have howner : item.createdBy ≠ user := fun h => hwrite (itemLevel_iff.mpr (.inl ⟨rfl, h⟩))
  have hdirect : directSharePerm db now user itemID ≠ .write := fun h =>
    hwrite (itemLevel_iff.mpr (.inr (.inl
      (hid ▸ hmem (directSharePerm_isStrongest hkeys now user itemID) h))))
  have hgroup : groupSharePerm db now user itemID ≠ .write := fun h =>
    hwrite (itemLevel_iff.mpr (.inr (.inr
      (hid ▸ hmem (groupSharePerm_isStrongest db now user itemID) h))))
  rw [itemPermissionOf, hitem]
  simp only [howner, hdirect, hgroup, if_false, maxItemPerm_eq_max]
  cases folderPermissionOf db now user item.folderId <;> rfl

/-- All sources of an item with their levels: its own, and what the folder
resolver says. -/
def itemLevels (db : DB) (now : Time) (user : Uuid) (item : Item) (fromFolder : Perm) : Set Perm :=
  {l | ItemLevel db now user item l} ∪ {fromFolder}

/-- Where the folder query has an answer, stopping early changes nothing. -/
theorem itemPermissionOf_isStrongest {db : DB} (hkeys : ShareKeysUnique db) {now : Time}
    {user itemID : Uuid} {item : Item} (hitem : db.item? itemID = some item) {fromFolder : Perm}
    (hfolder : folderPermissionOf db now user item.folderId = .ok fromFolder) :
    ∃ p, itemPermissionOf db now user itemID = .ok p ∧
      IsStrongest (itemLevels db now user item fromFolder) p := by
  have hid : item.id = itemID := (Table.lookup_eq_some hitem).2
  by_cases hwrite : ItemLevel db now user item .write
  · exact ⟨.write, itemPermissionOf_of_write hkeys hitem hwrite, isStrongest_top (.inl hwrite)⟩
  · refine ⟨_, (itemPermissionOf_of_not_write hkeys hitem hwrite).trans (by rw [hfolder]; rfl), ?_⟩
    have hsources : {l | ItemLevel db now user item l} =
        directLevels db now user itemID ∪ groupLevels db now user itemID := by
      ext l
      rw [Set.mem_ofPred_eq, itemLevel_iff, hid]
      refine or_iff_right fun hl => hwrite (itemLevel_iff.mpr (.inl ⟨rfl, hl.2⟩))
    rw [itemLevels, hsources]
    refine ((directSharePerm_isStrongest hkeys now user itemID).union
      (groupSharePerm_isStrongest db now user itemID)).union ?_
    exact isStrongest_iff.mpr ⟨.inr rfl, fun q hq => le_of_eq hq⟩

theorem ItemLevel.ne_none {db : DB} {now : Time} {user : Uuid} {item : Item} {l : Perm}
    (h : ItemLevel db now user item l) : l ≠ .none := by
  cases h with
  | owner => decide
  | direct => exact Perm.ofGrant_ne_none _
  | group => exact Perm.ofGrant_ne_none _

/-- A write from the sources before the folder, or any source at all where the
walk up from the folder has an end. -/
def HasSource (db : DB) (now : Time) (user : Uuid) (item : Item) : Prop :=
  ItemLevel db now user item .write ∨
    Forest.Ends db.parentOf item.folderId ∧
      ∃ l, ItemLevel db now user item l ∨ FolderLevel db now user item.folderId l

theorem itemPermissionOf_allowsRead_iff {db : DB} (hkeys : ShareKeysUnique db) {now : Time}
    {user itemID : Uuid} {item : Item} (hitem : db.item? itemID = some item) :
    (∃ p, itemPermissionOf db now user itemID = .ok p ∧ p.allowsRead = true) ↔
      HasSource db now user item := by
  by_cases hwrite : ItemLevel db now user item .write
  · exact iff_of_true ⟨.write, itemPermissionOf_of_write hkeys hitem hwrite, rfl⟩ (.inl hwrite)
  · rw [HasSource, or_iff_right hwrite, ← folderPermissionOf_isOk db now user]
    constructor
    · rintro ⟨p, hp, hread⟩
      cases hfolder : folderPermissionOf db now user item.folderId with
      | error e =>
        rw [itemPermissionOf_of_not_write hkeys hitem hwrite, hfolder] at hp
        cases hp
      | ok fromFolder =>
        obtain ⟨q, hq, hstrong⟩ := itemPermissionOf_isStrongest hkeys hitem hfolder
        rw [hp] at hq
        cases hq
        obtain ⟨l, hl, hne⟩ := hstrong.ne_bot_iff.mp ((Perm.allowsRead_iff p).mp hread)
        refine ⟨⟨fromFolder, rfl⟩, ?_⟩
        rcases hl with hl | rfl
        · exact ⟨l, .inl hl⟩
        · obtain ⟨l', hl', -⟩ := (folderPermissionOf_isStrongest hfolder).ne_bot_iff.mp hne
          exact ⟨l', .inr hl'⟩
    · rintro ⟨⟨fromFolder, hfolder⟩, l, hl⟩
      obtain ⟨p, hp, hstrong⟩ := itemPermissionOf_isStrongest hkeys hitem hfolder
      refine ⟨p, hp, (Perm.allowsRead_iff p).mpr (hstrong.ne_bot_iff.mpr ?_)⟩
      rcases hl with hl | hl
      · exact ⟨l, .inl hl, hl.ne_none⟩
      · have hfromFolder := (folderPermissionOf_isStrongest hfolder).ne_bot_iff.mpr
          ⟨l, hl, hl.ne_none⟩
        exact ⟨fromFolder, .inr rfl, hfromFolder⟩

/-- The items and folders are the same and every grant in force is still there. -/
structure ItemGrantsKept (now : Time) (db db' : DB) : Prop extends FolderGrantsKept now db db' where
  items : db'.items = db.items
  shares : ∀ s ∈ db.itemShares, InForce s.revokedAt s.window now → s ∈ db'.itemShares
  groupShares : ∀ s ∈ db.itemGroupShares, InForce s.revokedAt s.window now →
    s ∈ db'.itemGroupShares

theorem ItemGrantsKept.level {now : Time} {db db' : DB} (h : ItemGrantsKept now db db')
    {user : Uuid} {item : Item} {l : Perm} (hl : ItemLevel db now user item l) :
    ItemLevel db' now user item l := by
  cases hl with
  | owner howner => exact .owner howner
  | direct hrow hitem huser hforce => exact .direct (h.shares _ hrow hforce) hitem huser hforce
  | group hrow hitem hmember hforce =>
    exact .group (h.groupShares _ hrow hforce) hitem (h.members _ hmember) hforce

/-- The folder resolver has an answer in both states or in neither, and a
stronger one where the grants have grown. -/
theorem FolderGrantsKept.folderPermissionOf {now : Time} {db db' : DB}
    (h : FolderGrantsKept now db db') {user folder : Uuid} {p : Perm}
    (hp : folderPermissionOf db now user folder = .ok p) :
    ∃ p', IronStock.folderPermissionOf db' now user folder = .ok p' ∧ p ≤ p' := by
  have hends := (folderPermissionOf_isOk db now user folder).mp ⟨p, hp⟩
  obtain ⟨p', hp'⟩ := (folderPermissionOf_isOk db' now user folder).mpr (h.parentOf ▸ hends)
  exact ⟨p', hp', (folderPermissionOf_isStrongest hp).mono (folderPermissionOf_isStrongest hp')
    fun _ hl => h.level hl⟩

theorem ItemGrantsKept.itemPermissionOf {now : Time} {db db' : DB} (h : ItemGrantsKept now db db')
    (hkeys : ShareKeysUnique db) (hkeys' : ShareKeysUnique db') {user itemID : Uuid} {p : Perm}
    (hp : itemPermissionOf db now user itemID = .ok p) :
    ∃ p', IronStock.itemPermissionOf db' now user itemID = .ok p' ∧ p ≤ p' := by
  have hlookup : db'.item? itemID = db.item? itemID := by rw [DB.item?, DB.item?, h.items]
  cases hitem : db.item? itemID with
  | none =>
    have hnone : p = .none := by
      rw [IronStock.itemPermissionOf, hitem] at hp
      cases hp
      rfl
    refine ⟨.none, ?_, hnone ▸ le_refl _⟩
    rw [IronStock.itemPermissionOf, hlookup, hitem]
  | some item =>
    have hitem' := hlookup.trans hitem
    by_cases hwrite : ItemLevel db now user item .write
    · exact ⟨.write, itemPermissionOf_of_write hkeys' hitem' (h.level hwrite), le_top⟩
    · -- no write before the folder, so the folder query had an answer
      rw [itemPermissionOf_of_not_write hkeys hitem hwrite] at hp
      cases hfolder : IronStock.folderPermissionOf db now user item.folderId with
      | error e =>
        rw [hfolder] at hp
        cases hp
      | ok fromFolder =>
        obtain ⟨fromFolder', hfolder', hle⟩ := h.toFolderGrantsKept.folderPermissionOf hfolder
        obtain ⟨q, hq, hstrong⟩ := itemPermissionOf_isStrongest hkeys hitem hfolder
        obtain ⟨q', hq', hstrong'⟩ := itemPermissionOf_isStrongest hkeys' hitem' hfolder'
        have hpq : p = q := by
          rw [← itemPermissionOf_of_not_write hkeys hitem hwrite, hq] at hp
          cases hp
          rfl
        refine ⟨q', hq', hpq ▸ hstrong.le hstrong' ?_⟩
        rintro l (hl | rfl)
        · exact ⟨l, .inl (h.level hl), le_refl l⟩
        · exact ⟨fromFolder', .inr rfl, hle⟩

/-- The item resolver, with its early returns, gives the strongest level of all
sources; where the folder query has no answer it gives the write of an earlier
source or that error. Another grant never lowers the result. -/
theorem item_permission_is_strongest_source {db : DB} (hkeys : ShareKeysUnique db) (now : Time)
    (user : Uuid) {text : String} {itemID : Uuid} (hcast : castUuid text = some itemID) :
    (db.item? itemID = none → resolveItemPermission db now user text = .ok .none) ∧
    (∀ item, db.item? itemID = some item →
      (∀ fromFolder, folderPermissionOf db now user item.folderId = .ok fromFolder →
        ∃ p, resolveItemPermission db now user text = .ok p ∧
          IsStrongest (itemLevels db now user item fromFolder) p) ∧
      (∀ e, folderPermissionOf db now user item.folderId = .error e →
        (ItemLevel db now user item .write →
          resolveItemPermission db now user text = .ok .write) ∧
        (¬ ItemLevel db now user item .write →
          resolveItemPermission db now user text = .error e))) ∧
    ∀ db' p, ItemGrantsKept now db db' → ShareKeysUnique db' →
      resolveItemPermission db now user text = .ok p →
        ∃ p', resolveItemPermission db' now user text = .ok p' ∧ p ≤ p' := by
  have hresolve := fun db₀ => resolveItemPermission_of_cast hcast db₀ now user
  simp only [hresolve]
  refine ⟨?_, ?_, ?_⟩
  · intro hnone
    rw [itemPermissionOf, hnone]
  · intro item hitem
    refine ⟨fun fromFolder hfolder => itemPermissionOf_isStrongest hkeys hitem hfolder, ?_⟩
    intro e he
    refine ⟨itemPermissionOf_of_write hkeys hitem, fun hwrite => ?_⟩
    rw [itemPermissionOf_of_not_write hkeys hitem hwrite, he]
    rfl
  · intro db' p hkept hkeys' hp
    exact hkept.itemPermissionOf hkeys hkeys' hp

/-- Item 7 in folder 3, shared with user 5 for reading and with a group of that
user for writing. -/
def sharedItem : DB :=
  { inheritedGrant with
    items := [sampleItem 7 3 1]
    itemShares := [⟨Uuid.ofNat 7, Uuid.ofNat 5, [], sampleNonce, .read, Uuid.ofNat 1, none,
      .always⟩]
    itemGroupShares := [⟨Uuid.ofNat 7, Uuid.ofNat 8, .write, Uuid.ofNat 1, none, .always⟩]
    groupMembers := [⟨Uuid.ofNat 8, Uuid.ofNat 5⟩] }

theorem item_permission_is_strongest_source_group :
    IsStrongest (itemLevels sharedItem 0 (Uuid.ofNat 5) (sampleItem 7 3 1) .read) .write := by
  have hfolder : folderPermissionOf sharedItem 0 (Uuid.ofNat 5) (Uuid.ofNat 3) = .ok .read := by
    decide
  obtain ⟨-, hitem, -⟩ := @item_permission_is_strongest_source sharedItem
    (by decide) 0 (Uuid.ofNat 5) _ _ (castUuid_text (Uuid.ofNat 7))
  obtain ⟨p, hp, hstrong⟩ := (hitem (sampleItem 7 3 1) rfl).1 .read hfolder
  have hwrite : resolveItemPermission sharedItem 0 (Uuid.ofNat 5) (Uuid.ofNat 7).text =
      .ok .write := by decide
  rw [hwrite] at hp
  cases hp
  exact hstrong

end IronStock

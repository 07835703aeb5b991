import IronStock.Permissions
import IronStock.Service
import IronStock.Lib.Strongest

/-!
# Folder permissions as the strongest grant

What the folder resolver is for: every source of a permission is named on its
own, and the level of a user is the strongest of them in the order
none < read < write. The query of `Permissions` computes that level.
-/
namespace IronStock

open Strongest

/-! ## The order of the levels -/

namespace Perm

def rank : Perm → Nat
  | .none => 0
  | .read => 1
  | .write => 2

theorem rank_injective : Function.Injective rank := by
  intro a b h
  cases a <;> cases b <;> simp_all [rank]

instance : LinearOrder Perm where
  le a b := a.rank ≤ b.rank
  le_refl a := le_refl a.rank
  le_trans _ _ _ := le_trans
  le_antisymm _ _ hab hba := rank_injective (le_antisymm hab hba)
  le_total a b := le_total a.rank b.rank
  toDecidableLE a b := inferInstanceAs (Decidable (a.rank ≤ b.rank))
  toDecidableEq := inferInstance

instance : BoundedOrder Perm where
  bot := .none
  bot_le a := Nat.zero_le a.rank
  top := .write
  le_top a := by cases a <;> decide

@[simp] theorem bot_eq : (⊥ : Perm) = .none := rfl
@[simp] theorem top_eq : (⊤ : Perm) = .write := rfl

theorem allowsRead_iff (p : Perm) : p.allowsRead = true ↔ p ≠ .none := by
  cases p <;> decide

theorem ofGrant_eq_write {g : Grant} : ofGrant g = .write ↔ g = .write := by
  cases g <;> decide

@[simp] theorem ofGrant_ne_none (g : Grant) : ofGrant g ≠ .none := by
  cases g <;> decide

end Perm

/-! ## The sources -/

/-- Not revoked, and `now` is inside the window. -/
structure InForce (revokedAt : Option Time) (window : Window) (now : Time) : Prop where
  unrevoked : revokedAt = none
  started : ∀ a, window.validFrom = some a → a ≤ now
  notOver : ∀ b, window.validUntil = some b → now < b

theorem inForce_iff (revokedAt : Option Time) (window : Window) (now : Time) :
    (revokedAt.isNone && window.contains now) = true ↔ InForce revokedAt window now := by
  rw [Bool.and_eq_true, Option.isNone_iff_eq_none, Window.contains, Bool.and_eq_true,
    Option.all_eq_true, Option.all_eq_true]
  simp only [decide_eq_true_eq]
  constructor
  · rintro ⟨hr, hf, hu⟩
    exact ⟨hr, hf, hu⟩
  · intro h
    exact ⟨h.unrevoked, h.started, h.notOver⟩

/-- A grant on `target` counts for `folder`: on the folder itself, or inherited
from a folder above it. -/
def CountsFor (db : DB) (folder target : Uuid) (inheritToChildren : Bool) : Prop :=
  (db.folder? target).isSome = true ∧
    (target = folder ∨
      inheritToChildren = true ∧ Forest.StrictlyAbove db.parentOf folder target)

/-- The levels the folder tables give `user` on `folder`, one for each source. -/
inductive FolderLevel (db : DB) (now : Time) (user folder : Uuid) : Perm → Prop
  | owner {f : Folder} (hfolder : db.folder? folder = some f) (howner : f.createdBy = user) :
      FolderLevel db now user folder .write
  | direct {p : FolderPermissionRow} (hrow : p ∈ db.folderPermissions) (huser : p.userId = user)
      (hforce : InForce p.revokedAt p.window now)
      (hcounts : CountsFor db folder p.folderId p.inheritToChildren) :
      FolderLevel db now user folder (.ofGrant p.permission)
  | group {p : FolderGroupPermissionRow} (hrow : p ∈ db.folderGroupPermissions)
      (hmember : ⟨p.groupId, user⟩ ∈ db.groupMembers)
      (hforce : InForce p.revokedAt p.window now)
      (hcounts : CountsFor db folder p.folderId p.inheritToChildren) :
      FolderLevel db now user folder (.ofGrant p.permission)

theorem isMember_iff (db : DB) (group user : Uuid) :
    db.isMember group user = true ↔ ⟨group, user⟩ ∈ db.groupMembers := by
  rw [DB.isMember, List.any_eq_true]
  constructor
  · rintro ⟨⟨g, u⟩, hm, h⟩
    simp only [decide_eq_true_eq] at h
    obtain ⟨rfl, rfl⟩ := h
    exact hm
  · intro h
    exact ⟨_, h, by simp⟩

/-! ## The folder query -/

theorem exists_mem_zipIdx_tail {α : Type*} (a x : α) (l : List α) :
    (∃ d, 0 < d ∧ (x, d) ∈ (a :: l).zipIdx) ↔ x ∈ l := by
  rw [List.zipIdx_cons]
  constructor
  · rintro ⟨d, hd, hmem⟩
    rcases List.mem_cons.mp hmem with heq | hmem
    · cases heq
      omega
    · exact List.fst_mem_of_mem_zipIdx hmem
  · intro hmem
    obtain ⟨i, hi, rfl⟩ := List.mem_iff_getElem.mp hmem
    refine ⟨i + 1, by omega, List.mem_cons_of_mem _ ?_⟩
    exact List.mk_mem_zipIdx_iff_le_and_getElem?_sub.mpr
      ⟨by omega, by simp⟩

theorem folder?_id {db : DB} {id : Uuid} {f : Folder} (h : db.folder? id = some f) : f.id = id :=
  (Table.lookup_eq_some h).2

/-- The rows of the CTE `ancestors`: the folder itself at depth 0, the folders
above it at the other depths. -/
theorem mem_ancestors_iff {db : DB} {folder : Uuid} {chain : List (Folder × Nat)}
    (h : ancestors db folder = some chain) (f : Folder) :
    ((f, 0) ∈ chain ↔ db.folder? folder = some f) ∧
      ((∃ d, 0 < d ∧ (f, d) ∈ chain) ↔
        db.folder? f.id = some f ∧ Forest.StrictlyAbove db.parentOf folder f.id) := by
  rw [ancestors, Option.map_eq_some_iff] at h
  obtain ⟨l, hl, rfl⟩ := h
  obtain ⟨rest, rfl, habove⟩ := Forest.walk_cons hl
  cases hfolder : db.folder? folder with
  | none =>
    -- a folder that does not exist has no parent either
    have hroot : db.parentOf folder = none := by rw [DB.parentOf, hfolder]; rfl
    have hnil : rest = [] := by
      rw [List.eq_nil_iff_forall_not_mem]
      exact fun b hb => Forest.not_strictlyAbove_of_root hroot ((habove b).mp hb)
    simp [hnil, hfolder, Forest.not_strictlyAbove_of_root hroot]
  | some g =>
    rw [List.filterMap_cons_some hfolder]
    constructor
    · rw [List.zipIdx_cons, List.mem_cons]
      constructor
      · rintro (heq | hmem)
        · cases heq
          rfl
        · exact absurd (List.mk_mem_zipIdx_iff_le_and_getElem?_sub.mp hmem).1 (by omega)
      · rintro ⟨⟩
        exact .inl rfl
    · rw [exists_mem_zipIdx_tail, List.mem_filterMap]
      constructor
      · rintro ⟨b, hb, hf⟩
        have hid := folder?_id hf
        subst hid
        exact ⟨hf, (habove f.id).mp hb⟩
      · rintro ⟨hf, hab⟩
        exact ⟨f.id, (habove f.id).mpr hab, hf⟩

/-- A row of the ancestors that a grant with this inherit flag reaches. -/
theorem countsFor_iff {db : DB} {folder : Uuid} {chain : List (Folder × Nat)}
    (h : ancestors db folder = some chain) (target : Uuid) (inheritToChildren : Bool) :
    CountsFor db folder target inheritToChildren ↔
      ∃ a ∈ chain, a.1.id = target ∧ (a.2 = 0 ∨ inheritToChildren = true) := by
  constructor
  · rintro ⟨hexists, hself | ⟨hinherit, habove⟩⟩
    · obtain ⟨f, hf⟩ := Option.isSome_iff_exists.mp hexists
      have hid := folder?_id hf
      exact ⟨(f, 0), (mem_ancestors_iff h f).1.mpr (hself ▸ hf), hid, .inl rfl⟩
    · obtain ⟨f, hf⟩ := Option.isSome_iff_exists.mp hexists
      have hid := folder?_id hf
      subst hid
      obtain ⟨d, _, hmem⟩ := (mem_ancestors_iff h f).2.mpr ⟨hf, habove⟩
      exact ⟨(f, d), hmem, rfl, .inr hinherit⟩
  · rintro ⟨⟨f, d⟩, hmem, rfl, hreach⟩
    rcases Nat.eq_zero_or_pos d with rfl | hd
    · have hf := (mem_ancestors_iff h f).1.mp hmem
      have hid := folder?_id hf
      subst hid
      exact ⟨by simp [hf], .inl rfl⟩
    · have hinherit := hreach.resolve_left (by simpa using Nat.ne_of_gt hd)
      obtain ⟨hf, habove⟩ := (mem_ancestors_iff h f).2.mp ⟨d, hd, hmem⟩
      exact ⟨by simp [hf], .inr ⟨hinherit, habove⟩⟩

theorem directPermRows_ne_nil (db : DB) (now : Time) (user : Uuid) (a : Folder × Nat) :
    directPermRows db now user a ≠ [] := by
  unfold directPermRows
  split
  · simp
  · next hne =>
    rw [Ne, List.map_eq_nil_iff]
    exact hne

/-- Every row of `perms` carries the depth and the creator of its ancestor. -/
theorem mem_permRows {db : DB} {now : Time} {user : Uuid} {chain : List (Folder × Nat)}
    {r : PermRow} (h : r ∈ permRows db now user chain) :
    ∃ a ∈ chain, r.depth = a.2 ∧ r.createdBy = a.1.createdBy := by
  rw [permRows, List.mem_append, List.mem_flatMap, List.mem_flatMap] at h
  rcases h with ⟨a, ha, hr⟩ | ⟨a, ha, hr⟩
  · refine ⟨a, ha, ?_⟩
    unfold directPermRows at hr
    split at hr
    · rw [List.mem_singleton] at hr
      exact hr ▸ ⟨rfl, rfl⟩
    · obtain ⟨p, -, rfl⟩ := List.mem_map.mp hr
      exact ⟨rfl, rfl⟩
  · refine ⟨a, ha, ?_⟩
    obtain ⟨p, -, rfl⟩ := List.mem_map.mp hr
    exact ⟨rfl, rfl⟩

/-- `is_owner` -/
theorem isOwner_iff {db : DB} {folder : Uuid} {chain : List (Folder × Nat)}
    (h : ancestors db folder = some chain) (now : Time) (user : Uuid) :
    ((permRows db now user chain).any fun r => r.depth = 0 ∧ r.createdBy = user) = true ↔
      ∃ f, db.folder? folder = some f ∧ f.createdBy = user := by
  rw [List.any_eq_true]
  constructor
  · rintro ⟨r, hr, hmatch⟩
    obtain ⟨⟨f, d⟩, ha, hdepth, hcreator⟩ := mem_permRows hr
    simp only [decide_eq_true_eq] at hmatch
    obtain ⟨hzero, howner⟩ := hmatch
    have hd : d = 0 := hdepth.symm.trans hzero
    subst hd
    exact ⟨f, (mem_ancestors_iff h f).1.mp ha, hcreator.symm.trans howner⟩
  · rintro ⟨f, hf, rfl⟩
    have ha := (mem_ancestors_iff h f).1.mpr hf
    obtain ⟨r, hr⟩ := List.exists_mem_of_ne_nil _ (directPermRows_ne_nil db now f.createdBy (f, 0))
    have hmem : r ∈ permRows db now f.createdBy chain :=
      List.mem_append_left _ (List.mem_flatMap.mpr ⟨_, ha, hr⟩)
    refine ⟨r, hmem, ?_⟩
    unfold directPermRows at hr
    split at hr
    · rw [List.mem_singleton] at hr
      simp [hr]
    · obtain ⟨p, -, rfl⟩ := List.mem_map.mp hr
      simp

/-- A direct or group grant of level `g` that counts for `folder`. -/
def HasFolderGrant (db : DB) (now : Time) (user folder : Uuid) (g : Grant) : Prop :=
  (∃ p ∈ db.folderPermissions, p.userId = user ∧ InForce p.revokedAt p.window now ∧
    CountsFor db folder p.folderId p.inheritToChildren ∧ p.permission = g) ∨
  (∃ p ∈ db.folderGroupPermissions, ⟨p.groupId, user⟩ ∈ db.groupMembers ∧
    InForce p.revokedAt p.window now ∧
    CountsFor db folder p.folderId p.inheritToChildren ∧ p.permission = g)

theorem mem_directPermRows_iff {db : DB} {now : Time} {user : Uuid} {a : Folder × Nat}
    {r : PermRow} {g : Grant} (hg : r.permission = some g) :
    r ∈ directPermRows db now user a ↔
      ∃ p ∈ db.folderPermissions, p.folderId = a.1.id ∧ p.userId = user ∧
        InForce p.revokedAt p.window now ∧
        r = ⟨a.2, a.1.createdBy, p.inheritToChildren, some p.permission⟩ := by
  unfold directPermRows
  split
  · next hnil =>
    rw [List.filter_eq_nil_iff] at hnil
    constructor
    · rw [List.mem_singleton]
      rintro rfl
      cases hg
    · rintro ⟨p, hp, hfolder, huser, hforce, -⟩
      have hin : p.inForce now = true := (inForce_iff _ _ _).mpr hforce
      exact absurd (by simp [hfolder, huser, hin]) (hnil p hp)
  · rw [List.mem_map]
    constructor
    · rintro ⟨p, hp, rfl⟩
      rw [List.mem_filter, decide_eq_true_eq] at hp
      obtain ⟨hmem, hfolder, huser, hforce⟩ := hp
      exact ⟨p, hmem, hfolder, huser, (inForce_iff _ _ _).mp hforce, rfl⟩
    · rintro ⟨p, hmem, hfolder, huser, hforce, rfl⟩
      refine ⟨p, ?_, rfl⟩
      rw [List.mem_filter, decide_eq_true_eq]
      exact ⟨hmem, hfolder, huser, (inForce_iff _ _ _).mpr hforce⟩

theorem mem_groupPermRows_iff {db : DB} {now : Time} {user : Uuid} {a : Folder × Nat}
    {r : PermRow} :
    r ∈ groupPermRows db now user a ↔
      ∃ p ∈ db.folderGroupPermissions, p.folderId = a.1.id ∧
        ⟨p.groupId, user⟩ ∈ db.groupMembers ∧ InForce p.revokedAt p.window now ∧
        r = ⟨a.2, a.1.createdBy, p.inheritToChildren, some p.permission⟩ := by
  rw [groupPermRows, List.mem_map]
  constructor
  · rintro ⟨p, hp, rfl⟩
    rw [List.mem_filter, decide_eq_true_eq] at hp
    obtain ⟨hmem, hfolder, hforce, hmember⟩ := hp
    exact ⟨p, hmem, hfolder, (isMember_iff _ _ _).mp hmember, (inForce_iff _ _ _).mp hforce, rfl⟩
  · rintro ⟨p, hmem, hfolder, hmember, hforce, rfl⟩
    refine ⟨p, ?_, rfl⟩
    rw [List.mem_filter, decide_eq_true_eq]
    exact ⟨hmem, hfolder, (inForce_iff _ _ _).mpr hforce, (isMember_iff _ _ _).mpr hmember⟩

/-- `has_write`, and the `read` half of `has_read`. -/
theorem hasGrant_iff {db : DB} {folder : Uuid} {chain : List (Folder × Nat)}
    (h : ancestors db folder = some chain) (now : Time) (user : Uuid) (g : Grant) :
    (∃ r ∈ permRows db now user chain,
        (r.depth = 0 ∨ r.inheritToChildren = true) ∧ r.permission = some g) ↔
      HasFolderGrant db now user folder g := by
  constructor
  · rintro ⟨r, hr, hreach, hg⟩
    rw [permRows, List.mem_append, List.mem_flatMap, List.mem_flatMap] at hr
    rcases hr with ⟨a, ha, hr⟩ | ⟨a, ha, hr⟩
    · obtain ⟨p, hp, hfolder, huser, hforce, rfl⟩ := (mem_directPermRows_iff hg).mp hr
      have hcounts := (countsFor_iff h p.folderId p.inheritToChildren).mpr
        ⟨a, ha, hfolder.symm, hreach⟩
      exact .inl ⟨p, hp, huser, hforce, hcounts, by simpa using hg⟩
    · obtain ⟨p, hp, hfolder, hmember, hforce, rfl⟩ := mem_groupPermRows_iff.mp hr
      have hcounts := (countsFor_iff h p.folderId p.inheritToChildren).mpr
        ⟨a, ha, hfolder.symm, hreach⟩
      exact .inr ⟨p, hp, hmember, hforce, hcounts, by simpa using hg⟩
  · rintro (⟨p, hp, huser, hforce, hcounts, rfl⟩ | ⟨p, hp, hmember, hforce, hcounts, rfl⟩)
    · obtain ⟨a, ha, hfolder, hreach⟩ := (countsFor_iff h _ _).mp hcounts
      refine ⟨⟨a.2, a.1.createdBy, p.inheritToChildren, some p.permission⟩, ?_, hreach, rfl⟩
      refine List.mem_append_left _ (List.mem_flatMap.mpr ⟨a, ha, ?_⟩)
      exact (mem_directPermRows_iff rfl).mpr ⟨p, hp, hfolder.symm, huser, hforce, rfl⟩
    · obtain ⟨a, ha, hfolder, hreach⟩ := (countsFor_iff h _ _).mp hcounts
      refine ⟨⟨a.2, a.1.createdBy, p.inheritToChildren, some p.permission⟩, ?_, hreach, rfl⟩
      refine List.mem_append_right _ (List.mem_flatMap.mpr ⟨a, ha, ?_⟩)
      exact mem_groupPermRows_iff.mpr ⟨p, hp, hfolder.symm, hmember, hforce, rfl⟩

theorem folderLevel_iff {db : DB} {now : Time} {user folder : Uuid} {l : Perm} :
    FolderLevel db now user folder l ↔
      (l = .write ∧ ∃ f, db.folder? folder = some f ∧ f.createdBy = user) ∨
        ∃ g, l = .ofGrant g ∧ HasFolderGrant db now user folder g := by
  constructor
  · intro h
    cases h with
    | owner hfolder howner => exact .inl ⟨rfl, _, hfolder, howner⟩
    | direct hrow huser hforce hcounts =>
      exact .inr ⟨_, rfl, .inl ⟨_, hrow, huser, hforce, hcounts, rfl⟩⟩
    | group hrow hmember hforce hcounts =>
      exact .inr ⟨_, rfl, .inr ⟨_, hrow, hmember, hforce, hcounts, rfl⟩⟩
  · rintro (⟨rfl, f, hf, howner⟩ | ⟨g, rfl, h⟩)
    · exact .owner hf howner
    · rcases h with ⟨p, hp, huser, hforce, hcounts, rfl⟩ | ⟨p, hp, hmember, hforce, hcounts, rfl⟩
      · exact .direct hp huser hforce hcounts
      · exact .group hp hmember hforce hcounts

theorem FolderLevel.ne_none {db : DB} {now : Time} {user folder : Uuid} {l : Perm}
    (h : FolderLevel db now user folder l) : l ≠ .none := by
  cases h with
  | owner => decide
  | direct => exact Perm.ofGrant_ne_none _
  | group => exact Perm.ofGrant_ne_none _

/-- Where the walk has an end, the query returns the strongest level. -/
theorem folderPermOfRows_isStrongest {db : DB} {folder : Uuid} {chain : List (Folder × Nat)}
    (h : ancestors db folder = some chain) (now : Time) (user : Uuid) :
    IsStrongest {l | FolderLevel db now user folder l}
      (folderPermOfRows user chain (permRows db now user chain)) := by
  have hgrant := hasGrant_iff h now user
  have howner := isOwner_iff h now user
  simp only [folderPermOfRows]
  split
  · next hempty =>
    rw [List.isEmpty_iff] at hempty
    subst hempty
    have hnone : {l | FolderLevel db now user folder l} = ∅ := by
      rw [Set.eq_empty_iff_forall_notMem]
      intro l hl
      rcases folderLevel_iff.mp hl with ⟨-, hf⟩ | ⟨g, -, hg⟩
      · simpa [permRows] using howner.mpr hf
      · simpa [permRows] using (hgrant g).mpr hg
    rw [hnone]
    exact isStrongest_empty
  · split
    · next hown => exact isStrongest_top (folderLevel_iff.mpr (.inl ⟨rfl, howner.mp hown⟩))
    · next hown =>
      -- the owner is out, so only the grants are left
      have hlevel : ∀ l, FolderLevel db now user folder l ↔
          ∃ g, l = .ofGrant g ∧ HasFolderGrant db now user folder g := by
        intro l
        rw [folderLevel_iff]
        exact or_iff_right fun hl => hown (howner.mpr hl.2)
      split
      · next hwrite =>
        rw [List.any_eq_true] at hwrite
        obtain ⟨r, hr, hmatch⟩ := hwrite
        simp only [decide_eq_true_eq] at hmatch
        exact isStrongest_top ((hlevel _).mpr ⟨.write, rfl, (hgrant _).mp ⟨r, hr, hmatch⟩⟩)
      · next hwrite =>
        have hnowrite : ¬ HasFolderGrant db now user folder .write := by
          intro hg
          obtain ⟨r, hr, hmatch⟩ := (hgrant _).mpr hg
          exact hwrite (List.any_eq_true.mpr ⟨r, hr, by simpa using hmatch⟩)
        split
        · next hread =>
          rw [List.any_eq_true] at hread
          obtain ⟨r, hr, hmatch⟩ := hread
          simp only [decide_eq_true_eq] at hmatch
          obtain ⟨g, hg⟩ := Option.isSome_iff_exists.mp hmatch.2
          have hmine := (hgrant g).mp ⟨r, hr, hmatch.1, hg⟩
          cases g with
          | write => exact absurd hmine hnowrite
          | read =>
            rw [isStrongest_iff]
            refine ⟨.inr ((hlevel _).mpr ⟨.read, rfl, hmine⟩), ?_⟩
            intro l hl
            obtain ⟨g, rfl, hg⟩ := (hlevel l).mp hl
            cases g with
            | read => exact le_refl _
            | write => exact absurd hg hnowrite
        · next hread =>
          have hnone : {l | FolderLevel db now user folder l} = ∅ := by
            rw [Set.eq_empty_iff_forall_notMem]
            intro l hl
            obtain ⟨g, -, hg⟩ := (hlevel l).mp hl
            obtain ⟨r, hr, hreach, hperm⟩ := (hgrant g).mpr hg
            exact hread (List.any_eq_true.mpr ⟨r, hr, by simp [hreach, hperm]⟩)
          rw [hnone]
          exact isStrongest_empty

theorem folderPermissionOf_isStrongest {db : DB} {now : Time} {user folder : Uuid} {p : Perm}
    (h : folderPermissionOf db now user folder = .ok p) :
    IsStrongest {l | FolderLevel db now user folder l} p := by
  unfold folderPermissionOf at h
  split at h
  · cases h
  · next chain hchain =>
    cases h
    exact folderPermOfRows_isStrongest hchain now user

/-- A folder that does not exist gives nobody anything. -/
theorem not_folderLevel_of_missing {db : DB} {now : Time} {user folder : Uuid} {l : Perm}
    (h : db.folder? folder = none) : ¬ FolderLevel db now user folder l := by
  have hroot : db.parentOf folder = none := by rw [DB.parentOf, h]; rfl
  have hcounts : ∀ target inheritToChildren, ¬ CountsFor db folder target inheritToChildren := by
    rintro target inheritToChildren ⟨hexists, rfl | ⟨-, habove⟩⟩
    · simp [h] at hexists
    · exact Forest.not_strictlyAbove_of_root hroot habove
  intro hl
  cases hl with
  | owner hfolder _ => simp [h] at hfolder
  | direct _ _ _ hc => exact hcounts _ _ hc
  | group _ _ _ hc => exact hcounts _ _ hc

/-- The folders are the same and every folder grant in force is still there:
what adding grants does, and removing them read backwards. -/
structure FolderGrantsKept (now : Time) (db db' : DB) : Prop where
  folders : db'.folders = db.folders
  direct : ∀ p ∈ db.folderPermissions, InForce p.revokedAt p.window now →
    p ∈ db'.folderPermissions
  group : ∀ p ∈ db.folderGroupPermissions, InForce p.revokedAt p.window now →
    p ∈ db'.folderGroupPermissions
  members : ∀ m ∈ db.groupMembers, m ∈ db'.groupMembers

theorem FolderGrantsKept.parentOf {now : Time} {db db' : DB} (h : FolderGrantsKept now db db') :
    db'.parentOf = db.parentOf := by
  funext id
  rw [DB.parentOf, DB.parentOf, DB.folder?, DB.folder?, h.folders]

theorem FolderGrantsKept.level {now : Time} {db db' : DB} (h : FolderGrantsKept now db db')
    {user folder : Uuid} {l : Perm} (hl : FolderLevel db now user folder l) :
    FolderLevel db' now user folder l := by
  have hcounts : ∀ {target inheritToChildren}, CountsFor db folder target inheritToChildren →
      CountsFor db' folder target inheritToChildren := by
    intro target inheritToChildren hc
    rwa [CountsFor, h.parentOf, DB.folder?, h.folders]
  cases hl with
  | owner hfolder howner => exact .owner (by rwa [DB.folder?, h.folders]) howner
  | direct hrow huser hforce hc => exact .direct (h.direct _ hrow hforce) huser hforce (hcounts hc)
  | group hrow hmember hforce hc =>
    exact .group (h.group _ hrow hforce) (h.members _ hmember) hforce (hcounts hc)

/-- The same rows in another order. -/
structure SameFolderRows (db db' : DB) : Prop where
  folders : db.folders.Perm db'.folders
  folderPermissions : db.folderPermissions.Perm db'.folderPermissions
  folderGroupPermissions : db.folderGroupPermissions.Perm db'.folderGroupPermissions
  groupMembers : db.groupMembers.Perm db'.groupMembers

theorem SameFolderRows.folder? {db db' : DB} (h : SameFolderRows db db')
    (hkey : (db.folders.map Folder.id).Nodup) : db'.folder? = db.folder? := by
  funext id
  exact Table.lookup_perm h.folders hkey id

theorem SameFolderRows.folderLevel {db db' : DB} (h : SameFolderRows db db')
    (hkey : (db.folders.map Folder.id).Nodup) (now : Time) (user folder : Uuid) (l : Perm) :
    FolderLevel db' now user folder l ↔ FolderLevel db now user folder l := by
  have hfolder := h.folder? hkey
  have hparent : db'.parentOf = db.parentOf := by
    funext id
    rw [DB.parentOf, DB.parentOf, hfolder]
  simp only [folderLevel_iff, HasFolderGrant, CountsFor, hfolder, hparent,
    h.folderPermissions.mem_iff, h.folderGroupPermissions.mem_iff, h.groupMembers.mem_iff]

/-- On a hierarchy without cycles the folder resolver returns the strongest
level, whatever the order of the rows, and another grant never lowers it. -/
theorem folder_permission_is_strongest_grant {db : DB} (hforest : Forest.IsForest db.parentOf)
    (now : Time) (user : Uuid) {text : String} {folder : Uuid}
    (hcast : castUuid text = some folder) :
    ∃ p, resolveFolderPermission db now user text = .ok p ∧
      IsStrongest {l | FolderLevel db now user folder l} p ∧
      (db.folder? folder = none → p = .none) ∧
      (∀ db', FolderGrantsKept now db db' →
        ∃ p', resolveFolderPermission db' now user text = .ok p' ∧ p ≤ p') ∧
      ∀ db', (db.folders.map Folder.id).Nodup → SameFolderRows db db' →
        resolveFolderPermission db' now user text = .ok p := by
  have hresolve := fun db₀ => resolveFolderPermission_of_cast hcast db₀ now user
  obtain ⟨p, hp⟩ := (folderPermissionOf_isOk db now user folder).mpr (hforest folder)
  have hstrong := folderPermissionOf_isStrongest hp
  refine ⟨p, (hresolve db).trans hp, hstrong, ?_, ?_, ?_⟩
  · intro hmissing
    rcases (isStrongest_iff.mp hstrong).1 with hbot | hlevel
    · exact hbot
    · exact absurd hlevel (not_folderLevel_of_missing hmissing)
  · intro db' hkept
    obtain ⟨p', hp'⟩ := (folderPermissionOf_isOk db' now user folder).mpr
      (hkept.parentOf ▸ hforest folder)
    exact ⟨p', (hresolve db').trans hp',
      hstrong.mono (folderPermissionOf_isStrongest hp') fun _ hl => hkept.level hl⟩
  · intro db' hkey hrows
    have hparent : db'.parentOf = db.parentOf := by
      funext id
      rw [DB.parentOf, DB.parentOf, hrows.folder? hkey]
    obtain ⟨p', hp'⟩ := (folderPermissionOf_isOk db' now user folder).mpr
      (hparent ▸ hforest folder)
    have hstrong' := folderPermissionOf_isStrongest hp'
    simp only [hrows.folderLevel hkey] at hstrong'
    rw [hresolve, hp', hstrong'.unique hstrong]

/-- Folder 3 in folder 2, and an inherited read grant on folder 2 for user 5. -/
def inheritedGrant : DB where
  folders := [sampleFolder 2 1,
    { sampleFolder 3 1 with parentId := some (Uuid.ofNat 2), noSelfParent := by decide }]
  folderPermissions := [⟨Uuid.ofNat 2, Uuid.ofNat 5, .read, true, .always, none⟩]

theorem inheritedGrant_isForest : Forest.IsForest inheritedGrant.parentOf := by
  have hroot : Forest.Ends inheritedGrant.parentOf (Uuid.ofNat 2) := .root (by decide)
  intro a
  cases h : inheritedGrant.parentOf a with
  | none => exact .root h
  | some b =>
    have hmem := parentOf_mem h
    simp only [inheritedGrant, List.map_cons, List.map_nil, List.mem_cons, List.not_mem_nil,
      or_false] at hmem
    rcases hmem with rfl | rfl
    · exact hroot
    · exact .step (by decide) hroot

theorem folder_permission_is_strongest_grant_inherited :
    IsStrongest {l | FolderLevel inheritedGrant 0 (Uuid.ofNat 5) (Uuid.ofNat 3) l} .read := by
  obtain ⟨p, hp, hstrong, -⟩ := folder_permission_is_strongest_grant inheritedGrant_isForest 0
    (Uuid.ofNat 5) (castUuid_text (Uuid.ofNat 3))
  have hread : resolveFolderPermission inheritedGrant 0 (Uuid.ofNat 5) (Uuid.ofNat 3).text =
      .ok .read := by decide
  rw [hread] at hp
  cases hp
  exact hstrong

end IronStock

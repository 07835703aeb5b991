import IronStock.AnsibleInventory
import IronStock.Lib.Grouping

/-!
# The inventory document

What `GetInventory` assembles from the rows of its query. Host variables, groups and the
reserved keys are maps under names that users choose, so a row or a group is lost where two
of these names meet.
-/
namespace IronStock.Ansible

open Grouping (assignAll members)

/-! ## What the document owes -/

/-- The row carries the tag, or lies in the folder. -/
def HostEntry.carries (h : HostEntry) (groupBy g : String) : Prop :=
  match groupBy with
  | "tag" => g ∈ h.tags
  | "folder" => g = h.folderID
  | _ => g = "all_items"

/-- The names are the hosts of the rows with this property. -/
def HostsOf (hosts : List HostEntry) (p : HostEntry → Prop) (names : List String) : Prop :=
  ∀ hn, hn ∈ names ↔ ∃ h ∈ hosts, p h ∧ h.hostname = hn

/-- A dynamic inventory with all rows and groups. -/
structure KeepsAll (groupBy : String) (hosts : List HostEntry) (inv : Inventory) : Prop where
  /-- it is a JSON object -/
  keys : (inv.map Prod.fst).Nodup
  /-- `_meta` has an entry of its own for every row -/
  hostvars : ∃ vars, ("_meta", .hostvars vars) ∈ inv ∧
    vars.Perm (hosts.map fun h => (h.hostname, h.vars))
  /-- `all` has every host, and the groups as children -/
  all : ∃ children, ("all", .all (hosts.map HostEntry.hostname) children) ∈ inv ∧
    ∀ g, g ∈ children ↔ ∃ names, (g, .group names) ∈ inv
  /-- what a row carries is a group of the rows that carry it -/
  carried : ∀ g, (∃ h ∈ hosts, h.carries groupBy g) →
    ∃ names, (g, .group names) ∈ inv ∧ HostsOf hosts (·.carries groupBy g) names
  /-- any other group is that of the rows without a tag -/
  groups : ∀ g names, (g, .group names) ∈ inv →
    (∃ h ∈ hosts, h.carries groupBy g) ∨
      groupBy = "tag" ∧ g = "ungrouped" ∧ HostsOf hosts (·.tags = []) names

/-- No two rows have one name, no group has a reserved one, and none is called like the group
of the rows without a tag while there are such rows. -/
structure NamesApart (groupBy : String) (hosts : List HostEntry) : Prop where
  distinct : (hosts.map HostEntry.hostname).Nodup
  reserved : ∀ h ∈ hosts, "_meta" ∉ h.groups groupBy ∧ "all" ∉ h.groups groupBy
  ungrouped : groupBy = "tag" → (∃ h ∈ hosts, h.tags = []) → ∀ h ∈ hosts, "ungrouped" ∉ h.tags

section Document

variable {groupBy : String} {hosts : List HostEntry} {h : HostEntry} {g : String}

/-! ## The maps -/

/-- The pairs of a group and a host, in the order of the loop. -/
def groupPairs (groupBy : String) (hosts : List HostEntry) : List (String × String) :=
  hosts.flatMap fun h => (h.groups groupBy).map (·, h.hostname)

theorem hostvarsOf_eq :
    hostvarsOf hosts = assignAll [] (hosts.map fun h => (h.hostname, h.vars)) := by
  rw [assignAll, List.foldl_map]
  rfl

theorem groupsOf_eq : groupsOf groupBy hosts = Grouping.collect (groupPairs groupBy hosts) := rfl

theorem withGroups_eq :
    withGroups groupBy hosts = assignAll [("_meta", .hostvars (hostvarsOf hosts))]
      ((groupsOf groupBy hosts).map fun g => (g.1, .group g.2)) := by
  rw [assignAll, List.foldl_map]
  rfl

theorem groupKeys_eq :
    ((groupsOf groupBy hosts).map fun g => (g.1, InventoryValue.group g.2)).map Prod.fst =
      (groupsOf groupBy hosts).map Prod.fst := by
  rw [List.map_map]
  rfl

theorem groupsOf_nodup : ((groupsOf groupBy hosts).map Prod.fst).Nodup := by
  rw [groupsOf_eq]
  exact Grouping.nodup_collect _

theorem mem_groupPairs {hn : String} :
    (g, hn) ∈ groupPairs groupBy hosts ↔ ∃ h ∈ hosts, g ∈ h.groups groupBy ∧ h.hostname = hn := by
  simp only [groupPairs, List.mem_flatMap, List.mem_map, Prod.mk.injEq]
  constructor
  · rintro ⟨h, hh, g', hg', rfl, rfl⟩
    exact ⟨h, hh, hg', rfl⟩
  · rintro ⟨h, hh, hg, rfl⟩
    exact ⟨h, hh, g, hg, rfl, rfl⟩

/-- The names that some row is put under. -/
theorem mem_groupsOf_keys :
    g ∈ (groupsOf groupBy hosts).map Prod.fst ↔ ∃ h ∈ hosts, g ∈ h.groups groupBy := by
  rw [groupsOf_eq, List.mem_map]
  constructor
  · rintro ⟨⟨g', names⟩, hmem, rfl⟩
    obtain ⟨rfl, hne⟩ := Grouping.mem_collect.mp hmem
    obtain ⟨hn, hhn⟩ := List.exists_mem_of_ne_nil _ hne
    obtain ⟨h, hh, hg, -⟩ := mem_groupPairs.mp (Grouping.mem_members.mp hhn)
    exact ⟨h, hh, hg⟩
  · rintro ⟨h, hh, hg⟩
    refine ⟨(g, members g (groupPairs groupBy hosts)), Grouping.mem_collect.mpr ⟨rfl, ?_⟩, rfl⟩
    exact List.ne_nil_of_mem (Grouping.mem_members.mpr (mem_groupPairs.mpr ⟨h, hh, hg, rfl⟩))

/-- A group holds the hosts that are put under its name. -/
theorem mem_groupsOf_iff {names : List String} :
    (g, names) ∈ groupsOf groupBy hosts ↔
      names = members g (groupPairs groupBy hosts) ∧ ∃ h ∈ hosts, g ∈ h.groups groupBy := by
  constructor
  · intro hmem
    exact ⟨(Grouping.mem_collect.mp hmem).1, mem_groupsOf_keys.mp (List.mem_map_of_mem hmem)⟩
  · rintro ⟨rfl, hkey⟩
    obtain ⟨⟨g', names⟩, hmem, rfl⟩ := List.mem_map.mp (mem_groupsOf_keys.mpr hkey)
    have hnames := (Grouping.mem_collect.mp hmem).1
    rw [groupPairs, ← hnames]
    exact hmem

theorem hostsOf_members :
    HostsOf hosts (g ∈ ·.groups groupBy) (members g (groupPairs groupBy hosts)) := by
  intro hn
  rw [Grouping.mem_members, mem_groupPairs]

/-! ## The entries of the document -/

/-- Groups replace `_meta`, and `all` replaces a group. -/
theorem mem_inventoryOf {e : String × InventoryValue} :
    e ∈ inventoryOf groupBy hosts ↔
      e = ("all", .all (hosts.map HostEntry.hostname) ((groupsOf groupBy hosts).map Prod.fst)) ∨
        e.1 ≠ "all" ∧ ((∃ g ∈ groupsOf groupBy hosts, e = (g.1, .group g.2)) ∨
          e = ("_meta", .hostvars (hostvarsOf hosts)) ∧
            "_meta" ∉ (groupsOf groupBy hosts).map Prod.fst) := by
  have hassign : inventoryOf groupBy hosts = Grouping.assign (withGroups groupBy hosts)
      ("all", .all (hosts.map HostEntry.hostname) ((groupsOf groupBy hosts).map Prod.fst)) := rfl
  have hkeys : ((groupsOf groupBy hosts).map Prod.fst).Nodup := groupsOf_nodup
  rw [← groupKeys_eq] at hkeys
  rw [hassign, Grouping.mem_assign, withGroups_eq, Grouping.mem_assignAll hkeys, groupKeys_eq]
  refine or_congr_right (and_comm.trans (and_congr_right fun _ => or_congr ?_ ?_))
  · rw [List.mem_map]
    exact exists_congr fun g => and_congr_right fun _ => eq_comm
  · rw [List.mem_singleton]
    constructor
    · rintro ⟨rfl, hmeta⟩
      exact ⟨rfl, hmeta⟩
    · rintro ⟨rfl, hmeta⟩
      exact ⟨rfl, hmeta⟩

theorem inventoryOf_nodup : ((inventoryOf groupBy hosts).map Prod.fst).Nodup := by
  have hsingle : ([("_meta", InventoryValue.hostvars (hostvarsOf hosts))].map Prod.fst).Nodup :=
    List.nodup_singleton _
  have hgroups : ((withGroups groupBy hosts).map Prod.fst).Nodup := by
    rw [withGroups_eq]
    exact Grouping.nodup_assignAll _ hsingle
  exact Grouping.nodup_assign ("all", .all (hosts.map HostEntry.hostname)
    ((groupsOf groupBy hosts).map Prod.fst)) hgroups

theorem group_mem_inventoryOf {names : List String} :
    (g, .group names) ∈ inventoryOf groupBy hosts ↔
      g ≠ "all" ∧ (g, names) ∈ groupsOf groupBy hosts := by
  rw [mem_inventoryOf]
  constructor
  · rintro (heq | ⟨hne, ⟨g', hmem, heq⟩ | ⟨heq, -⟩⟩)
    · cases heq
    · cases heq
      exact ⟨hne, hmem⟩
    · cases heq
  · rintro ⟨hne, hmem⟩
    exact .inr ⟨hne, .inl ⟨_, hmem, rfl⟩⟩

theorem hostvars_mem_inventoryOf {vars : List (String × HostVars)} :
    ("_meta", .hostvars vars) ∈ inventoryOf groupBy hosts ↔
      vars = hostvarsOf hosts ∧ ∀ h ∈ hosts, "_meta" ∉ h.groups groupBy := by
  have hkeys : "_meta" ∉ (groupsOf groupBy hosts).map Prod.fst ↔
      ∀ h ∈ hosts, "_meta" ∉ h.groups groupBy := by
    rw [mem_groupsOf_keys]
    simp
  rw [mem_inventoryOf, hkeys]
  constructor
  · rintro (heq | ⟨-, ⟨g', -, heq⟩ | ⟨heq, hnone⟩⟩)
    · cases (Prod.mk.inj heq).2
    · cases (Prod.mk.inj heq).2
    · exact ⟨InventoryValue.hostvars.inj (Prod.mk.inj heq).2, hnone⟩
  · rintro ⟨rfl, hnone⟩
    exact .inr ⟨by simp, .inr ⟨rfl, hnone⟩⟩

/-! ## What a row carries -/

/-- The loop puts a row under what it carries, and one without a tag under `ungrouped`. -/
theorem mem_groups :
    g ∈ h.groups groupBy ↔
      h.carries groupBy g ∨ groupBy = "tag" ∧ g = "ungrouped" ∧ h.tags = [] := by
  by_cases htag : groupBy = "tag"
  · subst htag
    simp only [HostEntry.groups, HostEntry.carries]
    split
    · next hnil => simp [hnil]
    · next hsome => simp [hsome]
  · rw [or_iff_left fun hu => htag hu.1]
    by_cases hfolder : groupBy = "folder"
    · subst hfolder
      simp [HostEntry.groups, HostEntry.carries]
    · simp [HostEntry.groups, HostEntry.carries]

theorem groups_of_carries (hh : h ∈ hosts) (hcarries : h.carries groupBy g) :
    ∃ h ∈ hosts, g ∈ h.groups groupBy :=
  ⟨h, hh, mem_groups.mpr (.inl hcarries)⟩

/-! ## The document and the names -/

theorem NamesApart.keepsAll (hapart : NamesApart groupBy hosts) :
    KeepsAll groupBy hosts (inventoryOf groupBy hosts) where
  keys := inventoryOf_nodup
  hostvars := by
    refine ⟨hostvarsOf hosts,
      hostvars_mem_inventoryOf.mpr ⟨rfl, fun h hh => (hapart.reserved h hh).1⟩, ?_⟩
    rw [hostvarsOf_eq, Grouping.assignAll_perm_iff, List.map_map]
    exact hapart.distinct
  all := by
    refine ⟨_, mem_inventoryOf.mpr (.inl rfl), ?_⟩
    intro g
    simp only [group_mem_inventoryOf, exists_and_left]
    rw [List.mem_map]
    constructor
    · rintro ⟨⟨g', names⟩, hmem, rfl⟩
      refine ⟨?_, names, hmem⟩
      rintro rfl
      obtain ⟨-, h, hh, hg⟩ := mem_groupsOf_iff.mp hmem
      exact (hapart.reserved h hh).2 hg
    · rintro ⟨-, names, hmem⟩
      exact ⟨_, hmem, rfl⟩
  carried := by
    rintro g ⟨h, hh, hcarries⟩
    have hg : g ∈ h.groups groupBy := mem_groups.mpr (.inl hcarries)
    have hne : g ≠ "all" := by
      rintro rfl
      exact (hapart.reserved h hh).2 hg
    refine ⟨_, group_mem_inventoryOf.mpr ⟨hne, mem_groupsOf_iff.mpr ⟨rfl, h, hh, hg⟩⟩, ?_⟩
    -- no row without a tag is in the group of a tag
    have hsame : ∀ h' ∈ hosts, g ∈ h'.groups groupBy ↔ h'.carries groupBy g := by
      intro h' hh'
      refine mem_groups.trans (or_iff_left ?_)
      rintro ⟨rfl, rfl, hnil⟩
      exact hapart.ungrouped rfl ⟨h', hh', hnil⟩ h hh hcarries
    intro hn
    rw [hostsOf_members hn]
    exact exists_congr fun h' => and_congr_right fun hh' => and_congr_left' (hsame h' hh')
  groups := by
    intro g names hmem
    obtain ⟨-, hgroup⟩ := group_mem_inventoryOf.mp hmem
    obtain ⟨rfl, h, hh, hg⟩ := mem_groupsOf_iff.mp hgroup
    by_cases hcarried : ∃ h ∈ hosts, h.carries groupBy g
    · exact .inl hcarried
    · obtain ⟨rfl, rfl, -⟩ := (mem_groups.mp hg).resolve_left fun hc => hcarried ⟨h, hh, hc⟩
      refine .inr ⟨rfl, rfl, ?_⟩
      intro hn
      rw [hostsOf_members hn]
      refine exists_congr fun h' => and_congr_right fun hh' => and_congr_left' ?_
      refine mem_groups.trans ((or_iff_right fun hc => hcarried ⟨h', hh', hc⟩).trans ?_)
      simp only [true_and]

theorem KeepsAll.namesApart (hkeeps : KeepsAll groupBy hosts (inventoryOf groupBy hosts)) :
    NamesApart groupBy hosts := by
  obtain ⟨vars, hvars, hperm⟩ := hkeeps.hostvars
  obtain ⟨rfl, hmeta⟩ := hostvars_mem_inventoryOf.mp hvars
  rw [hostvarsOf_eq, Grouping.assignAll_perm_iff, List.map_map] at hperm
  have hall : ∀ h ∈ hosts, "all" ∉ h.groups groupBy := by
    intro h hh hg
    obtain ⟨children, hentry, hchildren⟩ := hkeeps.all
    obtain rfl : children = (groupsOf groupBy hosts).map Prod.fst := by
      rcases mem_inventoryOf.mp hentry with heq | ⟨hne, -⟩
      · exact (InventoryValue.all.inj (Prod.mk.inj heq).2).2
      · exact absurd rfl hne
    obtain ⟨names, hmem⟩ := (hchildren "all").mp (mem_groupsOf_keys.mpr ⟨h, hh, hg⟩)
    exact (group_mem_inventoryOf.mp hmem).1 rfl
  refine ⟨hperm, fun h hh => ⟨hmeta h hh, hall h hh⟩, ?_⟩
  rintro rfl ⟨h₀, hh₀, hnil⟩ h hh htag
  -- the row without a tag is among those of the tag
  obtain ⟨names, hmem, hnames⟩ := hkeeps.carried "ungrouped" ⟨h, hh, htag⟩
  obtain ⟨rfl, -⟩ := mem_groupsOf_iff.mp (group_mem_inventoryOf.mp hmem).2
  have hin : h₀.hostname ∈ members "ungrouped" (groupPairs "tag" hosts) :=
    (hostsOf_members _).mpr ⟨h₀, hh₀, mem_groups.mpr (.inr ⟨rfl, rfl, hnil⟩), rfl⟩
  obtain ⟨h₁, hh₁, hcarries, hname⟩ := (hnames _).mp hin
  obtain rfl := List.inj_on_of_nodup_map hperm hh₁ hh₀ hname
  exact absurd (show "ungrouped" ∈ h₁.tags from hcarries) (by rw [hnil]; simp)

/-- The document keeps every row and every group exactly if their names do not meet. -/
theorem inventoryOf_keepsAll_iff (groupBy : String) (hosts : List HostEntry) :
    KeepsAll groupBy hosts (inventoryOf groupBy hosts) ↔ NamesApart groupBy hosts :=
  ⟨KeepsAll.namesApart, NamesApart.keepsAll⟩

end Document

/-! ## Names that meet -/

/-- Two rows of one name. -/
theorem inventoryOf_drops_row :
    ¬ ∀ (groupBy : String) (hosts : List HostEntry),
      KeepsAll groupBy hosts (inventoryOf groupBy hosts) := by
  intro h
  have hapart := (h "tag" [⟨"web", "", "Server", "f1", ["prod"]⟩,
    ⟨"web", "", "Server", "f2", ["test"]⟩]).namesApart
  exact absurd hapart.distinct (by decide)

end IronStock.Ansible

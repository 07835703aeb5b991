import IronStock.ScimPatchUsers
import Mathlib.Data.Set.Basic

/-!
# What a PATCH of a group means

`PatchGroup` of `scim_handlers.go` against RFC 7644, as for users: the meaning of
one operation on the name and the members, and the operations of which the
handler does what they mean.
-/
namespace IronStock

structure ScimGroupState where
  displayName : String
  members : Set Uuid

/-- What `dbFetchGroup` reads; Go's zero value without a row. -/
def scimGroupState (group : Uuid) (db : DB) : ScimGroupState where
  displayName := ((db.group? group).map Group.name).getD ""
  members := {u | db.isMember group u = true}

/-- The names of the other groups, and the accounts. -/
structure GroupContext where
  hasName : String → Bool
  hasUser : Uuid → Bool

def groupContext (group : Uuid) (db : DB) : GroupContext where
  hasName name := db.groups.any fun g => g.name = name ∧ g.id ≠ group
  hasUser u := (db.user? u).isSome

/-! ## The meaning of an operation -/

inductive GroupPath
  | displayName
  | members
  /-- the member with this id -/
  | member (value : String)
deriving DecidableEq

section
variable (svc : Service) (context : GroupContext)

/-- The id in `members[value eq "…"]`. -/
def memberFilter? (path : String) : Option String :=
  let opening := "members[value eq ".toList
  if opening.isPrefixOf (svc.toLower path).toList then
    match path.toList.drop opening.length with
    | '"' :: rest =>
      let value := rest.takeWhile (· ≠ '"')
      if rest = value ++ ['"', ']'] ∧ '\\' ∉ value then some (String.ofList value) else none
    | _ => none
  else none

/-- A path in any case, its attribute with or without its schema. -/
def GroupPath.ofPath (path : String) : Option GroupPath :=
  let lower := svc.toLower path
  let urn := "urn:ietf:params:scim:schemas:core:2.0:group:"
  if lower = "displayname" ∨ lower = urn ++ "displayname" then some .displayName
  else if lower = "members" ∨ lower = urn ++ "members" then some .members
  else (memberFilter? svc path).map .member

/-- The ids in a list of members, or in one of them. -/
def memberIDs (value : JsonValue) : Option (List String) :=
  match value with
  | .null => none
  | value =>
    match value.toMembers svc with
    | some ids => some ids
    | none => (value.toMember svc).map fun id => [id]

/-- The accounts with these ids. -/
def withIDs (ids : List String) : Set Uuid := {u | ∃ id ∈ ids, castUuid id = some u}

def GroupContext.Admits (name : String) : Prop :=
  name ≠ "" ∧ 2 ≤ name.length ∧ name.length ≤ 128 ∧ context.hasName name = false

instance (name : String) : Decidable (context.Admits name) :=
  inferInstanceAs (Decidable (_ ∧ _))

/-- Every id is the id of an account. -/
def GroupContext.Knows (ids : List String) : Prop :=
  ∀ id ∈ ids, (castUuid id).any context.hasUser = true

instance (ids : List String) : Decidable (context.Knows ids) :=
  List.decidableBAll (fun id => (castUuid id).any context.hasUser = true) ids

/-- `add` of a value to an attribute. -/
def addToGroup (t : ScimGroupState) : GroupPath → JsonValue → Option ScimGroupState
  | .displayName, .string name =>
    if context.Admits name then some { t with displayName := name } else none
  | .members, value =>
    (memberIDs svc value).bind fun ids =>
      if context.Knows ids then some { t with members := t.members ∪ withIDs ids } else none
  | _, _ => none

/-- `replace` of the value of an attribute; null is no member at all. -/
def replaceInGroup (t : ScimGroupState) : GroupPath → JsonValue → Option ScimGroupState
  | .members, .null => some { t with members := ∅ }
  | .members, value => addToGroup svc context { t with members := ∅ } .members value
  | path, value => addToGroup svc context t path value

/-- An object sets the attributes it names; each is to be named once. -/
def setGroupAttributes (set : ScimGroupState → GroupPath → JsonValue → Option ScimGroupState)
    (t : ScimGroupState) (fields : List (String × JsonValue)) : Option ScimGroupState :=
  match fields.mapM fun f => (GroupPath.ofPath svc f.1).map fun a => (a, f.2) with
  | none => none
  | some named =>
    if (named.map (·.1)).Nodup then named.foldlM (fun t a => set t a.1 a.2) t else none

def groupOpMeaning (t : ScimGroupState) (o : ScimOperation) : Option ScimGroupState :=
  let op := svc.toLower o.op
  let path := trimSpace o.path
  if op = "add" ∨ op = "replace" then
    let set := if op = "add" then addToGroup svc context else replaceInGroup svc context
    match o.value with
    | none => none
    | some value =>
      if path = "" then
        match value with
        | .object fields => setGroupAttributes svc set t fields
        | _ => none
      else (GroupPath.ofPath svc path).bind fun a => set t a value
  else if op = "remove" then
    match GroupPath.ofPath svc path, o.value with
    | some .members, none => some { t with members := ∅ }
    | some .members, some value =>
      (memberIDs svc value).map fun ids => { t with members := t.members \ withIDs ids }
    | some (.member value), none => some { t with members := t.members \ withIDs [value] }
    | _, _ => none
  else none

/-! ## The operations that are applied -/

/-- Members added as a list of known accounts or removed as a value, or a new
name, each under the bare name of the attribute. -/
def GroupOpApplied (o : ScimOperation) : Prop :=
  let op := svc.toLower o.op
  let path := svc.toLower (trimSpace o.path)
  op = "add" ∧ path = "members" ∧ (∃ elems ids, o.value = some (.array elems) ∧
      JsonValue.toMembers svc (.array elems) = some ids ∧ context.Knows ids) ∨
    op = "remove" ∧ path = "members" ∧
      (∃ value ids, o.value = some value ∧ memberIDs svc value = some ids) ∨
    op = "replace" ∧ path = "displayname" ∧
      ∃ name, o.value = some (.string name) ∧ context.Admits name

/-- What is left of the value of a filter without quotes, apostrophes and blanks
at its ends. -/
def bareValue (value : String) : String :=
  trimSpace (String.ofList (trimBoth ['"', '\''] value.toList))

/-- A removal by a filter that reaches the same member without them; else an
operation that is applied, or one that changes nothing. -/
def GroupOpHonoured (t : ScimGroupState) (o : ScimOperation) : Prop :=
  match memberFilter? svc (trimSpace o.path) with
  | some value => svc.toLower o.op = "remove" ∧ o.value = none ∧
      ∀ u ∈ t.members, castUuid (bareValue value) = some u ↔ castUuid value = some u
  | none => GroupOpApplied svc context o ∨ groupOpMeaning svc context t o = some t

end

/-! ## What the handler does to the attributes -/

/-- What `PatchGroup` makes of one operation. -/
def groupOpEffect (svc : Service) (context : GroupContext) (t : ScimGroupState)
    (o : ScimOperation) : ScimGroupState :=
  let op := svc.toLower o.op
  let path := svc.toLower (trimSpace o.path)
  if op = "add" ∧ "members".toList.isPrefixOf path.toList then
    let ids := (o.value.bind (JsonValue.toMembers svc)).getD []
    { t with members := t.members ∪ {u ∈ withIDs ids | context.hasUser u = true} }
  else if op = "remove" ∧ "members".toList.isPrefixOf path.toList then
    { t with members := t.members \ withIDs (removedMembers svc o) }
  else if op = "replace" ∧ path = "displayname" then
    match o.value.bind JsonValue.toText with
    | some name => if context.Admits name then { t with displayName := name } else t
    | none => t
  else t

theorem mem_withIDs_singleton {id : String} {u : Uuid} :
    u ∈ withIDs [id] ↔ castUuid id = some u := by
  simp [withIDs]

theorem withIDs_cons (id : String) (ids : List String) :
    withIDs (id :: ids) = withIDs [id] ∪ withIDs ids := by
  ext u
  simp [withIDs]

section
variable {db : DB} {group : Uuid}

/-- The groups and the accounts are what they were, the members are these. -/
structure MembersSet (group : Uuid) (db db' : DB) (members : Set Uuid) : Prop where
  groups : db'.groups = db.groups
  users : db'.users = db.users
  members : ∀ u, db'.isMember group u = true ↔ u ∈ members

theorem MembersSet.self (group : Uuid) (db : DB) :
    MembersSet group db db (scimGroupState group db).members := ⟨rfl, rfl, fun _ => Iff.rfl⟩

theorem MembersSet.trans {db' db'' : DB} {members members' : Set Uuid}
    (h : MembersSet group db db' members) (h' : MembersSet group db' db'' members') :
    MembersSet group db db'' members' :=
  ⟨h'.groups.trans h.groups, h'.users.trans h.users, h'.members⟩

theorem MembersSet.congr {db' : DB} {members members' : Set Uuid}
    (h : MembersSet group db db' members) (heq : members = members') :
    MembersSet group db db' members' := heq ▸ h

theorem insertMember_membersSet {db' : DB} {user : Uuid}
    (h : db.insertMember group user = .ok db') :
    (db.user? user).isSome = true ∧
      MembersSet group db db' ((scimGroupState group db).members ∪ {user}) := by
  unfold DB.insertMember at h
  split at h
  · cases h
  · next hkeys =>
    simp only [not_or, Option.isNone_iff_eq_none, ← Option.isSome_iff_ne_none] at hkeys
    cases h
    refine ⟨hkeys.2, rfl, rfl, fun u => ?_⟩
    rw [isMember_iff, Table.mem_insertOrIgnore, GroupMember.mk.injEq, ← isMember_iff]
    simp [scimGroupState, or_comm]

theorem addMember_membersSet (hgroup : (db.group? group).isSome = true) (id : String) :
    MembersSet group db (addMember group db id) ((scimGroupState group db).members ∪
      {u ∈ withIDs [id] | (groupContext group db).hasUser u = true}) := by
  have hself := MembersSet.self group db
  unfold addMember syncMember
  cases hid : castUuid id with
  | none => exact hself.congr (by simp [withIDs, hid])
  | some user =>
    simp only
    cases hinsert : db.insertMember group user with
    | error e =>
      have huser : (db.user? user).isSome = false := by
        unfold DB.insertMember at hinsert
        split at hinsert
        · next hkeys =>
          have hnone : (db.group? group).isNone ≠ true := fun hnone => by
            rw [Option.isNone_iff_eq_none] at hnone
            simp [hnone] at hgroup
          simpa using hkeys.resolve_left hnone
        · cases hinsert
      refine hself.congr (Set.union_eq_self_of_subset_right ?_).symm
      rintro u ⟨hu, hknown⟩
      rw [mem_withIDs_singleton, hid, Option.some.injEq] at hu
      rw [← hu] at hknown
      exact absurd hknown (by simp [groupContext, huser])
    | ok db' =>
      obtain ⟨huser, hset⟩ := insertMember_membersSet hinsert
      refine hset.congr (congrArg _ (Set.ext fun u => ?_))
      rw [Set.mem_singleton_iff, Set.mem_sep_iff, mem_withIDs_singleton, hid, Option.some.injEq]
      constructor
      · rintro rfl
        exact ⟨rfl, huser⟩
      · exact fun h => h.1.symm

theorem removeMember_membersSet (id : String) :
    MembersSet group db (removeMember group db id)
      ((scimGroupState group db).members \ withIDs [id]) := by
  have hself := MembersSet.self group db
  unfold removeMember syncMember
  cases hid : castUuid id with
  | none => exact hself.congr (by simp [withIDs, hid])
  | some user =>
    refine ⟨rfl, rfl, fun u => ?_⟩
    have hrows : (db.deleteMember group user).groupMembers =
        Table.deleteWhere (· = ⟨group, user⟩) db.groupMembers := rfl
    rw [Set.mem_sdiff, mem_withIDs_singleton, hid, isMember_iff, hrows, Table.mem_deleteWhere,
      ← isMember_iff, Option.some.injEq, eq_comm (a := user)]
    simp [scimGroupState]

theorem addMembers_membersSet (hgroup : (db.group? group).isSome = true) (ids : List String) :
    MembersSet group db (ids.foldl (addMember group) db) ((scimGroupState group db).members ∪
      {u ∈ withIDs ids | (groupContext group db).hasUser u = true}) := by
  induction ids generalizing db with
  | nil => exact (MembersSet.self group db).congr (by simp [withIDs])
  | cons id ids ih =>
    have hfirst := addMember_membersSet hgroup id
    have hgroup' : ((addMember group db id).group? group).isSome = true := by
      rwa [DB.group?, hfirst.groups]
    have hknown : (groupContext group (addMember group db id)).hasUser =
        (groupContext group db).hasUser := by
      funext u
      simp only [groupContext, DB.user?, hfirst.users]
    refine (hfirst.trans (ih hgroup')).congr ?_
    have hmembers : (scimGroupState group (addMember group db id)).members = _ :=
      Set.ext hfirst.members
    rw [hmembers, hknown, withIDs_cons id ids]
    ext u
    simp only [Set.mem_union, Set.mem_ofPred_eq, or_and_right, or_assoc]

theorem removeMembers_membersSet (ids : List String) :
    MembersSet group db (ids.foldl (removeMember group) db)
      ((scimGroupState group db).members \ withIDs ids) := by
  induction ids generalizing db with
  | nil => exact (MembersSet.self group db).congr (by simp [withIDs])
  | cons id ids ih =>
    have hfirst := @removeMember_membersSet db group id
    refine (hfirst.trans ih).congr ?_
    have hmembers : (scimGroupState group (removeMember group db id)).members = _ :=
      Set.ext hfirst.members
    rw [hmembers, withIDs_cons id ids, Set.sdiff_sdiff]

/-- The group is still there with these attributes, and the others are what they
were. -/
structure GroupPatchedTo (group : Uuid) (db db' : DB) (t : ScimGroupState) : Prop where
  kept : (db'.group? group).isSome = true
  context : groupContext group db' = groupContext group db
  state : scimGroupState group db' = t

theorem MembersSet.patchedTo {db' : DB} {members : Set Uuid}
    (hgroup : (db.group? group).isSome = true) (h : MembersSet group db db' members) :
    GroupPatchedTo group db db' { scimGroupState group db with members := members } where
  kept := by rwa [DB.group?, h.groups]
  context := by
    have huser (u : Uuid) : db'.user? u = db.user? u := by rw [DB.user?, DB.user?, h.users]
    rw [groupContext, groupContext, h.groups]
    simp only [huser]
  state := by
    have hname : db'.group? group = db.group? group := by rw [DB.group?, DB.group?, h.groups]
    rw [scimGroupState, scimGroupState, hname]
    exact congrArg _ (Set.ext h.members)

theorem GroupPatchedTo.self (hgroup : (db.group? group).isSome = true) :
    GroupPatchedTo group db db (scimGroupState group db) := ⟨hgroup, rfl, rfl⟩

theorem renameGroup_patchedTo (hgroup : (db.group? group).isSome = true) {name : String}
    (hne : name ≠ "") :
    GroupPatchedTo group db (renameGroup db group name)
      (if (groupContext group db).Admits name then
        { scimGroupState group db with displayName := name }
      else scimGroupState group db) := by
  have hfree : db.groups.all (fun g => g.name ≠ name ∨ g.id = group) = true ↔
      (groupContext group db).hasName name = false := by
    rw [groupContext, List.all_eq_true, List.any_eq_false]
    refine forall₂_congr fun g _ => ?_
    by_cases hname : g.name = name <;> simp [hname]
  unfold renameGroup
  by_cases hadmits : (groupContext group db).Admits name
  · obtain ⟨-, hmin, hmax, hunique⟩ := hadmits
    rw [if_pos ⟨hmin, hmax, hfree.2 hunique⟩, if_pos ⟨hne, hmin, hmax, hunique⟩]
    obtain ⟨row, hrow⟩ := Option.isSome_iff_exists.1 hgroup
    have hid : row.id = group := (Table.lookup_eq_some hrow).2
    let rename (g : Group) : Group := { g with name := name }
    let db' : DB := { db with groups := Table.updateWhere (·.id = group) rename db.groups }
    have hkey (g : Group) : (rename g).id = g.id := rfl
    have hrow' : db'.group? group = some (rename row) := by
      have hupdate : db'.group? group =
          (db.group? group).map fun r => if r.id = group then rename r else r :=
        (Table.lookup_updateWhere hkey group db.groups).trans (by simp [DB.group?])
      rw [hupdate, hrow, Option.map_some, if_pos hid]
    have hnames (n : String) : db'.groups.any (fun g => g.name = n ∧ g.id ≠ group) =
        db.groups.any fun g => g.name = n ∧ g.id ≠ group :=
      Table.any_updateWhere (fun g hg => by
        have hg : g.id = group := by simpa using hg
        simp [rename, hg]) db.groups
    refine ⟨by rw [hrow']; rfl, ?_, ?_⟩
    · rw [groupContext, groupContext, GroupContext.mk.injEq]
      exact ⟨funext hnames, rfl⟩
    · rw [scimGroupState, hrow']
      rfl
  · rw [if_neg hadmits, if_neg]
    · exact .self hgroup
    · rintro ⟨hmin, hmax, hall⟩
      exact hadmits ⟨hne, hmin, hmax, hfree.1 hall⟩

/-- One operation of the handler, on the attributes. -/
theorem patchGroupOp_patchedTo (svc : Service) (hgroup : (db.group? group).isSome = true)
    (o : ScimOperation) :
    GroupPatchedTo group db (patchGroupOp svc group db o)
      (groupOpEffect svc (groupContext group db) (scimGroupState group db) o) := by
  have hself := GroupPatchedTo.self hgroup
  simp only [patchGroupOp, groupOpEffect]
  split
  · exact (addMembers_membersSet hgroup _).patchedTo hgroup
  · split
    · exact (removeMembers_membersSet _).patchedTo hgroup
    · split
      · cases o.value.bind JsonValue.toText with
        | none => exact hself
        | some name =>
          simp only
          by_cases hne : name = ""
          · rw [if_pos hne, if_neg fun h => h.1 hne]
            exact hself
          · rw [if_neg hne]
            exact renameGroup_patchedTo hgroup hne
      · exact hself

end

/-! ## The id in a path -/

theorem trimSpace_quoted {mid after : List Char} (hafter : ∀ c ∈ after, isSpace c = true) :
    trimSpace (String.ofList ('"' :: (mid ++ ']' :: after))) =
      String.ofList ('"' :: (mid ++ [']'])) := by
  have hquote : isSpace '"' = false := by decide
  have hbracket : isSpace ']' = false := by decide
  rw [trimSpace, String.toList_ofList, List.dropWhile_cons_of_neg (by simp [hquote])]
  congr 1
  rw [List.reverse_cons, List.reverse_append, List.reverse_cons, List.append_assoc,
    List.append_assoc, List.dropWhile_append_of_pos (by simpa using hafter),
    List.singleton_append, List.dropWhile_cons_of_neg (by simp [hbracket])]
  simp

theorem trimRight_quoted (value : List Char) :
    trimRight [']', ' '] ('"' :: (value ++ ['"', ']'])) = '"' :: (value ++ ['"']) := by
  simp [trimRight]

theorem trimBoth_quoted (value : List Char) :
    trimBoth ['"', '\''] ('"' :: (value ++ ['"'])) = trimBoth ['"', '\''] value := by
  rw [trimBoth, trimBoth, List.dropWhile_cons_of_pos (by decide), List.dropWhile_append]
  split
  · next hempty =>
    rw [List.isEmpty_iff.1 hempty]
    decide
  · simp [trimRight]

theorem afterFirst_append {c : Char} {sep before text : List Char} (h : c ∉ before) :
    afterFirst (c :: sep) (before ++ text) = afterFirst (c :: sep) text := by
  induction before with
  | nil => rfl
  | cons d before ih =>
    rw [List.mem_cons, not_or] at h
    rw [List.cons_append, afterFirst, if_neg (by simp [List.isPrefixOf, h.1]), ih h.2]

theorem afterFirst_opening (text : List Char) :
    afterFirst "eq ".toList ("members[value eq ".toList ++ text) = some text := by
  simp [afterFirst]

theorem memberFilter?_eq_some {svc : Service} {path value : String}
    (h : memberFilter? svc path = some value) :
    (∃ rest, (svc.toLower path).toList = "members[value eq ".toList ++ rest) ∧
      path.toList.drop 17 = '"' :: (value.toList ++ ['"', ']']) := by
  have hlength : "members[value eq ".toList.length = 17 := by decide
  unfold memberFilter? at h
  simp only [hlength] at h
  split at h
  · next hopening =>
    obtain ⟨rest, hrest⟩ := List.isPrefixOf_iff_prefix.1 hopening
    refine ⟨⟨rest, hrest.symm⟩, ?_⟩
    split at h
    · next inner hdrop =>
      split at h
      · next hvalue =>
        cases h
        rw [String.toList_ofList, ← hvalue.1, hdrop]
      · cases h
    · cases h
  · cases h

/-- Of a path with a filter on the id, the id without what is trimmed off. -/
theorem scimExtractValueEq_of_filter {svc : Service} (hsvc : LowersWords svc)
    {path value : String} (h : memberFilter? svc (trimSpace path) = some value) :
    scimExtractValueEq svc path = bareValue value := by
  obtain ⟨lower, hlower, hspaces, htoLower⟩ := hsvc
  obtain ⟨⟨rest, hrest⟩, hdrop⟩ := memberFilter?_eq_some h
  obtain ⟨before, after, hsplit, hbefore, hafter⟩ := trimSpace_split path
  have hkept : before.map lower = before :=
    (List.map_congr_left fun c hc => hspaces c (hbefore c hc)).trans (List.map_id _)
  have htext : (svc.toLower path).toList =
      before ++ ("members[value eq ".toList ++ (rest ++ after.map lower)) := by
    rw [htoLower, hsplit, List.map_append, List.map_append, hkept, ← htoLower, hrest,
      List.append_assoc]
  have hfirst : afterFirst "eq ".toList (svc.toLower path).toList =
      some (rest ++ after.map lower) := by
    have hnot : 'e' ∉ before := fun hmem => absurd (hbefore 'e' hmem) (by decide)
    have hsep : "eq ".toList = 'e' :: ['q', ' '] := by decide
    rw [htext, hsep, afterFirst_append hnot, ← hsep, afterFirst_opening]
  have hlength : "members[value eq ".toList.length = 17 := by decide
  -- the lowered text has the length of the text, so its offset is right
  have hstart : (svc.toLower path).toList.length - (rest ++ after.map lower).length =
      before.length + 17 := by
    rw [htext, List.length_append, List.length_append, hlength]
    omega
  have hcore : 17 ≤ (trimSpace path).toList.length := by
    have hmap := congrArg List.length hrest
    rw [htoLower, List.length_map, List.length_append, hlength] at hmap
    omega
  have htail : path.toList.drop (before.length + 17) =
      '"' :: ((value.toList ++ ['"']) ++ ']' :: after) := by
    rw [hsplit, List.drop_append, List.drop_of_length_le (by omega), List.nil_append,
      Nat.add_sub_cancel_left, List.drop_append_of_le_length hcore, hdrop]
    simp
  rw [scimExtractValueEq, hfirst]
  simp only [hstart, htail]
  rw [trimSpace_quoted hafter, String.toList_ofList, List.append_assoc, List.singleton_append,
    trimRight_quoted, trimBoth_quoted, bareValue]

/-! ## An operation does what it means -/

section
variable {svc : Service} {context : GroupContext} {t : ScimGroupState} {path : String}

theorem ofPath_of_filter {value : String} (h : memberFilter? svc path = some value) :
    GroupPath.ofPath svc path = some (.member value) ∧
      "members".toList.isPrefixOf (svc.toLower path).toList = true ∧
      (afterFirst "value eq".toList (svc.toLower path).toList).isSome = true := by
  obtain ⟨⟨rest, hrest⟩, -⟩ := memberFilter?_eq_some h
  have hopening : "members[value eq ".toList = "members".toList ++ "[value eq ".toList := by decide
  have hne (other : String) (hother : "members[value eq ".toList.isPrefixOf other.toList = false) :
      svc.toLower path ≠ other := fun heq => by
    rw [heq] at hrest
    rw [hrest] at hother
    simp at hother
  refine ⟨?_, ?_, ?_⟩
  · unfold GroupPath.ofPath
    simp only
    rw [if_neg, if_neg, h, Option.map_some]
    · rintro (heq | heq)
      · exact hne _ (by decide) heq
      · exact hne _ (by decide) heq
    · rintro (heq | heq)
      · exact hne _ (by decide) heq
      · exact hne _ (by decide) heq
  · rw [hrest, hopening, List.append_assoc, List.isPrefixOf_iff_prefix]
    exact List.prefix_append _ _
  · rw [hrest]
    simp [afterFirst]

/-- Other paths that begin with the word have no meaning. -/
theorem ofPath_of_isPrefixOf (hfilter : memberFilter? svc path = none)
    (hmembers : "members".toList.isPrefixOf (svc.toLower path).toList = true)
    (hne : svc.toLower path ≠ "members") : GroupPath.ofPath svc path = none := by
  have hother (other : String) (h : "members".toList.isPrefixOf other.toList = false) :
      svc.toLower path ≠ other := fun heq => by
    rw [heq, h] at hmembers
    cases hmembers
  unfold GroupPath.ofPath
  simp only
  rw [if_neg, if_neg, hfilter, Option.map_none]
  · rintro (heq | heq)
    · exact hne heq
    · exact hother _ (by decide) heq
  · rintro (heq | heq)
    · exact hother _ (by decide) heq
    · exact hother _ (by decide) heq

theorem withIDs_nil : withIDs [] = ∅ := by
  ext u
  simp [withIDs]

theorem withIDs_empty_text : withIDs [""] = ∅ := by
  ext u
  simp [withIDs]

theorem sep_withIDs_of_knows {ids : List String} (h : context.Knows ids) :
    {u ∈ withIDs ids | context.hasUser u = true} = withIDs ids := by
  refine Set.sep_eq_self_iff_mem_true.2 ?_
  rintro u ⟨id, hid, hu⟩
  have hknown := h id hid
  rwa [hu] at hknown

/-! What each branch of the handler makes of a value, against its meaning. -/

theorem addMembers_eq_iff {value : JsonValue} :
    addToGroup svc context t .members value =
        some { t with members := t.members ∪
          {u ∈ withIDs ((value.toMembers svc).getD []) | context.hasUser u = true} } ↔
      (∃ elems ids, value = .array elems ∧
        JsonValue.toMembers svc (.array elems) = some ids ∧ context.Knows ids) ∨
        addToGroup svc context t .members value = some t := by
  cases value with
  | array elems =>
    cases hids : JsonValue.toMembers svc (.array elems) with
    | none => simp [addToGroup, memberIDs, hids, JsonValue.toMember]
    | some ids =>
      by_cases hknown : context.Knows ids
      · simp [addToGroup, memberIDs, hids, hknown, sep_withIDs_of_knows hknown]
      · simp [addToGroup, memberIDs, hids, hknown]
  | object fields => simp [JsonValue.toMembers, withIDs_nil]
  | _ => simp [addToGroup, memberIDs, JsonValue.toMembers, JsonValue.toMember]

theorem setDisplayName_eq_iff {value : JsonValue} :
    addToGroup svc context t .displayName value =
        some (match value.toText with
          | some name => if context.Admits name then { t with displayName := name } else t
          | none => t) ↔
      (∃ name, value = .string name ∧ context.Admits name) ∨
        addToGroup svc context t .displayName value = some t := by
  cases value with
  | string name => by_cases h : context.Admits name <;> simp [addToGroup, JsonValue.toText, h]
  | _ => simp [addToGroup]

theorem memberIDs_eq_some {value : JsonValue} {ids : List String}
    (h : memberIDs svc value = some ids) :
    value.toMembers svc = some ids ∨
      value.toMembers svc = none ∧ ∃ id, value.toMember svc = some id ∧ ids = [id] := by
  unfold memberIDs at h
  split at h
  · cases h
  · split at h
    · next hmembers =>
      cases h
      exact .inl hmembers
    · next hmembers =>
      obtain ⟨id, hid, rfl⟩ := Option.map_eq_some_iff.1 h
      exact .inr ⟨hmembers, id, hid, rfl⟩

theorem withIDs_removedMembers {o : ScimOperation} {value : JsonValue} {ids : List String}
    (hvalue : o.value = some value) (h : memberIDs svc value = some ids) :
    withIDs (removedMembers svc o) = withIDs ids := by
  unfold removedMembers
  obtain hmembers | ⟨hmembers, id, hid, rfl⟩ := memberIDs_eq_some h
  · simp only [hvalue, hmembers]
  · simp only [hvalue, hmembers, hid]
    by_cases hempty : id = ""
    · rw [hempty, withIDs_empty_text]
      exact withIDs_nil
    · split
      · next heq =>
        cases heq
        exact absurd rfl hempty
      · next heq =>
        cases heq
        rfl
      · next heq => cases heq

theorem withIDs_removedMembers_of_filter (hsvc : LowersWords svc) {o : ScimOperation}
    {value : String} (hvalue : o.value = none)
    (h : memberFilter? svc (trimSpace o.path) = some value) :
    withIDs (removedMembers svc o) = withIDs [bareValue value] := by
  unfold removedMembers
  simp only [hvalue, (ofPath_of_filter h).2.2, if_true, scimExtractValueEq_of_filter hsvc h]
  split
  · next hempty =>
    rw [hempty, withIDs_empty_text]
    exact withIDs_nil
  · rfl

theorem diff_eq_diff_iff {α : Type} {s a b : Set α} :
    s \ a = s \ b ↔ ∀ u ∈ s, u ∈ b ↔ u ∈ a := by
  constructor
  · intro h u hu
    have hmem : u ∈ s \ a ↔ u ∈ s \ b := by rw [h]
    simp only [Set.mem_sdiff, hu, true_and] at hmem
    exact (not_iff_not.1 hmem).symm
  · intro h
    ext u
    exact and_congr_right fun hu => not_congr (h u hu).symm

theorem groupOpMeaning_eq_effect_iff_of_filter (hsvc : LowersWords svc) {o : ScimOperation}
    {value : String} (hfilter : memberFilter? svc (trimSpace o.path) = some value) :
    groupOpMeaning svc context t o = some (groupOpEffect svc context t o) ↔
      svc.toLower o.op = "remove" ∧ o.value = none ∧
        ∀ u ∈ t.members, castUuid (bareValue value) = some u ↔ castUuid value = some u := by
  obtain ⟨hof, hmembers, -⟩ := ofPath_of_filter hfilter
  have hne : trimSpace o.path ≠ "" := fun hempty => by
    have hdrop := (memberFilter?_eq_some hfilter).2
    rw [hempty] at hdrop
    cases hdrop
  by_cases hop : svc.toLower o.op = "remove"
  · cases hvalue : o.value with
    | none =>
      have hremoved := withIDs_removedMembers_of_filter hsvc hvalue hfilter
      simp only [groupOpMeaning, groupOpEffect, hop, hof, hvalue, hmembers, hremoved]
      simp [diff_eq_diff_iff, mem_withIDs_singleton]
    | some v => simp [groupOpMeaning, hop, hof, hvalue]
  · have hnone : groupOpMeaning svc context t o = none := by
      cases hvalue : o.value with
      | none => simp [groupOpMeaning, hop, hvalue]
      | some v =>
        by_cases hadd : svc.toLower o.op = "add"
        · simp [groupOpMeaning, hvalue, hne, hof, hadd, addToGroup]
        · simp [groupOpMeaning, hop, hvalue, hne, hof, hadd, addToGroup, replaceInGroup]
    rw [hnone]
    exact iff_of_false (by simp) fun h => hop h.1

/-- What it takes for the handler to do what an operation means: the cases are
those of the handler. -/
theorem groupOpMeaning_eq_effect_iff (hsvc : LowersWords svc) {o : ScimOperation} :
    groupOpMeaning svc context t o = some (groupOpEffect svc context t o) ↔
      GroupOpHonoured svc context t o := by
  unfold GroupOpHonoured
  split
  · next value hfilter => exact groupOpMeaning_eq_effect_iff_of_filter hsvc hfilter
  · next hfilter =>
    have hlower : svc.toLower "" = "" := hsvc.toLower_eq (by decide)
    have hne (hpath : svc.toLower (trimSpace o.path) ≠ "") : trimSpace o.path ≠ "" :=
      fun hempty => hpath (by rw [hempty, hlower])
    by_cases hmembers : "members".toList.isPrefixOf (svc.toLower (trimSpace o.path)).toList = true
    · by_cases hpath : svc.toLower (trimSpace o.path) = "members"
      · have hof : GroupPath.ofPath svc (trimSpace o.path) = some .members := by
          simp [GroupPath.ofPath, hpath]
        have hne := hne (by simp [hpath])
        by_cases hadd : svc.toLower o.op = "add"
        · cases hvalue : o.value with
          | none => simp [groupOpMeaning, GroupOpApplied, hadd, hvalue]
          | some value =>
            simp only [groupOpMeaning, groupOpEffect, GroupOpApplied, hadd, hvalue, hne, hof, hpath]
            simpa using addMembers_eq_iff
        · by_cases hremove : svc.toLower o.op = "remove"
          · cases hvalue : o.value with
            | none =>
              have hfirst : afterFirst "value eq".toList "members".toList = none := by decide
              have hremoved : removedMembers svc o = [] := by
                rw [removedMembers, hvalue]
                simp only [hpath, hfirst, Option.isSome_none, Bool.false_eq_true, if_false]
              have heffect : groupOpEffect svc context t o = t := by
                rw [groupOpEffect]
                simp [hremove, hremoved, withIDs_nil]
              rw [heffect]
              simp [GroupOpApplied, hremove, hvalue]
            | some value =>
              cases hids : memberIDs svc value with
              | none => simp [groupOpMeaning, GroupOpApplied, hremove, hof, hvalue, hids]
              | some ids =>
                have hremoved := withIDs_removedMembers hvalue hids
                simp [groupOpMeaning, groupOpEffect, GroupOpApplied, hremove, hof, hvalue, hremoved,
                  hids, hpath]
          · simp [groupOpEffect, GroupOpApplied, hadd, hremove, hpath]
      · have hnone := ofPath_of_isPrefixOf hfilter hmembers hpath
        have hother (other : String) (h : "members".toList.isPrefixOf other.toList = false) :
            svc.toLower (trimSpace o.path) ≠ other := fun heq => by
          rw [heq, h] at hmembers
          cases hmembers
        have hempty := hne (hother "" (by decide))
        have hmeaning : groupOpMeaning svc context t o = none := by
          cases hvalue : o.value <;> simp [groupOpMeaning, hnone, hempty, hvalue]
        rw [hmeaning]
        simp [GroupOpApplied, hpath, hother "displayname" (by decide)]
    · have hpath : svc.toLower (trimSpace o.path) ≠ "members" := fun heq => by
        rw [heq] at hmembers
        exact hmembers (by decide)
      by_cases hname : svc.toLower o.op = "replace" ∧ svc.toLower (trimSpace o.path) = "displayname"
      · obtain ⟨hop, hname⟩ := hname
        have hof : GroupPath.ofPath svc (trimSpace o.path) = some .displayName := by
          simp [GroupPath.ofPath, hname]
        have hempty := hne (by simp [hname])
        cases hvalue : o.value with
        | none => simp [groupOpMeaning, GroupOpApplied, hop, hvalue]
        | some value =>
          simp only [groupOpMeaning, groupOpEffect, GroupOpApplied, hop, hvalue, hempty, hof, hname]
          simpa [replaceInGroup] using setDisplayName_eq_iff
      · have heffect : groupOpEffect svc context t o = t := by
          rw [groupOpEffect]
          simp only
          rw [if_neg fun h => hmembers h.2, if_neg fun h => hmembers h.2, if_neg hname]
        have happlied : ¬ GroupOpApplied svc context o := by
          rintro (⟨_, h, _⟩ | ⟨_, h, _⟩ | ⟨hop, h, _⟩)
          · exact hpath h
          · exact hpath h
          · exact hname ⟨hop, h⟩
        rw [heffect, or_iff_right happlied]

end

/-! ## The request -/

/-- What is stored after each initial part of the operations is the fold of their
meanings. -/
def GroupPatchFolds (svc : Service) (db : DB) (now : Time) (authz id : String)
    (operations : List ScimOperation) (group : Uuid) : Prop :=
  ∀ start, start <+: operations →
    start.foldlM (groupOpMeaning svc (groupContext group db)) (scimGroupState group db) =
      some (scimGroupState group (scimPatchGroup svc db now authz id start).1)

/-- Every operation is applied, or changes nothing. -/
def GroupPatchHonoured (svc : Service) (db : DB) (operations : List ScimOperation)
    (group : Uuid) : Prop :=
  PartialFold.EveryStep (groupOpMeaning svc (groupContext group db))
    (GroupOpHonoured svc (groupContext group db)) (scimGroupState group db) operations

section
variable {svc : Service} {db : DB} {now : Time} {authz id : String}
  {operations : List ScimOperation}

/-- What an accepted request does, whichever its operations. -/
theorem scimPatchGroup_of_accepted
    (h : (scimPatchGroup svc db now authz id operations).2 = .ok ()) :
    ∃ (group actor : Uuid) (db₁ : DB), castUuid id = some group ∧ db₁.users = db.users ∧
      db₁.groups = db.groups ∧ db₁.groupMembers = db.groupMembers ∧
      (db₁.group? group).isSome = true ∧ ∀ start, (scimPatchGroup svc db now authz id start).1 =
        (start.foldl (patchGroupOp svc group) db₁).audit
          ⟨actor.text, "scim.group_synced", "group", id⟩ := by
  cases htoken : requireSCIMToken svc db now authz with
  | mk db₁ reply =>
    obtain ⟨husers, hgroups, hmembers⟩ := requireSCIMToken_tables htoken
    cases reply with
    | error e => simp [scimPatchGroup, htoken] at h
    | ok actor =>
      cases hgroup : (castUuid id).bind db₁.group? with
      | none => simp [scimPatchGroup, htoken, hgroup] at h
      | some row =>
        obtain ⟨group, hid, hrow⟩ := Option.bind_eq_some_iff.1 hgroup
        have hkey : row.id = group := (Table.lookup_eq_some hrow).2
        refine ⟨group, actor, db₁, hid, husers, hgroups, hmembers,
          Option.isSome_iff_exists.2 ⟨row, hrow⟩, fun start => ?_⟩
        simp [scimPatchGroup, htoken, hgroup, hkey]

theorem scimPatchGroup_folds_iff (hsvc : LowersWords svc)
    (h : (scimPatchGroup svc db now authz id operations).2 = .ok ()) :
    ∃ group, castUuid id = some group ∧
      (GroupPatchFolds svc db now authz id operations group ↔
        GroupPatchHonoured svc db operations group) := by
  obtain ⟨group, actor, db₁, hid, husers, hgroups, hmembers, hgroup, hpatch⟩ :=
    scimPatchGroup_of_accepted h
  have hset : MembersSet group db db₁ (scimGroupState group db).members :=
    ⟨hgroups, husers, fun u => by rw [isMember_iff, hmembers, ← isMember_iff]; rfl⟩
  have hstart : GroupPatchedTo group db db₁ (scimGroupState group db) :=
    hset.patchedTo (by rwa [DB.group?, ← hgroups])
  have hstep (d : DB) (o : ScimOperation) (hd : (d.group? group).isSome = true ∧
      groupContext group d = groupContext group db) :
      GroupPatchedTo group d (patchGroupOp svc group d o)
        (groupOpEffect svc (groupContext group db) (scimGroupState group d) o) := by
    rw [← hd.2]
    exact patchGroupOp_patchedTo svc hd.1 o
  have hiff : PartialFold.Realizes (groupOpMeaning svc (groupContext group db))
      (patchGroupOp svc group) (scimGroupState group) db₁ operations ↔
      GroupPatchHonoured svc db operations group := by
    rw [GroupPatchHonoured, ← hstart.state]
    refine PartialFold.realizes_iff
      (I := fun d => (d.group? group).isSome = true ∧ groupContext group d = groupContext group db)
      ?_ ?_ ⟨hstart.kept, hstart.context⟩ operations
    · intro d o hd
      have hpatched := hstep d o hd
      exact ⟨hpatched.kept, hpatched.context.trans hd.2⟩
    · intro d o hd
      rw [(hstep d o hd).state]
      exact groupOpMeaning_eq_effect_iff hsvc
  refine ⟨group, hid, ?_⟩
  rw [← hiff, GroupPatchFolds]
  refine forall₂_congr fun start _ => ?_
  rw [hpatch, hstart.state]
  rfl

end

/-- Two accounts, the second in a group, and a token. -/
def patchStart : DB where
  users := [{ sampleUser 1 "alice" with status := .active },
    { sampleUser 2 "robert" with status := .active }]
  groups := [⟨Uuid.ofNat 3, "operators", none⟩]
  groupMembers := [⟨Uuid.ofNat 3, Uuid.ofNat 2⟩]
  apiTokens := [⟨Uuid.ofNat 4, Uuid.ofNat 1, "idp", (sampleService.sha256 (bytesOf "t")).bytes,
    .scim, none, none⟩]

theorem lowersWords_sampleService : LowersWords sampleService := by
  refine ⟨Char.toLower, fun _ _ => rfl, fun c hc => ?_, fun _ => String.toList_ofList⟩
  have hupper : ¬ (c.val ≥ 'A'.val ∧ c.val ≤ 'Z'.val) := fun h => by
    have hmin : 65 ≤ c.toNat := h.1
    have hmax : c.toNat ≤ 90 := h.2
    simp [isSpace] at hc
    omega
  exact dif_neg hupper

end IronStock

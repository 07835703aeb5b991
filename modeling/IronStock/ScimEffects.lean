import IronStock.Authority
import IronStock.ScimHandlers

/-!
# What SCIM requests do

No SCIM request writes a session, a second factor or a direct role: the revoking
UPDATE of a deprovisioning carries a reason that the schema does not know.
Requests on users write users, requests on groups write groups and members.
-/
namespace IronStock

/-! ## Sessions of a deprovisioned user -/

theorem ofText_scimDeprovisioned : RevokeReason.ofText "scim_deprovisioned" = none := rfl

/-- The statement fails or reaches no row. -/
theorem deprovisionSessions_eq (db : DB) (now : Time) (u : Uuid) :
    deprovisionSessions db now u = db := by
  unfold deprovisionSessions revokeSessionsText
  rw [ofText_scimDeprovisioned]
  simp only
  split
  · next db' h =>
    split at h <;> cases h
    rfl
  · rfl

/-! ## Requests on users -/

/-- Direct roles, sessions and second factors. -/
structure CredentialsKept (db db' : DB) : Prop where
  userRoles : db'.userRoles = db.userRoles
  sessions : db'.sessions = db.sessions
  totpSecrets : db'.totpSecrets = db.totpSecrets

theorem CredentialsKept.trans {db db' db'' : DB} (h : CredentialsKept db db')
    (h' : CredentialsKept db' db'') : CredentialsKept db db'' where
  userRoles := h'.userRoles.trans h.userRoles
  sessions := h'.sessions.trans h.sessions
  totpSecrets := h'.totpSecrets.trans h.totpSecrets

/-- The groups as well: what a write to `users` leaves alone. -/
structure UsersOnly (db db' : DB) : Prop extends CredentialsKept db db' where
  groups : db'.groups = db.groups
  groupMembers : db'.groupMembers = db.groupMembers

theorem UsersOnly.refl (db : DB) : UsersOnly db db := ⟨⟨rfl, rfl, rfl⟩, rfl, rfl⟩

theorem UsersOnly.trans {db db' db'' : DB} (h : UsersOnly db db') (h' : UsersOnly db' db'') :
    UsersOnly db db'' :=
  ⟨h.toCredentialsKept.trans h'.toCredentialsKept, h'.groups.trans h.groups,
    h'.groupMembers.trans h.groupMembers⟩

theorem UsersOnly.hasRole {db db' : DB} (h : UsersOnly db db') (u : Uuid) (role : Role) :
    db'.hasRole u role = db.hasRole u role := by
  unfold DB.hasRole DB.group?
  rw [h.userRoles, h.groups, h.groupMembers]

/-- The rows of a user get this status. -/
def setStatus (u : Uuid) (status : UserStatus) (ps : List (Uuid × UserStatus)) :
    List (Uuid × UserStatus) :=
  Table.updateWhere (·.1 = u) (fun p => (p.1, status)) ps

theorem withStatus_statuses (db : DB) (u : Uuid) (status : UserStatus) :
    (db.updateUser u (User.withStatus status)).statuses = setStatus u status db.statuses :=
  updateUser_statuses fun _ => rfl

/-- What an operation on a user sets its `active` to, if it does. -/
def ScimOperation.activeFlag (svc : Service) (o : ScimOperation) : Option Bool :=
  let path := svc.toLower (trimSpace o.path)
  if svc.toLower o.op ≠ "replace" then none
  else
    match o.value with
    | none => none
    | some value =>
      if path = "active" then value.toBool
      else if path = "" then
        (value.toFields.bind (JsonValue.field? · "active")).bind JsonValue.toBool
      else none

def statusOfActive (active : Bool) : UserStatus := if active then .active else .disabled

section UserOps

variable {svc : Service} {db : DB} {now : Time} {u actor : Uuid} {id : String}

theorem applyActiveOp_users (raw : JsonValue) :
    UsersOnly db (applyActiveOp db now u actor id raw) ∧
      (applyActiveOp db now u actor id raw).statuses =
        match raw.toBool with
        | none => db.statuses
        | some b => setStatus u (statusOfActive b) db.statuses := by
  unfold applyActiveOp
  cases raw.toBool with
  | none => exact ⟨.refl db, rfl⟩
  | some b =>
    cases b with
    | true => exact ⟨⟨⟨rfl, rfl, rfl⟩, rfl, rfl⟩, withStatus_statuses db u .active⟩
    | false =>
      simp only [deprovisionSessions_eq]
      exact ⟨⟨⟨rfl, rfl, rfl⟩, rfl, rfl⟩, withStatus_statuses db u .disabled⟩

theorem renameUser_users (username : String) :
    UsersOnly db (renameUser db u username) ∧
      (renameUser db u username).statuses = db.statuses := by
  unfold renameUser
  split
  · exact ⟨⟨⟨rfl, rfl, rfl⟩, rfl, rfl⟩, updateUser_statuses_eq fun _ => ⟨rfl, rfl⟩⟩
  · exact ⟨.refl db, rfl⟩

theorem setExternalID_users (extID : String) :
    UsersOnly db (setExternalID db u extID) ∧
      (setExternalID db u extID).statuses = db.statuses := by
  unfold setExternalID
  split
  · exact ⟨⟨⟨rfl, rfl, rfl⟩, rfl, rfl⟩, updateUser_statuses_eq fun _ => ⟨rfl, rfl⟩⟩
  · exact ⟨.refl db, rfl⟩

/-- Writes of statuses, in order. -/
def writeStatuses (ws ps : List (Uuid × UserStatus)) : List (Uuid × UserStatus) :=
  ws.foldl (fun ps w => setStatus w.1 w.2 ps) ps

@[simp] theorem writeStatuses_nil (ps : List (Uuid × UserStatus)) : writeStatuses [] ps = ps := rfl
@[simp] theorem writeStatuses_cons (w : Uuid × UserStatus) (ws ps : List (Uuid × UserStatus)) :
    writeStatuses (w :: ws) ps = writeStatuses ws (setStatus w.1 w.2 ps) := rfl

/-- The statuses that operations on a user write. -/
def activeWrites (svc : Service) (u : Uuid) (operations : List ScimOperation) :
    List (Uuid × UserStatus) :=
  (operations.filterMap (·.activeFlag svc)).map fun b => (u, statusOfActive b)

theorem patchUserOp_users (o : ScimOperation) :
    UsersOnly db (patchUserOp svc now u actor id db o) ∧
      (patchUserOp svc now u actor id db o).statuses =
        match o.activeFlag svc with
        | none => db.statuses
        | some b => setStatus u (statusOfActive b) db.statuses := by
  unfold patchUserOp ScimOperation.activeFlag
  simp only
  split
  · exact ⟨.refl db, rfl⟩
  · cases o.value with
    | none => exact ⟨.refl db, rfl⟩
    | some value =>
      simp only
      split
      · exact applyActiveOp_users value
      · split
        · next hname =>
          have hflag : ¬ svc.toLower (trimSpace o.path) = "" := by
            rw [hname]
            decide
          rw [if_neg hflag]
          split
          · split
            · exact ⟨.refl db, rfl⟩
            · exact renameUser_users _
          · exact ⟨.refl db, rfl⟩
        · split
          · next hext =>
            have hflag : ¬ svc.toLower (trimSpace o.path) = "" := by
              rw [hext]
              decide
            rw [if_neg hflag]
            split
            · exact setExternalID_users _
            · exact ⟨.refl db, rfl⟩
          · split
            · cases value.toFields with
              | none => exact ⟨.refl db, rfl⟩
              | some fields =>
                simp only [Option.bind_some]
                cases JsonValue.field? fields "active" with
                | none => exact ⟨.refl db, rfl⟩
                | some raw => exact applyActiveOp_users raw
            · exact ⟨.refl db, rfl⟩

theorem patchUserOps_users (operations : List ScimOperation) :
    UsersOnly db (operations.foldl (patchUserOp svc now u actor id) db) ∧
      (operations.foldl (patchUserOp svc now u actor id) db).statuses =
        writeStatuses (activeWrites svc u operations) db.statuses := by
  induction operations generalizing db with
  | nil => exact ⟨.refl db, rfl⟩
  | cons o rest ih =>
    obtain ⟨hkept, hstatuses⟩ := @patchUserOp_users svc db now u actor id o
    obtain ⟨hrest, hfold⟩ := @ih (patchUserOp svc now u actor id db o)
    refine ⟨hkept.trans hrest, ?_⟩
    rw [List.foldl_cons, hfold, hstatuses, activeWrites, activeWrites, List.filterMap_cons]
    cases o.activeFlag svc <;> rfl

end UserOps

/-! ## Requests on groups -/

/-- What a write to `groups` or `group_members` leaves alone. -/
structure GroupsOnly (db db' : DB) : Prop extends CredentialsKept db db' where
  users : db'.users = db.users

theorem GroupsOnly.refl (db : DB) : GroupsOnly db db := ⟨⟨rfl, rfl, rfl⟩, rfl⟩

theorem GroupsOnly.trans {db db' db'' : DB} (h : GroupsOnly db db') (h' : GroupsOnly db' db'') :
    GroupsOnly db db'' :=
  ⟨h.toCredentialsKept.trans h'.toCredentialsKept, h'.users.trans h.users⟩

theorem GroupsOnly.foldl {α : Type} {f : DB → α → DB} (hf : ∀ d a, GroupsOnly d (f d a))
    (db : DB) (as : List α) : GroupsOnly db (as.foldl f db) := by
  induction as generalizing db with
  | nil => exact .refl db
  | cons a as ih => exact (hf db a).trans (ih (f db a))

section GroupOps

variable {svc : Service} {db db' : DB} {now : Time}

theorem insertMember_groups {group user : Uuid} (h : db.insertMember group user = .ok db') :
    GroupsOnly db db' := by
  unfold DB.insertMember at h
  split at h
  · cases h
  · cases h
    exact ⟨⟨rfl, rfl, rfl⟩, rfl⟩

theorem addMember_groups (group : Uuid) (db : DB) (userID : String) :
    GroupsOnly db (addMember group db userID) := by
  unfold addMember syncMember
  split
  · exact .refl db
  · split
    · next h => exact insertMember_groups h
    · exact .refl db

theorem removeMember_groups (group : Uuid) (db : DB) (userID : String) :
    GroupsOnly db (removeMember group db userID) := by
  unfold removeMember syncMember
  split
  · exact .refl db
  · exact ⟨⟨rfl, rfl, rfl⟩, rfl⟩

theorem renameGroup_groups (group : Uuid) (db : DB) (name : String) :
    GroupsOnly db (renameGroup db group name) := by
  unfold renameGroup
  split
  · exact ⟨⟨rfl, rfl, rfl⟩, rfl⟩
  · exact .refl db

theorem patchGroupOp_groups (group : Uuid) (db : DB) (o : ScimOperation) :
    GroupsOnly db (patchGroupOp svc group db o) := by
  unfold patchGroupOp
  simp only
  split
  · exact .foldl (addMember_groups group) db _
  · split
    · exact .foldl (removeMember_groups group) db _
    · split
      · split
        · split
          · exact .refl db
          · exact renameGroup_groups group db _
        · exact .refl db
      · exact .refl db

theorem insertGroup_eq_ok {id createdBy : Uuid} {name : String}
    (h : insertGroup db id name createdBy = .ok db') :
    db.group? id = none ∧ db' = { db with groups := db.groups ++ [⟨id, name, none⟩] } := by
  unfold insertGroup at h
  split at h
  · cases h
  · split at h
    · cases h
    · next hfresh =>
      split at h
      · cases h
      · cases h
        exact ⟨by simpa using hfresh, rfl⟩

end GroupOps

/-! ## Whole requests -/

section Requests

variable {svc : Service} {db : DB} {now : Time} {authz : String}

/-- Presenting a token writes its `last_used_at` only. -/
theorem requireSCIMToken_kept (svc : Service) (db : DB) (now : Time) (authz : String) :
    ∃ apiTokens, (requireSCIMToken svc db now authz).1 = { db with apiTokens := apiTokens } := by
  unfold requireSCIMToken
  repeat' split
  all_goals exact ⟨_, rfl⟩

theorem GroupsOnly.statuses {db db' : DB} (h : GroupsOnly db db') : db'.statuses = db.statuses := by
  rw [DB.statuses, DB.statuses, h.users]

/-- The statuses a SCIM request writes to users that exist. -/
def ScimOp.statusWrites (svc : Service) (db : DB) : ScimOp → List (Uuid × UserStatus)
  | patchUser id operations =>
    match (castUuid id).bind db.user? with
    | none => []
    | some user => activeWrites svc user.id operations
  | deleteUser id =>
    match (castUuid id).bind db.user? with
    | none => []
    | some user => [(user.id, .disabled)]
  | _ => []

/-- The same with its token checked. -/
def scimStatusWrites (svc : Service) (db : DB) (now : Time) (authz : String) (op : ScimOp) :
    List (Uuid × UserStatus) :=
  match (requireSCIMToken svc db now authz).2 with
  | .error _ => []
  | .ok _ => op.statusWrites svc db

/-- What a request did to accounts: nothing to credentials, its writes to the
statuses, and at most one user that was not there. -/
structure ScimEffect (db db' : DB) (writes : List (Uuid × UserStatus)) : Prop where
  credentials : CredentialsKept db db'
  statuses : ∃ created : List (Uuid × UserStatus),
    db'.statuses = writeStatuses writes db.statuses ++ created ∧
      ∀ p ∈ created, ∀ q ∈ db.statuses, q.1 ≠ p.1

theorem ScimEffect.of_statuses {db db' : DB} {writes : List (Uuid × UserStatus)}
    (hc : CredentialsKept db db') (h : db'.statuses = writeStatuses writes db.statuses) :
    ScimEffect db db' writes :=
  ⟨hc, [], by simpa using h, by simp⟩

section Accepted

variable {svc : Service} {db : DB} {now : Time} {authz : String} {apiTokens : List ApiToken}
  {actor : Uuid}
  (hr : requireSCIMToken svc db now authz = ({ db with apiTokens := apiTokens }, .ok actor))

include hr

theorem scimCreateUser_effect (req : ScimCreateUserRequest) (newID : Uuid) :
    ScimEffect db (scimCreateUser svc db now authz req newID).1 [] := by
  simp only [scimCreateUser, hr]
  split
  · exact .of_statuses ⟨rfl, rfl, rfl⟩ rfl
  · split
    · exact .of_statuses ⟨rfl, rfl, rfl⟩ rfl
    · cases hinsert : insertUser { db with apiTokens := apiTokens } (req.user svc newID) with
      | error e => exact .of_statuses ⟨rfl, rfl, rfl⟩ rfl
      | ok db₂ =>
        obtain ⟨hfresh, rfl⟩ := insertUser_eq_ok hinsert
        refine ⟨⟨rfl, rfl, rfl⟩, [(newID, (req.user svc newID).status)], ?_, ?_⟩
        · exact List.map_append
        · intro p hp q hq
          obtain rfl := List.mem_singleton.mp hp
          obtain ⟨user, huser, rfl⟩ := List.mem_map.mp hq
          exact hfresh user huser

theorem scimPatchUser_effect (id : String) (operations : List ScimOperation) :
    ScimEffect db (scimPatchUser svc db now authz id operations).1
      ((ScimOp.patchUser id operations).statusWrites svc db) := by
  simp only [scimPatchUser, hr, ScimOp.statusWrites]
  cases hid : castUuid id with
  | none => exact .of_statuses ⟨rfl, rfl, rfl⟩ rfl
  | some u =>
    simp only [Option.bind_some]
    cases huser : db.user? u with
    | none =>
      have huser' : DB.user? { db with apiTokens := apiTokens } u = none := huser
      simp only [huser', Option.isNone_none, if_true]
      exact .of_statuses ⟨rfl, rfl, rfl⟩ rfl
    | some user =>
      have huser' : DB.user? { db with apiTokens := apiTokens } u = some user := huser
      simp only [huser', Option.isNone_some, Bool.false_eq_true, if_false]
      obtain ⟨hkept, hstatuses⟩ := @patchUserOps_users svc { db with apiTokens := apiTokens } now
        u actor id operations
      rw [(Table.lookup_eq_some huser).2]
      exact .of_statuses ⟨hkept.userRoles, hkept.sessions, hkept.totpSecrets⟩ hstatuses

theorem scimDeleteUser_effect (id : String) :
    ScimEffect db (scimDeleteUser svc db now authz id).1
      ((ScimOp.deleteUser id).statusWrites svc db) := by
  simp only [scimDeleteUser, hr, ScimOp.statusWrites]
  cases huser : (castUuid id).bind db.user? with
  | none =>
    have huser' : (castUuid id).bind (DB.user? { db with apiTokens := apiTokens }) = none := huser
    simp only [huser']
    exact .of_statuses ⟨rfl, rfl, rfl⟩ rfl
  | some user =>
    have huser' : (castUuid id).bind (DB.user? { db with apiTokens := apiTokens }) =
        some user := huser
    simp only [huser', deprovisionSessions_eq]
    exact .of_statuses ⟨rfl, rfl, rfl⟩ (withStatus_statuses _ user.id .disabled)

theorem scimCreateGroup_effect (displayName : String) (members : List String) (newID : Uuid) :
    ScimEffect db (scimCreateGroup svc db now authz displayName members newID).1 [] := by
  simp only [scimCreateGroup, hr]
  split
  · exact .of_statuses ⟨rfl, rfl, rfl⟩ rfl
  · cases hinsert : insertGroup { db with apiTokens := apiTokens } newID displayName actor with
    | error e =>
      simp only
      split <;> exact .of_statuses ⟨rfl, rfl, rfl⟩ rfl
    | ok db₂ =>
      obtain ⟨_, rfl⟩ := insertGroup_eq_ok hinsert
      have hmembers := GroupsOnly.foldl (addMember_groups newID)
        { db with apiTokens := apiTokens, groups := db.groups ++ [⟨newID, displayName, none⟩] }
        members
      exact .of_statuses ⟨hmembers.userRoles, hmembers.sessions, hmembers.totpSecrets⟩
        hmembers.statuses

theorem scimPatchGroup_effect (id : String) (operations : List ScimOperation) :
    ScimEffect db (scimPatchGroup svc db now authz id operations).1 [] := by
  simp only [scimPatchGroup, hr]
  split
  · exact .of_statuses ⟨rfl, rfl, rfl⟩ rfl
  · next group _ =>
    have hops := GroupsOnly.foldl (@patchGroupOp_groups svc group.id)
      { db with apiTokens := apiTokens } operations
    exact .of_statuses ⟨hops.userRoles, hops.sessions, hops.totpSecrets⟩ hops.statuses

end Accepted

theorem scimRequest_effect (svc : Service) (db : DB) (now : Time) (authz : String) (op : ScimOp) :
    ScimEffect db (scimRequest svc db now authz op).1 (scimStatusWrites svc db now authz op) := by
  obtain ⟨apiTokens, hauth⟩ := requireSCIMToken_kept svc db now authz
  unfold scimStatusWrites
  generalize hr : requireSCIMToken svc db now authz = r
  obtain ⟨db₁, result⟩ := r
  rw [hr] at hauth
  obtain rfl : db₁ = { db with apiTokens := apiTokens } := hauth
  cases result with
  | error e =>
    have hsame : (scimRequest svc db now authz op).1 = { db with apiTokens := apiTokens } := by
      cases op <;> simp only [scimRequest, scimCreateUser, scimPatchUser, scimDeleteUser,
        scimCreateGroup, scimPatchGroup, hr]
    rw [hsame]
    exact .of_statuses ⟨rfl, rfl, rfl⟩ rfl
  | ok actor =>
    cases op with
    | createUser req newID => exact scimCreateUser_effect hr req newID
    | patchUser id operations => exact scimPatchUser_effect hr id operations
    | deleteUser id => exact scimDeleteUser_effect hr id
    | createGroup displayName members newID =>
      exact scimCreateGroup_effect hr displayName members newID
    | patchGroup id operations => exact scimPatchGroup_effect hr id operations

end Requests

end IronStock

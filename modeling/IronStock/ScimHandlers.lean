import IronStock.AdminUsers

/-!
# SCIM provisioning

`scim_handlers.go`: users and groups written by whoever holds an API token of
scope `scim`. The loops over patch operations pass over every failed statement.
-/
namespace IronStock

/-! ## JSON values -/

/-- A JSON value as `json.RawMessage` carries it. -/
inductive JsonValue
  | null
  | bool (b : Bool)
  | number (text : String)
  | string (s : String)
  | array (elems : List JsonValue)
  | object (fields : List (String × JsonValue))

namespace JsonValue

/-- `json.Unmarshal` into a `bool`: null leaves it false. -/
def toBool : JsonValue → Option Bool
  | null => some false
  | bool b => some b
  | _ => none

/-- `json.Unmarshal` into a `string`: null leaves it empty. -/
def toText : JsonValue → Option String
  | null => some ""
  | string s => some s
  | _ => none

/-- `json.Unmarshal` into a `map[string]json.RawMessage`. -/
def toFields : JsonValue → Option (List (String × JsonValue))
  | null => some []
  | object fields => some fields
  | _ => none

/-- The value of a key; the last of several counts. -/
def field? (fields : List (String × JsonValue)) (key : String) : Option JsonValue :=
  (fields.reverse.find? (·.1 = key)).map (·.2)

/-- The texts of the keys that a struct field takes: names match without regard
to case, and null leaves a text alone. Nothing if one is not a text. -/
def textsOf (svc : Service) (fields : List (String × JsonValue)) (key : String) :
    Option (List String) :=
  (fields.filter fun f => svc.toLower f.1 = key).foldr
    (fun f texts =>
      match f.2, texts with
      | null, some ts => some ts
      | string s, some ts => some (s :: ts)
      | _, _ => none) (some [])

/-- `json.Unmarshal` into a `scimGroupMember`: its `value`. -/
def toMember (svc : Service) : JsonValue → Option String
  | null => some ""
  | object fields =>
    match textsOf svc fields "value", textsOf svc fields "display" with
    | some values, some _ => some (values.getLast?.getD "")
    | _, _ => none
  | _ => none

/-- `json.Unmarshal` into a `[]scimGroupMember`. -/
def toMembers (svc : Service) : JsonValue → Option (List String)
  | null => some []
  | array elems => elems.mapM (toMember svc)
  | _ => none

end JsonValue

/-! ## Token -/

structure ScimError where
  status : Nat
  scimType : String
  detail : String
deriving DecidableEq, Repr

def ScimError.userNotFound : ScimError := ⟨404, "notFound", "User not found"⟩
def ScimError.groupNotFound : ScimError := ⟨404, "notFound", "Group not found"⟩

/-- `requireSCIMToken`: hash, scope and expiry, nothing about the user. -/
def requireSCIMToken (svc : Service) (db : DB) (now : Time) (authz : String) :
    DB × Except ScimError Uuid :=
  match cutBearer authz with
  | none => (db, .error ⟨401, "unauthorized", "Missing Bearer token"⟩)
  | some rawToken =>
    if rawToken = "" then (db, .error ⟨401, "unauthorized", "Empty Bearer token"⟩)
    else
      match findApiToken svc db rawToken with
      | none => (db, .error ⟨401, "unauthorized", "Invalid API token"⟩)
      | some t =>
        if t.scope ≠ .scim then
          (db, .error ⟨403, "forbidden", "Token scope not permitted for SCIM"⟩)
        else if t.isExpired now then (db, .error ⟨401, "unauthorized", "API token expired"⟩)
        else (db.touchApiToken now t, .ok t.userId)

/-! ## Users -/

/-- `UPDATE sessions SET revoked_at = now(), revoke_reason = reason WHERE
user_id = … AND revoked_at IS NULL`, the reason a text: the CHECK fails the
statement if it reaches a row and the reason is not one of the list. -/
def revokeSessionsText (db : DB) (now : Time) (userID : Uuid) (reason : String) :
    Except PgError DB :=
  match RevokeReason.ofText reason with
  | some r => .ok (revokeAllUserSessions db now userID r)
  | none =>
    if db.sessions.any (fun s => s.userId = userID ∧ s.isOpen = true) then .error .checkViolation
    else .ok db

/-- The statement's error is not looked at. -/
def deprovisionSessions (db : DB) (now : Time) (userID : Uuid) : DB :=
  match revokeSessionsText db now userID "scim_deprovisioned" with
  | .ok db => db
  | .error _ => db

/-- `applyActiveOp`; `id` is the text of the path, `userID` its value. -/
def applyActiveOp (db : DB) (now : Time) (userID actorID : Uuid) (id : String) (raw : JsonValue) :
    DB :=
  match raw.toBool with
  | none => db
  | some true => db.updateUser userID (User.withStatus .active)
  | some false =>
    (deprovisionSessions (db.updateUser userID (User.withStatus .disabled)) now userID).audit
      ⟨actorID.text, "scim.user_deprovisioned", "user", id⟩

structure ScimOperation where
  op : String
  path : String
  value : Option JsonValue

/-- `UPDATE users SET username = …`, if the unique key and the length CHECK let
it through. -/
def renameUser (db : DB) (userID : Uuid) (username : String) : DB :=
  if 3 ≤ username.length ∧ username.length ≤ 64 ∧
      db.users.all (fun u => u.username ≠ username ∨ u.id = userID) then
    db.updateUser userID fun u => { u with username := username }
  else db

/-- `UPDATE users SET scim_external_id = …`, if the unique index lets it
through. -/
def setExternalID (db : DB) (userID : Uuid) (extID : String) : DB :=
  if db.users.all (fun u => u.scimExternalID ≠ some extID ∨ u.id = userID) then
    db.updateUser userID fun u => { u with scimExternalID := some extID }
  else db

/-- One operation of `PatchUser`. -/
def patchUserOp (svc : Service) (now : Time) (userID actorID : Uuid) (id : String) (db : DB)
    (o : ScimOperation) : DB :=
  let path := svc.toLower (trimSpace o.path)
  if svc.toLower o.op ≠ "replace" then db
  else
    match o.value with
    | none => db
    | some value =>
      if path = "active" then applyActiveOp db now userID actorID id value
      else if path = "username" then
        match value.toText with
        | some name => if name = "" then db else renameUser db userID (svc.toLower name)
        | none => db
      else if path = "externalid" then
        match value.toText with
        | some extID => setExternalID db userID extID
        | none => db
      else if path = "" then
        match value.toFields with
        | some fields =>
          match JsonValue.field? fields "active" with
          | some raw => applyActiveOp db now userID actorID id raw
          | none => db
        | none => db
      else db

/-- `PatchUser`. -/
def scimPatchUser (svc : Service) (db : DB) (now : Time) (authz id : String)
    (operations : List ScimOperation) : DB × Except ScimError Unit :=
  match requireSCIMToken svc db now authz with
  | (db, .error e) => (db, .error e)
  | (db, .ok actorID) =>
    match castUuid id with
    | none => (db, .error ⟨500, "internalError", "DB error"⟩)
    | some userID =>
      if (db.user? userID).isNone then (db, .error .userNotFound)
      else
        ((operations.foldl (patchUserOp svc now userID actorID id) db).audit
          ⟨actorID.text, "scim.user_updated", "user", id⟩, .ok ())

/-- `DeleteUser`: a malformed id is answered like an unknown one. -/
def scimDeleteUser (svc : Service) (db : DB) (now : Time) (authz id : String) :
    DB × Except ScimError Unit :=
  match requireSCIMToken svc db now authz with
  | (db, .error e) => (db, .error e)
  | (db, .ok actorID) =>
    match (castUuid id).bind db.user? with
    | none => (db, .error .userNotFound)
    | some user =>
      ((deprovisionSessions (db.updateUser user.id (User.withStatus .disabled)) now user.id).audit
        ⟨actorID.text, "scim.user_deprovisioned", "user", id⟩, .ok ())

structure ScimCreateUserRequest where
  userName : String
  externalID : String
  active : Option Bool
  /-- values and their `primary` flags -/
  emails : List (String × Bool)

/-- The last primary address, else the first one, else the user name. -/
def ScimCreateUserRequest.email (req : ScimCreateUserRequest) : String :=
  let email := req.emails.foldl (fun email e => if e.2 = true ∨ email = "" then e.1 else email) ""
  if email = "" then req.userName else email

/-- The INSERT of a user with the id the default drew. -/
def insertUser (db : DB) (u : User) : Except PgError DB :=
  if u.username.length < 3 ∨ 64 < u.username.length ∨ u.email.length < 3 ∨ 255 < u.email.length then
    .error .checkViolation
  else if db.users.any (fun r => r.id = u.id ∨ r.username = u.username ∨ r.email = u.email ∨
      (u.scimExternalID.isSome = true ∧ r.scimExternalID = u.scimExternalID)) then
    .error .uniqueViolation
  else .ok { db with users := db.users ++ [u] }

theorem insertUser_eq_ok {db db' : DB} {user : User} (h : insertUser db user = .ok db') :
    (∀ r ∈ db.users, r.id ≠ user.id) ∧ db' = { db with users := db.users ++ [user] } := by
  unfold insertUser at h
  split at h
  · cases h
  · split at h
    · cases h
    · next hfresh =>
      cases h
      refine ⟨fun r hr hid => hfresh ?_, rfl⟩
      rw [List.any_eq_true]
      exact ⟨r, hr, by simp [hid]⟩

/-- `argon2_params` of an account without a password. -/
def scimLockedParams := "\x7b\"m\":65536,\"p\":4,\"scim_locked\":true,\"t\":3,\"v\":1\x7d"

/-- The row of a provisioned user: no password opens it. -/
def ScimCreateUserRequest.user (svc : Service) (req : ScimCreateUserRequest) (id : Uuid) :
    User where
  id := id
  username := svc.toLower req.userName
  email := svc.toLower req.email
  passwordHash := List.replicate 32 0
  argon2Params := scimLockedParams
  status := if req.active.getD true then .active else .disabled
  scimExternalID := if req.externalID = "" then none else some req.externalID

/-- `CreateUser`. -/
def scimCreateUser (svc : Service) (db : DB) (now : Time) (authz : String)
    (req : ScimCreateUserRequest) (newID : Uuid) : DB × Except ScimError Unit :=
  match requireSCIMToken svc db now authz with
  | (db, .error e) => (db, .error e)
  | (db, .ok actorID) =>
    if req.userName = "" then (db, .error ⟨400, "invalidValue", "userName is required"⟩)
    else
      let user := req.user svc newID
      if db.users.any (fun r => r.username = user.username ∨ r.email = user.email) then
        (db, .error ⟨409, "uniqueness", "Username or email already exists"⟩)
      else
        match insertUser db user with
        | .error _ => (db, .error ⟨500, "internalError", "Failed to create user"⟩)
        | .ok db =>
          (db.audit ⟨actorID.text, "scim.user_provisioned", "user", newID.text⟩, .ok ())

/-! ## Groups -/

/-- A member statement whose error is not looked at. -/
def syncMember (statement : DB → Uuid → Except PgError DB) (db : DB) (userID : String) : DB :=
  match castUuid userID with
  | none => db
  | some user =>
    match statement db user with
    | .ok db => db
    | .error _ => db

def addMember (group : Uuid) : DB → String → DB :=
  syncMember fun db user => db.insertMember group user
def removeMember (group : Uuid) : DB → String → DB :=
  syncMember fun db user => .ok (db.deleteMember group user)

/-- `CreateGroup`; a unique violation is found in the text of the error. -/
def scimCreateGroup (svc : Service) (db : DB) (now : Time) (authz displayName : String)
    (members : List String) (newID : Uuid) : DB × Except ScimError Unit :=
  match requireSCIMToken svc db now authz with
  | (db, .error e) => (db, .error e)
  | (db, .ok actorID) =>
    if displayName = "" then (db, .error ⟨400, "invalidValue", "displayName is required"⟩)
    else
      match insertGroup db newID displayName actorID with
      | .error e =>
        if e = .uniqueViolation then (db, .error ⟨409, "uniqueness", "Group name already exists"⟩)
        else (db, .error ⟨500, "internalError", "Failed to create group"⟩)
      | .ok db =>
        ((members.foldl (addMember newID) db).audit
          ⟨actorID.text, "scim.group_synced", "group", newID.text⟩, .ok ())

/-- `strings.Trim`, `TrimRight`: characters of a set off the ends. -/
def trimRight (cutset : List Char) (cs : List Char) : List Char :=
  (cs.reverse.dropWhile cutset.contains).reverse

def trimBoth (cutset : List Char) (cs : List Char) : List Char :=
  trimRight cutset (cs.dropWhile cutset.contains)

/-- What follows the first occurrence of `sep`. -/
def afterFirst (sep : List Char) : List Char → Option (List Char)
  | [] => if sep = [] then some [] else none
  | c :: cs =>
    if sep.isPrefixOf (c :: cs) then some ((c :: cs).drop sep.length) else afterFirst sep cs

/-- `scimExtractValueEq`: the id in `members[value eq "…"]`. -/
def scimExtractValueEq (svc : Service) (path : String) : String :=
  match afterFirst "eq ".toList (svc.toLower path).toList with
  | none => ""
  | some tail =>
    -- the offset in the lowered text is used in the text itself
    let start := (svc.toLower path).toList.length - tail.length
    let rest := trimSpace (String.ofList (path.toList.drop start))
    trimSpace (String.ofList (trimBoth ['"', '\''] (trimRight [']', ' '] rest.toList)))

/-- The ids a `remove` of members names. -/
def removedMembers (svc : Service) (o : ScimOperation) : List String :=
  match o.value with
  | some value =>
    match value.toMembers svc with
    | some members => members
    | none =>
      match value.toMember svc with
      | some "" => []
      | some single => [single]
      | none => []
  | none =>
    if (afterFirst "value eq".toList (svc.toLower (trimSpace o.path)).toList).isSome then
      match scimExtractValueEq svc o.path with
      | "" => []
      | userID => [userID]
    else []

/-- `UPDATE groups SET name = …`, if the unique key and the length CHECK let it
through. -/
def renameGroup (db : DB) (group : Uuid) (name : String) : DB :=
  if 2 ≤ name.length ∧ name.length ≤ 128 ∧
      db.groups.all (fun g => g.name ≠ name ∨ g.id = group) then
    let rename (g : Group) : Group := { g with name := name }
    { db with groups := Table.updateWhere (·.id = group) rename db.groups }
  else db

/-- One operation of `PatchGroup`. -/
def patchGroupOp (svc : Service) (group : Uuid) (db : DB) (o : ScimOperation) : DB :=
  let op := svc.toLower o.op
  let path := svc.toLower (trimSpace o.path)
  if op = "add" ∧ "members".toList.isPrefixOf path.toList then
    ((o.value.bind (JsonValue.toMembers svc)).getD []).foldl (addMember group) db
  else if op = "remove" ∧ "members".toList.isPrefixOf path.toList then
    (removedMembers svc o).foldl (removeMember group) db
  else if op = "replace" ∧ path = "displayname" then
    match o.value.bind JsonValue.toText with
    | some name => if name = "" then db else renameGroup db group name
    | none => db
  else db

/-- `PatchGroup`. -/
def scimPatchGroup (svc : Service) (db : DB) (now : Time) (authz id : String)
    (operations : List ScimOperation) : DB × Except ScimError Unit :=
  match requireSCIMToken svc db now authz with
  | (db, .error e) => (db, .error e)
  | (db, .ok actorID) =>
    match (castUuid id).bind db.group? with
    | none => (db, .error .groupNotFound)
    | some group =>
      ((operations.foldl (patchGroupOp svc group.id) db).audit
        ⟨actorID.text, "scim.group_synced", "group", id⟩, .ok ())

/-! ## SCIM requests -/

inductive ScimOp
  | createUser (req : ScimCreateUserRequest) (newID : Uuid)
  | patchUser (id : String) (operations : List ScimOperation)
  | deleteUser (id : String)
  | createGroup (displayName : String) (members : List String) (newID : Uuid)
  | patchGroup (id : String) (operations : List ScimOperation)

/-- A SCIM request as the router serves it. -/
def scimRequest (svc : Service) (db : DB) (now : Time) (authz : String) :
    ScimOp → DB × Except ScimError Unit
  | .createUser req newID => scimCreateUser svc db now authz req newID
  | .patchUser id operations => scimPatchUser svc db now authz id operations
  | .deleteUser id => scimDeleteUser svc db now authz id
  | .createGroup displayName members newID =>
    scimCreateGroup svc db now authz displayName members newID
  | .patchGroup id operations => scimPatchGroup svc db now authz id operations

end IronStock

import IronStock.ScimEffects
import IronStock.ScimFilters
import IronStock.Lib.PartialFold

/-!
# What a PATCH of a user means

`PatchUser` of `scim_handlers.go` against RFC 7644: the meaning of one operation
on the attributes that are kept, `none` where the operation is to be refused, and
the operations of which the handler does what they mean.
-/
namespace IronStock

/-- The attributes of a user that the server keeps. -/
structure ScimUserState where
  userName : String
  externalID : String
  active : Bool
deriving DecidableEq

def User.scimState (u : User) : ScimUserState where
  userName := u.username
  externalID := u.scimExternalID.getD ""
  active := u.status = .active ∨ u.status = .pendingTOTP

/-- What `dbFetchUser` reads; Go's zero values without a row. -/
def scimUserState (userID : Uuid) (db : DB) : ScimUserState :=
  ((db.user? userID).map User.scimState).getD ⟨"", "", false⟩

/-- What the other accounts hold. -/
structure OtherUsers where
  hasName : String → Bool
  hasExternalID : String → Bool

def otherUsers (userID : Uuid) (db : DB) : OtherUsers where
  hasName name := db.users.any fun u => u.username = name ∧ u.id ≠ userID
  hasExternalID extID := db.users.any fun u => u.scimExternalID = some extID ∧ u.id ≠ userID

/-! ## The meaning of an operation -/

inductive UserAttribute
  | userName
  | externalID
  | active
deriving DecidableEq

/-- The attribute of a path in lower case, with or without its schema. -/
def UserAttribute.ofPath (path : String) : Option UserAttribute :=
  let urn := "urn:ietf:params:scim:schemas:core:2.0:user:"
  if path = "username" ∨ path = urn ++ "username" then some .userName
  else if path = "externalid" ∨ path = urn ++ "externalid" then some .externalID
  else if path = "active" ∨ path = urn ++ "active" then some .active
  else none

section
variable (svc : Service) (others : OtherUsers)

/-- A user name the account can have: user names are kept in lower case. -/
def OtherUsers.Admits (name : String) : Prop :=
  name ≠ "" ∧ 3 ≤ (svc.toLower name).length ∧ (svc.toLower name).length ≤ 64 ∧
    others.hasName (svc.toLower name) = false

instance (name : String) : Decidable (others.Admits svc name) :=
  inferInstanceAs (Decidable (_ ∧ _))

/-- A new value of an attribute. A user name is required and unique, an external
id is unique if there is one, and `active` is true or false. -/
def setUserAttribute (t : ScimUserState) : UserAttribute → JsonValue → Option ScimUserState
  | .userName, .string name =>
    if others.Admits svc name then some { t with userName := svc.toLower name } else none
  | .externalID, .null => some { t with externalID := "" }
  | .externalID, .string extID =>
    if extID = "" ∨ others.hasExternalID extID = false then some { t with externalID := extID }
    else none
  | .active, .bool b => some { t with active := b }
  | _, _ => none

/-- The attributes that an object names. -/
def namedAttributes (fields : List (String × JsonValue)) :
    Option (List (UserAttribute × JsonValue)) :=
  fields.mapM fun f => (UserAttribute.ofPath (svc.toLower f.1)).map fun a => (a, f.2)

/-- An object sets the attributes it names; each is to be named once. -/
def setUserAttributes (t : ScimUserState) (fields : List (String × JsonValue)) :
    Option ScimUserState :=
  match namedAttributes svc fields with
  | none => none
  | some named =>
    if (named.map (·.1)).Nodup then
      named.foldlM (fun t a => setUserAttribute svc others t a.1 a.2) t
    else none

/-- `add` and `replace` set an attribute of one value alike; what is removed has
to be optional. -/
def userOpMeaning (t : ScimUserState) (o : ScimOperation) : Option ScimUserState :=
  let op := svc.toLower o.op
  let path := svc.toLower (trimSpace o.path)
  if op = "add" ∨ op = "replace" then
    match o.value with
    | none => none
    | some value =>
      if path = "" then
        match value with
        | .object fields => setUserAttributes svc others t fields
        | _ => none
      else (UserAttribute.ofPath path).bind fun a => setUserAttribute svc others t a value
  else if op = "remove" ∧ UserAttribute.ofPath path = some .externalID then
    some { t with externalID := "" }
  else none

/-! ## The operations that are applied -/

/-- A `replace` of one attribute by its bare name, or of `active` by an object
that says nothing new of the others. -/
def UserOpApplied (t : ScimUserState) (o : ScimOperation) : Prop :=
  let path := svc.toLower (trimSpace o.path)
  svc.toLower o.op = "replace" ∧ ∃ value, o.value = some value ∧
    (path = "active" ∧ (∃ b, value = .bool b) ∨
      path = "username" ∧ (∃ name, value = .string name ∧ others.Admits svc name) ∨
      path = "externalid" ∧
        (∃ extID, value.toText = some extID ∧ others.hasExternalID extID = false) ∨
      path = "" ∧ ∃ fields b, value = .object fields ∧
        JsonValue.field? fields "active" = some (.bool b) ∧
        userOpMeaning svc others t o = some { t with active := b })

/-- An operation that is applied, or one that changes nothing. -/
def UserOpHonoured (t : ScimUserState) (o : ScimOperation) : Prop :=
  UserOpApplied svc others t o ∨ userOpMeaning svc others t o = some t

end

/-! ## What the handler does to the attributes -/

/-- What `PatchUser` makes of one operation. -/
def userOpEffect (svc : Service) (others : OtherUsers) (t : ScimUserState) (o : ScimOperation) :
    ScimUserState :=
  let path := svc.toLower (trimSpace o.path)
  if svc.toLower o.op ≠ "replace" then t
  else
    match o.value with
    | none => t
    | some value =>
      if path = "active" then
        match value.toBool with
        | some b => { t with active := b }
        | none => t
      else if path = "username" then
        match value.toText with
        | some name =>
          if others.Admits svc name then { t with userName := svc.toLower name } else t
        | none => t
      else if path = "externalid" then
        match value.toText with
        | some extID => if others.hasExternalID extID then t else { t with externalID := extID }
        | none => t
      else if path = "" then
        match (value.toFields.bind (JsonValue.field? · "active")).bind JsonValue.toBool with
        | some b => { t with active := b }
        | none => t
      else t

/-- The account is still there with these attributes, and the others are what
they were. -/
structure PatchedTo (u : Uuid) (db db' : DB) (t : ScimUserState) : Prop where
  user : ∃ user, db'.user? u = some user ∧ user.scimState = t
  others : otherUsers u db' = otherUsers u db

theorem PatchedTo.state {u : Uuid} {db db' : DB} {t : ScimUserState} (h : PatchedTo u db db' t) :
    scimUserState u db' = t := by
  obtain ⟨user, huser, rfl⟩ := h.user
  rw [scimUserState, huser]
  rfl

theorem PatchedTo.of_users {u : Uuid} {db db' db'' : DB} {t : ScimUserState}
    (h : PatchedTo u db db' t) (husers : db''.users = db'.users) : PatchedTo u db db'' t := by
  obtain ⟨⟨user, huser, ht⟩, hothers⟩ := h
  refine ⟨⟨user, ?_, ht⟩, ?_⟩
  · rw [DB.user?, husers]
    exact huser
  · rw [← hothers, otherUsers, otherUsers, husers]

/-- The check of a unique key as the statements make it. -/
theorem all_unique_iff {db : DB} {u : Uuid} {q : User → Prop} [DecidablePred q] :
    db.users.all (fun r => ¬ q r ∨ r.id = u) = true ↔
      db.users.any (fun r => q r ∧ r.id ≠ u) = false := by
  rw [List.all_eq_true, List.any_eq_false]
  refine forall₂_congr fun r _ => ?_
  by_cases hq : q r <;> simp [hq]

section
variable {db : DB} {u : Uuid} {user : User} (huser : db.user? u = some user)
include huser

theorem PatchedTo.self : PatchedTo u db db user.scimState := ⟨⟨user, huser, rfl⟩, rfl⟩

/-- Rows of this user aside, an update of this user changes nothing. -/
theorem updateUser_patchedTo {f : User → User} (hf : ∀ r, (f r).id = r.id) :
    PatchedTo u db (db.updateUser u f) (f user).scimState := by
  have hid : user.id = u := (Table.lookup_eq_some huser).2
  have hany (q : User → Bool) (hq : ∀ r, r.id = u → q r = false) :
      (db.updateUser u f).users.any q = db.users.any q :=
    Table.any_updateWhere (fun r hr => by
      have hru : r.id = u := by simpa using hr
      rw [hq r hru, hq (f r) ((hf r).trans hru)]) db.users
  constructor
  · refine ⟨f user, ?_, rfl⟩
    rw [user?_updateUser _ _ _ hf, huser]
    simp [hid]
  · rw [otherUsers, otherUsers, OtherUsers.mk.injEq]
    constructor
    · funext name
      exact hany _ fun r hr => by simp [hr]
    · funext extID
      exact hany _ fun r hr => by simp [hr]

theorem applyActiveOp_patchedTo (now : Time) (actor : Uuid) (id : String) (raw : JsonValue) :
    PatchedTo u db (applyActiveOp db now u actor id raw)
      (match raw.toBool with
      | some b => { user.scimState with active := b }
      | none => user.scimState) := by
  rw [applyActiveOp]
  cases raw.toBool with
  | none => exact .self huser
  | some b =>
    cases b with
    | true => exact updateUser_patchedTo huser fun _ => rfl
    | false =>
      have h := updateUser_patchedTo huser (f := User.withStatus .disabled) fun _ => rfl
      simp only [deprovisionSessions_eq]
      exact h.of_users rfl

theorem renameUser_patchedTo (svc : Service) {name : String} (hne : name ≠ "") :
    PatchedTo u db (renameUser db u (svc.toLower name))
      (if (otherUsers u db).Admits svc name then
        { user.scimState with userName := svc.toLower name }
      else user.scimState) := by
  rw [renameUser]
  by_cases hadmits : (otherUsers u db).Admits svc name
  · obtain ⟨-, hmin, hmax, hfree⟩ := hadmits
    rw [if_pos ⟨hmin, hmax, all_unique_iff.2 hfree⟩, if_pos ⟨hne, hmin, hmax, hfree⟩]
    exact updateUser_patchedTo huser fun _ => rfl
  · rw [if_neg hadmits, if_neg]
    · exact .self huser
    · rintro ⟨hmin, hmax, hall⟩
      exact hadmits ⟨hne, hmin, hmax, all_unique_iff.1 hall⟩

theorem setExternalID_patchedTo (extID : String) :
    PatchedTo u db (setExternalID db u extID)
      (if (otherUsers u db).hasExternalID extID then user.scimState
      else { user.scimState with externalID := extID }) := by
  rw [setExternalID]
  by_cases hfree : (otherUsers u db).hasExternalID extID = false
  · rw [if_pos (all_unique_iff.2 hfree), hfree]
    exact updateUser_patchedTo huser fun _ => rfl
  · rw [if_neg fun hall => hfree (all_unique_iff.1 hall),
      if_pos (Bool.eq_true_of_not_eq_false hfree)]
    exact .self huser

/-- One operation of the handler, on the attributes. -/
theorem patchUserOp_patchedTo (svc : Service) (now : Time) (actor : Uuid) (id : String)
    (o : ScimOperation) :
    PatchedTo u db (patchUserOp svc now u actor id db o)
      (userOpEffect svc (otherUsers u db) user.scimState o) := by
  have hself := PatchedTo.self huser
  simp only [patchUserOp, userOpEffect]
  split
  · exact hself
  · cases o.value with
    | none => exact hself
    | some value =>
      simp only
      split
      · exact applyActiveOp_patchedTo huser now actor id value
      · split
        · cases value.toText with
          | none => exact hself
          | some name =>
            simp only
            by_cases hne : name = ""
            · rw [if_pos hne, if_neg fun h => h.1 hne]
              exact hself
            · rw [if_neg hne]
              exact renameUser_patchedTo huser svc hne
        · split
          · cases value.toText with
            | none => exact hself
            | some extID => exact setExternalID_patchedTo huser extID
          · split
            · cases value.toFields with
              | none => exact hself
              | some fields =>
                simp only [Option.bind_some]
                cases JsonValue.field? fields "active" with
                | none => exact hself
                | some raw => exact applyActiveOp_patchedTo huser now actor id raw
            · exact hself

end

/-! ## An operation does what it means -/

/-- `strings.ToLower` goes character by character and leaves blanks alone. -/
def LowersWords (svc : Service) : Prop :=
  ∃ lower : Char → Char, FilterLanguage.LowersAscii lower ∧
    (∀ c, isSpace c = true → lower c = c) ∧ ∀ s, (svc.toLower s).toList = s.toList.map lower

theorem LowersWords.toLower_eq {svc : Service} (h : LowersWords svc) {s : String}
    (hs : s.toList.all (fun c => c.toNat < 128 ∧ c.toLower = c) = true) : svc.toLower s = s := by
  obtain ⟨lower, hlower, -, htoLower⟩ := h
  apply String.toList_injective
  rw [htoLower]
  refine (List.map_congr_left fun c hc => ?_).trans (List.map_id _)
  have hc := List.all_eq_true.1 hs c hc
  simp only [decide_eq_true_eq] at hc
  rw [hlower c hc.1, hc.2]
  rfl

theorem mem_of_field? {fields : List (String × JsonValue)} {key : String} {raw : JsonValue}
    (h : JsonValue.field? fields key = some raw) : (key, raw) ∈ fields := by
  rw [JsonValue.field?, Option.map_eq_some_iff] at h
  obtain ⟨f, hfind, rfl⟩ := h
  have hkey : f.1 = key := by simpa using List.find?_some hfind
  rw [← hkey]
  exact List.mem_reverse.1 (List.mem_of_find?_eq_some hfind)

section
variable {svc : Service} {others : OtherUsers}

theorem setUserAttribute_active {t t' : ScimUserState} {a : UserAttribute} {value : JsonValue}
    (h : setUserAttribute svc others t a value = some t') (ha : a ≠ .active) :
    t'.active = t.active := by
  unfold setUserAttribute at h
  split at h
  · split at h <;> cases h
    rfl
  · cases h
    rfl
  · split at h <;> cases h
    rfl
  · exact absurd rfl ha
  · cases h

theorem setUserAttribute_bool {t t' : ScimUserState} {value : JsonValue}
    (h : setUserAttribute svc others t .active value = some t') : value = .bool t'.active := by
  cases value with
  | bool b =>
    cases h
    rfl
  | _ => cases h

theorem foldlM_active_of_not_mem {named : List (UserAttribute × JsonValue)}
    (hnamed : .active ∉ named.map (·.1)) {t t' : ScimUserState}
    (h : named.foldlM (fun t a => setUserAttribute svc others t a.1 a.2) t = some t') :
    t'.active = t.active := by
  induction named generalizing t with
  | nil =>
    cases h
    rfl
  | cons a named ih =>
    simp only [List.map_cons, List.mem_cons, not_or] at hnamed
    rw [List.foldlM_cons, Option.bind_eq_bind, Option.bind_eq_some_iff] at h
    obtain ⟨t₁, hfirst, hrest⟩ := h
    rw [ih hnamed.2 hrest, setUserAttribute_active hfirst (Ne.symm hnamed.1)]

/-- What an object says of `active` is a truth value, and it is stored. -/
theorem foldlM_active_of_mem {named : List (UserAttribute × JsonValue)}
    (hnodup : (named.map (·.1)).Nodup) {raw : JsonValue} (hraw : (.active, raw) ∈ named)
    {t t' : ScimUserState}
    (h : named.foldlM (fun t a => setUserAttribute svc others t a.1 a.2) t = some t') :
    raw = .bool t'.active := by
  induction named generalizing t with
  | nil => cases hraw
  | cons a named ih =>
    rw [List.map_cons, List.nodup_cons] at hnodup
    rw [List.foldlM_cons, Option.bind_eq_bind, Option.bind_eq_some_iff] at h
    obtain ⟨t₁, hfirst, hrest⟩ := h
    obtain rfl | hraw := List.mem_cons.1 hraw
    · rw [foldlM_active_of_not_mem hnodup.1 hrest]
      exact setUserAttribute_bool hfirst
    · exact ih hnodup.2 hraw hrest

theorem setUserAttributes_active (hsvc : LowersWords svc) {fields : List (String × JsonValue)}
    {raw : JsonValue} (hraw : JsonValue.field? fields "active" = some raw) {t t' : ScimUserState}
    (h : setUserAttributes svc others t fields = some t') : raw = .bool t'.active := by
  have hlower : svc.toLower "active" = "active" := hsvc.toLower_eq (by decide)
  have hattr : UserAttribute.ofPath (svc.toLower "active") = some .active := by
    rw [hlower]
    decide
  unfold setUserAttributes at h
  split at h
  · cases h
  · next named hnamed =>
    split at h
    · next hnodup =>
      obtain ⟨a, ha, hpair⟩ := PartialFold.exists_mem_of_mapM hnamed (mem_of_field? hraw)
      rw [hattr, Option.map_some, Option.some.injEq] at hpair
      rw [← hpair] at ha
      exact foldlM_active_of_mem hnodup ha h
    · cases h

/-! What each branch of the handler makes of a value, against its meaning. -/

theorem setActive_eq_iff {t : ScimUserState} {value : JsonValue} :
    setUserAttribute svc others t .active value =
        some (match value.toBool with
          | some b => { t with active := b }
          | none => t) ↔
      (∃ b, value = .bool b) ∨ setUserAttribute svc others t .active value = some t := by
  cases value <;> simp [setUserAttribute, JsonValue.toBool]

theorem setUserName_eq_iff {t : ScimUserState} {value : JsonValue} :
    setUserAttribute svc others t .userName value =
        some (match value.toText with
          | some name =>
            if others.Admits svc name then { t with userName := svc.toLower name } else t
          | none => t) ↔
      (∃ name, value = .string name ∧ others.Admits svc name) ∨
        setUserAttribute svc others t .userName value = some t := by
  cases value with
  | string name =>
    by_cases h : others.Admits svc name <;> simp [setUserAttribute, JsonValue.toText, h]
  | _ => simp [setUserAttribute]

theorem setExternalID_eq_iff {t : ScimUserState} {value : JsonValue} :
    setUserAttribute svc others t .externalID value =
        some (match value.toText with
          | some extID => if others.hasExternalID extID then t else { t with externalID := extID }
          | none => t) ↔
      (∃ extID, value.toText = some extID ∧ others.hasExternalID extID = false) ∨
        setUserAttribute svc others t .externalID value = some t := by
  cases value with
  | null => cases h : others.hasExternalID "" <;> simp [setUserAttribute, JsonValue.toText, h]
  | string extID =>
    cases h : others.hasExternalID extID <;> simp [setUserAttribute, JsonValue.toText, h]
  | _ => simp [setUserAttribute, JsonValue.toText]

theorem setObject_eq_iff (hsvc : LowersWords svc) {t : ScimUserState}
    {fields : List (String × JsonValue)} :
    setUserAttributes svc others t fields =
        some (match (JsonValue.field? fields "active").bind JsonValue.toBool with
          | some b => { t with active := b }
          | none => t) ↔
      (∃ b, JsonValue.field? fields "active" = some (.bool b) ∧
        setUserAttributes svc others t fields = some { t with active := b }) ∨
        setUserAttributes svc others t fields = some t := by
  cases hraw : JsonValue.field? fields "active" with
  | none => simp
  | some raw =>
    have hbool {t' : ScimUserState} (h : setUserAttributes svc others t fields = some t') :
        raw = .bool t'.active := setUserAttributes_active hsvc hraw h
    constructor
    · intro h
      cases raw with
      | bool b => exact .inl ⟨b, rfl, h⟩
      | _ => cases hbool h
    · rintro (⟨b, hb, h⟩ | h)
      · cases hb
        exact h
      · rw [h, hbool h]
        rfl

/-- What it takes for the handler to do what an operation means: the cases are
those of the handler. -/
theorem userOpMeaning_eq_effect_iff (hsvc : LowersWords svc) {t : ScimUserState}
    {o : ScimOperation} :
    userOpMeaning svc others t o = some (userOpEffect svc others t o) ↔
      UserOpHonoured svc others t o := by
  have hactive : UserAttribute.ofPath "active" = some .active := by decide
  have husername : UserAttribute.ofPath "username" = some .userName := by decide
  have hexternal : UserAttribute.ofPath "externalid" = some .externalID := by decide
  by_cases hop : svc.toLower o.op = "replace"
  · cases hvalue : o.value with
    | none => simp [UserOpHonoured, UserOpApplied, userOpMeaning, userOpEffect, hop, hvalue]
    | some value =>
      simp only [UserOpHonoured, UserOpApplied, userOpMeaning, userOpEffect, hop, hvalue]
      generalize svc.toLower (trimSpace o.path) = path
      by_cases hpath : path = "active"
      · subst hpath
        simpa [hactive] using setActive_eq_iff
      · by_cases hname : path = "username"
        · subst hname
          simpa [husername] using setUserName_eq_iff
        · by_cases hext : path = "externalid"
          · subst hext
            simpa [hexternal] using setExternalID_eq_iff
          · by_cases hempty : path = ""
            · subst hempty
              cases value with
              | object fields => simpa [JsonValue.toFields] using setObject_eq_iff hsvc
              | _ => simp [JsonValue.toFields, JsonValue.field?]
            · simp [hpath, hname, hext, hempty]
  · simp [UserOpHonoured, UserOpApplied, userOpEffect, hop]

end

/-! ## The request -/

/-- What is stored after each initial part of the operations is the fold of their
meanings. -/
def UserPatchFolds (svc : Service) (db : DB) (now : Time) (authz id : String)
    (operations : List ScimOperation) (u : Uuid) : Prop :=
  ∀ start, start <+: operations →
    start.foldlM (userOpMeaning svc (otherUsers u db)) (scimUserState u db) =
      some (scimUserState u (scimPatchUser svc db now authz id start).1)

/-- Every operation is applied, or changes nothing. -/
def UserPatchHonoured (svc : Service) (db : DB) (operations : List ScimOperation) (u : Uuid) :
    Prop :=
  PartialFold.EveryStep (userOpMeaning svc (otherUsers u db))
    (UserOpHonoured svc (otherUsers u db)) (scimUserState u db) operations

theorem requireSCIMToken_tables {svc : Service} {db db' : DB} {now : Time} {authz : String}
    {reply : Except ScimError Uuid} (h : requireSCIMToken svc db now authz = (db', reply)) :
    db'.users = db.users ∧ db'.groups = db.groups ∧ db'.groupMembers = db.groupMembers := by
  obtain ⟨apiTokens, hkept⟩ := requireSCIMToken_kept svc db now authz
  rw [h] at hkept
  obtain rfl : db' = { db with apiTokens := apiTokens } := hkept
  exact ⟨rfl, rfl, rfl⟩

/-- What an accepted request does, whichever its operations. -/
theorem scimPatchUser_of_accepted {svc : Service} {db : DB} {now : Time} {authz id : String}
    {operations : List ScimOperation}
    (h : (scimPatchUser svc db now authz id operations).2 = .ok ()) :
    ∃ u actor user db₁, castUuid id = some u ∧ db₁.users = db.users ∧ db₁.user? u = some user ∧
      ∀ start, (scimPatchUser svc db now authz id start).1 =
        (start.foldl (patchUserOp svc now u actor id) db₁).audit
          ⟨actor.text, "scim.user_updated", "user", id⟩ := by
  cases htoken : requireSCIMToken svc db now authz with
  | mk db₁ reply =>
    cases reply with
    | error e => simp [scimPatchUser, htoken] at h
    | ok actor =>
      cases hid : castUuid id with
      | none => simp [scimPatchUser, htoken, hid] at h
      | some u =>
        cases huser : db₁.user? u with
        | none => simp [scimPatchUser, htoken, hid, huser] at h
        | some user =>
          have htables := requireSCIMToken_tables htoken
          refine ⟨u, actor, user, db₁, rfl, htables.1, huser, fun start => ?_⟩
          simp [scimPatchUser, htoken, hid, huser]

theorem scimPatchUser_folds_iff {svc : Service} (hsvc : LowersWords svc) {db : DB} {now : Time}
    {authz id : String} {operations : List ScimOperation}
    (h : (scimPatchUser svc db now authz id operations).2 = .ok ()) :
    ∃ u, castUuid id = some u ∧
      (UserPatchFolds svc db now authz id operations u ↔
        UserPatchHonoured svc db operations u) := by
  obtain ⟨u, actor, user, db₁, hid, husers, huser, hpatch⟩ := scimPatchUser_of_accepted h
  have hstate : scimUserState u db₁ = scimUserState u db := by
    rw [scimUserState, scimUserState, DB.user?, DB.user?, husers]
  have hothers : otherUsers u db₁ = otherUsers u db := by
    rw [otherUsers, otherUsers, husers]
  refine ⟨u, hid, ?_⟩
  have hstep (d : DB) (o : ScimOperation)
      (hd : (∃ user, d.user? u = some user) ∧ otherUsers u d = otherUsers u db) :
      PatchedTo u d (patchUserOp svc now u actor id d o)
        (userOpEffect svc (otherUsers u db) (scimUserState u d) o) := by
    obtain ⟨⟨user, huser⟩, hd⟩ := hd
    have hpatched := patchUserOp_patchedTo huser svc now actor id o
    rwa [hd, ← (PatchedTo.self huser).state] at hpatched
  have hiff : PartialFold.Realizes (userOpMeaning svc (otherUsers u db))
      (patchUserOp svc now u actor id) (scimUserState u) db₁ operations ↔
      UserPatchHonoured svc db operations u := by
    rw [UserPatchHonoured, ← hstate]
    refine PartialFold.realizes_iff
      (I := fun d => (∃ user, d.user? u = some user) ∧ otherUsers u d = otherUsers u db) ?_ ?_
      ⟨⟨user, huser⟩, hothers⟩ operations
    · intro d o hd
      have hpatched := hstep d o hd
      exact ⟨hpatched.user.imp fun _ h => h.1, hpatched.others.trans hd.2⟩
    · intro d o hd
      rw [(hstep d o hd).state]
      exact userOpMeaning_eq_effect_iff hsvc
  rw [← hiff, UserPatchFolds, ← hstate]
  refine forall₂_congr fun start _ => ?_
  rw [hpatch]
  rfl

end IronStock

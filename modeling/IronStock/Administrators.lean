import IronStock.ScimEffects
import IronStock.Lib.Interleaving

/-!
# The administrators that remain

`DisableUser`, `RevokeRole` and the SCIM requests on users, each as its authorization
and the statements after it, with any other requests in between. The two handlers
compare the id of the path with the subject of the token as texts, the statements
compare uuids, and no statement counts the administrators there are.
-/
namespace IronStock

open Interleaving

/-! ## The requests as calls -/

structure AdminState where
  db : DB
  clock : Time

namespace AdminState

def tick (s : AdminState) (elapsed : Nat) : AdminState := { s with clock := s.clock + elapsed }

@[simp] theorem tick_db (s : AdminState) (elapsed : Nat) : (s.tick elapsed).db = s.db := rfl
@[simp] theorem tick_zero (s : AdminState) : s.tick 0 = s := by simp [tick]

end AdminState

inductive AdminRequest
  | disableUser (authz id : String)
  | revokeRole (authz id roleName : String)
  | scimDelete (authz id : String)
  | scimPatch (authz id : String) (operations : List ScimOperation)

/-- What is left of a request. -/
inductive AdminCall
  | request (r : AdminRequest)
  | disableUser (claims : TokenClaims) (id : String)
  | revokeRole (claims : TokenClaims) (id roleName : String)
  | scimDelete (actorID : Uuid) (id : String)
  | scimFetch (actorID : Uuid) (id : String) (operations : List ScimOperation)
  | scimPatch (actorID userID : Uuid) (id : String) (operations : List ScimOperation)

inductive AdminAnswer
  | admin (reply : Reply Unit)
  | scim (reply : Except ScimError Unit)

abbrev AdminResult := AdminState × (AdminCall ⊕ AdminAnswer)
abbrev AdminSystem := System AdminState AdminCall AdminAnswer

/-- The end of an admin request. -/
def AdminState.commit (s : AdminState) (result : Reply DB) : AdminResult :=
  match result with
  | .error e => (s, .inr (.admin (.error e)))
  | .ok db => ({ s with db }, .inr (.admin (.ok ())))

/-- The gate of a SCIM request, which writes to the token. -/
def AdminState.scimGate (s : AdminState) (gate : DB × Except ScimError Uuid)
    (rest : Uuid → AdminCall) : AdminResult :=
  match gate with
  | (db, .error e) => ({ s with db }, .inr (.scim (.error e)))
  | (db, .ok actorID) => ({ s with db }, .inl (rest actorID))

def AdminRequest.exec (svc : Service) (s : AdminState) : AdminRequest → AdminResult
  | .disableUser authz id =>
    match requireAdmin svc s.db s.clock authz with
    | .error e => (s, .inr (.admin (.error e)))
    | .ok claims => (s, .inl (.disableUser claims id))
  | .revokeRole authz id roleName =>
    match requireAdmin svc s.db s.clock authz with
    | .error e => (s, .inr (.admin (.error e)))
    | .ok claims => (s, .inl (.revokeRole claims id roleName))
  | .scimDelete authz id => s.scimGate (requireSCIMToken svc s.db s.clock authz) (.scimDelete · id)
  | .scimPatch authz id operations =>
    s.scimGate (requireSCIMToken svc s.db s.clock authz) (.scimFetch · id operations)

/-- `DeleteUser` after its gate. -/
def scimDeleteAs (db : DB) (now : Time) (actorID : Uuid) (id : String) :
    DB × Except ScimError Unit :=
  match (castUuid id).bind db.user? with
  | none => (db, .error .userNotFound)
  | some user =>
    ((deprovisionSessions (db.updateUser user.id (User.withStatus .disabled)) now user.id).audit
      ⟨actorID.text, "scim.user_deprovisioned", "user", id⟩, .ok ())

/-- The next statement of a request, on a clock that has moved on. -/
def AdminCall.exec (svc : Service) (elapsed : Nat) (state : AdminState) (call : AdminCall) :
    AdminResult :=
  let s := state.tick elapsed
  match call with
  | .request r => r.exec svc s
  | .disableUser claims id => s.commit (IronStock.disableUser s.db s.clock claims id)
  | .revokeRole claims id roleName => s.commit (IronStock.revokeRole s.db claims id roleName)
  | .scimDelete actorID id =>
    let r := scimDeleteAs s.db s.clock actorID id
    ({ s with db := r.1 }, .inr (.scim r.2))
  | .scimFetch actorID id operations =>
    match castUuid id with
    | none => (s, .inr (.scim (.error ⟨500, "internalError", "DB error"⟩)))
    | some userID =>
      if (s.db.user? userID).isNone then (s, .inr (.scim (.error .userNotFound)))
      else (s, .inl (.scimPatch actorID userID id operations))
  | .scimPatch actorID _ id [] =>
    ({ s with db := s.db.audit ⟨actorID.text, "scim.user_updated", "user", id⟩ },
      .inr (.scim (.ok ())))
  | .scimPatch actorID userID id (o :: operations) =>
    ({ s with db := patchUserOp svc s.clock userID actorID id s.db o },
      .inl (.scimPatch actorID userID id operations))

attribute [local simp] AdminCall.exec

/-- The handlers as calls on the tables. -/
def adminHandlers (svc : Service) : Program AdminState AdminRequest AdminCall AdminAnswer Nat where
  enter := .request
  exec elapsed s call := call.exec svc elapsed s

@[simp] theorem adminHandlers_enter (svc : Service) (r : AdminRequest) :
    (adminHandlers svc).enter r = .request r := rfl
@[simp] theorem adminHandlers_exec (svc : Service) (elapsed : Nat) (s : AdminState)
    (call : AdminCall) : (adminHandlers svc).exec elapsed s call = call.exec svc elapsed s := rfl

/-! ## A call on its own -/

section Alone

variable (svc : Service) (s : AdminState)

/-- Without another request in between, the statements of an admin request are the
handler behind its middlewares. -/
theorem disableUser_alone (authz id : String) :
    (adminHandlers svc).alone 0 2 s (.request (.disableUser authz id)) =
      s.commit (adminRequest svc s.db s.clock authz (.disableUser id)) := by
  simp only [Program.alone, adminHandlers_exec, AdminCall.exec, AdminRequest.exec,
    AdminState.tick_zero, adminRequest]
  cases requireAdmin svc s.db s.clock authz with
  | error e => rfl
  | ok claims => cases hwrite : disableUser s.db s.clock claims id <;>
      simp [AdminState.commit, AdminOp.handle, hwrite, bind, Except.bind]

theorem revokeRole_alone (authz id roleName : String) :
    (adminHandlers svc).alone 0 2 s (.request (.revokeRole authz id roleName)) =
      s.commit (adminRequest svc s.db s.clock authz (.revokeRole id roleName)) := by
  simp only [Program.alone, adminHandlers_exec, AdminCall.exec, AdminRequest.exec,
    AdminState.tick_zero, adminRequest]
  cases requireAdmin svc s.db s.clock authz with
  | error e => rfl
  | ok claims => cases hwrite : revokeRole s.db claims id roleName <;>
      simp [AdminState.commit, AdminOp.handle, hwrite, bind, Except.bind]

theorem scimDelete_alone (authz id : String) :
    (adminHandlers svc).alone 0 2 s (.request (.scimDelete authz id)) =
      ({ s with db := (scimDeleteUser svc s.db s.clock authz id).1 },
        .inr (.scim (scimDeleteUser svc s.db s.clock authz id).2)) := by
  simp only [Program.alone, adminHandlers_exec, AdminCall.exec, AdminRequest.exec,
    AdminState.tick_zero, scimDeleteUser]
  rcases requireSCIMToken svc s.db s.clock authz with ⟨db, e | actorID⟩
  · rfl
  · cases huser : (castUuid id).bind db.user? with
    | none => simp only [AdminState.scimGate, scimDeleteAs, huser]
    | some user => simp only [AdminState.scimGate, scimDeleteAs, huser]

/-- The operations of a `PatchUser`, and its entry. -/
def scimPatchAs (svc : Service) (db : DB) (now : Time) (actorID userID : Uuid) (id : String)
    (operations : List ScimOperation) : DB :=
  (operations.foldl (patchUserOp svc now userID actorID id) db).audit
    ⟨actorID.text, "scim.user_updated", "user", id⟩

theorem scimPatchAs_alone (actorID userID : Uuid) (id : String)
    (operations : List ScimOperation) :
    (adminHandlers svc).alone 0 (operations.length + 1) s
        (.scimPatch actorID userID id operations) =
      ({ s with db := scimPatchAs svc s.db s.clock actorID userID id operations },
        .inr (.scim (.ok ()))) := by
  induction operations generalizing s with
  | nil => simp [Program.alone, AdminCall.exec, scimPatchAs]
  | cons o rest ih =>
    rw [List.length_cons, Program.alone, adminHandlers_exec]
    simp only [AdminCall.exec, AdminState.tick_zero]
    exact ih { s with db := patchUserOp svc s.clock userID actorID id s.db o }

theorem scimPatch_alone (authz id : String) (operations : List ScimOperation) :
    (adminHandlers svc).alone 0 (operations.length + 3) s
        (.request (.scimPatch authz id operations)) =
      ({ s with db := (scimPatchUser svc s.db s.clock authz id operations).1 },
        .inr (.scim (scimPatchUser svc s.db s.clock authz id operations).2)) := by
  rw [Program.alone, adminHandlers_exec]
  simp only [AdminCall.exec, AdminRequest.exec, AdminState.tick_zero, scimPatchUser]
  rcases requireSCIMToken svc s.db s.clock authz with ⟨db, e | actorID⟩
  · rfl
  · simp only [AdminState.scimGate]
    rw [Program.alone, adminHandlers_exec]
    simp only [AdminCall.exec, AdminState.tick_zero]
    cases castUuid id with
    | none => rfl
    | some userID =>
      cases hmissing : (db.user? userID).isNone with
      | true =>
        simp only [hmissing, if_true]
      | false =>
        simp only [hmissing, Bool.false_eq_true, if_false]
        exact scimPatchAs_alone svc { s with db } actorID userID id operations

end Alone

/-! ## What a statement does to the administrators -/

/-- The user has the admin role, not through a group. -/
def DB.isDirectAdmin (db : DB) (u : Uuid) : Bool := db.userRoles.any (· = ⟨u, .admin⟩)

def DB.isWorkingAdmin (db : DB) (u : Uuid) : Bool := db.isEnabled u && db.isDirectAdmin u

def HasWorkingAdmin (db : DB) : Prop := ∃ u, db.isWorkingAdmin u = true

inductive AdminWrite
  | status (u : Uuid) (active : Bool)
  | strip (u : Uuid)

namespace AdminWrite

/-- The user who is no working administrator after it. -/
def ends : AdminWrite → Option Uuid
  | .status _ true => none
  | .status u false => some u
  | .strip u => some u

end AdminWrite

/-- What the next statement of a call writes, read off the ids it was given and the
guards before it. -/
def AdminCall.write? (svc : Service) (db : DB) : AdminCall → Option AdminWrite
  | .disableUser claims id =>
    if id = "" ∨ id = claims.subject.text then none
    else
      ((castUuid id).filter fun u => (db.user? u).any (·.status ≠ .disabled)).map (.status · false)
  | .revokeRole claims id roleName =>
    if id = "" ∨ id = claims.subject.text ∨ Role.ofName roleName ≠ some .admin then none
    else (castUuid id).map .strip
  | .scimDelete _ id => ((castUuid id).bind db.user?).map fun user => .status user.id false
  | .scimPatch _ userID _ (o :: _) => (o.activeFlag svc).map (.status userID)
  | _ => none

/-- The administrator whose token authorized the call. -/
def AdminCall.actor : AdminCall → Option Uuid
  | .disableUser claims _ => some claims.subject
  | .revokeRole claims _ _ => some claims.subject
  | _ => none

/-- A write as it shows in the rows. -/
inductive Wrote (db db' : DB) : Option AdminWrite → Prop
  | same (hstatuses : db'.statuses = db.statuses)
      (hadmins : ∀ v, db'.isDirectAdmin v = db.isDirectAdmin v) : Wrote db db' none
  | sets (u : Uuid) (active : Bool)
      (hstatuses : db'.statuses = setStatus u (statusOfActive active) db.statuses)
      (hadmins : ∀ v, db'.isDirectAdmin v = db.isDirectAdmin v) :
      Wrote db db' (some (.status u active))
  | strips (u : Uuid) (hstatuses : db'.statuses = db.statuses)
      (hadmins : ∀ v, db'.isDirectAdmin v = (db.isDirectAdmin v && v ≠ u)) :
      Wrote db db' (some (.strip u))

theorem Wrote.kept {db db' : DB} (hstatuses : db'.statuses = db.statuses)
    (hroles : db'.userRoles = db.userRoles) : Wrote db db' none :=
  .same hstatuses fun _ => by rw [DB.isDirectAdmin, hroles, DB.isDirectAdmin]

theorem Wrote.status {db db' : DB} {u : Uuid} {active : Bool}
    (hstatuses : db'.statuses = setStatus u (statusOfActive active) db.statuses)
    (hroles : db'.userRoles = db.userRoles) : Wrote db db' (some (.status u active)) :=
  .sets u active hstatuses fun _ => by rw [DB.isDirectAdmin, hroles, DB.isDirectAdmin]

section Writes

variable {svc : Service} {db : DB} {now : Time}

theorem disableUser_wrote (claims : TokenClaims) (id : String) :
    Wrote db ((disableUser db now claims id).toOption.getD db)
      ((AdminCall.disableUser claims id).write? svc db) := by
  by_cases hempty : id = ""
  · simp only [AdminCall.write?, hempty, true_or, if_true, disableUser, Reply.require]
    exact .kept rfl rfl
  · by_cases hself : id = claims.subject.text
    · simp only [AdminCall.write?, hself, or_true, if_true, disableUser, Reply.require]
      rw [if_pos (by rwa [← hself]), if_neg (fun h => h rfl)]
      exact .kept rfl rfl
    · simp only [AdminCall.write?, hempty, hself, or_self, if_false, disableUser, Reply.require,
        ne_eq, not_false_eq_true, if_true]
      cases castUuid id with
      | none => exact .kept rfl rfl
      | some u =>
        cases hreaches : (db.user? u).any (·.status ≠ .disabled) with
        | false =>
          simp only [Option.filter_some, hreaches, Reply.orElse, bind, Except.bind,
            Bool.false_eq_true, if_false]
          exact .kept rfl rfl
        | true =>
          simp only [Option.filter_some, hreaches, Reply.orElse, bind, Except.bind, if_true]
          exact .status (withStatus_statuses db u .disabled) rfl

theorem deleteRole_admins (u : Uuid) (role : Role) (v : Uuid) :
    (Table.deleteWhere (· = (⟨u, role⟩ : UserRole)) db.userRoles).any (· = ⟨v, .admin⟩) =
      (db.isDirectAdmin v && !decide (v = u ∧ role = .admin)) := by
  rw [DB.isDirectAdmin, Table.deleteWhere, List.any_filter, Bool.eq_iff_iff]
  simp only [List.any_eq_true, Bool.and_eq_true, decide_eq_true_eq, Bool.not_eq_true',
    decide_eq_false_iff_not]
  constructor
  · rintro ⟨row, hrow, hkept, rfl⟩
    refine ⟨⟨_, hrow, rfl⟩, ?_⟩
    rintro ⟨rfl, rfl⟩
    exact hkept rfl
  · rintro ⟨⟨row, hrow, rfl⟩, hother⟩
    refine ⟨_, hrow, ?_, rfl⟩
    intro heq
    cases heq
    exact hother ⟨rfl, rfl⟩

/-- The rows without this one. -/
theorem Wrote.deleteRole {db' : DB} {u : Uuid} {role : Role}
    (hstatuses : db'.statuses = db.statuses)
    (hroles : db'.userRoles = Table.deleteWhere (· = (⟨u, role⟩ : UserRole)) db.userRoles) :
    Wrote db db' (if role = .admin then some (.strip u) else none) := by
  have hadmins : ∀ v, db'.isDirectAdmin v =
      (db.isDirectAdmin v && !decide (v = u ∧ role = .admin)) := by
    intro v
    rw [DB.isDirectAdmin, hroles, deleteRole_admins]
  by_cases hadmin : role = .admin
  · rw [if_pos hadmin]
    apply Wrote.strips u hstatuses
    intro v
    rw [hadmins v]
    simp [hadmin]
  · rw [if_neg hadmin]
    apply Wrote.same hstatuses
    intro v
    rw [hadmins v]
    simp [hadmin]

theorem deleteWhere_of_absent {row : UserRole} (h : db.userRoles.any (· = row) = false) :
    Table.deleteWhere (· = row) db.userRoles = db.userRoles := by
  apply List.filter_eq_self.mpr
  intro r hr
  rw [List.any_eq_false] at h
  simpa using h r hr

theorem revokeRole_wrote (claims : TokenClaims) (id roleName : String) :
    Wrote db ((revokeRole db claims id roleName).toOption.getD db)
      ((AdminCall.revokeRole claims id roleName).write? svc db) := by
  by_cases hempty : id = ""
  · simp only [AdminCall.write?, hempty, true_or, if_true, revokeRole, Reply.require]
    exact .kept rfl rfl
  · cases hrole : Role.ofName roleName with
    | none =>
      have hrefused : (revokeRole db claims id roleName).toOption = none := by
        simp only [revokeRole, Reply.require, hrole, Reply.orElse]
        split <;> rfl
      have hnone : (AdminCall.revokeRole claims id roleName).write? svc db = none :=
        if_pos (.inr (.inr (by rw [hrole]; exact fun h => by cases h)))
      rw [hrefused, hnone]
      exact .kept rfl rfl
    | some role =>
      have hname : roleName ≠ "" := by
        rintro rfl
        cases hrole
      have hwrite : (AdminCall.revokeRole claims id roleName).write? svc db =
          if id = claims.subject.text ∧ role = .admin then none
          else (castUuid id).bind fun u => if role = .admin then some (.strip u) else none := by
        simp only [AdminCall.write?, hempty, hrole, false_or]
        by_cases hself : id = claims.subject.text <;> by_cases hadmin : role = .admin <;>
          cases castUuid id <;> simp [hself, hadmin]
      by_cases hself : id = claims.subject.text ∧ role = .admin
      · have hsubject : claims.subject.text ≠ "" := hself.1 ▸ hempty
        rw [hwrite, if_pos hself]
        simp only [revokeRole, Reply.require, hname, hrole, hself, Reply.orElse, bind,
          Except.bind, ne_eq, hsubject, not_false_eq_true, and_self, not_true_eq_false, if_true,
          if_false]
        exact .kept rfl rfl
      · rw [hwrite, if_neg hself]
        simp only [revokeRole, Reply.require, hempty, hname, hrole, hself, Reply.orElse, bind,
          Except.bind, ne_eq, not_false_eq_true, and_self, if_true]
        cases castUuid id with
        | none => exact .kept rfl rfl
        | some u =>
          simp only [Option.bind_some]
          cases hheld : db.userRoles.any (· = ⟨u, role⟩) with
          | false =>
            simp only [Bool.false_eq_true, if_false]
            exact .deleteRole rfl (deleteWhere_of_absent hheld).symm
          | true =>
            simp only [if_true]
            exact .deleteRole rfl rfl

theorem scimDeleteAs_wrote (actorID : Uuid) (id : String) :
    Wrote db (scimDeleteAs db now actorID id).1
      ((AdminCall.scimDelete actorID id).write? svc db) := by
  simp only [scimDeleteAs, AdminCall.write?]
  cases (castUuid id).bind db.user? with
  | none => exact .kept rfl rfl
  | some user =>
    simp only [deprovisionSessions_eq, Option.map_some]
    exact .status (withStatus_statuses db user.id .disabled) rfl

theorem patchUserOp_wrote (actorID userID : Uuid) (id : String) (o : ScimOperation) :
    Wrote db (patchUserOp svc now userID actorID id db o)
      ((o.activeFlag svc).map (.status userID)) := by
  obtain ⟨hkept, hstatuses⟩ := @patchUserOp_users svc db now userID actorID id o
  cases hflag : o.activeFlag svc with
  | none =>
    rw [hflag] at hstatuses
    exact .kept hstatuses hkept.userRoles
  | some active =>
    rw [hflag] at hstatuses
    exact .status hstatuses hkept.userRoles

theorem scimGate_wrote (s : AdminState) (authz : String) (rest : Uuid → AdminCall) :
    Wrote s.db (s.scimGate (requireSCIMToken svc s.db now authz) rest).1.db none := by
  obtain ⟨apiTokens, hkept⟩ := requireSCIMToken_kept svc s.db now authz
  rcases hgate : requireSCIMToken svc s.db now authz with ⟨db', e | actorID⟩
  · rw [hgate] at hkept
    simp only at hkept
    subst hkept
    exact .kept rfl rfl
  · rw [hgate] at hkept
    simp only at hkept
    subst hkept
    exact .kept rfl rfl

theorem commit_db (s : AdminState) (result : Reply DB) :
    (s.commit result).1.db = result.toOption.getD s.db := by
  cases result <;> rfl

/-- The next statement of a call writes what can be read off its arguments. -/
theorem exec_wrote (elapsed : Nat) (s : AdminState) (call : AdminCall) :
    Wrote s.db (call.exec svc elapsed s).1.db (call.write? svc s.db) := by
  cases call with
  | request r =>
    cases r with
    | disableUser authz id =>
      simp only [AdminCall.exec, AdminRequest.exec]
      split <;> exact .kept rfl rfl
    | revokeRole authz id roleName =>
      simp only [AdminCall.exec, AdminRequest.exec]
      split <;> exact .kept rfl rfl
    | scimDelete authz id => exact scimGate_wrote (s.tick elapsed) authz _
    | scimPatch authz id operations => exact scimGate_wrote (s.tick elapsed) authz _
  | disableUser claims id =>
    rw [AdminCall.exec, commit_db]
    exact disableUser_wrote claims id
  | revokeRole claims id roleName =>
    rw [AdminCall.exec, commit_db]
    exact revokeRole_wrote claims id roleName
  | scimDelete actorID id => exact scimDeleteAs_wrote actorID id
  | scimFetch actorID id operations =>
    simp only [AdminCall.exec]
    split
    · exact .kept rfl rfl
    · split <;> exact .kept rfl rfl
  | scimPatch actorID userID id operations =>
    cases operations with
    | nil => exact .kept rfl rfl
    | cons o rest => exact patchUserOp_wrote actorID userID id o

end Writes

/-! ## The administrators after a write -/

section After

variable {db db' : DB}

theorem isEnabled_of_disabled {u : Uuid} (h : db'.statuses = setStatus u .disabled db.statuses)
    (v : Uuid) : db'.isEnabled v = (db.isEnabled v && v ≠ u) := by
  rw [DB.isEnabled, h, DB.isEnabled, setStatus, Table.updateWhere, List.any_map]
  induction db.statuses with
  | nil => rfl
  | cons p ps ih =>
    rw [List.any_cons, List.any_cons, ih]
    by_cases hv : v = u <;> by_cases hp : p.1 = u <;> simp [hv, hp, Ne.symm]

theorem isEnabled_of_active {u : Uuid} (h : db'.statuses = setStatus u .active db.statuses)
    {v : Uuid} (hv : db.isEnabled v = true) : db'.isEnabled v = true := by
  rw [DB.isEnabled, List.any_eq_true] at hv
  obtain ⟨p, hp, hstatus⟩ := hv
  rw [DB.isEnabled, h, setStatus, Table.updateWhere, List.any_map, List.any_eq_true]
  refine ⟨p, hp, ?_⟩
  by_cases hu : p.1 = u
  · simp only [decide_eq_true_eq] at hstatus
    simp [hu, ← hstatus.1]
  · simpa [hu] using hstatus

theorem isEnabled_eq (h : db'.statuses = db.statuses) (v : Uuid) :
    db'.isEnabled v = db.isEnabled v := by rw [DB.isEnabled, h, DB.isEnabled]

/-- A write that ends nobody leaves every administrator working. -/
theorem Wrote.kept_working {w : Option AdminWrite} (h : Wrote db db' w)
    (hends : w.bind AdminWrite.ends = none) {v : Uuid} (hv : db.isWorkingAdmin v = true) :
    db'.isWorkingAdmin v = true := by
  rw [DB.isWorkingAdmin, Bool.and_eq_true] at hv ⊢
  cases h with
  | same hstatuses hadmins =>
    exact ⟨(isEnabled_eq hstatuses v).trans hv.1, (hadmins v).trans hv.2⟩
  | sets u active hstatuses hadmins =>
    cases active with
    | false => cases hends
    | true => exact ⟨isEnabled_of_active hstatuses hv.1, (hadmins v).trans hv.2⟩
  | strips u hstatuses hadmins => cases hends

/-- Any other write leaves the administrators it does not name. -/
theorem Wrote.ended {w : AdminWrite} (h : Wrote db db' (some w)) {u : Uuid}
    (hends : w.ends = some u) (v : Uuid) :
    db'.isWorkingAdmin v = (db.isWorkingAdmin v && v ≠ u) := by
  rw [DB.isWorkingAdmin, DB.isWorkingAdmin]
  cases h with
  | sets x active hstatuses hadmins =>
    cases active with
    | true => cases hends
    | false =>
      cases hends
      rw [isEnabled_of_disabled hstatuses, hadmins v, Bool.and_right_comm]
  | strips x hstatuses hadmins =>
    cases hends
    rw [isEnabled_eq hstatuses, hadmins v, Bool.and_assoc]

/-- The write takes the last working administrator exactly if it names one and there
is no other. -/
theorem Wrote.hasWorkingAdmin_iff {w : Option AdminWrite} (h : Wrote db db' w)
    (hsome : HasWorkingAdmin db) : HasWorkingAdmin db' ↔
      ∀ u, w.bind AdminWrite.ends = some u → db.isWorkingAdmin u = true →
        ∃ v, v ≠ u ∧ db.isWorkingAdmin v = true := by
  obtain ⟨a, ha⟩ := hsome
  cases hends : w.bind AdminWrite.ends with
  | none =>
    exact iff_of_true ⟨a, h.kept_working hends ha⟩ (by simp)
  | some u =>
    obtain ⟨w, rfl, hu⟩ := Option.bind_eq_some_iff.mp hends
    have hafter := h.ended hu
    constructor
    · rintro ⟨v, hv⟩ u' hu' -
      obtain rfl : u = u' := Option.some.inj hu'
      rw [hafter v] at hv
      simp only [Bool.and_eq_true, decide_eq_true_eq] at hv
      exact ⟨v, hv.2, hv.1⟩
    · intro hother
      by_cases hau : a = u
      · obtain ⟨v, hne, hv⟩ := hother u rfl (hau ▸ ha)
        exact ⟨v, by rw [hafter v, hv]; simpa using hne⟩
      · exact ⟨a, by rw [hafter a, ha]; simpa using hau⟩

/-- It takes nothing from a user it does not name. -/
theorem Wrote.spared {w : Option AdminWrite} (h : Wrote db db' w) {a : Uuid}
    (hends : w.bind AdminWrite.ends ≠ some a) :
    (db.isEnabled a = true → db'.isEnabled a = true) ∧
      (db.isDirectAdmin a = true → db'.isDirectAdmin a = true) := by
  cases h with
  | same hstatuses hadmins =>
    exact ⟨(isEnabled_eq hstatuses a).trans, (hadmins a).trans⟩
  | sets u active hstatuses hadmins =>
    cases active with
    | true => exact ⟨isEnabled_of_active hstatuses, (hadmins a).trans⟩
    | false =>
      have hne : a ≠ u := fun heq => hends (congrArg some heq.symm)
      refine ⟨fun ha => ?_, (hadmins a).trans⟩
      rw [isEnabled_of_disabled hstatuses, ha]
      simpa using hne
  | strips u hstatuses hadmins =>
    have hne : a ≠ u := fun heq => hends (congrArg some heq.symm)
    refine ⟨(isEnabled_eq hstatuses a).trans, fun ha => ?_⟩
    rw [hadmins a, ha]
    simpa using hne

end After

/-! ## Runs -/

/-- An administrator's own request neither disables them nor takes their role. -/
def NoSelfHarm (svc : Service) (s : AdminSystem) (m : Move AdminRequest Nat) : Prop :=
  ∀ i elapsed call a, m = .advance i elapsed → s.calls[i]? = some (.inl call) →
    call.actor = some a →
    let db' := (call.exec svc elapsed s.shared).1.db
    (s.shared.db.isEnabled a = true → db'.isEnabled a = true) ∧
      (s.shared.db.isDirectAdmin a = true → db'.isDirectAdmin a = true)

/-- If the statement about to run names a working administrator, there is another. -/
def LeavesAnother (svc : Service) (s : AdminSystem) (m : Move AdminRequest Nat) : Prop :=
  ∀ i elapsed call, m = .advance i elapsed → s.calls[i]? = some (.inl call) →
    ∀ u, (call.write? svc s.shared.db).bind AdminWrite.ends = some u →
      s.shared.db.isWorkingAdmin u = true → ∃ v, v ≠ u ∧ s.shared.db.isWorkingAdmin v = true

/-- The id a request names, and the subject of its token. -/
def AdminCall.names : AdminCall → Option (String × Uuid)
  | .disableUser claims id => some (id, claims.subject)
  | .revokeRole claims id _ => some (id, claims.subject)
  | _ => none

/-- An administrator's request names their own account as their token does, if at
all. -/
def SpellsOwnId (s : AdminSystem) (m : Move AdminRequest Nat) : Prop :=
  ∀ i elapsed call, m = .advance i elapsed → s.calls[i]? = some (.inl call) →
    ∀ id a, call.names = some (id, a) → castUuid id = some a → id = a.text

section Step

variable {svc : Service} {s : AdminSystem} {m : Move AdminRequest Nat}

theorem hasWorkingAdmin_step (h : HasWorkingAdmin s.shared.db) :
    HasWorkingAdmin ((adminHandlers svc).step s m).shared.db ↔ LeavesAnother svc s m := by
  cases m with
  | begin r =>
    apply iff_of_true h
    intro i elapsed call hm
    cases hm
  | advance i elapsed =>
    cases hcall : s.calls[i]? with
    | none =>
      simp only [Program.step, hcall]
      apply iff_of_true h
      intro _ _ call hm hcall'
      cases hm
      rw [hcall] at hcall'
      cases hcall'
    | some c =>
      cases c with
      | inr answer =>
        simp only [Program.step, hcall]
        apply iff_of_true h
        intro _ _ call hm hcall'
        cases hm
        rw [hcall] at hcall'
        cases hcall'
      | inl call =>
        simp only [Program.step, hcall, System.put_shared, adminHandlers_exec]
        rw [(exec_wrote elapsed s.shared call).hasWorkingAdmin_iff h]
        constructor
        · intro hother _ _ call' hm hcall'
          cases hm
          rw [hcall] at hcall'
          cases hcall'
          exact hother
        · intro hleaves
          exact hleaves i elapsed call rfl hcall

/-- Behind the guards a request never names the sender's id in the token's spelling. -/
theorem ends_ne_actor {db : DB} {call : AdminCall} {a : Uuid} (ha : call.actor = some a)
    (hspelling : ∀ id a, call.names = some (id, a) → castUuid id = some a → id = a.text) :
    (call.write? svc db).bind AdminWrite.ends ≠ some a := by
  intro hends
  obtain ⟨w, hw, hends⟩ := Option.bind_eq_some_iff.mp hends
  cases call with
  | disableUser claims id =>
    obtain rfl : claims.subject = a := Option.some.inj ha
    simp only [AdminCall.write?] at hw
    split at hw
    · cases hw
    · next hguard =>
      obtain ⟨u, hu, rfl⟩ := Option.map_eq_some_iff.mp hw
      obtain rfl : u = claims.subject := Option.some.inj hends
      have hcast := (Option.filter_eq_some_iff.mp hu).1
      exact hguard (.inr (hspelling id _ rfl hcast))
  | revokeRole claims id roleName =>
    obtain rfl : claims.subject = a := Option.some.inj ha
    simp only [AdminCall.write?] at hw
    split at hw
    · cases hw
    · next hguard =>
      obtain ⟨u, hcast, rfl⟩ := Option.map_eq_some_iff.mp hw
      obtain rfl : u = claims.subject := Option.some.inj hends
      exact hguard (.inr (.inl (hspelling id _ rfl hcast)))
  | request r => cases ha
  | scimDelete actorID id => cases ha
  | scimFetch actorID id operations => cases ha
  | scimPatch actorID userID id operations => cases ha

theorem noSelfHarm_of_spelling (h : SpellsOwnId s m) : NoSelfHarm svc s m := by
  intro i elapsed call a hm hcall ha
  exact (exec_wrote elapsed s.shared call).spared (ends_ne_actor ha (h i elapsed call hm hcall))

end Step

/-- One administrator. -/
def loneAdmin : DB where
  users := [{ sampleUser 1 "ada" with status := .active }]
  userRoles := [⟨Uuid.ofNat 1, .admin⟩]
  apiTokens := [⟨Uuid.ofNat 3, Uuid.ofNat 1, "idp", (sampleService.sha256 (bytesOf "t")).bytes,
    .scim, none, none⟩]

theorem loneAdmin_isWorkingAdmin (u : Uuid) :
    loneAdmin.isWorkingAdmin u = decide (u = Uuid.ofNat 1) := by
  rw [Bool.eq_iff_iff, DB.isWorkingAdmin, DB.isEnabled, DB.isDirectAdmin]
  simp [loneAdmin, DB.statuses, sampleUser, eq_comm]

theorem loneAdmin_hasWorkingAdmin : HasWorkingAdmin loneAdmin :=
  ⟨Uuid.ofNat 1, by rw [loneAdmin_isWorkingAdmin, decide_eq_true rfl]⟩

/-- The identity provider deletes a user. -/
def deleteMoves (id : String) : List (Move AdminRequest Nat) :=
  [.begin (.scimDelete "Bearer t" id), .advance 0 0, .advance 0 0]

theorem spellsOwnId_deleteMoves : Runs.Every (adminHandlers sampleService).step SpellsOwnId
    ⟨⟨loneAdmin, 0⟩, []⟩ (deleteMoves (Uuid.ofNat 2).text) := by
  refine ⟨?_, ?_, ?_, trivial⟩
  · intro i elapsed call hm
    cases hm
  · intro i elapsed call hm hcall id a hnames
    cases hm
    cases hcall
    cases hnames
  · intro i elapsed call hm hcall id a hnames
    cases hm
    cases hcall
    cases hnames

end IronStock

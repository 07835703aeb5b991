import IronStock.ScimEffects

/-!
# The requests of the router

One step function over the endpoints that read or write accounts, credentials
and roles, and the vault behind them, with what a request may do to sessions.
-/
namespace IronStock

inductive Request
  | login (ctx : LoginContext) (draw : LoginDraw) (req : LoginRequest)
  | refresh (client : ClientInfo) (refreshToken : String) (draw : RefreshDraw)
  | logout (authz : String)
  | logoutAll (authz : String)
  | recoverInit (username recoveryCode : String)
  | recoverComplete (authz : String) (req : RecoverCompleteRequest) (salt : Bytes)
      (codes : List (Uuid × Bytes))
  | totpInit (authz : String) (draw : TotpDraw)
  | totpVerify (authz code : String) (codes : List (Uuid × Bytes))
  | totpDisable (authz masterPassword : String)
  | totpRegenerateBackup (authz totpCode : String) (codes : List (Uuid × Bytes))
  | changePassword (authz : String) (req : ChangePasswordRequest) (salt : Bytes)
  | createAPIToken (authz : String) (req : CreateAPITokenRequest) (draw : APITokenDraw)
  | deleteAPIToken (authz tokenID : String)
  | admin (authz : String) (op : AdminOp)
  | scim (authz : String) (op : ScimOp)
  | vault (authz : String) (req : VaultRequest)

namespace Request

/-- The state after a request; a refused one may still have counted a failure. -/
def step (svc : Service) (db : DB) (now : Time) : Request → DB
  | login ctx draw req => (IronStock.login svc db now ctx draw req).1
  | refresh client refreshToken draw => (IronStock.refresh svc db now client refreshToken draw).1
  | logout authz => (IronStock.logout svc db now authz).toOption.getD db
  | logoutAll authz => (IronStock.logoutAll svc db now authz).toOption.getD db
  | recoverInit username code => (IronStock.recoverInit svc db now username code).1
  | recoverComplete authz req salt codes =>
    (IronStock.recoverComplete svc db now authz req salt codes).toOption.getD db
  | totpInit authz draw =>
    ((IronStock.totpInit svc db now authz draw).toOption.map Prod.fst).getD db
  | totpVerify authz code codes =>
    (IronStock.totpVerify svc db now authz code codes).toOption.getD db
  | totpDisable authz password => (IronStock.totpDisable svc db now authz password).1
  | totpRegenerateBackup authz code codes =>
    (IronStock.totpRegenerateBackup svc db now authz code codes).toOption.getD db
  | changePassword authz req salt => (IronStock.changePassword svc db now authz req salt).1
  | createAPIToken authz req draw =>
    ((IronStock.createAPIToken svc db now authz req draw).toOption.map Prod.fst).getD db
  | deleteAPIToken authz tokenID =>
    (IronStock.deleteAPIToken svc db now authz tokenID).toOption.getD db
  | admin authz op => (adminRequest svc db now authz op).toOption.getD db
  | scim authz op => (scimRequest svc db now authz op).1
  | vault authz req =>
    match requireAccessTokenMiddleware svc db now authz with
    | .error _ => db
    | .ok claims => req.step svc db now claims.toClaims

/-- The claims of the access token in the answer; a refresh token is sent with
it and nowhere else. -/
def issued (svc : Service) (db : DB) (now : Time) : Request → Option Claims
  | login ctx draw req =>
    (IronStock.login svc db now ctx draw req).2.toOption.map LoginResponse.claims
  | refresh client refreshToken draw => refreshClaims svc db now client refreshToken draw
  | _ => none

/-- The claims of a temporary token in the answer. -/
def issuedTmp (svc : Service) (db : DB) (now : Time) : Request → Option Claims
  | recoverInit username code =>
    match fetchUserForLogin db (svc.toLower username),
        (IronStock.recoverInit svc db now username code).2 with
    | some user, .ok _ => some ⟨user.id, []⟩
    | _, _ => none
  | _ => none

end Request

/-! ## Administration -/

section Admin

variable {svc : Service} {db db' : DB} {now : Time} {authz : String} {claims : TokenClaims}

/-- No admin request opens a session. -/
theorem AdminOp.handle_onlyRevoked {op : AdminOp} (h : op.handle db now claims = .ok db') :
    OnlyRevoked db db' := by
  cases op with
  | disableUser id =>
    simp only [handle, IronStock.disableUser, Reply.bind_eq_ok] at h
    obtain ⟨_, _, _, _, user, _, h⟩ := h
    split at h <;> cases h
    · exact revokeSessions_onlyRevoked (db.updateUser user _) now .admin _
    · exact .of_eq rfl
  | enableUser id =>
    simp only [handle, IronStock.enableUser, Reply.bind_eq_ok] at h
    obtain ⟨_, _, user, _, h⟩ := h
    split at h <;> cases h <;> exact .of_eq rfl
  | grantRole id roleName =>
    simp only [handle, IronStock.grantRole, Reply.bind_eq_ok] at h
    obtain ⟨_, _, _, _, _, _, _, _, h⟩ := h
    split at h <;> cases h <;> exact .of_eq rfl
  | revokeRole id roleName =>
    simp only [handle, IronStock.revokeRole, Reply.bind_eq_ok] at h
    obtain ⟨_, _, _, _, _, _, _, _, h⟩ := h
    split at h <;> cases h <;> exact .of_eq rfl
  | resetTOTP id =>
    simp only [handle, adminResetTOTP, Reply.bind_eq_ok, Reply.pure_eq_ok] at h
    obtain ⟨_, _, user, _, rfl⟩ := h
    exact revokeSessions_onlyRevoked
      (((db.deleteTOTPSecret user).deleteRecoveryCodes user).updateUser user _) now .admin _
  | setTOTPRequired id required =>
    simp only [handle, IronStock.setTOTPRequired, Reply.bind_eq_ok, Reply.pure_eq_ok] at h
    obtain ⟨_, _, _, _, _, _, _, _, rfl⟩ := h
    exact .of_eq rfl
  | createGroup id name =>
    simp only [handle, IronStock.createGroup, Reply.bind_eq_ok] at h
    obtain ⟨_, _, h⟩ := h
    split at h
    · split at h <;> cases h
    · next hinsert =>
      cases h
      obtain ⟨_, rfl⟩ := insertGroup_eq_ok hinsert
      exact .of_eq rfl
  | deleteGroup id =>
    simp only [handle, IronStock.deleteGroup, Reply.bind_eq_ok] at h
    obtain ⟨_, _, h⟩ := h
    split at h <;> cases h <;> exact .of_eq rfl
  | addGroupMember groupID userID =>
    simp only [handle, IronStock.addGroupMember, Reply.bind_eq_ok, Reply.orElse_eq_ok,
      Reply.toOption_eq_some, Reply.pure_eq_ok] at h
    obtain ⟨_, _, _, _, _, _, _, _, db₁, hinsert, rfl⟩ := h
    exact .of_eq (insertMember_groups hinsert).sessions
  | removeGroupMember groupID userID =>
    simp only [handle, IronStock.removeGroupMember, Reply.bind_eq_ok, Reply.pure_eq_ok] at h
    obtain ⟨_, _, _, _, rfl⟩ := h
    exact .of_eq rfl
  | updateGroupRole id roleName =>
    simp only [handle, IronStock.updateGroupRole, Reply.bind_eq_ok, Reply.pure_eq_ok] at h
    obtain ⟨_, _, _, _, _, _, rfl⟩ := h
    exact .of_eq rfl

theorem adminRequest_onlyRevoked {op : AdminOp} (h : adminRequest svc db now authz op = .ok db') :
    OnlyRevoked db db' := by
  simp only [adminRequest, Reply.bind_eq_ok] at h
  obtain ⟨_, _, h⟩ := h
  exact AdminOp.handle_onlyRevoked h

end Admin

/-! ## Sessions and authority along a request -/

namespace Request

variable {svc : Service} {db : DB} {now : Time}

theorem onlyRevoked_getD {r : Reply DB} (h : ∀ db', r = .ok db' → OnlyRevoked db db') :
    OnlyRevoked db (r.toOption.getD db) := by
  cases r with
  | error e => exact .of_eq rfl
  | ok db' => exact h db' rfl

theorem onlyRevoked_fst_getD {α : Type} {r : Reply (DB × α)}
    (h : ∀ db' a, r = .ok (db', a) → OnlyRevoked db db') :
    OnlyRevoked db ((r.toOption.map Prod.fst).getD db) := by
  cases r with
  | error e => exact .of_eq rfl
  | ok p => exact h p.1 p.2 rfl

/-- Every request opens at most the session it answers for. -/
theorem sessions_change (req : Request) :
    SessionChange db now (req.step svc db now) (req.issued svc db now) := by
  cases req with
  | login ctx draw req => exact (login_effect svc db now ctx draw req).2
  | refresh client token draw => exact (refresh_effect svc db now client token draw).2
  | logout authz => exact .closed (onlyRevoked_getD fun _ h => (logout_kept h).2)
  | logoutAll authz => exact .closed (onlyRevoked_getD fun _ h => (logoutAll_kept h).2)
  | recoverInit username code => exact .closed (recoverInit_kept username code).2
  | recoverComplete authz req salt codes =>
    refine .closed (onlyRevoked_getD fun db' h => ?_)
    obtain ⟨u, db₁, _, _, hrotate, rfl⟩ := recoverComplete_eq_ok h
    obtain ⟨_, hsame, _⟩ := rotateKeypair_kept hrotate
    exact (OnlyRevoked.of_eq hsame).trans (revokeSessions_onlyRevoked
      ((db₁.deleteRecoveryCodes u).addRecoveryCodes u codes) now .recovery (·.userId = u))
  | totpInit authz draw =>
    refine .closed (onlyRevoked_fst_getD fun db' _ h => ?_)
    obtain ⟨_, _, _, _, rfl⟩ := totpInit_eq_ok h
    exact .of_eq rfl
  | totpVerify authz code codes =>
    refine .closed (onlyRevoked_getD fun db' h => ?_)
    obtain ⟨_, _, _, _, _, _, _, _, rfl⟩ := totpVerify_eq_ok h
    exact .of_eq rfl
  | totpDisable authz password =>
    refine .closed (.of_eq ?_)
    rcases totpDisable_cases svc db now authz password with ⟨_, hs⟩ | ⟨_, _, _, _, _, hdb'⟩
    · exact hs
    · simp only [step, hdb']
      rfl
  | totpRegenerateBackup authz code codes =>
    exact .closed (onlyRevoked_getD fun _ h => (totpRegenerateBackup_kept h).2)
  | changePassword authz req salt => exact .closed (changePassword_kept req salt).2
  | createAPIToken authz req draw =>
    exact .closed (onlyRevoked_fst_getD fun _ _ h => (createAPIToken_kept h).2)
  | deleteAPIToken authz tokenID =>
    exact .closed (onlyRevoked_getD fun _ h => (deleteAPIToken_kept h).2)
  | admin authz op => exact .closed (onlyRevoked_getD fun _ h => adminRequest_onlyRevoked h)
  | scim authz op =>
    exact .closed (.of_eq (scimRequest_effect svc db now authz op).credentials.sessions)
  | vault authz req =>
    refine .closed (.of_eq ?_)
    simp only [step]
    split
    · rfl
    · exact congrArg AccountTables.sessions (VaultRequest.step_accounts req)

/-- The requests that touch no status, role, group or second factor. -/
def ordinary : Request → Bool
  | recoverComplete .. | totpInit .. | totpVerify .. | totpDisable .. | admin .. | scim .. => false
  | _ => true

theorem step_kept {req : Request} (h : req.ordinary = true) :
    AuthorityKept db (req.step svc db now) := by
  cases req with
  | login ctx draw req => exact (login_effect svc db now ctx draw req).1
  | refresh client token draw => exact (refresh_effect svc db now client token draw).1
  | logout authz => exact .getD fun _ h => (logout_kept h).1
  | logoutAll authz => exact .getD fun _ h => (logoutAll_kept h).1
  | recoverInit username code => exact (recoverInit_kept username code).1
  | totpRegenerateBackup authz code codes => exact .getD fun _ h => (totpRegenerateBackup_kept h).1
  | changePassword authz req salt => exact (changePassword_kept req salt).1
  | createAPIToken authz req draw => exact .fst_getD fun _ _ h => (createAPIToken_kept h).1
  | deleteAPIToken authz tokenID => exact .getD fun _ h => (deleteAPIToken_kept h).1
  | vault authz req =>
    simp only [step]
    split
    · exact .refl db
    · exact .of_accounts (VaultRequest.step_accounts req)
  | recoverComplete | totpInit | totpVerify | totpDisable | admin | scim => cases h

end Request

/-! ## Runs -/

/-- A request and the time it is served at. -/
structure Call where
  now : Time
  req : Request

def Call.step (svc : Service) (db : DB) (c : Call) : DB := c.req.step svc db c.now

end IronStock

import IronStock.ApiTokens
import IronStock.RecoverHandlers
import IronStock.RefreshHandler
import IronStock.VaultRequests

/-!
# What requests do to authority and sessions

Statuses, roles, groups and second factors decide who may do what. Most
handlers leave them alone, and a session is opened by a login or a refresh only.
-/
namespace IronStock

/-! ## Statuses, roles and second factors -/

/-- Ids and statuses of the rows of `users`. -/
def DB.statuses (db : DB) : List (Uuid × UserStatus) := db.users.map fun u => (u.id, u.status)

/-- The user has a row, and it is not disabled. -/
def DB.isEnabled (db : DB) (u : Uuid) : Bool :=
  db.statuses.any fun p => p.1 = u ∧ p.2 ≠ .disabled

theorem isEnabled_of_mem {db : DB} {user : User} (h : user ∈ db.users)
    (hstatus : user.status ≠ .disabled) : db.isEnabled user.id = true := by
  rw [DB.isEnabled, List.any_eq_true]
  exact ⟨(user.id, user.status), List.mem_map_of_mem h, by simpa using hstatus⟩

/-- An update of a user is seen in the statuses as far as it sets one. -/
theorem updateUser_statuses {db : DB} {u : Uuid} {f : User → User}
    {g : Uuid × UserStatus → Uuid × UserStatus}
    (hf : ∀ r, ((f r).id, (f r).status) = g (r.id, r.status)) :
    (db.updateUser u f).statuses = Table.updateWhere (·.1 = u) g db.statuses := by
  unfold DB.statuses DB.updateUser Table.updateWhere
  rw [List.map_map, List.map_map]
  apply List.map_congr_left
  intro r _
  by_cases hr : r.id = u
  · have hset := hf r
    rw [hr] at hset
    simpa [hr] using hset
  · simp [hr]

theorem updateUser_statuses_eq {db : DB} {u : Uuid} {f : User → User}
    (hf : ∀ r, (f r).id = r.id ∧ (f r).status = r.status) :
    (db.updateUser u f).statuses = db.statuses := by
  rw [updateUser_statuses (g := id) fun r => Prod.ext (hf r).1 (hf r).2]
  simp [Table.updateWhere]

/-- What decides who may do what: statuses, roles, groups and second factors. -/
structure AuthorityKept (db db' : DB) : Prop where
  statuses : db'.statuses = db.statuses
  userRoles : db'.userRoles = db.userRoles
  groups : db'.groups = db.groups
  groupMembers : db'.groupMembers = db.groupMembers
  totpSecrets : db'.totpSecrets = db.totpSecrets

namespace AuthorityKept

variable {db db' db'' : DB}

theorem refl (db : DB) : AuthorityKept db db := ⟨rfl, rfl, rfl, rfl, rfl⟩

theorem trans (h : AuthorityKept db db') (h' : AuthorityKept db' db'') : AuthorityKept db db'' where
  statuses := h'.statuses.trans h.statuses
  userRoles := h'.userRoles.trans h.userRoles
  groups := h'.groups.trans h.groups
  groupMembers := h'.groupMembers.trans h.groupMembers
  totpSecrets := h'.totpSecrets.trans h.totpSecrets

theorem audit (db : DB) (e : AuditEntry) : AuthorityKept db (db.audit e) :=
  ⟨rfl, rfl, rfl, rfl, rfl⟩

theorem of_accounts (h : db'.accounts = db.accounts) : AuthorityKept db db' where
  statuses := by
    have husers : db'.users = db.users := congrArg AccountTables.users h
    rw [DB.statuses, husers]
    rfl
  userRoles := congrArg AccountTables.userRoles h
  groups := congrArg AccountTables.groups h
  groupMembers := congrArg AccountTables.groupMembers h
  totpSecrets := congrArg AccountTables.totpSecrets h

/-- An update of columns other than the id and the status. -/
theorem updateUser {f : User → User} (u : Uuid)
    (hf : ∀ r, (f r).id = r.id ∧ (f r).status = r.status) :
    AuthorityKept db (db.updateUser u f) :=
  ⟨updateUser_statuses_eq hf, rfl, rfl, rfl, rfl⟩

theorem revokeSessions (db : DB) (now : Time) (reason : RevokeReason) (p : Session → Bool) :
    AuthorityKept db (db.revokeSessions now reason p) := ⟨rfl, rfl, rfl, rfl, rfl⟩

theorem getD {r : Reply DB} (h : ∀ db', r = .ok db' → AuthorityKept db db') :
    AuthorityKept db (r.toOption.getD db) := by
  cases r with
  | error e => exact refl db
  | ok db' => exact h db' rfl

theorem fst_getD {α : Type} {r : Reply (DB × α)}
    (h : ∀ db' a, r = .ok (db', a) → AuthorityKept db db') :
    AuthorityKept db ((r.toOption.map Prod.fst).getD db) := by
  cases r with
  | error e => exact refl db
  | ok p => exact h p.1 p.2 rfl

theorem hasRole (h : AuthorityKept db db') (u : Uuid) (role : Role) :
    db'.hasRole u role = db.hasRole u role := by
  unfold DB.hasRole DB.group?
  rw [h.userRoles, h.groups, h.groupMembers]

theorem fetchUserRoles (h : AuthorityKept db db') (u : Uuid) :
    IronStock.fetchUserRoles db' u = IronStock.fetchUserRoles db u := by
  unfold IronStock.fetchUserRoles
  rw [funext (h.hasRole u)]

end AuthorityKept

section Users

variable {svc : Service} {db : DB} {now : Time}

theorem recordLoginFailure_kept (u : Uuid) :
    AuthorityKept db (recordLoginFailure db now u) :=
  .updateUser u fun r => ⟨loginFailed_id now r, loginFailed_status now r⟩

theorem recordRefusal_kept (user : User) (r : LoginRefusal) :
    AuthorityKept db (db.recordRefusal user r) ∧
      (db.recordRefusal user r).sessions = db.sessions := by
  unfold DB.recordRefusal
  have hfold : ∀ (actions : List String) (d : DB),
      AuthorityKept db d ∧ d.sessions = db.sessions →
      AuthorityKept db (actions.foldl (fun d action =>
        d.audit ⟨user.id.text, action, "user", user.id.text⟩) d) ∧
      (actions.foldl (fun d action =>
        d.audit ⟨user.id.text, action, "user", user.id.text⟩) d).sessions = db.sessions := by
    intro actions
    induction actions with
    | nil => exact fun d hd => hd
    | cons action rest ih => exact fun d hd => ih _ ⟨hd.1.trans (.audit d _), hd.2⟩
  exact hfold r.actions _ ⟨.audit db _, rfl⟩

theorem confirmPassword_kept (u : Uuid) (password : String) :
    AuthorityKept db (confirmPassword svc db now u password).1 ∧
      (confirmPassword svc db now u password).1.sessions = db.sessions := by
  unfold confirmPassword
  split
  · exact ⟨.refl db, rfl⟩
  · split
    · exact ⟨.refl db, rfl⟩
    · exact ⟨recordLoginFailure_kept u, rfl⟩
    · exact ⟨.refl db, rfl⟩

theorem rotateKeypair_kept {u : Uuid} {publicKey : Option Bytes} {privateKeyEnc kekSalt : Bytes}
    {kekParams : String} {db' : DB}
    (h : db.rotateKeypair u publicKey privateKeyEnc kekSalt kekParams = .ok db') :
    AuthorityKept db db' ∧ db'.sessions = db.sessions ∧ db'.users = db.users := by
  unfold DB.rotateKeypair at h
  split at h
  · cases h
    exact ⟨.refl db, rfl, rfl⟩
  · split at h
    · cases h
    · cases h
      exact ⟨⟨rfl, rfl, rfl, rfl, rfl⟩, rfl, rfl⟩

end Users

/-! ## Sessions -/

/-- Every open row was there before. -/
def OnlyRevoked (db db' : DB) : Prop := ∀ s ∈ db'.sessions, s.isOpen = true → s ∈ db.sessions

theorem OnlyRevoked.of_eq {db db' : DB} (h : db'.sessions = db.sessions) : OnlyRevoked db db' :=
  fun _ hs _ => h ▸ hs

theorem OnlyRevoked.trans {db db' db'' : DB} (h : OnlyRevoked db db') (h' : OnlyRevoked db' db'') :
    OnlyRevoked db db'' :=
  fun s hs hopen => h s (h' s hs hopen) hopen

theorem revokeSessions_onlyRevoked (db : DB) (now : Time) (reason : RevokeReason)
    (p : Session → Bool) : OnlyRevoked db (db.revokeSessions now reason p) := by
  intro s hs hopen
  rcases mem_revokeSessions db now reason p hs with ⟨hs, _⟩ | ⟨s₀, _, _, rfl⟩
  · exact hs
  · cases hopen

theorem createSession_kept {db db' : DB} {id userID : Uuid} {refreshHash : Digest}
    {client : ClientInfo} {expiresAt : Time}
    (h : createSession db id userID refreshHash client expiresAt = .ok db') :
    ∃ s : Session, s.userId = userID ∧ AuthorityKept db db' ∧
      db'.sessions = db.sessions ++ [s] := by
  obtain ⟨_, _, _, rfl⟩ := createSession_eq_ok.mp h
  exact ⟨_, rfl, ⟨rfl, rfl, rfl, rfl, rfl⟩, rfl⟩

/-- Who gets a session: a user who is not disabled, by logging in, or the owner
of a session that is neither revoked nor past its end, by refreshing it. -/
def MayOpenSession (db : DB) (now : Time) (u : Uuid) : Prop :=
  db.isEnabled u = true ∨
    ∃ row ∈ db.sessions, row.userId = u ∧ row.isOpen = true ∧ now ≤ row.expiresAt

/-- What becomes of the sessions, and the claims that are issued: none with no
new session, or those of the owner of the new one. -/
inductive SessionChange (db : DB) (now : Time) (db' : DB) : Option Claims → Prop
  | closed (sessions : OnlyRevoked db db') : SessionChange db now db' none
  | opened (s : Session) (may : MayOpenSession db now s.userId)
      (sessions : ∀ s' ∈ db'.sessions, s'.isOpen = true → s' ∈ db.sessions ∨ s' = s) :
    SessionChange db now db' (some ⟨s.userId, fetchUserRoles db s.userId⟩)

namespace SessionChange

variable {db db₀ db₁ db' : DB} {now : Time} {c : Option Claims}

/-- A step before it that leaves sessions, statuses and roles alone. -/
theorem from_kept (h : SessionChange db₀ now db' c) (kept : AuthorityKept db db₀)
    (hs : db₀.sessions = db.sessions) : SessionChange db now db' c := by
  cases h with
  | closed hclosed => exact .closed ((OnlyRevoked.of_eq hs).trans hclosed)
  | opened s may hopened =>
    rw [kept.fetchUserRoles]
    refine .opened s ?_ fun s' hs' hopen => ?_
    · rwa [MayOpenSession, DB.isEnabled, kept.statuses, hs] at may
    · rw [← hs]
      exact hopened s' hs' hopen

/-- A step after it that leaves the sessions alone. -/
theorem to_kept (h : SessionChange db now db₁ c) (hs : db'.sessions = db₁.sessions) :
    SessionChange db now db' c := by
  cases h with
  | closed hclosed => exact .closed (hclosed.trans (.of_eq hs))
  | opened s may hopened =>
    refine .opened s may fun s' hs' hopen => ?_
    rw [hs] at hs'
    exact hopened s' hs' hopen

end SessionChange

/-! ## Login -/

def LoginResponse.claims (resp : LoginResponse) : Claims := ⟨resp.userID, resp.roles⟩

section Login

variable {svc : Service} {db : DB} {now : Time} {ctx : LoginContext} {draw : LoginDraw}
  {user : User}

/-- What a login does with the accounts and the sessions. -/
def LoginEffect (db : DB) (now : Time) (r : DB × Reply LoginResponse) : Prop :=
  AuthorityKept db r.1 ∧ SessionChange db now r.1 (r.2.toOption.map LoginResponse.claims)

theorem LoginEffect.refused {db db' : DB} (kept : AuthorityKept db db')
    (hs : db'.sessions = db.sessions) (e : ApiError) : LoginEffect db now (db', .error e) :=
  ⟨kept, .closed (.of_eq hs)⟩

theorem finishLogin_effect (huser : user ∈ db.users) (hstatus : user.status ≠ .disabled) :
    LoginEffect db now (finishLogin svc db now ctx draw user) := by
  unfold finishLogin
  split
  · next e _ => exact .refused (.refl db) rfl e
  · next db' h =>
    obtain ⟨db₁, hcreate, rfl⟩ := openSession_eq_ok h
    obtain ⟨s, howner, hinsert, hsessions⟩ := createSession_kept hcreate
    have hlogin : AuthorityKept db (recordLoginSuccess db user.id) :=
      .updateUser user.id fun _ => ⟨rfl, rfl⟩
    have kept := (hlogin.trans hinsert).trans (.audit _
      ⟨user.id.text, "auth.login", "session", draw.sessionID.text⟩)
    refine ⟨kept, ?_⟩
    have may : MayOpenSession db now s.userId := .inl (howner ▸ isEnabled_of_mem huser hstatus)
    rw [Except.toOption, Option.map_some, LoginResponse.claims, loginResponse, kept.fetchUserRoles,
      ← howner]
    exact .opened s may fun s' hs' _ => by
      simpa [hsessions, recordLoginSuccess] using hs'

theorem rememberDevice_effect {r : DB × Reply LoginResponse} (h : LoginEffect db now r) :
    LoginEffect db now (rememberDevice svc now draw user r) := by
  unfold rememberDevice
  split
  · exact h
  · next resp hresp =>
    split
    · exact h
    · next db' hcreate =>
      obtain ⟨rows, rfl⟩ := createTrustedDevice_eq_ok hcreate
      obtain ⟨kept, hs⟩ := h
      rw [hresp] at hs
      exact ⟨kept.trans ⟨rfl, rfl, rfl, rfl, rfl⟩, hs.to_kept rfl⟩

/-- The status check of the gate. -/
theorem loginGate_status {svc : Service} {now : Time} {ctx : LoginContext}
    (h : loginGate svc now ctx user = none) : user.status ≠ .disabled := by
  intro hdisabled
  unfold loginGate at h
  simp only [hdisabled, if_true] at h
  repeat' split at h
  all_goals cases h

theorem verifyTrustedDevice_kept (hash : Option Digest) (u : Uuid) :
    AuthorityKept db (verifyTrustedDevice db now u hash).1 ∧
      (verifyTrustedDevice db now u hash).1.sessions = db.sessions ∧
      (verifyTrustedDevice db now u hash).1.users = db.users := by
  cases hash with
  | none => exact ⟨.refl db, rfl, rfl⟩
  | some h => exact ⟨⟨rfl, rfl, rfl, rfl, rfl⟩, rfl, rfl⟩

theorem loginWithCode_effect (huser : user ∈ db.users) (hstatus : user.status ≠ .disabled)
    (row : TotpSecret) (req : LoginRequest) :
    LoginEffect db now (loginWithCode svc db now ctx draw user row req) := by
  unfold loginWithCode
  split
  · exact .refused (.audit db _) rfl _
  · split
    · exact .refused (.refl db) rfl _
    · have hfinish := @finishLogin_effect svc db now ctx draw user huser hstatus
      split
      · simp only
        split
        · exact rememberDevice_effect hfinish
        · exact hfinish
      · exact .refused ((recordLoginFailure_kept user.id).trans (.audit _ _)) rfl _

theorem loginFactors_effect (huser : user ∈ db.users) (hstatus : user.status ≠ .disabled)
    (req : LoginRequest) :
    LoginEffect db now (loginFactors svc db now ctx draw user req) := by
  unfold loginFactors
  split
  · obtain ⟨kept, hs⟩ := @finishLogin_effect svc db now ctx draw user huser hstatus
    refine ⟨kept, ?_⟩
    simp only
    cases hresp : (finishLogin svc db now ctx draw user).2 <;> rw [hresp] at hs <;> exact hs
  · next row _ =>
    obtain ⟨hkept, hsessions, husers⟩ := @verifyTrustedDevice_kept db now
      (ctx.deviceCookie.bind (hashDeviceToken svc)) user.id
    have huser' : user ∈ (verifyTrustedDevice db now user.id
      (ctx.deviceCookie.bind (hashDeviceToken svc))).1.users := husers ▸ huser
    simp only
    split
    · obtain ⟨kept, hs⟩ := @finishLogin_effect svc _ now ctx draw user huser' hstatus
      split
      · exact ⟨hkept.trans kept, hs.from_kept hkept hsessions⟩
      · next resp hresp =>
        exact ⟨hkept.trans (kept.trans (.audit _ _)), (hs.from_kept hkept hsessions).to_kept rfl⟩
    · obtain ⟨kept, hs⟩ := @loginWithCode_effect svc _ now ctx draw user huser' hstatus row req
      exact ⟨hkept.trans kept, hs.from_kept hkept hsessions⟩

/-- A login touches no authority, and opens a session for nobody who is
disabled. -/
theorem login_effect (svc : Service) (db : DB) (now : Time) (ctx : LoginContext)
    (draw : LoginDraw) (req : LoginRequest) :
    LoginEffect db now (login svc db now ctx draw req) := by
  unfold login
  split
  · exact .refused (.refl db) rfl _
  · split
    · exact .refused (.audit db _) rfl _
    · next user hfetch =>
      have huser : user ∈ db.users := List.mem_of_find?_eq_some hfetch
      split
      · next r _ =>
        obtain ⟨kept, hs⟩ := @recordRefusal_kept db user r
        exact .refused kept hs _
      · next hgate =>
        split
        · exact .refused (.refl db) rfl _
        · exact .refused ((recordLoginFailure_kept user.id).trans (.audit _ _)) rfl _
        · exact loginFactors_effect huser (loginGate_status hgate) req

end Login

/-! ## Refresh -/

section Refresh

variable {svc : Service} {db : DB} {now : Time}

theorem flagBinding_kept (row : Session) (client : ClientInfo) :
    AuthorityKept db (flagBinding db row client) ∧
      (flagBinding db row client).sessions = db.sessions := by
  unfold flagBinding
  split
  · exact ⟨.audit db _, rfl⟩
  · exact ⟨.refl db, rfl⟩

/-- The claims of the access token a refresh answers with. -/
def refreshClaims (svc : Service) (db : DB) (now : Time) (client : ClientInfo)
    (refreshToken : String) (draw : RefreshDraw) : Option Claims :=
  match decideRefresh svc db now refreshToken, refresh svc db now client refreshToken draw with
  | .rotate row, (db', .ok _) => some ⟨row.userId, fetchUserRoles db' row.userId⟩
  | _, _ => none

/-- A refresh touches no authority, and opens a session for the owner of a live
one only. -/
theorem refresh_effect (svc : Service) (db : DB) (now : Time) (client : ClientInfo)
    (refreshToken : String) (draw : RefreshDraw) :
    AuthorityKept db (refresh svc db now client refreshToken draw).1 ∧
      SessionChange db now (refresh svc db now client refreshToken draw).1
        (refreshClaims svc db now client refreshToken draw) := by
  unfold refreshClaims refresh
  cases hdecide : decideRefresh svc db now refreshToken with
  | refuse e => exact ⟨.refl db, .closed (.of_eq rfl)⟩
  | reuse row =>
    exact ⟨(AuthorityKept.revokeSessions db now _ _).trans (.audit _ _),
      .closed (revokeSessions_onlyRevoked db now _ _)⟩
  | rotate row =>
    obtain ⟨hrow, hopen, hlive⟩ := decideRefresh_rotate hdecide
    obtain ⟨hflag, hflagged⟩ := @flagBinding_kept db row client
    simp only
    cases hrotate : rotateSession svc (flagBinding db row client) now row client draw with
    | error e => exact ⟨hflag, .closed (.of_eq hflagged)⟩
    | ok db' =>
      obtain ⟨s, howner, hinsert, hsessions⟩ := createSession_kept hrotate
      have kept : AuthorityKept db db' :=
        hflag.trans ((AuthorityKept.revokeSessions _ now .rotation (·.id = row.id)).trans hinsert)
      refine ⟨kept.trans (.audit _ _), ?_⟩
      simp only
      rw [(kept.trans (.audit _ _)).fetchUserRoles, ← howner]
      refine .opened s (.inr ⟨row, hrow, howner.symm, hopen, hlive⟩) fun s' hs' hopen' => ?_
      rw [audit_sessions, hsessions] at hs'
      rcases List.mem_append.mp hs' with hold | hnew
      · rw [← hflagged]
        exact .inl (revokeSessions_onlyRevoked _ now .rotation (·.id = row.id) s' hold hopen')
      · exact .inr (List.mem_singleton.mp hnew)

end Refresh

/-! ## Handlers that touch no authority -/

section Ordinary

variable {svc : Service} {db db' : DB} {now : Time} {authz : String}

theorem logout_kept (h : logout svc db now authz = .ok db') :
    AuthorityKept db db' ∧ OnlyRevoked db db' := by
  simp only [logout, Reply.bind_eq_ok, Reply.orElse_eq_ok, Reply.toOption_eq_some,
    Reply.pure_eq_ok] at h
  obtain ⟨_, _, db₁, hrevoke, rfl⟩ := h
  unfold revokeSession at hrevoke
  split at hrevoke
  · cases hrevoke
  · cases hrevoke
    exact ⟨(AuthorityKept.revokeSessions db now _ _).trans (.audit _ _),
      revokeSessions_onlyRevoked db now _ _⟩

theorem logoutAll_kept (h : logoutAll svc db now authz = .ok db') :
    AuthorityKept db db' ∧ OnlyRevoked db db' := by
  simp only [logoutAll, Reply.bind_eq_ok, Reply.pure_eq_ok] at h
  obtain ⟨_, _, rfl⟩ := h
  exact ⟨(AuthorityKept.revokeSessions db now _ _).trans (.audit _ _),
    revokeSessions_onlyRevoked db now _ _⟩

theorem recoverInit_kept (username code : String) :
    AuthorityKept db (recoverInit svc db now username code).1 ∧
      OnlyRevoked db (recoverInit svc db now username code).1 := by
  unfold recoverInit
  split
  · exact ⟨.refl db, .of_eq rfl⟩
  · split
    · exact ⟨.audit db _, .of_eq rfl⟩
    · next user _ =>
      split
      · exact ⟨.audit db _, .of_eq rfl⟩
      · split
        · exact ⟨(recordLoginFailure_kept user.id).trans (.audit _ _), .of_eq rfl⟩
        · next c _ =>
          split
          · exact ⟨.refl db, .of_eq rfl⟩
          · have hmark : AuthorityKept db (db.markRecoveryCode now c.id) :=
              ⟨rfl, rfl, rfl, rfl, rfl⟩
            exact ⟨(hmark.trans (.revokeSessions _ now .recovery (·.userId = user.id))).trans
              (.audit _ _), revokeSessions_onlyRevoked (db.markRecoveryCode now c.id) now _ _⟩

theorem totpRegenerateBackup_kept {code : String} {codes : List (Uuid × Bytes)}
    (h : totpRegenerateBackup svc db now authz code codes = .ok db') :
    AuthorityKept db db' ∧ OnlyRevoked db db' := by
  simp only [totpRegenerateBackup, Reply.bind_eq_ok, Reply.pure_eq_ok] at h
  obtain ⟨_, _, _, _, _, _, _, _, _, _, rfl⟩ := h
  exact ⟨⟨rfl, rfl, rfl, rfl, rfl⟩, .of_eq rfl⟩

theorem changePassword_kept (req : ChangePasswordRequest) (salt : Bytes) :
    AuthorityKept db (changePassword svc db now authz req salt).1 ∧
      OnlyRevoked db (changePassword svc db now authz req salt).1 := by
  unfold changePassword
  split
  · exact ⟨.refl db, .of_eq rfl⟩
  · next claims _ =>
    split
    · exact ⟨.refl db, .of_eq rfl⟩
    · obtain ⟨hkept, hsessions⟩ := @confirmPassword_kept svc db now
        claims.subject req.currentPassword
      split
      · next db₁ e hconfirm =>
        rw [hconfirm] at hkept hsessions
        exact ⟨hkept, .of_eq hsessions⟩
      · next db₁ hconfirm =>
        rw [hconfirm] at hkept hsessions
        split
        · exact ⟨hkept, .of_eq hsessions⟩
        · next db₂ hstore =>
          simp only [storePassword, Reply.bind_eq_ok, Reply.orElse_eq_ok, Reply.toOption_eq_some,
            Reply.pure_eq_ok] at hstore
          obtain ⟨db₃, hrotate, rfl⟩ := hstore
          obtain ⟨hkeys, hsame, _⟩ := rotateKeypair_kept hrotate
          have husers : AuthorityKept db₁ (db₁.updateUser claims.subject fun u =>
              { u.withPassword (svc.passwords.hashPassword req.newPassword salt) with
                mustChangePassword := false }) := .updateUser _ fun _ => ⟨rfl, rfl⟩
          refine ⟨(hkept.trans (husers.trans hkeys)).trans
            ((AuthorityKept.revokeSessions _ now .admin (·.userId = claims.subject)).trans
              (.audit _ _)), ?_⟩
          exact (OnlyRevoked.of_eq (hsame.trans hsessions)).trans
            (revokeSessions_onlyRevoked db₃ now .admin (·.userId = claims.subject))

theorem createAPIToken_kept {req : CreateAPITokenRequest} {draw : APITokenDraw}
    {resp : APITokenResponse} (h : createAPIToken svc db now authz req draw = .ok (db', resp)) :
    AuthorityKept db db' ∧ OnlyRevoked db db' := by
  simp only [createAPIToken, Reply.bind_eq_ok, Reply.orElse_eq_ok, Reply.toOption_eq_some,
    Reply.pure_eq_ok] at h
  obtain ⟨_, _, _, _, _, _, _, _, db₁, hinsert, heq⟩ := h
  obtain ⟨rfl, _⟩ := Prod.mk.inj heq
  unfold insertApiToken at hinsert
  repeat' split at hinsert
  all_goals cases hinsert
  exact ⟨⟨rfl, rfl, rfl, rfl, rfl⟩, .of_eq rfl⟩

theorem deleteAPIToken_kept {tokenID : String}
    (h : deleteAPIToken svc db now authz tokenID = .ok db') :
    AuthorityKept db db' ∧ OnlyRevoked db db' := by
  simp only [deleteAPIToken, Reply.bind_eq_ok, Reply.pure_eq_ok] at h
  obtain ⟨_, _, _, _, _, _, rfl⟩ := h
  exact ⟨⟨rfl, rfl, rfl, rfl, rfl⟩, .of_eq rfl⟩

end Ordinary

/-! ## Removal of the second factor -/

/-- The right password leaves the state alone. -/
theorem confirmPassword_eq_ok {svc : Service} {db db' : DB} {now : Time} {u : Uuid}
    {password : String} (h : confirmPassword svc db now u password = (db', .ok ())) :
    db' = db ∧ ∃ user, db.user? u = some user ∧ checkPassword svc user password = .ok true := by
  unfold confirmPassword at h
  split at h
  · cases h
  · next user huser =>
    split at h
    · cases h
    · cases h
    · next hpassword =>
      cases h
      exact ⟨rfl, user, huser, hpassword⟩

/-- The row goes with the right password only. -/
theorem totpDisable_cases (svc : Service) (db : DB) (now : Time) (authz password : String) :
    (AuthorityKept db (totpDisable svc db now authz password).1 ∧
      (totpDisable svc db now authz password).1.sessions = db.sessions) ∨
    ∃ claims user, requireAccessToken svc now authz = .ok claims ∧
      db.user? claims.subject = some user ∧ checkPassword svc user password = .ok true ∧
      (totpDisable svc db now authz password).1 =
        ((db.deleteTOTPSecret claims.subject).deleteRecoveryCodes claims.subject).audit
          ⟨claims.subject.text, "auth.totp_disabled", "user", claims.subject.text⟩ := by
  unfold totpDisable
  cases hauth : requireAccessToken svc now authz with
  | error e => exact .inl ⟨.refl db, rfl⟩
  | ok claims =>
    simp only
    split
    · exact .inl ⟨.refl db, rfl⟩
    · obtain ⟨hkept, hsessions⟩ := @confirmPassword_kept svc db now
        claims.subject password
      split
      · next db₁ e hconfirm =>
        rw [hconfirm] at hkept hsessions
        exact .inl ⟨hkept, hsessions⟩
      · next db₁ hconfirm =>
        obtain ⟨rfl, user, huser, hpassword⟩ := confirmPassword_eq_ok hconfirm
        split
        · exact .inl ⟨.refl _, rfl⟩
        · exact .inr ⟨claims, user, rfl, huser, hpassword, rfl⟩

end IronStock

import IronStock.KeypairCalls
import IronStock.Lib.Locks

/-!
# The first administrator

`BootstrapSetup` of `auth_bootstrap.go`, statement by statement: the advisory lock,
the look for an administrator, the rows of the transaction, the commit and the
entry after it. Any statement may fail, and of a commit the answer may get lost.
-/
namespace IronStock

open Interleaving

/-! ## The request -/

/-- The body and the client of a request, with what is drawn for it. -/
structure BootstrapRequest where
  username : String
  password : String
  client : ClientInfo
  userID : Uuid
  salt : Bytes
  sessionID : Uuid
  refreshToken : String

/-- `crypto.DefaultArgon2Params` as jsonb. -/
def defaultArgon2ParamsJSON := "\x7b\"k\":32,\"m\":65536,\"p\":4,\"s\":16,\"t\":3\x7d"

namespace BootstrapRequest

variable (svc : Service) (req : BootstrapRequest)

/-- `strings.ToLower(strings.TrimSpace(req.Username))`. -/
def name : String := svc.toLower (trimSpace req.username)

/-- The checks before the transaction. -/
def validate (enabled : Bool) : Reply Unit := do
  Reply.require (enabled = true)
    ⟨503, errCodeInternal, "Bootstrap paneli bu sunucuda etkin değil."⟩
  Reply.require (usernameRE (req.name svc) = true)
    (badRequest "Kullanıcı adı 3-64 karakter, sadece harf/rakam/._- olabilir.")
  Reply.require (12 ≤ req.password.utf8ByteSize) (badRequest "Şifre en az 12 karakter olmalı.")

/-- The row of the INSERT into `users`. -/
def newUser : User where
  id := req.userID
  username := req.name svc
  email := req.name svc ++ "@bootstrap.local"
  passwordHash := (svc.passwords.hashPassword req.password req.salt).1
  argon2Params := defaultArgon2ParamsJSON
  status := .active

/-- `persistArgon2Salt`. -/
def withSalt (u : User) : User :=
  { u with argon2Params := (svc.passwords.hashPassword req.password req.salt).2 }

/-- The administrator the request asks for. -/
def admin : User := req.withSalt svc (req.newUser svc)

def keypair : UserKeypair :=
  { placeholderKeypair req.userID with
    kekParams := "\x7b\"alg\":\"none\",\"note\":\"bootstrap-admin-placeholder\"\x7d" }

def roles : List UserRole := [⟨req.userID, .admin⟩, ⟨req.userID, .write⟩]

def session (expiresAt : Time) : Session :=
  ⟨req.sessionID, req.userID, hashRefresh svc req.refreshToken, nullableString req.client.userAgent,
    nullableString req.client.ipAddress, expiresAt, none⟩

def response (now : Time) : LoginResponse where
  accessToken := svc.jwt.issueAccess now req.userID req.sessionID.text [.admin, .write]
  refreshToken := req.refreshToken
  userID := req.userID
  roles := [.admin, .write]
  mustChangePassword := false
  mustSetupTOTP := false
  deviceToken := none

end BootstrapRequest

/-! ## The statements -/

/-- `adminExistsTx`. -/
def DB.adminExists (db : DB) : Bool := db.userRoles.any (·.role = .admin)

/-- The `INSERT INTO user_roles` of names that all exist. -/
def DB.insertUserRoles (db : DB) (userID : Uuid) (rows : List UserRole) : Except PgError DB :=
  if rows.any (db.userRoles.contains ·) then .error .uniqueViolation
  else if (db.user? userID).isNone then .error .foreignKeyViolation
  else .ok { db with userRoles := db.userRoles ++ rows }

/-- From the password to the roles. -/
inductive BootstrapStage
  | hashPassword
  | insertUser
  | persistSalt
  | insertKeypair
  | assignRoles
deriving DecidableEq, Repr

namespace BootstrapStage

/-- What the transaction writes, if no constraint fails on what it sees. -/
def write (svc : Service) (req : BootstrapRequest) (view : DB) :
    BootstrapStage → Except PgError (DB → DB)
  | hashPassword => .ok id
  | insertUser =>
    (IronStock.insertUser view (req.newUser svc)).map fun _ db =>
      { db with users := db.users ++ [req.newUser svc] }
  | persistSalt => .ok fun db => db.updateUser req.userID (req.withSalt svc)
  | insertKeypair =>
    (view.insertKeypair req.keypair).map fun _ db =>
      { db with userKeypairs := db.userKeypairs ++ [req.keypair] }
  | assignRoles =>
    (view.insertUserRoles req.userID req.roles).map fun _ db =>
      { db with userRoles := db.userRoles ++ req.roles }

/-- The answer to a failure; `none` is a failure that is no violation. -/
def failure (e : Option PgError) : BootstrapStage → ApiError
  | hashPassword => internalError "Şifre işlenemedi."
  | insertUser =>
    if e.any isUniqueViolation then ⟨409, errCodeConflict, "Bu kullanıcı adı zaten kullanımda."⟩
    else internalError "Kullanıcı oluşturulamadı."
  | persistSalt => internalError "Argon2 parametreleri kaydedilemedi."
  | insertKeypair => internalError "Anahtar çifti kaydedilemedi."
  | assignRoles => internalError "Roller atanamadı."

def next : BootstrapStage → Option BootstrapStage
  | hashPassword => some insertUser
  | insertUser => some persistSalt
  | persistSalt => some insertKeypair
  | insertKeypair => some assignRoles
  | assignRoles => none

end BootstrapStage

/-! ## The calls -/

/-- A request that went through, and when its refresh token expires. -/
structure BootstrapCommit where
  req : BootstrapRequest
  expiresAt : Time

/-- The tables, the advisory lock, and a log of the commits that nothing reads. -/
structure BootstrapState where
  db : DB
  locked : Bool
  commits : List BootstrapCommit

/-- What is left of a call; `writes` are those of its transaction so far. -/
inductive BootstrapCall
  | request (req : BootstrapRequest)
  | lock (req : BootstrapRequest)
  | adminExists (req : BootstrapRequest)
  | statement (req : BootstrapRequest) (stage : BootstrapStage) (writes : DB → DB)
  | generateRefresh (req : BootstrapRequest) (writes : DB → DB)
  | createSession (req : BootstrapRequest) (expiresAt : Time) (writes : DB → DB)
  | commit (req : BootstrapRequest) (expiresAt : Time) (writes : DB → DB)
  | audit (done : BootstrapCommit)

structure BootstrapOutcome where
  committed : Option BootstrapCommit
  reply : Reply LoginResponse

inductive StatementFate
  | runs
  | fails
  /-- it runs on the server, and the connection breaks before the answer -/
  | unanswered
deriving DecidableEq, Repr

structure BootstrapEvent where
  now : Time
  fate : StatementFate

abbrev BootstrapResult := BootstrapState × (BootstrapCall ⊕ BootstrapOutcome)
abbrev BootstrapSystem := System BootstrapState BootstrapCall BootstrapOutcome

/-- `tx.Rollback`: the writes are lost and the lock is free. -/
def BootstrapState.rollback (s : BootstrapState) (e : ApiError) : BootstrapResult :=
  ({ s with locked := false }, .inr ⟨none, .error e⟩)

def BootstrapState.commit (s : BootstrapState) (req : BootstrapRequest) (expiresAt : Time)
    (writes : DB → DB) : BootstrapState :=
  ⟨writes s.db, false, s.commits ++ [⟨req, expiresAt⟩]⟩

def BootstrapCommit.entry (c : BootstrapCommit) : AuditEntry :=
  ⟨c.req.userID.text, "auth.bootstrap_setup", "user", c.req.userID.text⟩

/-- What follows a stage. -/
def BootstrapCall.after (req : BootstrapRequest) (stage : BootstrapStage) (writes : DB → DB) :
    BootstrapCall :=
  match stage.next with
  | some stage => .statement req stage writes
  | none => .generateRefresh req writes

/-- The next statement of `BootstrapSetup`. -/
def BootstrapCall.exec (svc : Service) (enabled : Bool) (t : BootstrapEvent) (s : BootstrapState) :
    BootstrapCall → BootstrapResult
  | .request req =>
    match req.validate svc enabled with
    | .error e => (s, .inr ⟨none, .error e⟩)
    | .ok () =>
      if t.fate = .runs then (s, .inl (.lock req))
      else (s, .inr ⟨none, .error (internalError "Veritabanı hatası.")⟩)
  | .lock req =>
    if t.fate = .runs then
      -- the statement waits for the transaction that has the lock
      if s.locked then (s, .inl (.lock req))
      else ({ s with locked := true }, .inl (.adminExists req))
    else (s, .inr ⟨none, .error (internalError "Kilit alınamadı.")⟩)
  | .adminExists req =>
    if t.fate = .runs then
      if s.db.adminExists then
        s.rollback ⟨409, errCodeConflict, "Admin hesabı zaten mevcut. /login ile giriş yapın."⟩
      else (s, .inl (.statement req .hashPassword id))
    else s.rollback (internalError "Admin kontrolü yapılamadı.")
  | .statement req stage writes =>
    if t.fate = .runs then
      match stage.write svc req (writes s.db) with
      | .error e => s.rollback (stage.failure (some e))
      | .ok write => (s, .inl (.after req stage (write ∘ writes)))
    else s.rollback (stage.failure none)
  | .generateRefresh req writes =>
    if t.fate = .runs then (s, .inl (.createSession req (t.now + refreshTokenLifetime) writes))
    else s.rollback (internalError "Refresh token üretilemedi.")
  | .createSession req expiresAt writes =>
    if t.fate = .runs then
      match IronStock.createSession (writes s.db) req.sessionID req.userID
          (hashRefresh svc req.refreshToken) req.client expiresAt with
      | .error _ => s.rollback (internalError "Oturum oluşturulamadı.")
      | .ok _ =>
        let insert (db : DB) : DB :=
          { db with sessions := db.sessions ++ [req.session svc expiresAt] }
        (s, .inl (.commit req expiresAt (insert ∘ writes)))
    else s.rollback (internalError "Oturum oluşturulamadı.")
  | .commit req expiresAt writes =>
    match t.fate with
    | .runs => (s.commit req expiresAt writes, .inl (.audit ⟨req, expiresAt⟩))
    | .fails => s.rollback (internalError "İşlem tamamlanamadı.")
    | .unanswered =>
      (s.commit req expiresAt writes,
        .inr ⟨some ⟨req, expiresAt⟩, .error (internalError "İşlem tamamlanamadı.")⟩)
  | .audit done =>
    -- the error of the entry is not looked at
    ({ s with db := if t.fate = .fails then s.db else s.db.audit done.entry },
      .inr ⟨some done, .ok (done.req.response svc t.now)⟩)

/-- `BootstrapSetup` as a call. -/
def bootstrapSetup (svc : Service) (enabled : Bool) :
    Program BootstrapState BootstrapRequest BootstrapCall BootstrapOutcome BootstrapEvent where
  enter := .request
  exec t s call := call.exec svc enabled t s

@[simp] theorem bootstrapSetup_enter (svc : Service) (enabled : Bool) (req : BootstrapRequest) :
    (bootstrapSetup svc enabled).enter req = .request req := rfl
@[simp] theorem bootstrapSetup_exec (svc : Service) (enabled : Bool) (t : BootstrapEvent)
    (s : BootstrapState) (call : BootstrapCall) :
    (bootstrapSetup svc enabled).exec t s call = call.exec svc enabled t s := rfl

/-! ## The lock -/

/-- A transaction holds the lock from the statement that took it to its end. -/
def bootstrapLock : Lock BootstrapState BootstrapCall where
  isTaken := BootstrapState.locked
  holds
    | .request _ | .lock _ | .audit _ => false
    | .adminExists _ | .statement _ _ _ | .generateRefresh _ _ | .createSession _ _ _
    | .commit _ _ _ => true

theorem BootstrapCall.after_holds (req : BootstrapRequest) (stage : BootstrapStage)
    (writes : DB → DB) : bootstrapLock.holds (.after req stage writes) = true := by
  cases stage <;> rfl

/-- From one statement of a transaction to the next. -/
inductive Advances (svc : Service) (s : BootstrapState) : BootstrapCall → BootstrapCall → Prop
  | noAdmin (req : BootstrapRequest) (hnone : s.db.adminExists = false) :
      Advances svc s (.adminExists req) (.statement req .hashPassword id)
  | written (req : BootstrapRequest) (stage : BootstrapStage) (writes write : DB → DB)
      (hwrite : stage.write svc req (writes s.db) = .ok write) :
      Advances svc s (.statement req stage writes) (.after req stage (write ∘ writes))
  | drawn (req : BootstrapRequest) (expiresAt : Time) (writes : DB → DB) :
      Advances svc s (.generateRefresh req writes) (.createSession req expiresAt writes)
  | opened (req : BootstrapRequest) (expiresAt : Time) (writes : DB → DB) :
      Advances svc s (.createSession req expiresAt writes)
        (.commit req expiresAt ((fun db : DB =>
          { db with sessions := db.sessions ++ [req.session svc expiresAt] }) ∘ writes))

theorem Advances.holds {svc : Service} {s : BootstrapState} {k k' : BootstrapCall}
    (h : Advances svc s k k') : bootstrapLock.holds k' = true := by
  cases h with
  | written req stage => exact BootstrapCall.after_holds req stage _
  | noAdmin | drawn | opened => rfl

/-- What a statement of the holder can do: roll back, go on, or commit. -/
theorem exec_inside (svc : Service) (enabled : Bool) (t : BootstrapEvent) (s : BootstrapState)
    {k : BootstrapCall} (hk : bootstrapLock.holds k = true) :
    (∃ e, k.exec svc enabled t s = s.rollback e) ∨
      (∃ k', k.exec svc enabled t s = (s, .inl k') ∧ Advances svc s k k') ∨
      ∃ req expiresAt writes, k = .commit req expiresAt writes ∧
        (k.exec svc enabled t s).1 = s.commit req expiresAt writes ∧
        ((k.exec svc enabled t s).2 = .inl (.audit ⟨req, expiresAt⟩) ∨
          ∃ reply, (k.exec svc enabled t s).2 = .inr ⟨some ⟨req, expiresAt⟩, reply⟩) := by
  cases k with
  | request | lock | audit => cases hk
  | adminExists req =>
    simp only [BootstrapCall.exec]
    split
    · split
      · exact .inl ⟨_, rfl⟩
      · next hnone => exact .inr (.inl ⟨_, rfl, .noAdmin req (by simpa using hnone)⟩)
    · exact .inl ⟨_, rfl⟩
  | statement req stage writes =>
    simp only [BootstrapCall.exec]
    split
    · split
      · exact .inl ⟨_, rfl⟩
      · next write hwrite => exact .inr (.inl ⟨_, rfl, .written req stage writes write hwrite⟩)
    · exact .inl ⟨_, rfl⟩
  | generateRefresh req writes =>
    simp only [BootstrapCall.exec]
    split
    · exact .inr (.inl ⟨_, rfl, .drawn req _ writes⟩)
    · exact .inl ⟨_, rfl⟩
  | createSession req expiresAt writes =>
    simp only [BootstrapCall.exec]
    split
    · split
      · exact .inl ⟨_, rfl⟩
      · exact .inr (.inl ⟨_, rfl, .opened req expiresAt writes⟩)
    · exact .inl ⟨_, rfl⟩
  | commit req expiresAt writes =>
    simp only [BootstrapCall.exec]
    split
    · exact .inr (.inr ⟨req, expiresAt, writes, rfl, rfl, .inl rfl⟩)
    · exact .inl ⟨_, rfl⟩
    · exact .inr (.inr ⟨req, expiresAt, writes, rfl, rfl, .inr ⟨_, rfl⟩⟩)

/-- What a statement outside the transaction can do: nothing to the tables, take
the free lock, or write the entry of a commit. -/
theorem exec_outside (svc : Service) (enabled : Bool) (t : BootstrapEvent) (s : BootstrapState)
    {k : BootstrapCall} (hk : bootstrapLock.holds k = false) :
    (∃ reply, k.exec svc enabled t s = (s, .inr ⟨none, reply⟩)) ∨
      (∃ req, (k = .request req ∨ k = .lock req) ∧ k.exec svc enabled t s = (s, .inl (.lock req)) ∧
        (k = .request req → req.validate svc enabled = .ok ())) ∨
      (∃ req, k = .lock req ∧ s.locked = false ∧
        k.exec svc enabled t s = ({ s with locked := true }, .inl (.adminExists req))) ∨
      ∃ done reply, k = .audit done ∧
        (k.exec svc enabled t s).2 = .inr ⟨some done, reply⟩ ∧
        ((k.exec svc enabled t s).1 = s ∨
          (k.exec svc enabled t s).1 = { s with db := s.db.audit done.entry }) := by
  cases k with
  | adminExists | statement | generateRefresh | createSession | commit => cases hk
  | request req =>
    simp only [BootstrapCall.exec]
    split
    · exact .inl ⟨_, rfl⟩
    · next hvalid =>
      split
      · exact .inr (.inl ⟨req, .inl rfl, rfl, fun _ => hvalid⟩)
      · exact .inl ⟨_, rfl⟩
  | lock req =>
    simp only [BootstrapCall.exec]
    split
    · split
      · exact .inr (.inl ⟨req, .inr rfl, rfl, by simp⟩)
      · next hfree => exact .inr (.inr (.inl ⟨req, rfl, by simpa using hfree, rfl⟩))
    · exact .inl ⟨_, rfl⟩
  | audit done =>
    refine .inr (.inr (.inr ⟨done, _, rfl, rfl, ?_⟩))
    simp only [BootstrapCall.exec]
    split
    · exact .inl rfl
    · exact .inr rfl

theorem bootstrapLock_respected (svc : Service) (enabled : Bool) :
    bootstrapLock.Respected (bootstrapSetup svc enabled) where
  enter _ := rfl
  outside t s k hk := by
    rw [bootstrapSetup_exec]
    obtain ⟨reply, h⟩ | ⟨req, -, h, -⟩ | ⟨req, -, hfree, h⟩ | ⟨done, reply, -, hout, hstate⟩ :=
      exec_outside svc enabled t s hk
    · exact .inl (by rw [h]; exact ⟨rfl, rfl⟩)
    · exact .inl (by rw [h]; exact ⟨rfl, rfl⟩)
    · exact .inr (by rw [h]; exact ⟨rfl, hfree, rfl⟩)
    · refine .inl ⟨by rw [hout]; rfl, ?_⟩
      rcases hstate with h | h
      · rw [h]
      · rw [h]
        rfl
  inside t s k hk htaken := by
    rw [bootstrapSetup_exec]
    obtain ⟨e, h⟩ | ⟨k', h, hgo⟩ | ⟨req, expiresAt, writes, -, hstate, hout⟩ :=
      exec_inside svc enabled t s hk
    · rw [h]
      rfl
    · rw [h]
      exact htaken.trans hgo.holds.symm
    · rw [hstate]
      rcases hout with h | ⟨reply, h⟩
      · rw [h]
        rfl
      · rw [h]
        rfl

/-! ## What a setup leaves -/

/-- The foreign keys to `users` of the tables that a setup writes. -/
structure DB.UserReferences (db : DB) : Prop where
  userKeypairs : ∀ k ∈ db.userKeypairs, (db.user? k.userId).isSome = true
  userRoles : ∀ r ∈ db.userRoles, (db.user? r.userId).isSome = true
  sessions : ∀ s ∈ db.sessions, (db.user? s.userId).isSome = true

/-- No users, and so nothing that belongs to one. -/
structure DB.NoUsers (db : DB) : Prop where
  users : db.users = []
  userKeypairs : db.userKeypairs = []
  userRoles : db.userRoles = []
  sessions : db.sessions = []

theorem DB.UserReferences.noUsers {db : DB} (h : db.UserReferences) (hempty : db.users = []) :
    db.NoUsers := by
  have hnone (u : Uuid) : (db.user? u).isSome = false := by simp [DB.user?, Table.lookup, hempty]
  have hgone {α : Type} {rows : List α} {owner : α → Uuid}
      (hrows : ∀ r ∈ rows, (db.user? (owner r)).isSome = true) : rows = [] := by
    cases rows with
    | nil => rfl
    | cons r rows =>
      have hsome := hrows r (List.mem_cons_self ..)
      rw [hnone] at hsome
      cases hsome
  exact ⟨hempty, hgone h.userKeypairs, hgone h.userRoles, hgone h.sessions⟩

/-- The database with the administrator of this request and nothing else of an
account. -/
def BootstrapCommit.installed (svc : Service) (c : BootstrapCommit) (db : DB) : DB :=
  { db with
    users := [c.req.admin svc]
    userKeypairs := [c.req.keypair]
    userRoles := c.req.roles
    sessions := [c.req.session svc c.expiresAt] }

/-- Nothing was committed and nothing changed; or one valid request was, and the
tables are as it asked. The audit log is left out. -/
def SetUpOnce (svc : Service) (enabled : Bool) (db₀ : DB) (commits : List BootstrapCommit)
    (db : DB) : Prop :=
  match commits with
  | [] => db = db₀
  | [c] => c.req.validate svc enabled = .ok () ∧
      db = { c.installed svc db₀ with auditLog := db.auditLog }
  | _ => False

/-- The tables as a stage finds them. -/
def BootstrapStage.before (svc : Service) (req : BootstrapRequest) (db : DB) :
    BootstrapStage → DB
  | hashPassword | insertUser => db
  | persistSalt => { db with users := [req.newUser svc] }
  | insertKeypair => { db with users := [req.admin svc] }
  | assignRoles => { db with users := [req.admin svc], userKeypairs := [req.keypair] }

/-- The tables after the last stage. -/
def BootstrapRequest.withRoles (svc : Service) (req : BootstrapRequest) (db : DB) : DB :=
  { db with
    users := [req.admin svc]
    userKeypairs := [req.keypair]
    userRoles := req.roles }

/-- The request is valid, and nothing happened yet. -/
def BootstrapState.Untouched (svc : Service) (enabled : Bool) (db₀ : DB) (s : BootstrapState)
    (req : BootstrapRequest) : Prop :=
  req.validate svc enabled = .ok () ∧ s.commits = [] ∧ s.db = db₀

/-- What each call relies on, `db₀` being the database without users. -/
def BootstrapCall.relies (svc : Service) (enabled : Bool) (db₀ : DB) (s : BootstrapState) :
    BootstrapCall → Prop
  | .request _ => True
  | .lock req => req.validate svc enabled = .ok ()
  | .adminExists req =>
    req.validate svc enabled = .ok () ∧ SetUpOnce svc enabled db₀ s.commits s.db
  | .statement req stage writes =>
    s.Untouched svc enabled db₀ req ∧ writes db₀ = stage.before svc req db₀
  | .generateRefresh req writes =>
    s.Untouched svc enabled db₀ req ∧ writes db₀ = req.withRoles svc db₀
  | .createSession req _ writes =>
    s.Untouched svc enabled db₀ req ∧ writes db₀ = req.withRoles svc db₀
  | .commit req expiresAt writes =>
    s.Untouched svc enabled db₀ req ∧
      writes db₀ = BootstrapCommit.installed svc ⟨req, expiresAt⟩ db₀
  | .audit done => done ∈ s.commits

section Setup

variable {svc : Service} {enabled : Bool} {db₀ : DB} {s : BootstrapState}

theorem exceptMap_eq_ok {ε α β : Type} {x : Except ε α} {f : α → β} {b : β} :
    x.map f = .ok b ↔ ∃ a, x = .ok a ∧ f a = b := by
  cases x <;> simp [Except.map]

/-- A stage writes its rows into the tables it finds. -/
theorem BootstrapStage.write_before (hnone : db₀.NoUsers) {req : BootstrapRequest}
    {stage : BootstrapStage} {write : DB → DB}
    (h : stage.write svc req (stage.before svc req db₀) = .ok write) :
    write (stage.before svc req db₀) =
      match stage.next with
      | some stage => stage.before svc req db₀
      | none => req.withRoles svc db₀ := by
  obtain ⟨husers, hkeypairs, hroles, -⟩ := hnone
  cases stage with
  | hashPassword =>
    cases h
    rfl
  | insertUser =>
    obtain ⟨_, _, rfl⟩ := exceptMap_eq_ok.mp h
    simp [BootstrapStage.before, BootstrapStage.next, husers]
  | persistSalt =>
    cases h
    simp [BootstrapStage.before, BootstrapStage.next, DB.updateUser, Table.updateWhere,
      BootstrapRequest.newUser, BootstrapRequest.admin]
  | insertKeypair =>
    obtain ⟨_, _, rfl⟩ := exceptMap_eq_ok.mp h
    simp [BootstrapStage.before, BootstrapStage.next, hkeypairs]
  | assignRoles =>
    obtain ⟨_, _, rfl⟩ := exceptMap_eq_ok.mp h
    simp [BootstrapStage.before, BootstrapStage.next, BootstrapRequest.withRoles, hroles]

theorem SetUpOnce.of_noAdmin (h : SetUpOnce svc enabled db₀ s.commits s.db)
    (hnone : s.db.adminExists = false) : s.commits = [] ∧ s.db = db₀ := by
  unfold SetUpOnce at h
  split at h
  · next hcommits => exact ⟨hcommits, h⟩
  · next c _ =>
    rw [h.2] at hnone
    simp [DB.adminExists, BootstrapCommit.installed, BootstrapRequest.roles] at hnone
  · exact h.elim

/-- The entry of a commit leaves the other tables alone. -/
theorem SetUpOnce.audit {commits : List BootstrapCommit} {db : DB}
    (h : SetUpOnce svc enabled db₀ commits db) {done : BootstrapCommit} (hdone : done ∈ commits) :
    SetUpOnce svc enabled db₀ commits (db.audit done.entry) := by
  unfold SetUpOnce at h ⊢
  split at h
  · cases hdone
  · exact ⟨h.1, by rw [DB.audit, h.2]⟩
  · exact h.elim

/-- The holder's next statement finds what it relies on. -/
theorem Advances.relies (hnone : db₀.NoUsers) {k k' : BootstrapCall} (h : Advances svc s k k')
    (hk : k.relies svc enabled db₀ s) : k'.relies svc enabled db₀ s := by
  cases h with
  | noAdmin req hadmin =>
    obtain ⟨hvalid, honce⟩ := hk
    obtain ⟨hcommits, hdb⟩ := honce.of_noAdmin hadmin
    exact ⟨⟨hvalid, hcommits, hdb⟩, rfl⟩
  | written req stage writes write hwrite =>
    obtain ⟨hsame, hwrites⟩ := hk
    rw [hsame.2.2, hwrites] at hwrite
    have hafter := BootstrapStage.write_before hnone hwrite
    rw [← hwrites] at hafter
    cases hnext : stage.next with
    | some stage' =>
      rw [hnext] at hafter
      simp only [BootstrapCall.after, hnext]
      exact ⟨hsame, hafter⟩
    | none =>
      rw [hnext] at hafter
      simp only [BootstrapCall.after, hnext]
      exact ⟨hsame, hafter⟩
  | drawn req expiresAt writes => exact hk
  | opened req expiresAt writes =>
    obtain ⟨hsame, hwrites⟩ := hk
    refine ⟨hsame, ?_⟩
    rw [Function.comp_apply, hwrites]
    simp [BootstrapRequest.withRoles, BootstrapCommit.installed, hnone.sessions]

/-- Before the commit, the holder has seen that nothing was committed. -/
theorem BootstrapCall.relies_setUpOnce {k : BootstrapCall} (hk : k.relies svc enabled db₀ s)
    (hholds : bootstrapLock.holds k = true) : SetUpOnce svc enabled db₀ s.commits s.db := by
  have hstart (hcommits : s.commits = []) (hdb : s.db = db₀) :
      SetUpOnce svc enabled db₀ s.commits s.db := by
    rw [hcommits, hdb]
    rfl
  cases k with
  | request | lock | audit => cases hholds
  | adminExists req => exact hk.2
  | statement | generateRefresh | createSession | commit => exact hstart hk.1.2.1 hk.1.2.2

/-- A call outside the transaction relies on nothing that a commit changes. -/
theorem BootstrapCall.relies_of_not_holds {k : BootstrapCall} {s' : BootstrapState}
    (hk : k.relies svc enabled db₀ s) (hholds : bootstrapLock.holds k = false)
    (hcommits : ∀ c ∈ s.commits, c ∈ s'.commits) : k.relies svc enabled db₀ s' := by
  cases k with
  | adminExists | statement | generateRefresh | createSession | commit => cases hholds
  | request req => exact hk
  | lock req => exact hk
  | audit done => exact hcommits done hk

/-- What a call relies on, the entry of a commit does not touch. -/
theorem BootstrapCall.relies_audit {k : BootstrapCall} (hk : k.relies svc enabled db₀ s)
    {done : BootstrapCommit} (hdone : done ∈ s.commits) :
    k.relies svc enabled db₀ { s with db := s.db.audit done.entry } := by
  have hsome (hcommits : s.commits = []) : False := by
    rw [hcommits] at hdone
    cases hdone
  cases k with
  | request req => exact hk
  | lock req => exact hk
  | audit c => exact hk
  | adminExists req => exact ⟨hk.1, hk.2.audit hdone⟩
  | statement | generateRefresh | createSession | commit => exact (hsome hk.1.2.1).elim

/-- The free lock guarantees that the database was set up at most once. -/
theorem bootstrapLock_protects (hnone : db₀.NoUsers) :
    bootstrapLock.Protects (bootstrapSetup svc enabled)
      (fun s => SetUpOnce svc enabled db₀ s.commits s.db)
      (fun s k => k.relies svc enabled db₀ s) where
  enter _ _ := trivial
  outside t s k hk hown hout := by
    rw [bootstrapSetup_exec] at hout ⊢
    obtain ⟨reply, h⟩ | ⟨req, hcall, h, hvalid⟩ | ⟨req, -, -, h⟩ |
      ⟨done, reply, rfl, hend, hstate⟩ := exec_outside svc enabled t s hk
    · rw [h]
      exact ⟨id, by simp [Lock.Relies], fun _ => id⟩
    · rw [h]
      refine ⟨id, ?_, fun _ => id⟩
      intro k' hk'
      obtain rfl := Sum.inl.inj hk'
      rcases hcall with rfl | rfl
      · exact hvalid rfl
      · exact hown
    · rw [h] at hout
      cases hout
    · rw [hend]
      have hdone : done ∈ s.commits := hown
      rcases hstate with h | h
      · rw [h]
        exact ⟨id, by simp [Lock.Relies], fun _ => id⟩
      · rw [h]
        exact ⟨fun honce => honce.audit hdone, by simp [Lock.Relies],
          fun k' hk' => BootstrapCall.relies_audit hk' hdone⟩
  take t s k hk hown hout honce := by
    rw [bootstrapSetup_exec] at hout ⊢
    obtain ⟨reply, h⟩ | ⟨req, -, h, -⟩ | ⟨req, rfl, -, h⟩ | ⟨done, reply, -, hend, -⟩ :=
      exec_outside svc enabled t s hk
    · rw [h] at hout
      cases hout
    · rw [h] at hout
      cases hout
    · rw [h]
      refine ⟨?_, fun k' hk' hrelies => BootstrapCall.relies_of_not_holds hrelies hk' fun _ => id⟩
      intro k' hk'
      obtain rfl := Sum.inl.inj hk'
      exact ⟨hown, honce⟩
    · rw [hend] at hout
      cases hout
  inside t s k hk hown := by
    rw [bootstrapSetup_exec]
    obtain ⟨e, h⟩ | ⟨k', h, hgo⟩ | ⟨req, expiresAt, writes, rfl, hstate, hout⟩ :=
      exec_inside svc enabled t s hk
    · rw [h]
      exact ⟨fun _ => BootstrapCall.relies_setUpOnce hown hk,
        by simp [Lock.Relies, BootstrapState.rollback],
        fun k' hk' hrelies => BootstrapCall.relies_of_not_holds hrelies hk' fun _ => id⟩
    · rw [h]
      refine ⟨fun hnot => ?_, ?_, fun k' hk' hrelies => hrelies⟩
      · rw [Lock.heldBy, hgo.holds] at hnot
        cases hnot
      · intro k'' hk''
        obtain rfl := Sum.inl.inj hk''
        exact hgo.relies hnone hown
    · obtain ⟨⟨hvalid, hcommits, hdb⟩, hwrites⟩ := hown
      have hinstalled : SetUpOnce svc enabled db₀ (s.commit req expiresAt writes).commits
          (s.commit req expiresAt writes).db := by
        simp only [BootstrapState.commit, hcommits, hdb, hwrites]
        exact ⟨hvalid, rfl⟩
      rw [hstate]
      refine ⟨fun _ => hinstalled, ?_, fun k' hk' hrelies =>
        BootstrapCall.relies_of_not_holds hrelies hk' fun c hc => List.mem_append_left _ hc⟩
      intro k' hk'
      rcases hout with h | ⟨reply, h⟩
      · obtain rfl := Sum.inl.inj (h.symm.trans hk')
        exact List.mem_append_right _ (List.mem_singleton.mpr rfl)
      · rw [h] at hk'
        cases hk'

/-! ## A setup on its own -/

theorem BootstrapRequest.validate_eq_ok {req : BootstrapRequest}
    (h : req.validate svc enabled = .ok ()) :
    3 ≤ (req.name svc).length ∧ (req.name svc).length ≤ 64 := by
  simp only [BootstrapRequest.validate, Reply.bind_eq_ok, Reply.require_eq_ok, usernameRE,
    Bool.and_eq_true, decide_eq_true_eq] at h
  obtain ⟨_, _, _, ⟨⟨hmin, hmax⟩, _⟩, _⟩ := h
  exact ⟨hmin, hmax⟩

/-- No constraint fails for a valid request in a database without users. -/
theorem BootstrapStage.exists_write (hnone : db₀.NoUsers) {req : BootstrapRequest}
    (hvalid : req.validate svc enabled = .ok ()) (stage : BootstrapStage) :
    ∃ write, stage.write svc req (stage.before svc req db₀) = .ok write := by
  obtain ⟨husers, hkeypairs, hroles, -⟩ := hnone
  obtain ⟨hmin, hmax⟩ := BootstrapRequest.validate_eq_ok hvalid
  cases stage with
  | hashPassword => exact ⟨_, rfl⟩
  | insertUser =>
    have hlengths : ¬ ((req.newUser svc).username.length < 3 ∨
        64 < (req.newUser svc).username.length ∨ (req.newUser svc).email.length < 3 ∨
        255 < (req.newUser svc).email.length) := by
      have hname : (req.newUser svc).username = req.name svc := rfl
      have hemail : (req.newUser svc).email.length = (req.name svc).length + 16 :=
        String.length_append _ _
      rw [hname, hemail]
      omega
    have hinsert : IronStock.insertUser db₀ (req.newUser svc) =
        .ok { db₀ with users := db₀.users ++ [req.newUser svc] } := by
      rw [IronStock.insertUser, if_neg hlengths, if_neg (by simp [husers])]
    exact ⟨_, by rw [BootstrapStage.write, BootstrapStage.before, hinsert]; rfl⟩
  | persistSalt => exact ⟨_, rfl⟩
  | insertKeypair =>
    simp [BootstrapStage.write, BootstrapStage.before, DB.insertKeypair, DB.keypair?, DB.user?,
      Table.lookup, hkeypairs, BootstrapRequest.keypair, BootstrapRequest.admin,
      BootstrapRequest.withSalt, BootstrapRequest.newUser, placeholderKeypair, Except.map]
  | assignRoles =>
    simp [BootstrapStage.write, BootstrapStage.before, DB.insertUserRoles, DB.user?, Table.lookup,
      hroles, BootstrapRequest.admin, BootstrapRequest.withSalt, BootstrapRequest.newUser,
      Except.map]

/-- A stage on its own. -/
theorem exec_statement (hnone : db₀.NoUsers) {req : BootstrapRequest}
    (hvalid : req.validate svc enabled = .ok ()) {now : Time} {s : BootstrapState}
    (hdb : s.db = db₀) {stage : BootstrapStage} {writes : DB → DB}
    (hwrites : writes db₀ = stage.before svc req db₀) :
    ∃ writes', (BootstrapCall.statement req stage writes).exec svc enabled ⟨now, .runs⟩ s =
        (s, .inl (.after req stage writes')) ∧
      writes' db₀ = match stage.next with
        | some stage => stage.before svc req db₀
        | none => req.withRoles svc db₀ := by
  obtain ⟨write, hwrite⟩ := BootstrapStage.exists_write hnone hvalid stage
  refine ⟨write ∘ writes, ?_, ?_⟩
  · simp only [BootstrapCall.exec, if_true, hdb, hwrites, hwrite]
  · rw [Function.comp_apply, hwrites]
    exact BootstrapStage.write_before hnone hwrite

/-- Nobody else is there and no statement fails: a valid setup goes through, and
its entry is written. -/
theorem bootstrapSetup_alone (hnone : db₀.NoUsers) {req : BootstrapRequest}
    (hvalid : req.validate svc enabled = .ok ()) (now : Time) :
    let done : BootstrapCommit := ⟨req, now + refreshTokenLifetime⟩
    (bootstrapSetup svc enabled).alone ⟨now, .runs⟩ 12 ⟨db₀, false, []⟩ (.request req) =
      (⟨(done.installed svc db₀).audit done.entry, false, [done]⟩,
        .inr ⟨some done, .ok (req.response svc now)⟩) := by
  intro done
  let alone := (bootstrapSetup svc enabled).alone ⟨now, .runs⟩
  let held : BootstrapState := ⟨db₀, true, []⟩
  have hrequest : (bootstrapSetup svc enabled).exec ⟨now, .runs⟩ ⟨db₀, false, []⟩ (.request req) =
      (⟨db₀, false, []⟩, .inl (.lock req)) := by
    simp only [bootstrapSetup_exec, BootstrapCall.exec, hvalid, if_true]
  have hcheck : (bootstrapSetup svc enabled).exec ⟨now, .runs⟩ held (.adminExists req) =
      (held, .inl (.statement req .hashPassword id)) := by
    have hadmin : held.db.adminExists = false := by simp [held, DB.adminExists, hnone.userRoles]
    simp only [bootstrapSetup_exec, BootstrapCall.exec, hadmin, Bool.false_eq_true, if_true,
      if_false]
  have hstage := @exec_statement svc enabled db₀ hnone req hvalid now held rfl
  obtain ⟨w₁, h₁, hw₁⟩ := @hstage .hashPassword id rfl
  obtain ⟨w₂, h₂, hw₂⟩ := @hstage .insertUser w₁ hw₁
  obtain ⟨w₃, h₃, hw₃⟩ := @hstage .persistSalt w₂ hw₂
  obtain ⟨w₄, h₄, hw₄⟩ := @hstage .insertKeypair w₃ hw₃
  obtain ⟨w₅, h₅, hw₅⟩ := @hstage .assignRoles w₄ hw₄
  have hroles : w₅ db₀ = req.withRoles svc db₀ := hw₅
  let insert (db : DB) : DB :=
    { db with sessions := db.sessions ++ [req.session svc done.expiresAt] }
  have hinstalled : insert (w₅ db₀) = done.installed svc db₀ := by
    rw [hroles]
    simp [insert, BootstrapRequest.withRoles, BootstrapCommit.installed, hnone.sessions, done]
  have hcreate : createSession (w₅ db₀) req.sessionID req.userID
      (hashRefresh svc req.refreshToken) req.client done.expiresAt = .ok (insert (w₅ db₀)) := by
    rw [hroles]
    refine createSession_eq_ok.mpr ⟨?_, ?_, ?_, rfl⟩
    · simp [BootstrapRequest.withRoles, DB.session?, Table.lookup, hnone.sessions]
    · simp [BootstrapRequest.withRoles, lookupSessionByRefreshHash, Table.lookup, hnone.sessions]
    · simp [BootstrapRequest.withRoles, DB.user?, Table.lookup, BootstrapRequest.admin,
        BootstrapRequest.withSalt, BootstrapRequest.newUser]
  have hopen : (bootstrapSetup svc enabled).exec ⟨now, .runs⟩ held
      (.createSession req done.expiresAt w₅) =
        (held, .inl (.commit req done.expiresAt (insert ∘ w₅))) := by
    simp only [bootstrapSetup_exec, BootstrapCall.exec, if_true, held, hcreate]
    rfl
  calc alone 12 ⟨db₀, false, []⟩ (.request req)
      = alone 11 ⟨db₀, false, []⟩ (.lock req) := Program.alone_inl hrequest
    _ = alone 10 held (.adminExists req) := rfl
    _ = alone 9 held (.statement req .hashPassword id) := Program.alone_inl hcheck
    _ = alone 8 held (.statement req .insertUser w₁) := Program.alone_inl h₁
    _ = alone 7 held (.statement req .persistSalt w₂) := Program.alone_inl h₂
    _ = alone 6 held (.statement req .insertKeypair w₃) := Program.alone_inl h₃
    _ = alone 5 held (.statement req .assignRoles w₄) := Program.alone_inl h₄
    _ = alone 4 held (.generateRefresh req w₅) := Program.alone_inl h₅
    _ = alone 3 held (.createSession req done.expiresAt w₅) := rfl
    _ = alone 2 held (.commit req done.expiresAt (insert ∘ w₅)) := Program.alone_inl hopen
    _ = (⟨(insert (w₅ db₀)).audit done.entry, false, [done]⟩,
          .inr ⟨some done, .ok (req.response svc now)⟩) := rfl
    _ = (⟨(done.installed svc db₀).audit done.entry, false, [done]⟩,
          .inr ⟨some done, .ok (req.response svc now)⟩) := by rw [hinstalled]

/-! ## Every interleaving -/

/-- The commit a call has made. -/
def committed : BootstrapCall ⊕ BootstrapOutcome → Option BootstrapCommit
  | .inl (.audit done) => some done
  | .inl _ => none
  | .inr o => o.committed

/-- A statement leaves the database alone, unless its call has committed with it
or before. -/
theorem exec_db_eq (t : BootstrapEvent) (s : BootstrapState) (k : BootstrapCall) :
    (k.exec svc enabled t s).1.db = s.db ∨
      (committed (k.exec svc enabled t s).2).isSome = true := by
  cases hk : bootstrapLock.holds k with
  | false =>
    obtain ⟨reply, h⟩ | ⟨req, -, h, -⟩ | ⟨req, -, -, h⟩ | ⟨done, reply, -, h, -⟩ :=
      exec_outside svc enabled t s hk
    · exact .inl (by rw [h])
    · exact .inl (by rw [h])
    · exact .inl (by rw [h])
    · exact .inr (by rw [h]; rfl)
  | true =>
    obtain ⟨e, h⟩ | ⟨k', h, -⟩ | ⟨req, expiresAt, writes, -, -, hout⟩ :=
      exec_inside svc enabled t s hk
    · exact .inl (by rw [h]; rfl)
    · exact .inl (by rw [h])
    · rcases hout with h | ⟨reply, h⟩
      · exact .inr (by rw [h]; rfl)
      · exact .inr (by rw [h]; rfl)

theorem committed_of_holds {k : BootstrapCall} (hk : bootstrapLock.holds k = true) :
    committed (.inl k) = none := by
  cases k with
  | request | lock | audit => cases hk
  | adminExists | statement | generateRefresh | createSession | commit => rfl

/-- The log of commits is what the calls have committed. -/
theorem exec_committed {t : BootstrapEvent} {k : BootstrapCall}
    (hrelies : k.relies svc enabled db₀ s) :
    (committed (k.exec svc enabled t s).2 = committed (.inl k) ∧
        (k.exec svc enabled t s).1.commits = s.commits) ∨
      (s.commits = [] ∧
        (k.exec svc enabled t s).1.commits = (committed (k.exec svc enabled t s).2).toList) := by
  cases hk : bootstrapLock.holds k with
  | false =>
    obtain ⟨reply, h⟩ | ⟨req, hcall, h, -⟩ | ⟨req, rfl, -, h⟩ | ⟨done, reply, rfl, h, hstate⟩ :=
      exec_outside svc enabled t s hk
    · refine .inl ⟨?_, by rw [h]⟩
      cases k with
      | audit done => simp [BootstrapCall.exec] at h
      | _ => rw [h]; rfl
    · refine .inl ⟨?_, by rw [h]⟩
      rw [h]
      rcases hcall with rfl | rfl <;> rfl
    · exact .inl (by rw [h]; exact ⟨rfl, rfl⟩)
    · refine .inl ⟨by rw [h]; rfl, ?_⟩
      rcases hstate with h | h
      · rw [h]
      · rw [h]
  | true =>
    obtain ⟨e, h⟩ | ⟨k', h, hgo⟩ | ⟨req, expiresAt, writes, rfl, hstate, hout⟩ :=
      exec_inside svc enabled t s hk
    · rw [h]
      exact .inl ⟨(committed_of_holds hk).symm, rfl⟩
    · rw [h]
      exact .inl ⟨(committed_of_holds hgo.holds).trans (committed_of_holds hk).symm, rfl⟩
    · have hcommits : s.commits = [] := hrelies.1.2.1
      refine .inr ⟨hcommits, ?_⟩
      rw [hstate, BootstrapState.commit, hcommits]
      rcases hout with h | ⟨reply, h⟩
      · rw [h]
        rfl
      · rw [h]
        rfl

/-- Whoever has the lock, the database was set up at most once. -/
theorem setUpOnce_of_guards {x : BootstrapSystem}
    (h : bootstrapLock.Guards (fun s => SetUpOnce svc enabled db₀ s.commits s.db)
      (fun s k => k.relies svc enabled db₀ s) x) :
    SetUpOnce svc enabled db₀ x.shared.commits x.shared.db := by
  cases htaken : bootstrapLock.isTaken x.shared with
  | false => exact h.free htaken
  | true =>
    have hcount := h.holders
    rw [htaken, Bool.toNat_true] at hcount
    have hpos : 0 < x.calls.countP bootstrapLock.heldBy := by omega
    obtain ⟨c, hc, hholds⟩ := List.countP_pos_iff.mp hpos
    cases c with
    | inl k => exact BootstrapCall.relies_setUpOnce (h.relies _ hc k rfl) hholds
    | inr o => cases hholds

/-- The lock guards the database, and the log is what the calls have committed. -/
structure SetupInvariant (svc : Service) (enabled : Bool) (db₀ : DB) (x : BootstrapSystem) :
    Prop where
  guards : bootstrapLock.Guards (fun s => SetUpOnce svc enabled db₀ s.commits s.db)
    (fun s k => k.relies svc enabled db₀ s) x
  log : x.calls.filterMap committed = x.shared.commits

theorem setupInvariant_step (hnone : db₀.NoUsers) (x : BootstrapSystem)
    (m : Move BootstrapRequest BootstrapEvent) (h : SetupInvariant svc enabled db₀ x) :
    SetupInvariant svc enabled db₀ ((bootstrapSetup svc enabled).step x m) where
  guards := Lock.guards_step (bootstrapLock_respected svc enabled) (bootstrapLock_protects hnone)
    x m h.guards
  log := by
    apply Program.filterMap_step (bootstrapSetup svc enabled) committed BootstrapState.commits x m
      h.log (fun _ => rfl)
    intro i t k hcall
    exact exec_committed (h.guards.relies _ (List.mem_of_getElem? hcall) k rfl)

/-- A move leaves the database alone, unless it is a statement of a call that has
committed. -/
theorem setup_step_db_eq (x : BootstrapSystem) (m : Move BootstrapRequest BootstrapEvent) :
    ((bootstrapSetup svc enabled).step x m).shared.db = x.shared.db ∨
      ∃ i t c done, m = .advance i t ∧
        ((bootstrapSetup svc enabled).step x m).calls[i]? = some c ∧ committed c = some done := by
  obtain ⟨r, -, h⟩ | ⟨i, t, k, hm, hcall, h⟩ | h := (bootstrapSetup svc enabled).step_cases x m
  · exact .inl (by rw [h])
  · rcases @exec_db_eq svc enabled t x.shared k with hsame | hdone
    · exact .inl (by rw [h]; exact hsame)
    · obtain ⟨done, hdone⟩ := Option.isSome_iff_exists.mp hdone
      have hlt : i < x.calls.length := (List.getElem?_eq_some_iff.mp hcall).1
      refine .inr ⟨i, t, (k.exec svc enabled t x.shared).2, done, hm, ?_, hdone⟩
      rw [h, System.put_calls, List.getElem?_set_self hlt]
      rfl
  · exact .inl (by rw [h])

end Setup

/-- In every interleaving of any number of setups from a database without users, at
most one commits. If none has, the database is as it was; if one has, it was a valid
one and the accounts are the administrator it asked for and nothing else; and no
statement of another one changed the database. -/
theorem bootstrap_setup_once {svc : Service} {enabled : Bool} {db₀ : DB}
    (hempty : db₀.users = []) (hreferences : db₀.UserReferences)
    (moves : List (Move BootstrapRequest BootstrapEvent)) :
    let start : BootstrapSystem := ⟨⟨db₀, false, []⟩, []⟩
    let x := Runs.run (bootstrapSetup svc enabled).step start moves
    SetUpOnce svc enabled db₀ (x.calls.filterMap committed) x.shared.db ∧
      Runs.Every (bootstrapSetup svc enabled).step (fun x m =>
        ((bootstrapSetup svc enabled).step x m).shared.db = x.shared.db ∨
          ∃ i t c done, m = .advance i t ∧
            ((bootstrapSetup svc enabled).step x m).calls[i]? = some c ∧
            committed c = some done) start moves := by
  intro start x
  have hnone := hreferences.noUsers hempty
  have hstart : SetupInvariant svc enabled db₀ start :=
    ⟨Lock.guards_start bootstrapLock _ rfl rfl, rfl⟩
  have hinv : SetupInvariant svc enabled db₀ x :=
    Runs.run_invariant (fun x m => setupInvariant_step hnone x m) hstart moves
  constructor
  · rw [hinv.log]
    exact setUpOnce_of_guards hinv.guards
  · exact Runs.every_of_invariant (J := fun _ => True) (fun _ _ _ => trivial)
      (fun x m _ => setup_step_db_eq x m) trivial moves

/-- A setup of an administrator called `admin`. -/
def sampleSetup (id : Nat) : BootstrapRequest where
  username := "Admin"
  password := "correct horse"
  client := ⟨"", ""⟩
  userID := Uuid.ofNat id
  salt := List.replicate 16 0
  sessionID := Uuid.ofNat 7
  refreshToken := "refresh"

/-- Two setups whose statements alternate; the second waits for the lock. -/
def twoSetups : List (Move BootstrapRequest BootstrapEvent) :=
  [.begin (sampleSetup 1), .begin (sampleSetup 2)] ++
    ((List.range 14).flatMap fun _ => [.advance 0 ⟨1, .runs⟩, .advance 1 ⟨1, .runs⟩])

theorem bootstrap_setup_once_two :
    let start : BootstrapSystem := ⟨⟨{}, false, []⟩, []⟩
    let x := Runs.run (bootstrapSetup sampleService true).step start twoSetups
    SetUpOnce sampleService true {} (x.calls.filterMap committed) x.shared.db ∧
      Runs.Every (bootstrapSetup sampleService true).step (fun x m =>
        ((bootstrapSetup sampleService true).step x m).shared.db = x.shared.db ∨
          ∃ i t c done, m = .advance i t ∧
            ((bootstrapSetup sampleService true).step x m).calls[i]? = some c ∧
            committed c = some done) start twoSetups :=
  bootstrap_setup_once rfl ⟨by simp, by simp, by simp⟩ twoSetups

end IronStock

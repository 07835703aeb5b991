import IronStock.LoginHandlers
import IronStock.PasswordReset
import IronStock.RecoverCalls
import IronStock.ScimHandlers

/-!
# Key pairs, statement by statement

The handlers an account made by an administrator passes through: `CreateUser`
of `admin_users.go`, `auth_login.go`, `auth_change_password.go`,
`auth_keypair_init.go`, `auth_recover.go` and `auth_password_reset.go`.
`InitKeypair` reads `kek_params` in one statement and replaces the row in
another. A transaction is one statement here, that of `ResetPassword` apart;
a login neither reads nor writes a key pair and is one statement too.
-/
namespace IronStock

open Interleaving

/-! ## Placeholders -/

/-- `make([]byte, 32)`. -/
def placeholderPublicKey : Bytes := List.replicate 32 0

def placeholderKEKParams := "\x7b\"alg\":\"none\",\"note\":\"admin-provisioned-placeholder\"\x7d"

def placeholderKeypair (userID : Uuid) : UserKeypair where
  userId := userID
  version := 1
  publicKey := placeholderPublicKey
  privateKeyEnc := [0]
  kekSalt := List.replicate 16 0
  kekParams := placeholderKEKParams
  lengths := by decide

/-- What `InitKeypair` asks of the stored row; `kekAlg` is `json.Unmarshal` into
a struct with the one field `alg`. -/
def UserKeypair.isPlaceholder (kekAlg : String → Option String) (k : UserKeypair) : Bool :=
  kekAlg k.kekParams = some "none"

def DB.keypair? (db : DB) (userID : Uuid) : Option UserKeypair :=
  Table.lookup UserKeypair.userId userID db.userKeypairs

/-! ## Accounts made by an administrator -/

structure CreateUserRequest where
  username : String
  email : String
  password : String
  roles : List String
  totpRequired : Option Bool
  requiresClientCert : Option Bool

/-- `^[a-zA-Z0-9._-]{3,64}$`. -/
def usernameRE (s : String) : Bool :=
  3 ≤ s.length && s.length ≤ 64 && s.toList.all fun c => c.isAlphanum || ['.', '_', '-'].contains c

/-- The roles to grant, if the request is in order. -/
def validateCreateUser (req : CreateUserRequest) : Reply (List Role) := do
  Reply.require (usernameRE req.username = true)
    (badRequest "Kullanıcı adı 3-64 karakter, sadece harf/rakam/._- olabilir.")
  Reply.require (3 ≤ req.email.utf8ByteSize ∧ '@' ∈ req.email.toList)
    (badRequest "Geçerli bir e-posta adresi giriniz.")
  Reply.require (12 ≤ req.password.utf8ByteSize) (badRequest "Şifre en az 12 karakter olmalı.")
  let roles := if req.roles = [] then ["read"] else req.roles
  roles.mapM fun name => Reply.orElse (Role.ofName name) (badRequest ("Geçersiz rol: " ++ name))

/-- The row of the new user, with the id and the salt drawn for it. -/
def CreateUserRequest.user (svc : Service) (req : CreateUserRequest) (newID : Uuid)
    (salt : Bytes) : User :=
  let password := svc.passwords.hashPassword req.password salt
  { id := newID
    username := svc.toLower req.username
    email := svc.toLower req.email
    passwordHash := password.1
    argon2Params := password.2
    status := .active
    mustChangePassword := true
    totpRequired := req.totpRequired.getD true
    requiresClientCert := req.requiresClientCert.getD false }

/-- `INSERT INTO user_keypairs`. -/
def DB.insertKeypair (db : DB) (k : UserKeypair) : Except PgError DB :=
  if (db.keypair? k.userId).isSome then .error .uniqueViolation
  else if (db.user? k.userId).isNone then .error .foreignKeyViolation
  else .ok { db with userKeypairs := db.userKeypairs ++ [k] }

/-- The transaction of `CreateUser`, and the entry after it. -/
def provisionUser (db : DB) (actor : Uuid) (user : User) (roles : List Role) : Reply DB :=
  match insertUser db user with
  | .error e =>
    if isUniqueViolation e then
      .error ⟨409, errCodeConflict, "Kullanıcı adı veya e-posta zaten kullanımda."⟩
    else .error (internalError "Kullanıcı oluşturulamadı.")
  | .ok db => do
    let db ← Reply.orElse (db.insertKeypair (placeholderKeypair user.id)).toOption
      (internalError "Anahtar çifti kaydedilemedi.")
    let db := roles.foldl (fun db role => db.addUserRole ⟨user.id, role⟩) db
    return db.audit ⟨actor.text, "admin.user_enabled", "user", user.id.text⟩

/-! ## The first key pair -/

structure KeypairInitRequest where
  currentPassword : String
  newPublicKey : Bytes
  newPrivateKeyEnc : Bytes
  newKEKSalt : Bytes
  newKEKParams : String

def validateKeypairInit (req : KeypairInitRequest) : Reply Unit := do
  Reply.require (req.currentPassword ≠ "") (badRequest "current_master_password zorunlu")
  Reply.require (req.newPublicKey.length = 32) (badRequest "new_public_key 32 byte olmalı")
  Reply.require (req.newPrivateKeyEnc.length ≠ 0) (badRequest "new_private_key_enc zorunlu")
  Reply.require (16 ≤ req.newKEKSalt.length) (badRequest "new_kek_salt en az 16 byte olmalı")
  Reply.require (req.newKEKParams ≠ "") (badRequest "new_kek_params zorunlu")

/-- The user of the access token, after the checks of the body and of the
current password. -/
def confirmedSubject (svc : Service) (db : DB) (now : Time) (authz : String)
    (validated : Reply Unit) (currentPassword : String) : DB × Reply Uuid :=
  match requireAccessToken svc now authz with
  | .error e => (db, .error e)
  | .ok claims =>
    match validated with
    | .error e => (db, .error e)
    | .ok () =>
      match confirmPassword svc db now claims.subject currentPassword with
      | (db, .error e) => (db, .error e)
      | (db, .ok ()) => (db, .ok claims.subject)

/-- The `UPDATE` of `InitKeypair`, and the entry after it. -/
def replaceKeypair (db : DB) (userID : Uuid) (req : KeypairInitRequest) : Reply DB := do
  let db ← Reply.orElse (db.rotateKeypair userID (some req.newPublicKey) req.newPrivateKeyEnc
    req.newKEKSalt req.newKEKParams).toOption (internalError "Keypair başlatılamadı.")
  return db.audit ⟨userID.text, "auth.keypair_initialized", "user", userID.text⟩

/-! ## The calls -/

/-- A request comes with what is drawn for it. -/
inductive KeypairRequest
  | createUser (authz : String) (req : CreateUserRequest) (newID : Uuid) (salt : Bytes)
  | login (ctx : LoginContext) (draw : LoginDraw) (req : LoginRequest)
  | changePassword (authz : String) (req : ChangePasswordRequest) (salt : Bytes)
  | initKeypair (authz : String) (req : KeypairInitRequest)
  | recoverComplete (authz : String) (req : RecoverCompleteRequest) (salt : Bytes)
      (codes : List (Uuid × Bytes))
  | resetPassword (r : ResetRequest)

/-- What is left of a request. -/
inductive KeypairCall
  | request (r : KeypairRequest)
  | provision (actor : Uuid) (user : User) (roles : List Role)
  | storePassword (userID : Uuid) (req : ChangePasswordRequest) (salt : Bytes)
  | readKEKParams (userID : Uuid) (req : KeypairInitRequest)
  | replaceKeypair (userID : Uuid) (req : KeypairInitRequest)
  | rotate (userID : Uuid) (req : RecoverCompleteRequest) (salt : Bytes)
      (codes : List (Uuid × Bytes))
  | reset (call : ResetCall)

inductive KeypairAnswer
  | created (userID : Uuid)
  | loggedIn (resp : LoginResponse)
  | passwordChanged (userID : Uuid)
  | initialised (userID : Uuid)
  | recovered (userID : Uuid)
  | reset (answer : ResetAnswer)
  | failed (e : ApiError)

abbrev KeypairResult := ResetState × (KeypairCall ⊕ KeypairAnswer)
abbrev KeypairSystem := System ResetState KeypairCall KeypairAnswer

def ResetState.withDB (s : ResetState) (db : DB) : ResetState :=
  { s with tables := { s.tables with db } }

/-- The end of a request: the database and the answer, or the error. -/
def ResetState.commit (s : ResetState) (result : Reply DB) (answer : KeypairAnswer) :
    KeypairResult :=
  match result with
  | .error e => (s, .inr (.failed e))
  | .ok db => (s.withDB db, .inr answer)

/-- The first checks of a request that goes on if they pass. -/
def ResetState.goOn (s : ResetState) (checks : DB × Reply Uuid) (rest : Uuid → KeypairCall) :
    KeypairResult :=
  match checks with
  | (db, .error e) => (s.withDB db, .inr (.failed e))
  | (db, .ok userID) => (s.withDB db, .inl (rest userID))

def KeypairRequest.exec (svc : Service) (s : ResetState) : KeypairRequest → KeypairResult
  | .createUser authz req newID salt =>
    match requireAdmin svc s.tables.db s.clock authz, validateCreateUser req with
    | .error e, _ | .ok _, .error e => (s, .inr (.failed e))
    | .ok claims, .ok roles => (s, .inl (.provision claims.subject (req.user svc newID salt) roles))
  | .login ctx draw req =>
    match IronStock.login svc s.tables.db s.clock ctx draw req with
    | (db, .error e) => (s.withDB db, .inr (.failed e))
    | (db, .ok resp) => (s.withDB db, .inr (.loggedIn resp))
  | .changePassword authz req salt =>
    s.goOn (confirmedSubject svc s.tables.db s.clock authz (validateChangePassword req)
      req.currentPassword) (.storePassword · req salt)
  | .initKeypair authz req =>
    s.goOn (confirmedSubject svc s.tables.db s.clock authz (validateKeypairInit req)
      req.currentPassword) (.readKEKParams · req)
  | .recoverComplete authz req salt codes =>
    s.goOn (s.tables.db, recoverAuthority svc s.clock authz req) (.rotate · req salt codes)
  | .resetPassword r => (s, .inl (.reset (.request r)))

/-- The next statement of a request, on a clock that has moved on. -/
def KeypairCall.exec (svc : Service) (kekAlg : String → Option String) (elapsed : Nat)
    (s : ResetState) (call : KeypairCall) : KeypairResult :=
  match call with
  | .reset call =>
    let r := call.exec svc elapsed s
    (r.1, r.2.map .reset .reset)
  | .request r => r.exec svc (s.tick elapsed)
  | .provision actor user roles =>
    (s.tick elapsed).commit (provisionUser s.tables.db actor user roles) (.created user.id)
  | .storePassword userID req salt =>
    let s := s.tick elapsed
    s.commit (IronStock.storePassword svc s.tables.db s.clock userID req salt)
      (.passwordChanged userID)
  | .readKEKParams userID req =>
    let s := s.tick elapsed
    match s.tables.db.keypair? userID with
    | none => (s, .inr (.failed (internalError "Keypair sorgulanamadı.")))
    | some k =>
      if k.isPlaceholder kekAlg then (s, .inl (.replaceKeypair userID req))
      else
        (s, .inr (.failed ⟨409, errCodeConflict,
          "Keypair zaten başlatılmış. Değiştirmek için /auth/change-password kullanın."⟩))
  | .replaceKeypair userID req =>
    (s.tick elapsed).commit (IronStock.replaceKeypair s.tables.db userID req) (.initialised userID)
  | .rotate userID req salt codes =>
    let s := s.tick elapsed
    s.commit (rotateAll svc s.tables.db s.clock userID req salt codes) (.recovered userID)

/-- The handlers as calls on the tables. -/
def keypairHandlers (svc : Service) (kekAlg : String → Option String) :
    Program ResetState KeypairRequest KeypairCall KeypairAnswer Nat where
  enter := .request
  exec elapsed s call := call.exec svc kekAlg elapsed s

/-- Without another request in between, the statements of `ChangePassword` are
`changePassword`. -/
theorem changePassword_alone (svc : Service) (kekAlg : String → Option String) (s : ResetState)
    (authz : String) (req : ChangePasswordRequest) (salt : Bytes) :
    ∃ answer, (keypairHandlers svc kekAlg).alone 0 2 s
        (.request (.changePassword authz req salt)) =
          (s.withDB (changePassword svc s.tables.db s.clock authz req salt).1, .inr answer) ∧
      ((∃ userID, answer = .passwordChanged userID) ↔
        (changePassword svc s.tables.db s.clock authz req salt).2.isOk = true) := by
  have hfails : ∀ e, ((∃ userID, KeypairAnswer.failed e = .passwordChanged userID) ↔
      (Except.error e : Reply Unit).isOk = true) := fun e =>
    iff_of_false (fun h => nomatch h) (fun h => nomatch h)
  simp only [Program.alone, keypairHandlers, KeypairCall.exec, KeypairRequest.exec,
    ResetState.tick_zero, changePassword, confirmedSubject]
  cases requireAccessToken svc s.clock authz with
  | error e => exact ⟨_, rfl, hfails e⟩
  | ok claims =>
    cases validateChangePassword req with
    | error e => exact ⟨_, rfl, hfails e⟩
    | ok _ =>
      simp only
      rcases confirmPassword svc s.tables.db s.clock claims.subject req.currentPassword with
        ⟨db, e | _⟩
      · exact ⟨_, rfl, hfails e⟩
      · simp only [ResetState.goOn, ResetState.withDB]
        cases storePassword svc db s.clock claims.subject req salt with
        | error e => exact ⟨_, rfl, hfails e⟩
        | ok db' => exact ⟨_, rfl, iff_of_true ⟨_, rfl⟩ rfl⟩

end IronStock

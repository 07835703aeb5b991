import IronStock.RecoverHandlers
import IronStock.Lib.Interleaving
import IronStock.Lib.Transactions

/-!
# Password reset

`auth_password_reset.go`, statement by statement, under the columns of the
migrations. The transaction names two columns no migration has made.
-/
namespace IronStock

open Interleaving Transactions

/-- A row of `password_reset_tokens`. -/
structure PasswordResetToken where
  id : Uuid
  userId : Uuid
  tokenHash : Digest
  expiresAt : Time
  usedAt : Option Time

structure ResetTables where
  db : DB
  resetTokens : List PasswordResetToken := []

/-- The tables, and the rows of `password_reset_tokens` that a transaction has
locked. -/
structure ResetState where
  clock : Time := 0
  tables : ResetTables
  locked : List Uuid := []

def ResetState.tick (s : ResetState) (elapsed : Nat) : ResetState :=
  { s with clock := s.clock + elapsed }

@[simp] theorem ResetState.tick_zero (s : ResetState) : s.tick 0 = s := by
  simp [tick]

/-! ## The schema -/

inductive SqlTable
  | users
  | userKeypairs
  | passwordResetTokens
  | sessions
deriving DecidableEq

/-- The columns of the migrations. -/
def SqlTable.columns : SqlTable → List String
  | users =>
    ["id", "username", "email", "password_hash", "argon2_params", "status",
      "failed_login_attempts", "locked_until", "last_login_at", "created_at", "updated_at",
      "must_change_password", "is_break_glass", "totp_required", "requires_client_cert",
      "webauthn_required", "allowed_ip_cidrs", "allowed_country_codes", "deny_tor_exit",
      "scim_external_id"]
  | userKeypairs =>
    ["user_id", "version", "public_key", "private_key_enc", "kek_salt", "kek_params",
      "created_at", "rotated_at"]
  | passwordResetTokens =>
    ["id", "user_id", "token_hash", "expires_at", "used_at", "ip_address", "user_agent",
      "created_at"]
  | sessions =>
    ["id", "user_id", "refresh_token_hash", "user_agent", "ip_address", "created_at",
      "last_used_at", "expires_at", "revoked_at", "revoke_reason"]

def schema (c : SqlTable × String) : Bool := c.1.columns.contains c.2

def SqlTable.named (t : SqlTable) (columns : List String) : List (SqlTable × String) :=
  columns.map (t, ·)

/-! ## The request -/

structure ResetPasswordRequest where
  token : String
  newPassword : String
  publicKey : Bytes
  privateKeyEnc : Bytes
  kekSalt : Bytes
  kekParams : String

def validateResetPassword (req : ResetPasswordRequest) : Reply Unit := do
  Reply.require (req.token ≠ "") (badRequest "token gerekli")
  Reply.require (12 ≤ req.newPassword.utf8ByteSize)
    (badRequest "new_password en az 12 karakter olmalıdır")
  Reply.require (req.publicKey.length = 32) (badRequest "public_key 32 byte (X25519) olmalıdır")
  Reply.require (req.privateKeyEnc.length ≠ 0) (badRequest "private_key_enc gerekli")
  Reply.require (16 ≤ req.kekSalt.length) (badRequest "kek_salt en az 16 byte olmalıdır")
  Reply.require (req.kekParams ≠ "") (badRequest "kek_params gerekli")

def decodeHexDigits : List Char → Option Bytes
  | [] => some []
  | a :: b :: cs =>
    match Uuid.hexValue a, Uuid.hexValue b, decodeHexDigits cs with
    | some x, some y, some rest => some (UInt8.ofNat (16 * x.val + y.val) :: rest)
    | _, _, _ => none
  | [_] => none

/-- `hex.DecodeString`. -/
def decodeHex (s : String) : Option Bytes := decodeHexDigits s.toList

/-- The hash of the token in the request. -/
def resetTokenHash (svc : Service) (req : ResetPasswordRequest) : Reply Digest := do
  validateResetPassword req
  match decodeHex req.token with
  | some raw =>
    if raw.length = 32 then return svc.sha256 raw
    else .error (badRequest "Geçersiz token formatı.")
  | none => .error (badRequest "Geçersiz token formatı.")

/-! ## The statements -/

abbrev ResetLine := Line (SqlTable × String) ResetTables ApiError
abbrev ResetScript := Script (SqlTable × String) ResetTables ApiError

/-- `SELECT … FOR UPDATE`. -/
def ResetTables.usableToken (t : ResetTables) (now : Time) (tokenHash : Digest) :
    Option PasswordResetToken :=
  t.resetTokens.find? fun r => r.tokenHash = tokenHash ∧ now < r.expiresAt ∧ r.usedAt = none

def ResetTables.updateUser (t : ResetTables) (userID : Uuid) (f : User → User) : ResetTables :=
  { t with db := t.db.updateUser userID f }

/-- `INSERT INTO user_keypairs … ON CONFLICT (user_id) DO UPDATE`. -/
def ResetTables.upsertKeypair (req : ResetPasswordRequest) (userID : Uuid) (t : ResetTables) :
    Option (ResetTables → ResetTables) :=
  if h : req.publicKey.length = 32 ∧ 0 < req.privateKeyEnc.length ∧ 16 ≤ req.kekSalt.length then
    if (t.db.user? userID).isSome then
      let set (id : Uuid) (version : Int) : UserKeypair :=
        ⟨id, version, req.publicKey, req.privateKeyEnc, req.kekSalt, req.kekParams, h⟩
      some fun t =>
        let userKeypairs := Table.upsert (·.userId = userID) (fun k => set k.userId k.version)
          (set userID 1) t.db.userKeypairs
        { t with db := { t.db with userKeypairs } }
    else none
  else none

def ResetTables.markUsed (t : ResetTables) (now : Time) (id : Uuid) : ResetTables :=
  { t with
    resetTokens := Table.updateWhere (·.id = id) (fun r => { r with usedAt := some now })
      t.resetTokens }

/-- The statements between the `SELECT` and the commit. The salt, which has a
statement of its own, is part of `argon2_params` from the first on. The last one
would write a column that is not there, and its error is passed over. -/
def resetLines (svc : Service) (now : Time) (row : PasswordResetToken) (req : ResetPasswordRequest)
    (salt : Bytes) : List ResetLine :=
  let password := svc.passwords.hashPassword req.newPassword salt
  let setPassword (u : User) : User :=
    { u with passwordHash := password.1, argon2Params := password.2 }
  let setParams (u : User) : User := { u with argon2Params := password.2 }
  [{ statement :=
      { names := SqlTable.users.named ["password_hash", "argon2_params", "id"]
        write := fun _ => some (·.updateUser row.userId setPassword) }
     onError := some (internalError "Şifre güncellenemedi.") },
   { statement :=
      { names := SqlTable.users.named ["argon2_params", "id"]
        write := fun _ => some (·.updateUser row.userId setParams) }
     onError := some (internalError "Kullanıcı parametreleri güncellenemedi.") },
   { statement :=
      { names := SqlTable.userKeypairs.named
          ["user_id", "public_key", "private_key_enc", "kek_salt", "kek_params", "updated_at"]
        write := ResetTables.upsertKeypair req row.userId }
     onError := some (internalError "Anahtar çifti güncellenemedi.") },
   { statement :=
      { names := SqlTable.passwordResetTokens.named ["used_at", "id"]
        write := fun _ => some (·.markUsed now row.id) }
     onError := some (internalError "Token güncellenemedi.") },
   { statement :=
      { names := SqlTable.sessions.named ["revoked", "user_id"]
        write := fun _ => some id }
     onError := none }]

/-! ## The handler -/

/-- A request comes with the salt drawn for it. -/
structure ResetRequest where
  req : ResetPasswordRequest
  salt : Bytes

inductive ResetCall
  | request (r : ResetRequest)
  | inTx (token : Uuid) (script : ResetScript)

inductive ResetAnswer
  | succeeded (token : Uuid)
  | failed (e : ApiError)

/-- Begins the transaction with the `SELECT`, which waits for a row that is
locked. -/
def ResetRequest.exec (svc : Service) (s : ResetState) (r : ResetRequest) :
    ResetState × (ResetCall ⊕ ResetAnswer) :=
  match resetTokenHash svc r.req with
  | .error e => (s, .inr (.failed e))
  | .ok tokenHash =>
    match s.tables.usableToken s.clock tokenHash with
    | none => (s, .inr (.failed (badRequest "Geçersiz veya süresi dolmuş token.")))
    | some row =>
      if row.id ∈ s.locked then (s, .inl (.request r))
      else
        ({ s with locked := row.id :: s.locked },
          .inl (.inTx row.id (.start (resetLines svc s.clock row r.req r.salt)
            (internalError "İşlem tamamlanamadı."))))

def ResetCall.exec (svc : Service) (elapsed : Nat) (s : ResetState) (call : ResetCall) :
    ResetState × (ResetCall ⊕ ResetAnswer) :=
  let s := s.tick elapsed
  match call with
  | .request r => r.exec svc s
  | .inTx token script =>
    match script.step schema s.tables with
    | (_, .inl script) => (s, .inl (.inTx token script))
    | (tables, .inr result) =>
      ({ s with tables := tables, locked := s.locked.filter (· ≠ token) },
        .inr (match result with
          | .ok () => .succeeded token
          | .error e => .failed e))

/-- `ResetPassword` as calls on the tables. -/
def resetPassword (svc : Service) : Program ResetState ResetRequest ResetCall ResetAnswer Nat where
  enter := .request
  exec elapsed s call := call.exec svc elapsed s

/-! ## What happens to a reset -/

/-- `user_keypairs` has no `updated_at`, and `sessions` no `revoked`. -/
theorem resetLines_doomed (svc : Service) (now : Time) (row : PasswordResetToken)
    (req : ResetPasswordRequest) (salt : Bytes) (commitError : ApiError) :
    Script.Doomed schema (Script.start (resetLines svc now row req salt) commitError) :=
  Script.doomed_of_mem (.tail _ (.tail _ (.head _))) rfl

/-- The `UPDATE` of the sessions alone would already doom the transaction. -/
theorem revokeSessions_doomed (svc : Service) (now : Time) (row : PasswordResetToken)
    (req : ResetPasswordRequest) (salt : Bytes) (commitError : ApiError) :
    Script.Doomed schema
      (Script.start ((resetLines svc now row req salt).drop 3) commitError) :=
  Script.doomed_of_mem (.tail _ (.head _)) rfl

/-- The transaction of a call is doomed, and no call has succeeded. -/
def ResetCallOk : ResetCall ⊕ ResetAnswer → Prop
  | .inl (.inTx _ script) => script.Doomed schema
  | .inr (.succeeded _) => False
  | _ => True

/-- Only a request that succeeds writes. -/
theorem ResetCall.exec_atomic (svc : Service) (elapsed : Nat) (s : ResetState) (call : ResetCall)
    (h : ∀ token, (call.exec svc elapsed s).2 ≠ .inr (.succeeded token)) :
    (call.exec svc elapsed s).1.tables = s.tables := by
  cases call with
  | request r =>
    simp only [ResetCall.exec, ResetRequest.exec]
    split
    · rfl
    · split
      · rfl
      · split <;> rfl
  | inTx token script =>
    have hatomic : (script.step schema s.tables).2 ≠ .inr (.ok ()) →
        (script.step schema s.tables).1 = s.tables := Script.step_fst_of_ne_ok
    simp only [ResetCall.exec] at h ⊢
    split
    · rfl
    · next tables result hstep =>
      have hstep : script.step schema s.tables = (tables, .inr result) := hstep
      rw [hstep] at hatomic
      refine hatomic fun hok => ?_
      cases hok
      exact h token (by rw [show (s.tick elapsed).tables = s.tables from rfl, hstep])

theorem ResetCall.exec_callOk (svc : Service) (elapsed : Nat) (s : ResetState) {call : ResetCall}
    (hcall : ResetCallOk (.inl call)) : ResetCallOk (call.exec svc elapsed s).2 := by
  cases call with
  | request r =>
    simp only [ResetCall.exec, ResetRequest.exec]
    split
    · trivial
    · split
      · trivial
      · split
        · trivial
        · exact resetLines_doomed ..
  | inTx token script =>
    simp only [ResetCall.exec]
    obtain ⟨script', hstep, hdoomed⟩ | ⟨e, hstep⟩ :=
      Script.Doomed.step hcall (s.tick elapsed).tables
    · rw [hstep]
      exact hdoomed
    · rw [hstep]
      trivial

/-! ## What a reset should do -/

/-- The reset of this token is done: password, keys, token and sessions. -/
structure ResetDone (svc : Service) (t : ResetTables) (row : PasswordResetToken)
    (r : ResetRequest) : Prop where
  password : (t.db.user? row.userId).map (fun u => (u.passwordHash, u.argon2Params)) =
    some (svc.passwords.hashPassword r.req.newPassword r.salt)
  keys : ∃ k ∈ t.db.userKeypairs, k.userId = row.userId ∧ k.publicKey = r.req.publicKey ∧
    k.privateKeyEnc = r.req.privateKeyEnc ∧ k.kekSalt = r.req.kekSalt ∧
    k.kekParams = r.req.kekParams
  used : ∀ x ∈ t.resetTokens, x.id = row.id → x.usedAt ≠ none
  revoked : ∀ x ∈ t.db.sessions, x.userId = row.userId → x.isOpen = false

/-- The request, with no other in between, succeeds and does all of it. -/
def ResetWorks (svc : Service) (s : ResetState) (row : PasswordResetToken) (r : ResetRequest) :
    Prop :=
  ∃ s', (resetPassword svc).alone 0 7 s (.request r) = (s', .inr (.succeeded row.id)) ∧
    ResetDone svc s'.tables row r

/-- The answer to a request with this token. -/
def succeedsWith (token : Uuid) : ResetCall ⊕ ResetAnswer → Bool
  | .inr (.succeeded token') => token' = token
  | _ => false

/-- No token has been used and nothing has been written. -/
structure NothingReset (s : System ResetState ResetCall ResetAnswer) (tables : ResetTables) :
    Prop where
  unused : ∀ token, s.calls.countP (succeedsWith token) = 0
  unchanged : s.shared.tables = tables

section Resets

variable (svc : Service) (s : ResetState)

theorem resetPassword_run (moves : List (Move ResetRequest Nat)) :
    Program.Holds (fun x => x.tables = s.tables) (fun _ => ResetCallOk)
      (Runs.run (resetPassword svc).step ⟨s, []⟩ moves) := by
  have hstart : Program.Holds (fun x : ResetState => x.tables = s.tables) (fun _ => ResetCallOk)
      ⟨s, []⟩ := ⟨rfl, fun _ hc => absurd hc List.not_mem_nil⟩
  refine Runs.run_invariant ?_ hstart moves
  intro x m hx
  refine Program.holds_step _ x m hx (fun _ _ => trivial) ?_
  intro i elapsed call _ hcall
  have hok := ResetCall.exec_callOk svc elapsed x.shared
    (hx.calls _ (List.mem_of_getElem? hcall))
  have htables := ResetCall.exec_atomic svc elapsed x.shared call fun token hsucceeds => by
    rw [hsucceeds] at hok
    exact hok
  exact ⟨htables.trans hx.shared, hok, fun _ hc => hc⟩

theorem resetPassword_alone {r : ResetRequest} {row : PasswordResetToken} {tokenHash : Digest}
    (hhash : resetTokenHash svc r.req = .ok tokenHash)
    (hrow : s.tables.usableToken s.clock tokenHash = some row) (hfree : row.id ∉ s.locked) :
    ∃ s', (resetPassword svc).alone 0 7 s (.request r) =
        (s', .inr (.failed (internalError "Anahtar çifti güncellenemedi."))) ∧
      s'.tables = s.tables := by
  have hbegin : (resetPassword svc).exec 0 s (.request r) =
      ({ s with locked := row.id :: s.locked },
        .inl (.inTx row.id (.start (resetLines svc s.clock row r.req r.salt)
          (internalError "İşlem tamamlanamadı.")))) := by
    simp only [resetPassword, ResetCall.exec, ResetState.tick_zero, ResetRequest.exec, hhash, hrow,
      if_neg hfree]
  rw [Program.alone, hbegin]
  exact ⟨_, rfl, rfl⟩

end Resets

/-- A reset with a good token never works: it fails at the key pair and changes
nothing, in whatever company. -/
theorem reset_password_never_works (svc : Service) (s : ResetState) (r : ResetRequest)
    (row : PasswordResetToken) (tokenHash : Digest)
    (hhash : resetTokenHash svc r.req = .ok tokenHash)
    (hrow : s.tables.usableToken s.clock tokenHash = some row) (hfree : row.id ∉ s.locked) :
    ¬ ResetWorks svc s row r ∧
      (∃ s', (resetPassword svc).alone 0 7 s (.request r) =
          (s', .inr (.failed (internalError "Anahtar çifti güncellenemedi."))) ∧
        s'.tables = s.tables) ∧
      ∀ moves, NothingReset (Runs.run (resetPassword svc).step ⟨s, []⟩ moves) s.tables := by
  have halone := resetPassword_alone svc s hhash hrow hfree
  refine ⟨?_, halone, fun moves => ?_⟩
  · rintro ⟨s₁, hsucceeds, _⟩
    obtain ⟨s₂, hfails, _⟩ := halone
    rw [hfails] at hsucceeds
    cases hsucceeds
  · have hrun := resetPassword_run svc s moves
    refine ⟨fun token => List.countP_eq_zero.mpr fun c hc hsucceeds => ?_, hrun.shared⟩
    match c, hrun.calls c hc, hsucceeds with
    | .inr (.succeeded _), hno, _ => exact hno

/-! ## A concrete reset -/

def resetRow : PasswordResetToken where
  id := Uuid.ofNat 5
  userId := Uuid.ofNat 1
  tokenHash := sampleService.sha256 (List.replicate 32 0)
  expiresAt := 1
  usedAt := none

def resetState : ResetState where
  tables := ⟨{ users := [sampleUser 1 "ada"] }, [resetRow]⟩

def resetRequest : ResetRequest where
  req :=
    { token := String.ofList (List.replicate 64 '0')
      newPassword := "a new password"
      publicKey := List.replicate 32 7
      privateKeyEnc := [7]
      kekSalt := List.replicate 16 7
      kekParams := "\x7b\"alg\":\"argon2id\"\x7d" }
  salt := List.replicate 16 0

theorem reset_password_fails :
    (∃ s', (resetPassword sampleService).alone 0 7 resetState (.request resetRequest) =
        (s', .inr (.failed (internalError "Anahtar çifti güncellenemedi."))) ∧
      s'.tables = resetState.tables) ∧
    ∀ moves, NothingReset (Runs.run (resetPassword sampleService).step ⟨resetState, []⟩ moves)
      resetState.tables :=
  (reset_password_never_works sampleService resetState resetRequest resetRow
    resetRow.tokenHash rfl rfl (by decide)).2

/-- A good token and an acceptable password, and no reset. -/
theorem reset_password_not_works :
    (resetTokenHash sampleService resetRequest.req = .ok resetRow.tokenHash ∧
      resetState.tables.usableToken resetState.clock resetRow.tokenHash = some resetRow) ∧
    ¬ ResetWorks sampleService resetState resetRow resetRequest := by
  refine ⟨⟨rfl, rfl⟩, ?_⟩
  rintro ⟨s', hsucceeds, _⟩
  have hfails : ((resetPassword sampleService).alone 0 7 resetState (.request resetRequest)).2 =
      .inr (.failed (internalError "Anahtar çifti güncellenemedi.")) := rfl
  rw [hsucceeds] at hfails
  cases hfails

end IronStock

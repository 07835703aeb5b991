import IronStock.RecoverHandlers
import IronStock.Lib.Interleaving

/-!
# Recovery, statement by statement

`RecoverInit` reads the codes, verifies them one after the other and only then
marks the one that matched; `RecoverComplete` checks its token and then writes.
A transaction locks the rows it writes and is one statement here.
-/
namespace IronStock

open Interleaving

structure RecoverState where
  clock : Time := 0
  db : DB

def RecoverState.tick (s : RecoverState) (elapsed : Nat) : RecoverState :=
  { s with clock := s.clock + elapsed }

@[simp] theorem RecoverState.tick_zero (s : RecoverState) : s.tick 0 = s := by
  simp [tick]

/-- A second request comes with the salt and the codes drawn for it. -/
inductive RecoverRequest
  | init (username recoveryCode : String)
  | complete (authz : String) (req : RecoverCompleteRequest) (salt : Bytes)
      (codes : List (Uuid × Bytes))

/-- What is left of a request. -/
inductive RecoverCall
  | request (r : RecoverRequest)
  | selectCodes (userID : Uuid) (recoveryCode : String)
  | countFailure (userID : Uuid)
  | markUsed (userID code : Uuid)
  | rotate (token : String) (userID : Uuid) (req : RecoverCompleteRequest) (salt : Bytes)
      (codes : List (Uuid × Bytes))

/-- The row of the code an `init` accepted, and the temporary token a request
was answered or authorised with. -/
inductive RecoverAnswer
  | accepted (code : Uuid) (token : String)
  | completed (token : String)
  | failed (e : ApiError)

/-- The account of a first request. -/
def recoverAccount (svc : Service) (db : DB) (now : Time) (username recoveryCode : String) :
    DB × Reply Uuid :=
  if username = "" ∨ recoveryCode = "" then
    (db, .error (badRequest "username ve recovery_code zorunlu."))
  else
    match fetchUserForLogin db (svc.toLower username) with
    | none => (db.recordRecoverFail "", .error invalidCreds)
    | some user =>
      if user.isLocked now then
        (db.recordRecoverFail user.id.text,
          .error ⟨403, errCodeAccountLocked, "Hesap geçici olarak kilitli."⟩)
      else (db, .ok user.id)

/-- `fetchUnusedRecoveryCodes` and the code that verifies. -/
def matchingCode (svc : Service) (db : DB) (userID : Uuid) (recoveryCode : String) :
    Option RecoveryCode :=
  db.recoveryCodes.find? fun c =>
    c.isUnusedFor userID && svc.passwords.verifyRecoveryCode recoveryCode c.codeHash

/-- The transaction of `RecoverInit`; how many rows the `UPDATE` affected is not
asked. -/
def acceptCode (db : DB) (now : Time) (userID code : Uuid) : DB :=
  (revokeAllUserSessions (db.markRecoveryCode now code) now userID .recovery).audit
    ⟨userID.text, "auth.recover", "user", userID.text⟩

/-- What `RecoverComplete` checks before its transaction. -/
def recoverAuthority (svc : Service) (now : Time) (authz : String) (req : RecoverCompleteRequest) :
    Reply Uuid := do
  let userID ← requireTmpToken svc now authz purposeRecovery
  validateRecoverComplete req
  return userID

/-- The transaction of `RecoverComplete`. -/
def rotateAll (svc : Service) (db : DB) (now : Time) (userID : Uuid) (req : RecoverCompleteRequest)
    (salt : Bytes) (codes : List (Uuid × Bytes)) : Reply DB := do
  let password := svc.passwords.hashPassword req.newPassword salt
  let db := db.updateUser userID fun u => { u.withPassword password with status := .active }
  let db ← Reply.orElse (db.rotateKeypair userID (some req.publicKey) req.newPrivateKeyEnc
    req.newKEKSalt req.newKEKParams).toOption (internalError "Anahtar çifti güncellenemedi.")
  Reply.require ((db.user? userID).isSome = true)
    (internalError "Yeni recovery code kaydedilemedi.")
  let db := (db.deleteRecoveryCodes userID).addRecoveryCodes userID codes
  let db := revokeAllUserSessions db now userID .recovery
  let db := db.audit ⟨userID.text, "auth.recover", "user", userID.text⟩
  return db.audit ⟨userID.text, "auth.password_changed", "user", userID.text⟩

def RecoverRequest.exec (svc : Service) (s : RecoverState) :
    RecoverRequest → RecoverState × (RecoverCall ⊕ RecoverAnswer)
  | .init username recoveryCode =>
    match recoverAccount svc s.db s.clock username recoveryCode with
    | (db, .error e) => ({ s with db }, .inr (.failed e))
    | (db, .ok userID) => ({ s with db }, .inl (.selectCodes userID recoveryCode))
  | .complete authz req salt codes =>
    match recoverAuthority svc s.clock authz req with
    | .error e => (s, .inr (.failed e))
    | .ok userID => (s, .inl (.rotate ((bearerToken authz).getD "") userID req salt codes))

/-- The next statement of a request, on a clock that has moved on. -/
def RecoverCall.exec (svc : Service) (elapsed : Nat) (s : RecoverState) (call : RecoverCall) :
    RecoverState × (RecoverCall ⊕ RecoverAnswer) :=
  let s := s.tick elapsed
  match call with
  | .request r => r.exec svc s
  | .selectCodes userID recoveryCode =>
    match matchingCode svc s.db userID recoveryCode with
    | none => (s, .inl (.countFailure userID))
    | some code => (s, .inl (.markUsed userID code.id))
  | .countFailure userID =>
    ({ s with db := (recordLoginFailure s.db s.clock userID).recordRecoverFail userID.text },
      .inr (.failed invalidCreds))
  | .markUsed userID code =>
    let s' := { s with db := acceptCode s.db s.clock userID code }
    match svc.jwt.issueTmp s.clock userID purposeRecovery with
    | none => (s', .inr (.failed (internalError "Geçici token üretilemedi.")))
    | some token => (s', .inr (.accepted code token))
  | .rotate token userID req salt codes =>
    match rotateAll svc s.db s.clock userID req salt codes with
    | .error e => (s, .inr (.failed e))
    | .ok db => ({ s with db }, .inr (.completed token))

/-- Both requests as calls on the database. -/
def recoverHandlers (svc : Service) :
    Program RecoverState RecoverRequest RecoverCall RecoverAnswer Nat where
  enter := .request
  exec elapsed s call := call.exec svc elapsed s

/-! ## Requests that run alone -/

/-- The reply the client sees. -/
def RecoverAnswer.initReply : RecoverAnswer → Reply String
  | .accepted _ token => .ok token
  | .completed _ => .error invalidCreds
  | .failed e => .error e

theorem issueTmp_recovery (svc : Service) (now : Time) (userID : Uuid) :
    svc.jwt.issueTmp now userID purposeRecovery =
      some (svc.jwt.sign now ⟨⟨userID, []⟩, purposeRecovery, ""⟩) := by
  simp [JWTSigner.issueTmp, purposeRecovery, purposeTOTPEnroll]

/-- Without another request in between, the statements of `RecoverInit` are
`recoverInit`. -/
theorem recoverInit_alone (svc : Service) (s : RecoverState) (username recoveryCode : String) :
    ∃ answer, (recoverHandlers svc).alone 0 3 s (.request (.init username recoveryCode)) =
        ({ s with db := (recoverInit svc s.db s.clock username recoveryCode).1 }, .inr answer) ∧
      answer.initReply = (recoverInit svc s.db s.clock username recoveryCode).2 := by
  simp only [Program.alone, recoverHandlers, RecoverCall.exec, RecoverRequest.exec,
    RecoverState.tick_zero, recoverInit, recoverAccount]
  by_cases hempty : username = "" ∨ recoveryCode = ""
  · simp only [if_pos hempty]
    exact ⟨_, rfl, rfl⟩
  · simp only [if_neg hempty]
    cases huser : fetchUserForLogin s.db (svc.toLower username) with
    | none => exact ⟨_, rfl, rfl⟩
    | some user =>
      by_cases hlocked : user.isLocked s.clock
      · simp only [if_pos hlocked]
        exact ⟨_, rfl, rfl⟩
      · simp only [if_neg hlocked]
        cases hcode : matchingCode svc s.db user.id recoveryCode with
        | none =>
          rw [matchingCode] at hcode
          simp only [hcode]
          exact ⟨_, rfl, rfl⟩
        | some code =>
          rw [matchingCode] at hcode
          simp only [hcode, issueTmp_recovery]
          exact ⟨_, rfl, rfl⟩

theorem recoverComplete_eq (svc : Service) (db : DB) (now : Time) (authz : String)
    (req : RecoverCompleteRequest) (salt : Bytes) (codes : List (Uuid × Bytes)) :
    recoverComplete svc db now authz req salt codes =
      recoverAuthority svc now authz req >>= fun userID =>
        rotateAll svc db now userID req salt codes := by
  simp only [recoverComplete, recoverAuthority, rotateAll]
  cases requireTmpToken svc now authz purposeRecovery with
  | error e => rfl
  | ok userID => cases validateRecoverComplete req <;> rfl

/-- Likewise `RecoverComplete`. -/
theorem recoverComplete_alone (svc : Service) (s : RecoverState) (authz : String)
    (req : RecoverCompleteRequest) (salt : Bytes) (codes : List (Uuid × Bytes)) :
    ∃ answer, (recoverHandlers svc).alone 0 2 s (.request (.complete authz req salt codes)) =
        ({ s with db := (recoverComplete svc s.db s.clock authz req salt codes).toOption.getD s.db },
          .inr answer) ∧
      (answer = .completed ((bearerToken authz).getD "") ↔
        (recoverComplete svc s.db s.clock authz req salt codes).isOk = true) := by
  simp only [recoverComplete_eq, Program.alone, recoverHandlers, RecoverCall.exec,
    RecoverRequest.exec, RecoverState.tick_zero]
  cases recoverAuthority svc s.clock authz req with
  | error e => exact ⟨_, rfl, iff_of_false (fun h => by cases h) (fun h => by cases h)⟩
  | ok userID =>
    simp only [bind, Except.bind]
    cases rotateAll svc s.db s.clock userID req salt codes with
    | error e => exact ⟨_, rfl, iff_of_false (fun h => by cases h) (fun h => by cases h)⟩
    | ok db => exact ⟨_, rfl, iff_of_true rfl rfl⟩

end IronStock

import IronStock.RecoverOneShot
import IronStock.SecondFactor

/-!
# The recovery codes of an account

`TOTPVerify`, `TOTPRegenerateBackup` and `RecoverComplete` hand out ten codes,
`RecoverInit` uses one up, `TOTPDisable` deletes them and `TOTPStatus` counts
them. Which codes are left is followed over runs of these requests.
-/
namespace IronStock

/-! ## The codes that are left -/

/-- A row that was not used. -/
def RecoveryCode.isUnused (c : RecoveryCode) : Bool := c.usedAt = none

/-- The rows of an account, used or not. -/
def DB.codesOf (db : DB) (u : Uuid) : List RecoveryCode :=
  db.recoveryCodes.filter (·.userId = u)

/-- The rows `fetchUnusedRecoveryCodes` compares a code with. -/
def DB.acceptableCodes (db : DB) (u : Uuid) : List RecoveryCode :=
  db.recoveryCodes.filter (·.isUnusedFor u)

theorem acceptableCodes_eq (db : DB) (u : Uuid) :
    db.acceptableCodes u = (db.codesOf u).filter RecoveryCode.isUnused := by
  rw [DB.acceptableCodes, DB.codesOf, List.filter_filter]
  apply List.filter_congr
  intro c _
  simp [RecoveryCode.isUnusedFor, RecoveryCode.isUnused, Bool.and_comm]

/-- The account and the row that `RecoverInit` accepts the code for. -/
def recoverMatch (svc : Service) (db : DB) (now : Time) (username recoveryCode : String) :
    Option (Uuid × RecoveryCode) :=
  if username = "" ∨ recoveryCode = "" then none
  else
    match fetchUserForLogin db (svc.toLower username) with
    | none => none
    | some user =>
      if user.isLocked now then none
      else (matchingCode svc db user.id recoveryCode).map fun c => (user.id, c)

/-- What `TOTPVerify` checks before its transaction. -/
def totpVerifyUser (svc : Service) (db : DB) (now : Time) (authz code : String) : Reply Uuid := do
  let userID ← requireTmpOrAccessToken svc now authz
  validateTOTPCode code
  let row ← Reply.orElse (db.totpSecret? userID)
    (badRequest "TOTP henüz başlatılmadı (önce /totp/init çağırın).")
  let secret ← openTOTPSecret svc userID row
  Reply.require (verifyTOTP svc now secret code = true) invalidTOTPCode
  return userID

section Accepting

variable {svc : Service} {db : DB} {now : Time} {username recoveryCode : String}

theorem matchingCode_eq_some {u : Uuid} {c : RecoveryCode}
    (h : matchingCode svc db u recoveryCode = some c) :
    c ∈ db.recoveryCodes ∧ c.userId = u ∧ c.usedAt = none := by
  have hmem := List.mem_of_find?_eq_some h
  have htest := List.find?_some h
  simp only [RecoveryCode.isUnusedFor, Bool.and_eq_true, decide_eq_true_eq] at htest
  exact ⟨hmem, htest.1⟩

theorem recoverMatch_eq_some {u : Uuid} {c : RecoveryCode}
    (h : recoverMatch svc db now username recoveryCode = some (u, c)) :
    c ∈ db.recoveryCodes ∧ c.userId = u ∧ c.usedAt = none := by
  unfold recoverMatch at h
  split at h
  · cases h
  · split at h
    · cases h
    · next user _ =>
      split at h
      · cases h
      · obtain ⟨c', hc', heq⟩ := Option.map_eq_some_iff.mp h
        cases heq
        exact matchingCode_eq_some hc'

/-- An accepted code is marked. -/
theorem recoverInit_of_match {u : Uuid} {c : RecoveryCode}
    (h : recoverMatch svc db now username recoveryCode = some (u, c)) :
    ∃ token, recoverInit svc db now username recoveryCode =
      (acceptCode db now u c.id, .ok token) := by
  unfold recoverMatch at h
  unfold recoverInit
  by_cases hempty : username = "" ∨ recoveryCode = ""
  · rw [if_pos hempty] at h
    cases h
  · rw [if_neg hempty] at h ⊢
    cases huser : fetchUserForLogin db (svc.toLower username) with
    | none =>
      rw [huser] at h
      cases h
    | some user =>
      simp only [huser] at h ⊢
      by_cases hlocked : user.isLocked now
      · rw [if_pos hlocked] at h
        cases h
      · rw [if_neg hlocked] at h ⊢
        obtain ⟨c', hfound, heq⟩ := Option.map_eq_some_iff.mp h
        cases heq
        rw [matchingCode] at hfound
        simp only [hfound, issueTmp_recovery]
        exact ⟨_, rfl⟩

/-- A refusal changes neither codes nor secrets. -/
theorem recoverInit_of_no_match (h : recoverMatch svc db now username recoveryCode = none) :
    (recoverInit svc db now username recoveryCode).1.recoveryCodes = db.recoveryCodes ∧
      (recoverInit svc db now username recoveryCode).1.totpSecrets = db.totpSecrets ∧
      ∃ e, (recoverInit svc db now username recoveryCode).2 = .error e := by
  unfold recoverMatch at h
  unfold recoverInit
  split
  · exact ⟨rfl, rfl, _, rfl⟩
  · next hempty =>
    rw [if_neg hempty] at h
    split
    · exact ⟨rfl, rfl, _, rfl⟩
    · next user huser =>
      simp only [huser] at h
      split
      · exact ⟨rfl, rfl, _, rfl⟩
      · next hlocked =>
        rw [if_neg hlocked, Option.map_eq_none_iff, matchingCode] at h
        rw [h]
        exact ⟨rfl, rfl, _, rfl⟩

/-- Of the codes of an account that is not locked, `RecoverInit` accepts those
that verify against one of these rows. -/
theorem recoverInit_isOk_iff {user : User} (hname : username ≠ "") (hcode : recoveryCode ≠ "")
    (huser : fetchUserForLogin db (svc.toLower username) = some user)
    (hlocked : user.isLocked now = false) :
    (recoverInit svc db now username recoveryCode).2.isOk = true ↔
      ∃ c ∈ db.acceptableCodes user.id,
        svc.passwords.verifyRecoveryCode recoveryCode c.codeHash = true := by
  have hmatch : recoverMatch svc db now username recoveryCode =
      (matchingCode svc db user.id recoveryCode).map fun c => (user.id, c) := by
    simp [recoverMatch, hname, hcode, huser, hlocked]
  cases hfound : matchingCode svc db user.id recoveryCode with
  | none =>
    obtain ⟨-, -, e, he⟩ := recoverInit_of_no_match (hmatch.trans (by rw [hfound]; rfl))
    rw [he]
    refine iff_of_false Bool.false_ne_true ?_
    rintro ⟨c, hc, hverify⟩
    obtain ⟨hmem, hunused⟩ := List.mem_filter.mp hc
    exact List.find?_eq_none.mp hfound c hmem (by rw [hunused, hverify]; rfl)
  | some c =>
    obtain ⟨token, htoken⟩ := recoverInit_of_match (hmatch.trans (by rw [hfound]; rfl))
    obtain ⟨hmem, hu, hunused⟩ := matchingCode_eq_some hfound
    have htest := List.find?_some hfound
    rw [Bool.and_eq_true] at htest
    rw [htoken]
    exact iff_of_true rfl ⟨c, List.mem_filter.mpr ⟨hmem, htest.1⟩, htest.2⟩

theorem totpVerify_eq (svc : Service) (db : DB) (now : Time) (authz code : String)
    (codes : List (Uuid × Bytes)) :
    totpVerify svc db now authz code codes =
      (totpVerifyUser svc db now authz code).map fun userID =>
        (((db.verifyTOTPSecret now userID).updateUser userID
          fun u => { u with status := .active }).addRecoveryCodes userID codes).audit
          ⟨userID.text, "auth.totp_verified", "user", userID.text⟩ := by
  simp only [totpVerify, totpVerifyUser]
  cases requireTmpOrAccessToken svc now authz with
  | error e => rfl
  | ok userID =>
    cases validateTOTPCode code with
    | error e => rfl
    | ok _ =>
      simp only [bind, Except.bind]
      cases Reply.orElse (db.totpSecret? userID)
          (badRequest "TOTP henüz başlatılmadı (önce /totp/init çağırın).") with
      | error e => rfl
      | ok row =>
        simp only
        cases openTOTPSecret svc userID row with
        | error e => rfl
        | ok secret =>
          simp only
          cases Reply.require (verifyTOTP svc now secret code = true) invalidTOTPCode <;> rfl

end Accepting

/-! ## Requests -/

/-- The ten codes of an issuance, hashed, with the ids of their rows. -/
structure RecoveryBatch where
  codes : List (Uuid × Bytes)
  length_codes : codes.length = 10

def RecoveryBatch.rows (batch : RecoveryBatch) (u : Uuid) : List RecoveryCode :=
  batch.codes.map fun c => ⟨c.1, u, c.2, none⟩

def RecoveryBatch.ids (batch : RecoveryBatch) : List Uuid := batch.codes.map Prod.fst

inductive CodeRequest
  | totpInit (authz : String) (draw : TotpDraw)
  | totpVerify (authz code : String) (batch : RecoveryBatch)
  | totpDisable (authz masterPassword : String)
  | totpRegenerateBackup (authz totpCode : String) (batch : RecoveryBatch)
  | recoverInit (username recoveryCode : String)
  | recoverComplete (authz : String) (req : RecoverCompleteRequest) (salt : Bytes)
      (batch : RecoveryBatch)

namespace CodeRequest

def toRequest : CodeRequest → Request
  | totpInit authz draw => .totpInit authz draw
  | totpVerify authz code batch => .totpVerify authz code batch.codes
  | totpDisable authz password => .totpDisable authz password
  | totpRegenerateBackup authz code batch => .totpRegenerateBackup authz code batch.codes
  | recoverInit username code => .recoverInit username code
  | recoverComplete authz req salt batch => .recoverComplete authz req salt batch.codes

/-- The batch drawn for a request, whether or not it is handed out. -/
def batch? : CodeRequest → Option RecoveryBatch
  | totpVerify _ _ batch | totpRegenerateBackup _ _ batch | recoverComplete _ _ _ batch =>
    some batch
  | totpInit .. | totpDisable .. | recoverInit .. => none

/-- The account that gets new codes with the answer. -/
def handsOut (svc : Service) (db : DB) (now : Time) : CodeRequest → Option (Uuid × RecoveryBatch)
  | totpVerify authz code batch =>
    match totpVerifyUser svc db now authz code with
    | .ok u => some (u, batch)
    | .error _ => none
  | totpRegenerateBackup authz code batch =>
    match IronStock.totpRegenerateBackup svc db now authz code batch.codes,
        requireAccessToken svc now authz with
    | .ok _, .ok claims => some (claims.subject, batch)
    | _, _ => none
  | recoverComplete authz req salt batch =>
    match IronStock.recoverComplete svc db now authz req salt batch.codes,
        requireTmpToken svc now authz purposeRecovery with
    | .ok _, .ok u => some (u, batch)
    | _, _ => none
  | totpInit .. | totpDisable .. | recoverInit .. => none

/-- The account whose enrolment the request completes. -/
def verifiedUser (svc : Service) (db : DB) (now : Time) : CodeRequest → Option Uuid
  | totpVerify authz code _ => (totpVerifyUser svc db now authz code).toOption
  | _ => none

/-- The code the request uses up, with its account. -/
def usedUp (svc : Service) (db : DB) (now : Time) : CodeRequest → Option (Uuid × RecoveryCode)
  | recoverInit username code => recoverMatch svc db now username code
  | _ => none

end CodeRequest

/-- A request and the time it is served at. -/
structure CodeCall where
  now : Time
  req : CodeRequest

/-- The database, and the rows of the codes last handed out to one account. -/
structure CodeState where
  db : DB
  latest : List RecoveryCode := []

def CodeState.step (svc : Service) (u : Uuid) (s : CodeState) (c : CodeCall) : CodeState where
  db := c.req.toRequest.step svc s.db c.now
  latest :=
    match c.req.handsOut svc s.db c.now with
    | some (v, batch) => if v = u then batch.rows u else s.latest
    | none => s.latest

/-- The ids of new rows are not in the table. -/
def DrawsNewIDs (s : CodeState) (c : CodeCall) : Prop :=
  ∀ batch, c.req.batch? = some batch →
    batch.ids.Nodup ∧ ∀ row ∈ s.db.recoveryCodes, row.id ∉ batch.ids

/-! ## What a request does to the table -/

/-- The rows after a request, and whose second factor may be verified then. -/
inductive CodeStep (svc : Service) (db : DB) (now : Time) (req : CodeRequest) (db' : DB) : Prop
  | silent (hcodes : db'.recoveryCodes = db.recoveryCodes)
      (hfactor : ∀ u, fetchTOTPSecret db u = none → fetchTOTPSecret db' u = none)
      (hout : req.handsOut svc db now = none) (hverified : req.verifiedUser svc db now = none)
      (hused : req.usedUp svc db now = none)
  | verified {v : Uuid} {batch : RecoveryBatch}
      (hcodes : db'.recoveryCodes = db.recoveryCodes ++ batch.rows v)
      (hself : (fetchTOTPSecret db' v).isSome = true)
      (hother : ∀ u, u ≠ v → fetchTOTPSecret db' u = fetchTOTPSecret db u)
      (hbatch : req.batch? = some batch)
      (hout : req.handsOut svc db now = some (v, batch))
      (hverified : req.verifiedUser svc db now = some v) (hused : req.usedUp svc db now = none)
  | replaced {v : Uuid} {batch : RecoveryBatch}
      (hcodes : db'.recoveryCodes =
        Table.deleteWhere (·.userId = v) db.recoveryCodes ++ batch.rows v)
      (hfactor : db'.totpSecrets = db.totpSecrets)
      (hbatch : req.batch? = some batch)
      (hout : req.handsOut svc db now = some (v, batch))
      (hverified : req.verifiedUser svc db now = none) (hused : req.usedUp svc db now = none)
  | deleted {v : Uuid}
      (hcodes : db'.recoveryCodes = Table.deleteWhere (·.userId = v) db.recoveryCodes)
      (hfactor : ∀ u, fetchTOTPSecret db u = none → fetchTOTPSecret db' u = none)
      (hout : req.handsOut svc db now = none) (hverified : req.verifiedUser svc db now = none)
      (hused : req.usedUp svc db now = none)
  | used {v : Uuid} {c : RecoveryCode}
      (hcodes : db'.recoveryCodes = (db.markRecoveryCode now c.id).recoveryCodes)
      (hfactor : db'.totpSecrets = db.totpSecrets)
      (hout : req.handsOut svc db now = none) (hverified : req.verifiedUser svc db now = none)
      (hused : req.usedUp svc db now = some (v, c))

section Step

variable {svc : Service} {db db' : DB} {now : Time}

theorem fetchTOTPSecret_eq (h : db'.totpSecrets = db.totpSecrets) (u : Uuid) :
    fetchTOTPSecret db' u = fetchTOTPSecret db u := by
  rw [fetchTOTPSecret, fetchTOTPSecret, totpSecret?_eq h]

/-- An enrolment that starts leaves its account without a verified secret. -/
theorem fetchTOTPSecret_putTOTPSecret {u : Uuid} (v : Uuid) (enc : Bytes) (nonce : Nonce)
    (h : fetchTOTPSecret db u = none) :
    fetchTOTPSecret (db.putTOTPSecret v enc nonce) u = none := by
  by_cases hu : u = v
  · subst hu
    rw [fetchTOTPSecret, totpSecret?_putTOTPSecret]
    rfl
  · have hsame : (db.putTOTPSecret v enc nonce).totpSecret? u = db.totpSecret? u :=
      Table.lookup_upsert_of_ne (rfl : TotpSecret.userId ⟨v, enc, nonce, none⟩ = v) hu
        db.totpSecrets
    rw [fetchTOTPSecret, hsame]
    exact h

/-- A removal verifies nobody. -/
theorem fetchTOTPSecret_deleteTOTPSecret {u : Uuid} (v : Uuid)
    (h : fetchTOTPSecret db u = none) : fetchTOTPSecret (db.deleteTOTPSecret v) u = none := by
  have hlookup : (db.deleteTOTPSecret v).totpSecret? u = if u = v then none else db.totpSecret? u :=
    Table.lookup_deleteWhere v u db.totpSecrets
  rw [fetchTOTPSecret, hlookup]
  split
  · rfl
  · exact h

theorem totpSecret?_verifyTOTPSecret (db : DB) (now : Time) (u v : Uuid) :
    (db.verifyTOTPSecret now v).totpSecret? u = (db.totpSecret? u).map fun t =>
      if decide (t.userId = v) then { t with verifiedAt := some now } else t :=
  @Table.lookup_updateWhere _ _ _ TotpSecret.userId (·.userId = v)
    (fun t => { t with verifiedAt := some now }) (fun _ => rfl) u db.totpSecrets

/-- A completed enrolment verifies its own account and no other. -/
theorem fetchTOTPSecret_verifyTOTPSecret {v : Uuid} {row : TotpSecret}
    (h : db.totpSecret? v = some row) (u : Uuid) :
    ((fetchTOTPSecret (db.verifyTOTPSecret now v) v).isSome = true) ∧
      (u ≠ v → fetchTOTPSecret (db.verifyTOTPSecret now v) u = fetchTOTPSecret db u) := by
  constructor
  · rw [fetchTOTPSecret, totpSecret?_verifyTOTPSecret, h, Option.map_some,
      if_pos (decide_eq_true (Table.lookup_eq_some h).2)]
    rfl
  · intro hu
    rw [fetchTOTPSecret, fetchTOTPSecret, totpSecret?_verifyTOTPSecret]
    cases hrow : db.totpSecret? u with
    | none => rfl
    | some t =>
      have hne : t.userId ≠ v := fun ht => hu ((Table.lookup_eq_some hrow).2.symm.trans ht)
      rw [Option.map_some, if_neg (by simpa using hne)]

theorem totpVerifyUser_eq_ok {authz code : String} {v : Uuid}
    (h : totpVerifyUser svc db now authz code = .ok v) :
    ∃ row, db.totpSecret? v = some row := by
  simp only [totpVerifyUser, Reply.bind_eq_ok, Reply.orElse_eq_ok, Reply.pure_eq_ok] at h
  obtain ⟨userID, -, -, -, row, hrow, -, -, -, -, rfl⟩ := h
  exact ⟨row, hrow⟩

/-- A refused removal leaves codes, secrets and devices alone. -/
theorem totpDisable_effect (svc : Service) (db : DB) (now : Time) (authz password : String) :
    ((∃ e, (totpDisable svc db now authz password).2 = .error e) ∧
      (totpDisable svc db now authz password).1.recoveryCodes = db.recoveryCodes ∧
      (totpDisable svc db now authz password).1.totpSecrets = db.totpSecrets ∧
      (totpDisable svc db now authz password).1.trustedDevices = db.trustedDevices) ∨
    ∃ claims, requireAccessToken svc now authz = .ok claims ∧
      totpDisable svc db now authz password =
        (((db.deleteTOTPSecret claims.subject).deleteRecoveryCodes claims.subject).audit
          ⟨claims.subject.text, "auth.totp_disabled", "user", claims.subject.text⟩, .ok ()) := by
  unfold totpDisable
  cases requireAccessToken svc now authz with
  | error e => exact .inl ⟨⟨e, rfl⟩, rfl, rfl, rfl⟩
  | ok claims =>
    simp only
    split
    · exact .inl ⟨⟨_, rfl⟩, rfl, rfl, rfl⟩
    · have hconfirm : (confirmPassword svc db now claims.subject password).1.recoveryCodes =
            db.recoveryCodes ∧
          (confirmPassword svc db now claims.subject password).1.totpSecrets = db.totpSecrets ∧
          (confirmPassword svc db now claims.subject password).1.trustedDevices =
            db.trustedDevices := by
        unfold confirmPassword
        repeat' split
        all_goals exact ⟨rfl, rfl, rfl⟩
      split
      · next e h =>
        rw [h] at hconfirm
        exact .inl ⟨⟨e, rfl⟩, hconfirm⟩
      · next h =>
        obtain ⟨rfl, -⟩ := confirmPassword_eq_ok h
        split
        · exact .inl ⟨⟨_, rfl⟩, rfl, rfl, rfl⟩
        · exact .inr ⟨claims, rfl, rfl⟩

theorem recoverComplete_codes {authz : String} {req : RecoverCompleteRequest} {salt : Bytes}
    {codes : List (Uuid × Bytes)}
    (h : recoverComplete svc db now authz req salt codes = .ok db') :
    ∃ v, requireTmpToken svc now authz purposeRecovery = .ok v ∧
      db'.recoveryCodes = ((db.deleteRecoveryCodes v).addRecoveryCodes v codes).recoveryCodes ∧
      db'.totpSecrets = db.totpSecrets := by
  obtain ⟨v, db₁, hauth, _, hrotate, rfl⟩ := recoverComplete_eq_ok h
  obtain ⟨-, hcodes, -⟩ := rotateKeypair_eq_ok hrotate
  refine ⟨v, hauth, ?_, (rotateKeypair_kept hrotate).1.totpSecrets⟩
  show Table.deleteWhere (·.userId = v) db₁.recoveryCodes ++ _ = _
  rw [hcodes]
  rfl

theorem CodeRequest.step_cases (svc : Service) (db : DB) (now : Time) (req : CodeRequest) :
    CodeStep svc db now req (req.toRequest.step svc db now) := by
  cases req with
  | totpInit authz draw =>
    simp only [toRequest, Request.step]
    cases h : IronStock.totpInit svc db now authz draw with
    | error e => exact .silent rfl (fun _ => id) rfl rfl rfl
    | ok r =>
      obtain ⟨db', resp⟩ := r
      obtain ⟨v, enc, -, -, rfl⟩ := totpInit_eq_ok h
      exact .silent rfl (fun _ => fetchTOTPSecret_putTOTPSecret v enc draw.nonce) rfl rfl rfl
  | totpVerify authz code batch =>
    simp only [toRequest, Request.step, totpVerify_eq]
    cases h : totpVerifyUser svc db now authz code with
    | error e =>
      exact .silent rfl (fun _ => id) (by simp only [handsOut, h])
        (by simp only [verifiedUser, h]; rfl) rfl
    | ok v =>
      obtain ⟨row, hrow⟩ := totpVerifyUser_eq_ok h
      exact .verified rfl (fetchTOTPSecret_verifyTOTPSecret hrow v).1
        (fun u => (fetchTOTPSecret_verifyTOTPSecret hrow u).2) rfl (by simp only [handsOut, h])
        (by simp only [verifiedUser, h]; rfl) rfl
  | totpDisable authz password =>
    obtain ⟨-, hcodes, hsecrets, -⟩ | ⟨claims, -, hdisabled⟩ :=
      totpDisable_effect svc db now authz password
    · exact .silent hcodes (fun u hu => (fetchTOTPSecret_eq hsecrets u).trans hu) rfl rfl rfl
    · rw [toRequest, Request.step, hdisabled]
      exact .deleted rfl (fun _ => fetchTOTPSecret_deleteTOTPSecret claims.subject) rfl rfl rfl
  | totpRegenerateBackup authz code batch =>
    simp only [toRequest, Request.step]
    cases h : IronStock.totpRegenerateBackup svc db now authz code batch.codes with
    | error e => exact .silent rfl (fun _ => id) (by simp only [handsOut, h]) rfl rfl
    | ok db' =>
      obtain ⟨claims, _, _, hauth, _, _, _, rfl⟩ := totpRegenerateBackup_eq_ok h
      exact .replaced rfl rfl rfl (by simp only [handsOut, h, hauth]) rfl rfl
  | recoverInit username code =>
    cases h : recoverMatch svc db now username code with
    | none =>
      obtain ⟨hcodes, hsecrets, -⟩ := recoverInit_of_no_match h
      exact .silent hcodes (fun u hu => (fetchTOTPSecret_eq hsecrets u).trans hu) rfl rfl h
    | some m =>
      obtain ⟨token, htoken⟩ := recoverInit_of_match h
      have hstep : Request.step svc db now (.recoverInit username code) =
          acceptCode db now m.1 m.2.id := congrArg Prod.fst htoken
      rw [toRequest, hstep]
      exact .used rfl rfl rfl rfl h
  | recoverComplete authz req salt batch =>
    simp only [toRequest, Request.step]
    cases h : IronStock.recoverComplete svc db now authz req salt batch.codes with
    | error e => exact .silent rfl (fun _ => id) (by simp only [handsOut, h]) rfl rfl
    | ok db' =>
      obtain ⟨v, hauth, hcodes, hsecrets⟩ := recoverComplete_codes h
      exact .replaced hcodes hsecrets rfl (by simp only [handsOut, h, hauth]) rfl rfl

end Step

/-! ## What holds of the codes of an account -/

/-- The codes of an account, with those handed out last and whether it has a
verified second factor. -/
structure CodesExact (codes latest : List RecoveryCode) (enabled : Bool) : Prop where
  atMostTen : (codes.filter RecoveryCode.isUnused).length ≤ 10
  fromLatest : ∀ c ∈ codes.filter RecoveryCode.isUnused, c ∈ latest
  counted : enabled = true → codes.length = (codes.filter RecoveryCode.isUnused).length

/-- Ten codes at most are left, all of them handed out last, and `TOTPStatus`
reports their number. -/
structure RecoveryCodesExact (u : Uuid) (s : CodeState) : Prop where
  atMostTen : (s.db.acceptableCodes u).length ≤ 10
  fromLatest : ∀ c ∈ s.db.acceptableCodes u, c ∈ s.latest
  status : ∀ svc now authz claims n, requireAccessToken svc now authz = .ok claims →
    claims.subject = u → totpStatus svc s.db now authz = .ok (true, n) →
    n = (s.db.acceptableCodes u).length

/-- A request completes an enrolment of `u` only if `u` has no codes at all, and
uses up a code of `u` only if `u` has no verified second factor. -/
def KeepsCodesExact (svc : Service) (u : Uuid) (s : CodeState) (c : CodeCall) : Prop :=
  (c.req.verifiedUser svc s.db c.now = some u → s.db.codesOf u = []) ∧
    ∀ code, c.req.usedUp svc s.db c.now = some (u, code) → fetchTOTPSecret s.db u = none

section Exact

variable {codes latest : List RecoveryCode} {enabled : Bool}

theorem RecoveryBatch.unused_rows (batch : RecoveryBatch) (u : Uuid) :
    (batch.rows u).filter RecoveryCode.isUnused = batch.rows u := by
  apply List.filter_eq_self.mpr
  intro c hc
  obtain ⟨_, _, rfl⟩ := List.mem_map.mp hc
  rfl

theorem RecoveryBatch.length_rows (batch : RecoveryBatch) (u : Uuid) :
    (batch.rows u).length = 10 := by
  rw [rows, List.length_map, batch.length_codes]

theorem CodesExact.nil : CodesExact [] latest enabled :=
  ⟨by simp, by simp, fun _ => rfl⟩

theorem CodesExact.batch (batch : RecoveryBatch) (u : Uuid) :
    CodesExact (batch.rows u) (batch.rows u) enabled where
  atMostTen := by rw [batch.unused_rows, batch.length_rows]
  fromLatest c hc := by rwa [batch.unused_rows] at hc
  counted _ := by rw [batch.unused_rows]

/-- Codes added to others are too many, or are counted together with used ones. -/
theorem CodesExact.append_iff (batch : RecoveryBatch) (u : Uuid) :
    CodesExact (codes ++ batch.rows u) (batch.rows u) true ↔ codes = [] := by
  constructor
  · intro h
    have hten := h.atMostTen
    have hcount := h.counted rfl
    rw [List.filter_append, List.length_append, batch.unused_rows, batch.length_rows] at hten hcount
    rw [List.length_append, batch.length_rows] at hcount
    exact List.length_eq_zero_iff.mp (by omega)
  · rintro rfl
    exact .batch batch u

/-- The rows after a code was marked as used. -/
def markRows (now : Time) (id : Uuid) (rows : List RecoveryCode) : List RecoveryCode :=
  Table.updateWhere (fun c => c.id = id ∧ c.usedAt = none) (fun c => { c with usedAt := some now })
    rows

theorem filter_markRows (now : Time) (id : Uuid) (rows : List RecoveryCode) :
    (markRows now id rows).filter RecoveryCode.isUnused =
      (rows.filter RecoveryCode.isUnused).filter fun c => c.id ≠ id := by
  induction rows with
  | nil => rfl
  | cons c rows ih =>
    rw [markRows, Table.updateWhere_cons, ← markRows]
    by_cases hunused : c.usedAt = none
    · have hc : c.isUnused = true := decide_eq_true hunused
      by_cases hid : c.id = id
      · have hmarked : RecoveryCode.isUnused { c with usedAt := some now } = true → False := by
          simp [RecoveryCode.isUnused]
        rw [if_pos (by simp [hid, hunused]), List.filter_cons_of_neg hmarked,
          List.filter_cons_of_pos hc, List.filter_cons_of_neg (by simp [hid]), ih]
      · rw [if_neg (by simp [hid]), List.filter_cons_of_pos hc, List.filter_cons_of_pos hc,
          List.filter_cons_of_pos (by simp [hid]), ih]
    · have hc : ¬ c.isUnused = true := by simp [RecoveryCode.isUnused, hunused]
      rw [if_neg (by simp [hunused]), List.filter_cons_of_neg hc, List.filter_cons_of_neg hc, ih]

theorem map_id_markRows (now : Time) (id : Uuid) (rows : List RecoveryCode) :
    (markRows now id rows).map (·.id) = rows.map (·.id) := by
  unfold markRows
  apply Table.map_updateWhere
  exact fun _ => rfl

theorem filter_user_markRows (now : Time) (id u : Uuid) (rows : List RecoveryCode) :
    (markRows now id rows).filter (·.userId = u) =
      markRows now id (rows.filter (·.userId = u)) := by
  unfold markRows
  apply Table.filter_updateWhere
  exact fun _ => rfl

/-- A marked code is counted on; without a second factor nothing is counted. -/
theorem CodesExact.mark_iff {now : Time} {c : RecoveryCode} (h : CodesExact codes latest enabled)
    (hc : c ∈ codes) (hunused : c.usedAt = none) :
    CodesExact (markRows now c.id codes) latest enabled ↔ enabled = false := by
  constructor
  · intro hmark
    rw [← Bool.not_eq_true]
    intro henabled
    have hcount := hmark.counted henabled
    have hmem : { c with usedAt := some now } ∈ markRows now c.id codes :=
      Table.mem_updateWhere.mpr ⟨c, hc, by simp [hunused]⟩
    have hall := List.length_filter_eq_length_iff.mp hcount.symm _ hmem
    simp [RecoveryCode.isUnused] at hall
  · rintro rfl
    refine ⟨?_, fun c' hc' => ?_, nofun⟩
    · rw [filter_markRows]
      exact (List.length_filter_le _ _).trans h.atMostTen
    · rw [filter_markRows] at hc'
      exact h.fromLatest c' (List.mem_filter.mp hc').1

end Exact

/-! ## One request -/

section Views

variable {db db' : DB} {u v : Uuid}

theorem codesOf_eq (h : db'.recoveryCodes = db.recoveryCodes) (u : Uuid) :
    db'.codesOf u = db.codesOf u := by
  rw [DB.codesOf, DB.codesOf, h]

theorem filter_rows (batch : RecoveryBatch) (u v : Uuid) :
    (batch.rows v).filter (·.userId = u) = if v = u then batch.rows u else [] := by
  split
  · next h =>
    subst h
    apply List.filter_eq_self.mpr
    intro c hc
    obtain ⟨_, _, rfl⟩ := List.mem_map.mp hc
    exact decide_eq_true rfl
  · next h =>
    apply List.filter_eq_nil_iff.mpr
    intro c hc
    obtain ⟨_, _, rfl⟩ := List.mem_map.mp hc
    simpa using h

theorem codesOf_append {batch : RecoveryBatch}
    (h : db'.recoveryCodes = db.recoveryCodes ++ batch.rows v) (u : Uuid) :
    db'.codesOf u = db.codesOf u ++ if v = u then batch.rows u else [] := by
  rw [DB.codesOf, h, List.filter_append, filter_rows]
  rfl

theorem filter_deleteWhere (rows : List RecoveryCode) (u v : Uuid) :
    (Table.deleteWhere (·.userId = v) rows).filter (·.userId = u) =
      if v = u then [] else rows.filter (·.userId = u) := by
  rw [Table.deleteWhere, List.filter_filter]
  split
  · next h =>
    subst h
    apply List.filter_eq_nil_iff.mpr
    intro c _
    simp
  · next h =>
    apply List.filter_congr
    intro c _
    by_cases hc : c.userId = u
    · simp [hc, Ne.symm h]
    · simp [hc]

theorem codesOf_markRecoveryCode (now : Time) (id : Uuid)
    (h : db'.recoveryCodes = (db.markRecoveryCode now id).recoveryCodes) (u : Uuid) :
    db'.codesOf u = markRows now id (db.codesOf u) := by
  rw [DB.codesOf, h]
  exact filter_user_markRows now id u db.recoveryCodes

/-- A service whose signer knows one access token, of this user. -/
def statusService (u : Uuid) : Service :=
  { sampleService with jwt := sampleSigner [(0, "token", ⟨⟨u, []⟩, purposeAccess, ""⟩)] }

theorem requireAccessToken_statusService (u : Uuid) :
    requireAccessToken (statusService u) 0 "Bearer token" =
      .ok ⟨⟨u, []⟩, purposeAccess, ""⟩ := by
  have hbearer : bearerToken "Bearer token" = some "token" := by decide
  rw [requireAccessToken, hbearer]
  rfl

/-- What `TOTPStatus` reports to anybody is read off the rows. -/
theorem recoveryCodesExact_iff (u : Uuid) (s : CodeState) :
    RecoveryCodesExact u s ↔
      CodesExact (s.db.codesOf u) s.latest (fetchTOTPSecret s.db u).isSome := by
  constructor
  · intro h
    refine ⟨by rw [← acceptableCodes_eq]; exact h.atMostTen,
      by rw [← acceptableCodes_eq]; exact h.fromLatest, fun henabled => ?_⟩
    rw [← acceptableCodes_eq]
    apply h.status (statusService u) 0 "Bearer token" _ _ (requireAccessToken_statusService u) rfl
    simp only [totpStatus, requireAccessToken_statusService, bind, Except.bind, henabled]
    rfl
  · intro h
    refine ⟨by rw [acceptableCodes_eq]; exact h.atMostTen,
      by rw [acceptableCodes_eq]; exact h.fromLatest, fun svc now authz claims n hauth hu hn => ?_⟩
    subst hu
    simp only [totpStatus, hauth, bind, Except.bind, pure, Except.pure, Except.ok.injEq,
      Prod.mk.injEq] at hn
    obtain ⟨henabled, rfl⟩ := hn
    rw [if_pos henabled, acceptableCodes_eq]
    exact h.counted henabled

end Views

section Keeps

variable {svc : Service} {u : Uuid} {s : CodeState} {c : CodeCall}

/-- The same codes, handed out as before. -/
theorem RecoveryCodesExact.kept (h : RecoveryCodesExact u s) {s' : CodeState}
    (hcodes : s'.db.codesOf u = s.db.codesOf u) (hlatest : s'.latest = s.latest)
    (hfactor : fetchTOTPSecret s.db u = none → fetchTOTPSecret s'.db u = none) :
    RecoveryCodesExact u s' := by
  obtain ⟨hten, hfrom, hcounted⟩ := (recoveryCodesExact_iff u s).mp h
  rw [recoveryCodesExact_iff, hcodes, hlatest]
  refine ⟨hten, hfrom, fun henabled => hcounted ?_⟩
  rw [Option.isSome_iff_ne_none] at henabled ⊢
  exact fun hnone => henabled (hfactor hnone)

/-- New codes in the place of whatever the account had. -/
theorem RecoveryCodesExact.fresh {s' : CodeState} (batch : RecoveryBatch)
    (hcodes : s'.db.codesOf u = batch.rows u) (hlatest : s'.latest = batch.rows u) :
    RecoveryCodesExact u s' := by
  rw [recoveryCodesExact_iff, hcodes, hlatest]
  exact .batch batch u

theorem usedUp_eq_some {db : DB} {now : Time} {req : CodeRequest} {v : Uuid} {code : RecoveryCode}
    (h : req.usedUp svc db now = some (v, code)) :
    code ∈ db.recoveryCodes ∧ code.userId = v ∧ code.usedAt = none := by
  cases req with
  | recoverInit username recoveryCode => exact recoverMatch_eq_some h
  | totpInit | totpVerify | totpDisable | totpRegenerateBackup | recoverComplete => cases h

/-- Two rows never share an id. -/
def UniqueIDs (db : DB) : Prop := (db.recoveryCodes.map (·.id)).Nodup

theorem uniqueIDs_step (hids : UniqueIDs s.db) (hnew : DrawsNewIDs s c) :
    UniqueIDs (s.step svc u c).db := by
  have hdeleted (v : Uuid) :
      ((Table.deleteWhere (·.userId = v) s.db.recoveryCodes).map RecoveryCode.id).Nodup :=
    hids.sublist (List.filter_sublist.map _)
  have hrows (batch : RecoveryBatch) (v : Uuid) :
      (batch.rows v).map RecoveryCode.id = batch.ids := by
    rw [RecoveryBatch.rows, List.map_map]
    rfl
  have happend {rows : List RecoveryCode} {batch : RecoveryBatch} (v : Uuid)
      (hrowsIn : ∀ row ∈ rows, row ∈ s.db.recoveryCodes) (hnodup : (rows.map RecoveryCode.id).Nodup)
      (hbatch : c.req.batch? = some batch) :
      ((rows ++ batch.rows v).map RecoveryCode.id).Nodup := by
    obtain ⟨hbatchNodup, hapart⟩ := hnew batch hbatch
    rw [List.map_append, hrows, List.nodup_append]
    refine ⟨hnodup, hbatchNodup, fun id hid id' hid' heq => ?_⟩
    obtain ⟨row, hrow, rfl⟩ := List.mem_map.mp hid
    exact hapart row (hrowsIn row hrow) (heq ▸ hid')
  show ((c.req.toRequest.step svc s.db c.now).recoveryCodes.map RecoveryCode.id).Nodup
  cases CodeRequest.step_cases svc s.db c.now c.req with
  | silent hcodes => rwa [hcodes]
  | @verified v batch hcodes _ _ hbatch =>
    rw [hcodes]
    exact happend v (fun _ => id) hids hbatch
  | @replaced v batch hcodes _ hbatch =>
    rw [hcodes]
    exact happend v (fun _ hrow => (Table.mem_deleteWhere.mp hrow).1) (hdeleted v) hbatch
  | @deleted v hcodes =>
    rw [hcodes]
    exact hdeleted v
  | used hcodes =>
    rw [hcodes]
    show ((markRows c.now _ s.db.recoveryCodes).map RecoveryCode.id).Nodup
    rw [map_id_markRows]
    exact hids

/-- The code of another account leaves the codes of this one alone. -/
theorem markRows_codesOf_of_ne {db : DB} {v : Uuid} {code : RecoveryCode} (now : Time)
    (hids : UniqueIDs db) (hmem : code ∈ db.recoveryCodes) (howner : code.userId = v) (hv : v ≠ u) :
    markRows now code.id (db.codesOf u) = db.codesOf u := by
  apply Table.updateWhere_eq_self
  intro row hrow
  obtain ⟨hrow, howned⟩ := List.mem_filter.mp hrow
  have hne : row.id ≠ code.id := by
    intro hid
    obtain rfl := Table.eq_of_lookup hids (Table.lookup_of_mem hids hmem) hrow hid
    exact hv (howner.symm.trans (of_decide_eq_true howned))
  simp [hne]

/-- One request keeps the codes exact exactly if it meets the condition. -/
theorem recoveryCodesExact_step (h : RecoveryCodesExact u s) (hids : UniqueIDs s.db) :
    RecoveryCodesExact u (s.step svc u c) ↔ KeepsCodesExact svc u s c := by
  have hlatest : (s.step svc u c).latest = match c.req.handsOut svc s.db c.now with
    | some (v, batch) => if v = u then batch.rows u else s.latest
    | none => s.latest := rfl
  have hnever {α : Type} {o : Option α} (hnone : o = none) (a : α) : o ≠ some a := by simp [hnone]
  have hquiet (hverified : c.req.verifiedUser svc s.db c.now ≠ some u)
      (hused : ∀ code, c.req.usedUp svc s.db c.now ≠ some (u, code)) : KeepsCodesExact svc u s c :=
    ⟨fun hv => absurd hv hverified, fun code hc => absurd hc (hused code)⟩
  cases CodeRequest.step_cases svc s.db c.now c.req with
  | silent hcodes hfactor hout hverified hused =>
    rw [hout] at hlatest
    exact iff_of_true (h.kept (codesOf_eq hcodes u) hlatest (hfactor u))
      (hquiet (hnever hverified u) fun code => hnever hused (u, code))
  | @verified v batch hcodes hself hother _ hout hverified hused =>
    rw [hout] at hlatest
    have hrows : (s.step svc u c).db.codesOf u =
        s.db.codesOf u ++ if v = u then batch.rows u else [] := codesOf_append hcodes u
    by_cases hv : v = u
    · subst hv
      have henabled : (fetchTOTPSecret (s.step svc v c).db v).isSome = true := hself
      simp only [if_true] at hlatest hrows
      rw [recoveryCodesExact_iff, hlatest, hrows, henabled, CodesExact.append_iff]
      exact ⟨fun hnil => ⟨fun _ => hnil, fun code hc => absurd hc (hnever hused (v, code))⟩,
        fun hkeeps => hkeeps.1 hverified⟩
    · simp only [if_neg hv, List.append_nil] at hlatest hrows
      refine iff_of_true (h.kept hrows hlatest fun hnone => (hother u (Ne.symm hv)).trans hnone)
        (hquiet ?_ fun code => hnever hused (u, code))
      rw [hverified]
      exact fun heq => hv (Option.some.inj heq)
  | @replaced v batch hcodes hfactor _ hout hverified hused =>
    rw [hout] at hlatest
    have hkeeps : KeepsCodesExact svc u s c :=
      hquiet (hnever hverified u) fun code => hnever hused (u, code)
    have hrows : (s.step svc u c).db.codesOf u =
        (if v = u then [] else s.db.codesOf u) ++ if v = u then batch.rows u else [] := by
      show List.filter _ (c.req.toRequest.step svc s.db c.now).recoveryCodes = _
      rw [hcodes, List.filter_append, filter_deleteWhere, filter_rows]
      rfl
    by_cases hv : v = u
    · simp only [if_pos hv, List.nil_append] at hlatest hrows
      exact iff_of_true (.fresh batch hrows hlatest) hkeeps
    · simp only [if_neg hv, List.append_nil] at hlatest hrows
      have hsame := fetchTOTPSecret_eq hfactor u
      exact iff_of_true (h.kept hrows hlatest fun hnone => hsame.trans hnone) hkeeps
  | @deleted v hcodes hfactor hout hverified hused =>
    rw [hout] at hlatest
    have hrows : (s.step svc u c).db.codesOf u = if v = u then [] else s.db.codesOf u := by
      show List.filter _ (c.req.toRequest.step svc s.db c.now).recoveryCodes = _
      rw [hcodes, filter_deleteWhere]
      rfl
    refine iff_of_true ?_ (hquiet (hnever hverified u) fun code => hnever hused (u, code))
    by_cases hv : v = u
    · rw [if_pos hv] at hrows
      rw [recoveryCodesExact_iff, hrows]
      exact .nil
    · rw [if_neg hv] at hrows
      exact h.kept hrows hlatest (hfactor u)
  | @used v code hcodes hfactor hout hverified hused =>
    rw [hout] at hlatest
    have hrows : (s.step svc u c).db.codesOf u = markRows c.now code.id (s.db.codesOf u) :=
      codesOf_markRecoveryCode c.now code.id hcodes u
    have hsame : fetchTOTPSecret (s.step svc u c).db u = fetchTOTPSecret s.db u :=
      fetchTOTPSecret_eq hfactor u
    obtain ⟨hmem, howner, hunused⟩ := usedUp_eq_some hused
    by_cases hv : v = u
    · subst hv
      have hcode : code ∈ s.db.codesOf v := List.mem_filter.mpr ⟨hmem, decide_eq_true howner⟩
      rw [recoveryCodesExact_iff, hlatest, hrows, hsame,
        ((recoveryCodesExact_iff v s).mp h).mark_iff hcode hunused, Option.isSome_eq_false_iff,
        Option.isNone_iff_eq_none]
      exact ⟨fun hnone => ⟨fun hv => absurd hv (hnever hverified v), fun _ _ => hnone⟩,
        fun hkeeps => hkeeps.2 code hused⟩
    · rw [markRows_codesOf_of_ne c.now hids hmem howner hv] at hrows
      refine iff_of_true (h.kept hrows hlatest fun hnone => hsame.trans hnone)
        (hquiet (hnever hverified u) fun code' => ?_)
      rw [hused]
      exact fun heq => hv (Prod.mk.inj (Option.some.inj heq)).1

end Keeps

/-! ## Runs -/

/-- In a run of such requests, ten codes at most are left, all of the last
issuance and counted right, exactly if no enrolment is completed while there are
codes and no code is used up while the second factor is on. -/
theorem recovery_codes_exact_iff (svc : Service) (u : Uuid) (s : CodeState) (calls : List CodeCall)
    (hs : RecoveryCodesExact u s) (hids : UniqueIDs s.db)
    (hnew : Runs.Every (CodeState.step svc u) DrawsNewIDs s calls) :
    Runs.Along (CodeState.step svc u) (RecoveryCodesExact u) s calls ↔
      Runs.Every (CodeState.step svc u) (KeepsCodesExact svc u) s calls :=
  Runs.along_iff_every (J := fun s => UniqueIDs s.db)
    (fun _ _ hids hnew => uniqueIDs_step hids hnew)
    (fun _ _ hids h _ => recoveryCodesExact_step h hids) calls hids hs hnew

/-- Ten codes with these row ids; the first of them is the text `code`. -/
def sampleCodes (n : Nat) : List (Uuid × Bytes) :=
  (Uuid.ofNat n, samplePasswordHasher.hashRecoveryCode "code" (List.replicate 16 0)) ::
    (List.range 9).map fun i => (Uuid.ofNat (n + 1 + i), [])

theorem length_sampleCodes (n : Nat) : (sampleCodes n).length = 10 := by
  simp [sampleCodes]

def sampleBatch (n : Nat) : RecoveryBatch := ⟨sampleCodes n, length_sampleCodes n⟩

/-- An account that has no codes yet. -/
def newAccount : CodeState := { db := { users := [sampleUser 1 "ada"] } }

theorem newAccount_exact : RecoveryCodesExact (Uuid.ofNat 1) newAccount := by
  rw [recoveryCodesExact_iff]
  exact .nil

/-- A service whose authenticator shows one code at all times. -/
def enrolService : Service :=
  { statusService (Uuid.ofNat 1) with validateTOTP := fun _ _ code => code = "123456" }

def enrolCall : CodeCall := ⟨0, .totpInit "Bearer token" ⟨List.replicate 20 7, sampleNonce⟩⟩

def verifyCall (n : Nat) : CodeCall := ⟨0, .totpVerify "Bearer token" "123456" (sampleBatch n)⟩

def useCall : CodeCall := ⟨0, .recoverInit "ada" "code"⟩

/-- A first enrolment. -/
theorem recovery_codes_exact_iff_enrolment :
    Runs.Along (CodeState.step enrolService (Uuid.ofNat 1)) (RecoveryCodesExact (Uuid.ofNat 1))
      newAccount [enrolCall, verifyCall 10] := by
  have hempty : (newAccount.step enrolService (Uuid.ofNat 1) enrolCall).db.recoveryCodes = [] := by
    decide
  refine (recovery_codes_exact_iff enrolService (Uuid.ofNat 1) newAccount
    [enrolCall, verifyCall 10] newAccount_exact List.nodup_nil ⟨?_, ?_, trivial⟩).mpr
    ⟨?_, ?_, trivial⟩
  · intro batch hbatch
    cases hbatch
  · intro batch hbatch
    cases hbatch
    rw [hempty]
    exact ⟨by decide, fun row hrow => by cases hrow⟩
  · exact ⟨fun _ => rfl, fun _ hused => by cases hused⟩
  · refine ⟨fun _ => ?_, fun _ hused => by cases hused⟩
    rw [DB.codesOf, hempty]
    rfl

/-- The runs of a second completion, and of a code that is used. -/
def verifiedTwice : List CodeCall := [enrolCall, verifyCall 10, verifyCall 30]

def codeUsed : List CodeCall := [enrolCall, verifyCall 10, useCall]

/-- An enrolment that is completed a second time leaves twenty codes, and a code
that was used is still counted. -/
theorem recovery_codes_not_exact :
    RecoveryCodesExact (Uuid.ofNat 1) newAccount ∧
      (¬ Runs.Along (CodeState.step enrolService (Uuid.ofNat 1)) (RecoveryCodesExact (Uuid.ofNat 1))
        newAccount verifiedTwice) ∧
      ¬ Runs.Along (CodeState.step enrolService (Uuid.ofNat 1)) (RecoveryCodesExact (Uuid.ofNat 1))
        newAccount codeUsed := by
  refine ⟨newAccount_exact, fun h => ?_, fun h => ?_⟩
  · have htwenty : ((Runs.run (CodeState.step enrolService (Uuid.ofNat 1)) newAccount
        verifiedTwice).db.acceptableCodes (Uuid.ofNat 1)).length = 20 := by decide
    have hten := h.last.atMostTen
    omega
  · have hnine : ((Runs.run (CodeState.step enrolService (Uuid.ofNat 1)) newAccount
        codeUsed).db.acceptableCodes (Uuid.ofNat 1)).length = 9 := by decide
    have hten : totpStatus enrolService (Runs.run (CodeState.step enrolService (Uuid.ofNat 1))
        newAccount codeUsed).db 0 "Bearer token" = .ok (true, 10) := by decide
    have hcount := h.last.status enrolService 0 "Bearer token" _ 10
      (requireAccessToken_statusService (Uuid.ofNat 1)) rfl hten
    omega

end IronStock

import IronStock.Authority
import IronStock.Lockout
import IronStock.RevokedSessions
import IronStock.Lib.LockingCounter

/-!
# Password checks and the lock

Login, the change of the password and the end of the second factor compare one
password and count in one row. Login looks at the lock first. The other two look at
it nowhere, so the lock and the bound it gives hold exactly as long as nobody sends
them a password for a locked account.
-/
namespace IronStock

/-! ## The three requests -/

inductive PasswordCall
  | login (ctx : LoginContext) (draw : LoginDraw) (req : LoginRequest)
  | changePassword (authz : String) (req : ChangePasswordRequest) (salt : Bytes)
  | totpDisable (authz masterPassword : String)

/-- The two reads of `argon2_params` before a password is compared. -/
def User.passwordReadable (svc : Service) (row : User) : Bool :=
  (svc.passwords.extractSalt row.argon2Params).isSome &&
    (svc.passwords.unmarshalParams row.argon2Params).isSome

namespace PasswordCall

variable (svc : Service) (db : DB) (now : Time)

/-- The account of the access token and the password it is to confirm, when the
request gets that far. -/
def confirms : PasswordCall → Option (Uuid × String)
  | .login _ _ _ => none
  | .changePassword authz req _ =>
    match requireAccessToken svc now authz, validateChangePassword req with
    | .ok claims, .ok () => some (claims.subject, req.currentPassword)
    | _, _ => none
  | .totpDisable authz masterPassword =>
    match requireAccessToken svc now authz with
    | .ok claims => if masterPassword = "" then none else some (claims.subject, masterPassword)
    | .error _ => none

/-- The row the request reads the password of, and the password submitted. -/
def compares : PasswordCall → Option (User × String)
  | .login ctx _ req => (loginCompares svc db now ctx req).map (·, req.password)
  | call => (call.confirms svc now).bind fun c => (db.user? c.1).map (·, c.2)

def execute : PasswordCall → DB
  | .login ctx draw req => (IronStock.login svc db now ctx draw req).1
  | .changePassword authz req salt => (IronStock.changePassword svc db now authz req salt).1
  | .totpDisable authz masterPassword => (IronStock.totpDisable svc db now authz masterPassword).1

/-- The account whose password is compared, and whether it is the one submitted.
Nothing is compared with a row whose parameters cannot be read. -/
def outcome (call : PasswordCall) : Option (Uuid × Bool) :=
  (call.compares svc db now).bind fun c =>
    (checkPassword svc c.1 c.2).toOption.map (c.1.id, ·)

end PasswordCall

/-! ## The rows after a request -/

/-- The rows after a comparison: a wrong password counts in the row of the account,
and the right one may change that row in any way. -/
inductive CheckedUsers (now : Time) (users : List User) :
    Option (Uuid × Bool) → List User → Prop
  | unchecked : CheckedUsers now users none users
  | wrong (u : Uuid) : CheckedUsers now users (some (u, false))
      (Table.updateWhere (·.id = u) (User.loginFailed now) users)
  | right (u : Uuid) (f : User → User) (hf : ∀ r, (f r).id = r.id) :
      CheckedUsers now users (some (u, true)) (Table.updateWhere (·.id = u) f users)

section Rows

variable {svc : Service} {db : DB} {now : Time}

theorem CheckedUsers.right_kept (users : List User) (u : Uuid) :
    CheckedUsers now users (some (u, true)) users := by
  have hsame : Table.updateWhere (·.id = u) id users = users := by
    simp [Table.updateWhere]
  have h := @CheckedUsers.right now users u id fun _ => rfl
  rwa [hsame] at h

theorem checkPassword_isOk (svc : Service) (row : User) (password : String) :
    (checkPassword svc row password).isOk = row.passwordReadable svc := by
  simp only [checkPassword, User.passwordReadable, PasswordHasher.verifyPassword]
  cases svc.passwords.extractSalt row.argon2Params with
  | none => rfl
  | some salt => cases svc.passwords.unmarshalParams row.argon2Params <;> rfl

theorem login_unreadable {ctx : LoginContext} {req : LoginRequest} {user : User} {e : ApiError}
    (hcompares : loginCompares svc db now ctx req = some user)
    (hcheck : checkPassword svc user req.password = .error e) (draw : LoginDraw) :
    login svc db now ctx draw req = (db, .error e) := by
  simp only [loginCompares] at hcompares
  split at hcompares
  · cases hcompares
  · next hbody =>
    obtain ⟨hfetch, hgate⟩ := Option.filter_eq_some_iff.mp hcompares
    rw [Option.isNone_iff_eq_none] at hgate
    simp only [login, if_neg hbody, hfetch, hgate, hcheck]

theorem login_checked (ctx : LoginContext) (draw : LoginDraw) (req : LoginRequest) :
    CheckedUsers now db.users ((PasswordCall.login ctx draw req).outcome svc db now)
      (login svc db now ctx draw req).1.users := by
  have husers := @login_users svc db now ctx req draw
  simp only [PasswordCall.outcome, PasswordCall.compares]
  cases hcompares : loginCompares svc db now ctx req with
  | none =>
    simp only [wrongAttempt, hcompares] at husers
    rcases husers with ⟨u, hwrong, -⟩ | ⟨-, ⟨-, hsame⟩ | ⟨user, huser, -⟩⟩
    · cases hwrong
    · rw [hsame]
      exact .unchecked
    · cases huser
  | some user =>
    simp only [Option.map_some, Option.bind_some]
    cases hcheck : checkPassword svc user req.password with
    | error e =>
      rw [login_unreadable hcompares hcheck draw]
      exact .unchecked
    | ok correct =>
      simp only [wrongAttempt, hcompares, hcheck] at husers
      cases correct with
      | false =>
        rcases husers with ⟨u, hwrong, -, hfailed⟩ | ⟨hwrong, -⟩
        · obtain rfl : user.id = u := Option.some.inj hwrong
          rw [hfailed]
          exact .wrong user.id
        · cases hwrong
      | true =>
        rcases husers with ⟨u, hwrong, -, hfailed⟩ | ⟨-, ⟨-, hsame⟩ | ⟨user', huser, -, hreset⟩⟩
        · -- the password is right and the code is not
          obtain rfl : user.id = u := by
            simp only at hwrong
            split at hwrong
            · exact Option.some.inj hwrong
            · cases hwrong
          rw [hfailed]
          exact .right user.id _ (loginFailed_id now)
        · rw [hsame]
          exact .right_kept db.users user.id
        · obtain rfl : user = user' := Option.some.inj huser
          rw [hreset]
          exact .right user.id _ loginSucceeded_id

/-- The check the two requests with an access token share. -/
theorem confirmPassword_checked (u : Uuid) (password : String) :
    CheckedUsers now db.users
      ((db.user? u).bind fun user =>
        (checkPassword svc user password).toOption.map (user.id, ·))
      (confirmPassword svc db now u password).1.users := by
  simp only [confirmPassword]
  cases hrow : db.user? u with
  | none => exact .unchecked
  | some user =>
    obtain rfl : user.id = u := (Table.lookup_eq_some hrow).2
    simp only [Option.bind_some]
    cases checkPassword svc user password with
    | error e => exact .unchecked
    | ok correct =>
      cases correct with
      | false => exact .wrong user.id
      | true => exact .right_kept db.users user.id

theorem storePassword_users {u : Uuid} {req : ChangePasswordRequest} {salt : Bytes} {db' : DB}
    (h : storePassword svc db now u req salt = .ok db') :
    ∃ f : User → User, (∀ r, (f r).id = r.id) ∧
      db'.users = Table.updateWhere (·.id = u) f db.users := by
  simp only [storePassword, Reply.bind_eq_ok, Reply.orElse_eq_ok, Reply.toOption_eq_some,
    Reply.pure_eq_ok] at h
  obtain ⟨db₁, hrotate, rfl⟩ := h
  obtain ⟨-, -, husers⟩ := rotateKeypair_kept hrotate
  let password := svc.passwords.hashPassword req.newPassword salt
  exact ⟨fun r => { r.withPassword password with mustChangePassword := false },
    fun _ => rfl, husers⟩

theorem execute_checked (call : PasswordCall) :
    CheckedUsers now db.users (call.outcome svc db now) (call.execute svc db now).users := by
  cases call with
  | login ctx draw req => exact login_checked ctx draw req
  | changePassword authz req salt =>
    simp only [PasswordCall.outcome, PasswordCall.compares, PasswordCall.confirms,
      PasswordCall.execute, changePassword]
    cases requireAccessToken svc now authz with
    | error e => exact .unchecked
    | ok claims =>
      simp only
      cases validateChangePassword req with
      | error e => exact .unchecked
      | ok _ =>
        simp only [Option.bind_some, Option.bind_map]
        have hchecked := @confirmPassword_checked svc db now claims.subject req.currentPassword
        rcases hconfirm : confirmPassword svc db now claims.subject req.currentPassword with
          ⟨db₁, e | _⟩
        · rw [hconfirm] at hchecked
          exact hchecked
        · obtain ⟨rfl, user, hrow, hright⟩ := confirmPassword_eq_ok hconfirm
          rw [hconfirm] at hchecked
          simp only
          cases hstore : storePassword svc db₁ now claims.subject req salt with
          | error e => exact hchecked
          | ok db' =>
            obtain ⟨f, hf, husers⟩ := storePassword_users hstore
            have hid : user.id = claims.subject := (Table.lookup_eq_some hrow).2
            simp only [hrow, Option.bind_some, Function.comp_apply, hright, hid, husers]
            exact .right claims.subject f hf
  | totpDisable authz masterPassword =>
    simp only [PasswordCall.outcome, PasswordCall.compares, PasswordCall.confirms,
      PasswordCall.execute, totpDisable]
    cases requireAccessToken svc now authz with
    | error e => exact .unchecked
    | ok claims =>
      simp only
      by_cases hempty : masterPassword = ""
      · simp only [if_pos hempty]
        exact .unchecked
      · simp only [if_neg hempty, Option.bind_some, Option.bind_map]
        have hchecked := @confirmPassword_checked svc db now claims.subject masterPassword
        rcases hconfirm : confirmPassword svc db now claims.subject masterPassword with
          ⟨db₁, e | _⟩
        · rw [hconfirm] at hchecked
          exact hchecked
        · rw [hconfirm] at hchecked
          simp only
          split
          · exact hchecked
          · exact hchecked

end Rows

/-- The row of an account after a comparison. -/
inductive CheckedRow (now : Time) (row : User) : Option Bool → User → Prop
  | unchecked : CheckedRow now row none row
  | wrong : CheckedRow now row (some false) (row.loginFailed now)
  | right (row' : User) : CheckedRow now row (some true) row'

section Row

variable {now : Time} {users users' : List User} {outcome : Option (Uuid × Bool)}

theorem CheckedUsers.ids (h : CheckedUsers now users outcome users') :
    users'.map User.id = users.map User.id := by
  cases h with
  | unchecked => rfl
  | wrong u => exact updateWhere_ids (loginFailed_id now) users
  | right u f hf => exact updateWhere_ids hf users

theorem CheckedUsers.row (h : CheckedUsers now users outcome users') {u : Uuid} {row : User}
    (hrow : Table.lookup User.id u users = some row) :
    ∃ row', Table.lookup User.id u users' = some row' ∧
      CheckedRow now row ((outcome.filter (·.1 = u)).map Prod.snd) row' := by
  have hid : row.id = u := (Table.lookup_eq_some hrow).2
  have hwrite : ∀ (v : Uuid) (f : User → User), (∀ r, (f r).id = r.id) →
      Table.lookup User.id u (Table.updateWhere (·.id = v) f users) =
        some (if v = u then f row else row) := by
    intro v f hf
    rw [Table.lookup_updateWhere hf, hrow]
    simp [hid, eq_comm]
  cases h with
  | unchecked => exact ⟨row, hrow, .unchecked⟩
  | wrong v =>
    refine ⟨_, hwrite v _ (loginFailed_id now), ?_⟩
    by_cases hv : v = u
    · simp only [hv, Option.filter_some, decide_true, if_true]
      exact .wrong
    · simp only [hv, Option.filter_some, decide_false, Bool.false_eq_true, if_false]
      exact .unchecked
  | right v f hf =>
    refine ⟨_, hwrite v f hf, ?_⟩
    by_cases hv : v = u
    · simp only [hv, Option.filter_some, decide_true, if_true]
      exact .right (f row)
    · simp only [hv, Option.filter_some, decide_false, Bool.false_eq_true, if_false]
      exact .unchecked

end Row

/-! ## Runs -/

/-- A comparison of a password with the one of the account: when, whether the row
was locked, and what came out. -/
structure PasswordCheck where
  time : Time
  locked : Bool
  right : Bool

def wrongTimes (checks : List PasswordCheck) : List Int :=
  (checks.filter fun c => !c.right).map PasswordCheck.time

/-- A request, and how long after the one before it. -/
structure PasswordMove where
  elapsed : Nat
  call : PasswordCall

/-- The database, the clock, and the comparisons for one account so far, the newest
first. -/
structure CheckRun where
  db : DB
  clock : Time
  checks : List PasswordCheck

namespace CheckRun

variable (svc : Service) (u : Uuid) (s : CheckRun) (m : PasswordMove)

def now : Time := s.clock + m.elapsed

/-- The comparison a request makes for the account. -/
def check : Option PasswordCheck :=
  ((m.call.compares svc s.db (s.now m)).filter (·.1.id = u)).bind fun c =>
    (checkPassword svc c.1 c.2).toOption.map fun right =>
      ⟨s.now m, c.1.isLocked (s.now m), right⟩

def step : CheckRun where
  db := m.call.execute svc s.db (s.now m)
  clock := s.now m
  checks := (s.check svc u m).toList ++ s.checks

/-- No comparison fell into a lock, and where no password was right no window up to
the length of a lock saw more wrong ones than the threshold. -/
structure LockHonoured (s : CheckRun) : Prop where
  unlocked : ∀ c ∈ s.checks, c.locked = false
  bounded : ∀ stretch, stretch <:+: s.checks → (∀ c ∈ stretch, c.right = false) →
    ∀ start len, len ≤ lockoutDuration →
      (SlidingWindow.within len start (wrongTimes stretch)).length ≤ maxFailedLoginAttempts

/-- The request does not ask to confirm the password of the account while its row
is locked, unless the row has no password that can be read. -/
def Confirmable : Prop :=
  ∀ password, m.call.confirms svc (s.now m) = some (u, password) →
    ∀ row, s.db.user? u = some row → row.passwordReadable svc = true →
      row.isLocked (s.now m) = false

end CheckRun

/-! ## The counter in the row -/

/-- The two columns of the lock. -/
def User.lockCounter (row : User) : LockingCounter.Counter :=
  ⟨row.failedLoginAttempts, row.lockedUntil⟩

theorem loginFailed_lockCounter (now : Time) (row : User) :
    (row.loginFailed now).lockCounter =
      row.lockCounter.fail maxFailedLoginAttempts lockoutDuration now := by
  by_cases hfull : maxFailedLoginAttempts ≤ row.failedLoginAttempts + 1
  · simp [User.loginFailed, User.lockCounter, LockingCounter.Counter.fail, hfull]
  · simp [User.loginFailed, User.lockCounter, LockingCounter.Counter.fail, hfull]

open CheckRun LockingCounter

/-- The row shows every stretch of comparisons that goes on. -/
structure StretchesShown (u : Uuid) (s : CheckRun) : Prop where
  keys : UserIdsUnique s.db
  past : ∀ c ∈ s.checks, c.time ≤ s.clock
  row : ∃ row, s.db.user? u = some row ∧ ((∀ c ∈ s.checks, c.locked = false) →
    ∀ stretch, stretch <+: s.checks → (∀ c ∈ stretch, c.right = false) →
      Shows maxFailedLoginAttempts lockoutDuration row.lockCounter (wrongTimes stretch))

section Step

variable {svc : Service} {u : Uuid} {s : CheckRun} {m : PasswordMove} {row : User}

/-- The row a request compares for the account is its row. -/
theorem compares_row (hkeys : UserIdsUnique s.db) (hrow : s.db.user? u = some row) {user : User}
    {password : String} (hcompares : m.call.compares svc s.db (s.now m) = some (user, password))
    (hid : user.id = u) : user = row := by
  have hmem : user ∈ s.db.users := by
    cases hcall : m.call with
    | login ctx draw req =>
      simp only [hcall, PasswordCall.compares, Option.map_eq_some_iff] at hcompares
      obtain ⟨user', huser, heq⟩ := hcompares
      obtain ⟨rfl, -⟩ := Prod.mk.inj heq
      exact (loginCompares_eq_some huser).1
    | changePassword authz req salt =>
      simp only [hcall, PasswordCall.compares, Option.bind_eq_some_iff,
        Option.map_eq_some_iff] at hcompares
      obtain ⟨c, -, user', huser, heq⟩ := hcompares
      obtain ⟨rfl, -⟩ := Prod.mk.inj heq
      exact (Table.lookup_eq_some huser).1
    | totpDisable authz masterPassword =>
      simp only [hcall, PasswordCall.compares, Option.bind_eq_some_iff,
        Option.map_eq_some_iff] at hcompares
      obtain ⟨c, -, user', huser, heq⟩ := hcompares
      obtain ⟨rfl, -⟩ := Prod.mk.inj heq
      exact (Table.lookup_eq_some huser).1
  exact Table.eq_of_lookup hkeys hrow hmem hid

/-- A comparison is made with the row of the account, at this moment. -/
theorem check_eq_some (hkeys : UserIdsUnique s.db) (hrow : s.db.user? u = some row)
    {c : PasswordCheck} (h : s.check svc u m = some c) :
    ∃ password, m.call.compares svc s.db (s.now m) = some (row, password) ∧
      checkPassword svc row password = .ok c.right ∧
      c.time = s.now m ∧ c.locked = row.isLocked (s.now m) := by
  simp only [CheckRun.check, Option.bind_eq_some_iff, Option.filter_eq_some_iff,
    Option.map_eq_some_iff, decide_eq_true_eq, Reply.toOption_eq_some] at h
  obtain ⟨⟨user, password⟩, ⟨hcompares, hid⟩, right, hcheck, rfl⟩ := h
  obtain rfl := compares_row hkeys hrow hcompares hid
  exact ⟨password, hcompares, hcheck, rfl, rfl⟩

theorem outcome_eq_check : ((m.call.outcome svc s.db (s.now m)).filter (·.1 = u)).map Prod.snd =
    (s.check svc u m).map PasswordCheck.right := by
  simp only [PasswordCall.outcome, CheckRun.check]
  cases m.call.compares svc s.db (s.now m) with
  | none => rfl
  | some c =>
    rw [Option.bind_some, Option.filter_some]
    cases hcheck : checkPassword svc c.1 c.2 with
    | error e => by_cases hid : c.1.id = u <;> simp [hid, hcheck, Except.toOption]
    | ok right => by_cases hid : c.1.id = u <;> simp [hid, hcheck, Except.toOption]

@[simp] theorem step_checks :
    (s.step svc u m).checks = (s.check svc u m).toList ++ s.checks := rfl

theorem StretchesShown.step (h : StretchesShown u s) (m : PasswordMove) :
    StretchesShown u (s.step svc u m) := by
  obtain ⟨hkeys, hpast, row, hrow, hshows⟩ := h
  have hchecked := @execute_checked svc s.db (s.now m) m.call
  obtain ⟨row', hrow', hchange⟩ := hchecked.row hrow
  rw [outcome_eq_check] at hchange
  have hlater : s.clock ≤ s.now m := Int.le_add_of_nonneg_right (Int.natCast_nonneg m.elapsed)
  refine ⟨?_, ?_, row', hrow', ?_⟩
  · rw [UserIdsUnique, CheckRun.step, hchecked.ids]
    exact hkeys
  · intro c hc
    rw [step_checks, List.mem_append, Option.mem_toList] at hc
    rcases hc with hnew | hold
    · obtain ⟨-, -, -, htime, -⟩ := check_eq_some hkeys hrow hnew
      exact Int.le_of_eq htime
    · exact Int.le_trans (hpast c hold) hlater
  · intro hunlocked stretch hprefix hwrong
    have hshows := hshows fun c hc => hunlocked c (List.mem_append_right _ hc)
    rw [step_checks] at hprefix hunlocked
    cases hcheck : s.check svc u m with
    | none =>
      rw [hcheck] at hchange hprefix
      cases hchange with
      | unchecked => exact hshows stretch hprefix hwrong
    | some c =>
      rw [hcheck] at hchange hprefix hunlocked
      obtain ⟨-, -, -, htime, hlocked⟩ := check_eq_some hkeys hrow hcheck
      have hopen : c.locked = false := hunlocked c List.mem_cons_self
      rw [hlocked] at hopen
      rw [Option.map_some] at hchange
      rcases List.prefix_cons_iff.mp hprefix with rfl | ⟨stretch, rfl, hbehind⟩
      · exact shows_nil (by decide)
      · have hbefore := hshows stretch hbehind fun c hc => hwrong c (List.mem_cons_of_mem _ hc)
        have hright : c.right = false := hwrong c List.mem_cons_self
        rw [hright] at hchange
        cases hchange with
        | wrong =>
          have hcons : wrongTimes (c :: stretch) = s.now m :: wrongTimes stretch := by
            simp [wrongTimes, hright, htime]
          rw [hcons, loginFailed_lockCounter]
          apply hbefore.fail (by decide) _ hopen
          intro t ht
          obtain ⟨c', hmem, rfl⟩ := List.mem_map.mp ht
          have hmem := hbehind.subset (List.mem_of_mem_filter hmem)
          exact Int.le_trans (hpast c' hmem) hlater

theorem compares_of_confirms {call : PasswordCall} {db : DB} {now : Time} {c : Uuid × String}
    (h : call.confirms svc now = some c) :
    call.compares svc db now = (db.user? c.1).map (·, c.2) := by
  cases call with
  | login ctx draw req => cases h
  | changePassword authz req salt => simp only [PasswordCall.compares, h, Option.bind_some]
  | totpDisable authz masterPassword => simp only [PasswordCall.compares, h, Option.bind_some]

/-- Only the two requests with an access token compare a password for a locked row. -/
theorem unlocked_iff_confirmable (h : StretchesShown u s) :
    (∀ c ∈ s.check svc u m, c.locked = false) ↔ s.Confirmable svc u m := by
  obtain ⟨hkeys, -, row, hrow, -⟩ := h
  have hid : row.id = u := (Table.lookup_eq_some hrow).2
  constructor
  · intro hunlocked password hconfirms row' hrow' hread
    obtain rfl : row = row' := Option.some.inj (hrow.symm.trans hrow')
    rw [← checkPassword_isOk svc row password] at hread
    cases hcheck : checkPassword svc row password with
    | error e => rw [hcheck] at hread; cases hread
    | ok right =>
      apply hunlocked ⟨s.now m, row.isLocked (s.now m), right⟩
      apply Option.bind_eq_some_iff.mpr
      refine ⟨(row, password), ?_, by rw [hcheck]; rfl⟩
      simp [compares_of_confirms hconfirms, hrow, hid]
  · intro hconfirm c hcheck
    obtain ⟨password, hcompares, hright, -, hlocked⟩ := check_eq_some hkeys hrow hcheck
    rw [hlocked]
    cases hconfirms : m.call.confirms svc (s.now m) with
    | some c =>
      rw [compares_of_confirms hconfirms, Option.map_eq_some_iff] at hcompares
      obtain ⟨row', hrow', heq⟩ := hcompares
      obtain ⟨rfl, rfl⟩ := Prod.mk.inj heq
      obtain rfl : c.1 = u := (Table.lookup_eq_some hrow').2.symm.trans hid
      have hread := checkPassword_isOk svc row' c.2
      rw [hright] at hread
      exact hconfirm c.2 hconfirms row' hrow hread.symm
    | none =>
      cases hcall : m.call with
      | login ctx draw req =>
        simp only [hcall, PasswordCall.compares, Option.map_eq_some_iff] at hcompares
        obtain ⟨user, huser, heq⟩ := hcompares
        obtain ⟨rfl, -⟩ := Prod.mk.inj heq
        exact (loginCompares_eq_some huser).2
      | changePassword authz req salt =>
        simp [hcall, PasswordCall.compares, hcall ▸ hconfirms] at hcompares
      | totpDisable authz masterPassword =>
        simp [hcall, PasswordCall.compares, hcall ▸ hconfirms] at hcompares

theorem lockHonoured_step (h : StretchesShown u s) (hhonoured : s.LockHonoured) :
    (s.step svc u m).LockHonoured ↔ s.Confirmable svc u m := by
  rw [← unlocked_iff_confirmable h]
  constructor
  · intro hafter c hc
    exact hafter.unlocked c (List.mem_append_left _ (Option.mem_toList.mpr hc))
  · intro hunlocked
    have hall : ∀ c ∈ (s.step svc u m).checks, c.locked = false := by
      intro c hc
      rw [step_checks, List.mem_append, Option.mem_toList] at hc
      rcases hc with hnew | hold
      · exact hunlocked c hnew
      · exact hhonoured.unlocked c hold
    refine ⟨hall, ?_⟩
    intro stretch hinfix hwrong start len hlen
    obtain ⟨-, -, row', -, hshows⟩ := @StretchesShown.step svc u s h m
    cases hcheck : s.check svc u m with
    | none =>
      rw [step_checks, hcheck] at hinfix
      exact hhonoured.bounded stretch hinfix hwrong start len hlen
    | some c =>
      have hcons : (s.step svc u m).checks = c :: s.checks := by rw [step_checks, hcheck]; rfl
      rw [hcons] at hinfix hshows
      rcases List.infix_cons_iff.mp hinfix with hprefix | hinfix
      · exact (hshows (hcons ▸ hall) stretch hprefix hwrong).within_le hlen
      · exact hhonoured.bounded stretch hinfix hwrong start len hlen

end Step

/-- In a run of logins, changes of the password and ends of the second factor, the
lock of an account is honoured in every state reached exactly as long as no request
asks to confirm the password of the account while it is locked. -/
theorem lock_honoured_iff (svc : Service) {db : DB} (hkeys : UserIdsUnique db) {u : Uuid}
    {user : User} (huser : db.user? u = some user) (start : Time) (moves : List PasswordMove) :
    Runs.Along (CheckRun.step svc u) CheckRun.LockHonoured ⟨db, start, []⟩ moves ↔
      Runs.Every (CheckRun.step svc u) (CheckRun.Confirmable svc u) ⟨db, start, []⟩ moves := by
  have hshown : StretchesShown u ⟨db, start, []⟩ := by
    refine ⟨hkeys, by simp, user, huser, ?_⟩
    intro _ stretch hprefix _
    rw [List.prefix_nil.mp hprefix]
    exact shows_nil (by decide)
  have hhonoured : CheckRun.LockHonoured ⟨db, start, []⟩ := by
    refine ⟨by simp, ?_⟩
    intro stretch hinfix _ _ _ _
    rw [List.infix_nil.mp hinfix]
    exact Nat.zero_le _
  apply Runs.along_iff_every (J := StretchesShown u) (A := fun _ _ => True)
  · exact fun s m h _ => h.step m
  · exact fun s m h hhonoured _ => lockHonoured_step h hhonoured
  · exact hshown
  · exact hhonoured
  · exact (Runs.every_const _ _ _ _).mpr fun _ _ => trivial

def guessBody : ChangePasswordRequest :=
  ⟨"guess", "correct horse", [1], List.replicate 16 0, "\x7b\"alg\":\"argon2id\"\x7d"⟩

/-- A guess at the password, sent as a change of it. -/
def changeGuess : PasswordMove where
  elapsed := 1
  call := .changePassword ("Bearer " ++ sampleAccessToken) guessBody []

theorem changeGuess_confirms :
    changeGuess.call.confirms tokenService 1 = some (Uuid.ofNat 1, "guess") := by
  have htoken := requireAccessToken_of_parse parse_sampleAccessToken
  have hbody : validateChangePassword guessBody = .ok () := by decide
  rw [changeGuess, PasswordCall.confirms, htoken, hbody]
  rfl

theorem lock_honoured_iff_login :
    Runs.Along (CheckRun.step tokenService (Uuid.ofNat 1)) CheckRun.LockHonoured
        ⟨oneAccount, 0, []⟩ [changeGuess] ↔
      Runs.Every (CheckRun.step tokenService (Uuid.ofNat 1))
        (CheckRun.Confirmable tokenService (Uuid.ofNat 1)) ⟨oneAccount, 0, []⟩ [changeGuess] := by
  have hkeys : UserIdsUnique oneAccount := by decide
  have huser : oneAccount.user? (Uuid.ofNat 1) =
      some { sampleUser 1 "ada" with status := .active, passwordHash := [7] } := rfl
  exact lock_honoured_iff tokenService hkeys huser 0 [changeGuess]

/-- An account that is locked for the next half hour. -/
def lockedAccount : DB where
  users := [{ sampleUser 1 "ada" with
    status := .active, passwordHash := [7], lockedUntil := some lockoutDuration }]

/-- The change of the password compares the password of a locked account. -/
theorem guess_compared_while_locked :
    ¬ Runs.Along (CheckRun.step tokenService (Uuid.ofNat 1)) CheckRun.LockHonoured
      ⟨lockedAccount, 0, []⟩ [changeGuess] := by
  intro h
  have hconfirms := @compares_of_confirms tokenService changeGuess.call lockedAccount 1 _
    changeGuess_confirms
  have hcheck : CheckRun.check tokenService (Uuid.ofNat 1) ⟨lockedAccount, 0, []⟩ changeGuess =
      some ⟨1, true, false⟩ := by
    have hnow : CheckRun.now ⟨lockedAccount, 0, []⟩ changeGuess = 1 := by decide
    simp only [CheckRun.check, hnow, hconfirms]
    rfl
  have hunlocked := h.2.unlocked ⟨1, true, false⟩
    (List.mem_append_left _ (Option.mem_toList.mpr hcheck))
  cases hunlocked

end IronStock

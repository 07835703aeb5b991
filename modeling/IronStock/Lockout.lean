import IronStock.LoginHandlers
import IronStock.Lib.Runs

/-!
# Account lockout

What a login does to the counter and the lock of an account: the gate reads the
row, the `UPDATE` after a wrong password or a wrong code counts in the row, and a
session that is opened resets it.
-/
namespace IronStock

/-! ## What a login counts as -/

/-- The account whose password a login compares. -/
def loginCompares (svc : Service) (db : DB) (now : Time) (ctx : LoginContext)
    (req : LoginRequest) : Option User :=
  if req.username = "" ∨ req.password = "" then none
  else
    (fetchUserForLogin db (svc.toLower req.username)).filter fun user =>
      (loginGate svc now ctx user).isNone

/-- The second factor is a code, and the code is wrong. -/
def codeIsWrong (svc : Service) (db : DB) (now : Time) (ctx : LoginContext) (user : User)
    (req : LoginRequest) : Bool :=
  match fetchTOTPSecret db user.id with
  | none => false
  | some row =>
    let device := verifyTrustedDevice db now user.id (ctx.deviceCookie.bind (hashDeviceToken svc))
    device.2.isNone && req.totpCode ≠ "" &&
      match openTOTPSecret svc user.id row with
      | .error _ => false
      | .ok secret => !verifyTOTP svc now secret req.totpCode

/-- The account an attempt counts against: a wrong password, or a wrong code. -/
def wrongAttempt (svc : Service) (db : DB) (now : Time) (ctx : LoginContext)
    (req : LoginRequest) : Option Uuid :=
  match loginCompares svc db now ctx req with
  | none => none
  | some user =>
    match checkPassword svc user req.password with
    | .error _ => none
    | .ok false => some user.id
    | .ok true => if codeIsWrong svc db now ctx user req then some user.id else none

/-- The account a session was opened for. -/
def signedIn (r : DB × Reply LoginResponse) : Option Uuid :=
  r.2.toOption.map LoginResponse.userID

section Login

variable {svc : Service} {db : DB} {now : Time} {ctx : LoginContext} {req : LoginRequest}

/-- A login that compares no password does not look at one. -/
theorem login_of_not_compares (h : loginCompares svc db now ctx req = none) (draw : LoginDraw)
    (passwords : PasswordHasher) :
    login { svc with passwords } db now ctx draw req = login svc db now ctx draw req := by
  simp only [loginCompares] at h
  simp only [login]
  split
  · rfl
  · next hbody =>
    rw [if_neg hbody] at h
    cases hfetch : fetchUserForLogin db (svc.toLower req.username) with
    | none => rfl
    | some user =>
      rw [hfetch, Option.filter_eq_none_iff] at h
      have hgate := h user rfl
      cases hrefusal : loginGate svc now ctx user with
      | none => simp [hrefusal] at hgate
      | some r =>
        have hsame : loginGate { svc with passwords } now ctx user = some r := hrefusal
        simp only [hsame, hrefusal]

/-! ## The rows after a login -/

theorem recordRefusal_users (db : DB) (user : User) (r : LoginRefusal) :
    (db.recordRefusal user r).users = db.users := by
  have hfold : ∀ (actions : List String) (db : DB),
      (actions.foldl (fun db action =>
        db.audit ⟨user.id.text, action, "user", user.id.text⟩) db).users = db.users := by
    intro actions
    induction actions with
    | nil => exact fun _ => rfl
    | cons action actions ih => exact fun db => ih _
  exact hfold r.actions _

/-- The end of a login: a session and a reset row, or an error and the rows as
they were. -/
def Settles (users : List User) (user : User) (r : DB × Reply LoginResponse) : Prop :=
  (∃ e, r.2 = .error e ∧ r.1.users = users) ∨
    ∃ resp, r.2 = .ok resp ∧ resp.userID = user.id ∧
      r.1.users = Table.updateWhere (·.id = user.id) User.loginSucceeded users

theorem finishLogin_settles (draw : LoginDraw) (user : User) :
    Settles db.users user (finishLogin svc db now ctx draw user) := by
  simp only [finishLogin]
  cases hopen : openSession svc db now ctx draw user with
  | error e => exact .inl ⟨e, rfl, rfl⟩
  | ok db' =>
    obtain ⟨db₁, hcreate, rfl⟩ := openSession_eq_ok hopen
    obtain ⟨-, -, -, rfl⟩ := createSession_eq_ok.mp hcreate
    exact .inr ⟨_, rfl, rfl, rfl⟩

theorem Settles.map {users : List User} {user : User} {r : DB × Reply LoginResponse}
    {f : LoginResponse → LoginResponse} (h : Settles users user r)
    (hf : ∀ resp, (f resp).userID = resp.userID) : Settles users user (r.1, r.2.map f) := by
  rcases h with ⟨e, herror, husers⟩ | ⟨resp, hok, hid, husers⟩
  · exact .inl ⟨e, by rw [herror]; rfl, husers⟩
  · exact .inr ⟨f resp, by rw [hok]; rfl, (hf resp).trans hid, husers⟩

theorem Settles.rememberDevice {users : List User} {user : User} {draw : LoginDraw}
    {r : DB × Reply LoginResponse} (h : Settles users user r) :
    Settles users user (rememberDevice svc now draw user r) := by
  obtain ⟨db', reply⟩ := r
  cases reply with
  | error e => exact h
  | ok resp =>
    simp only [IronStock.rememberDevice]
    cases hdevice : createTrustedDevice db' now draw.deviceID user.id
      (svc.sha256 draw.deviceToken) with
    | error e => exact h
    | ok db'' =>
      obtain ⟨rows, rfl⟩ := createTrustedDevice_eq_ok hdevice
      rcases h with ⟨e, herror, -⟩ | ⟨resp', hok, hid, husers⟩
      · cases herror
      · cases hok
        exact .inr ⟨_, rfl, hid, husers⟩

theorem verifyTrustedDevice_users (db : DB) (now : Time) (userID : Uuid) (hash : Option Digest) :
    (verifyTrustedDevice db now userID hash).1.users = db.users ∧
      (verifyTrustedDevice db now userID hash).1.totpSecrets = db.totpSecrets := by
  cases hash <;> exact ⟨rfl, rfl⟩

/-- After the right password: a wrong code counts, anything else settles. -/
theorem loginFactors_users (draw : LoginDraw) (user : User) :
    (codeIsWrong svc db now ctx user req = true ∧
        (∃ e, (loginFactors svc db now ctx draw user req).2 = .error e) ∧
        (loginFactors svc db now ctx draw user req).1.users =
          Table.updateWhere (·.id = user.id) (User.loginFailed now) db.users) ∨
      (codeIsWrong svc db now ctx user req = false ∧
        Settles db.users user (loginFactors svc db now ctx draw user req)) := by
  simp only [codeIsWrong, loginFactors]
  cases hsecret : fetchTOTPSecret db user.id with
  | none =>
    exact .inr ⟨rfl, (finishLogin_settles draw user).map fun _ => rfl⟩
  | some row =>
    simp only
    have hsame := verifyTrustedDevice_users db now user.id
      (ctx.deviceCookie.bind (hashDeviceToken svc))
    generalize verifyTrustedDevice db now user.id
      (ctx.deviceCookie.bind (hashDeviceToken svc)) = verified at hsame ⊢
    obtain ⟨db₁, device⟩ := verified
    have hsettles := @finishLogin_settles svc db₁ now ctx draw user
    rw [hsame.1] at hsettles
    cases device with
    | some d =>
      refine .inr ⟨rfl, ?_⟩
      simp only
      rcases hsettles with ⟨e, herror, husers⟩ | ⟨resp, hok, hid, husers⟩
      · exact .inl ⟨e, by simp only [herror], by simp only [herror]; exact husers⟩
      · exact .inr ⟨resp, by simp only [hok], hid, by simp only [hok]; exact husers⟩
    | none =>
      simp only [loginWithCode, Option.isNone_none, Bool.true_and]
      by_cases hcode : req.totpCode = ""
      · simp only [hcode, if_true, ne_eq, not_true_eq_false, decide_false, Bool.false_and]
        exact .inr ⟨trivial, .inl ⟨_, rfl, hsame.1⟩⟩
      · simp only [hcode, if_false, ne_eq, not_false_eq_true, decide_true, Bool.true_and]
        cases openTOTPSecret svc user.id row with
        | error e => exact .inr ⟨rfl, .inl ⟨e, rfl, hsame.1⟩⟩
        | ok secret =>
          simp only
          cases verifyTOTP svc now secret req.totpCode with
          | false =>
            refine .inl ⟨rfl, ⟨_, rfl⟩, ?_⟩
            rw [← hsame.1]
            rfl
          | true =>
            refine .inr ⟨rfl, ?_⟩
            simp only [if_true]
            split
            · exact hsettles.rememberDevice
            · exact hsettles

/-- What a login writes to the rows of the accounts. -/
theorem login_users (draw : LoginDraw) :
    (∃ u, wrongAttempt svc db now ctx req = some u ∧
        signedIn (login svc db now ctx draw req) = none ∧
        (login svc db now ctx draw req).1.users =
          Table.updateWhere (·.id = u) (User.loginFailed now) db.users) ∨
      (wrongAttempt svc db now ctx req = none ∧
        ((signedIn (login svc db now ctx draw req) = none ∧
            (login svc db now ctx draw req).1.users = db.users) ∨
          ∃ user, loginCompares svc db now ctx req = some user ∧
            signedIn (login svc db now ctx draw req) = some user.id ∧
            (login svc db now ctx draw req).1.users =
              Table.updateWhere (·.id = user.id) User.loginSucceeded db.users)) := by
  simp only [wrongAttempt, loginCompares, login]
  by_cases hbody : req.username = "" ∨ req.password = ""
  · simp only [if_pos hbody]
    exact .inr ⟨trivial, .inl ⟨rfl, trivial⟩⟩
  · simp only [if_neg hbody]
    cases fetchUserForLogin db (svc.toLower req.username) with
    | none => exact .inr ⟨rfl, .inl ⟨rfl, rfl⟩⟩
    | some user =>
      cases hgate : loginGate svc now ctx user with
      | some r =>
        simp only [Option.filter_some, hgate, Option.isNone_some, Bool.false_eq_true, if_false]
        refine .inr ⟨trivial, .inl ⟨rfl, ?_⟩⟩
        exact recordRefusal_users db user r
      | none =>
        simp only [Option.filter_some, hgate, Option.isNone_none, if_true]
        cases checkPassword svc user req.password with
        | error e => exact .inr ⟨rfl, .inl ⟨rfl, rfl⟩⟩
        | ok right =>
          cases right with
          | false => exact .inl ⟨user.id, rfl, rfl, rfl⟩
          | true =>
            simp only
            rcases @loginFactors_users svc db now ctx req draw user with
              ⟨hwrong, ⟨e, herror⟩, husers⟩ | ⟨hwrong, hsettles⟩
            · refine .inl ⟨user.id, by rw [hwrong]; rfl, ?_, husers⟩
              rw [signedIn, herror]
              rfl
            · refine .inr ⟨by rw [hwrong]; rfl, ?_⟩
              rcases hsettles with ⟨e, herror, husers⟩ | ⟨resp, hok, hid, husers⟩
              · exact .inl ⟨by rw [signedIn, herror]; rfl, husers⟩
              · exact .inr ⟨user, rfl, by rw [signedIn, hok]; exact congrArg some hid, husers⟩

theorem loginGate_not_locked {user : User} (h : loginGate svc now ctx user = none) :
    user.isLocked now = false := by
  simp only [loginGate] at h
  split at h
  · cases h
  · split at h
    · cases h
    · split at h
      · cases h
      · split at h
        · cases h
        · split at h
          · cases h
          · next hlock => simpa using hlock

/-- A password is compared for a row that is not locked. -/
theorem loginCompares_eq_some {user : User} (h : loginCompares svc db now ctx req = some user) :
    user ∈ db.users ∧ user.isLocked now = false := by
  simp only [loginCompares] at h
  split at h
  · cases h
  · rw [Option.filter_eq_some_iff, Option.isNone_iff_eq_none] at h
    exact ⟨List.mem_of_find?_eq_some h.1, loginGate_not_locked h.2⟩

theorem wrongAttempt_eq_some {u : Uuid} (h : wrongAttempt svc db now ctx req = some u) :
    ∃ user, loginCompares svc db now ctx req = some user ∧ user.id = u := by
  simp only [wrongAttempt] at h
  cases hcompares : loginCompares svc db now ctx req with
  | none => simp [hcompares] at h
  | some user =>
    refine ⟨user, rfl, ?_⟩
    simp only [hcompares] at h
    split at h
    · cases h
    · exact Option.some.inj h
    · split at h
      · exact Option.some.inj h
      · cases h

end Login

/-! ## One account -/

/-- The primary key of `users`. -/
def UserIdsUnique (db : DB) : Prop := (db.users.map User.id).Nodup

instance (db : DB) : Decidable (UserIdsUnique db) := inferInstanceAs (Decidable (List.Nodup _))

theorem updateWhere_ids {p : User → Bool} {f : User → User} (hf : ∀ r, (f r).id = r.id)
    (users : List User) : (Table.updateWhere p f users).map User.id = users.map User.id := by
  rw [Table.updateWhere, List.map_map]
  apply List.map_congr_left
  intro r _
  simp only [Function.comp_apply]
  split
  · exact hf r
  · rfl

@[simp] theorem loginSucceeded_id (r : User) : r.loginSucceeded.id = r.id := rfl

/-- What a login does to the row of an account: it counts a failure in a row
that is not locked, resets the row, or leaves it. -/
inductive LoginRow (now : Time) (wrong signed : Prop) (row : User) : User → Prop
  | failed (hwrong : wrong) (hsigned : ¬ signed) (hopen : row.isLocked now = false) :
      LoginRow now wrong signed row (row.loginFailed now)
  | succeeded (hwrong : ¬ wrong) (hsigned : signed) (hopen : row.isLocked now = false) :
      LoginRow now wrong signed row row.loginSucceeded
  | kept (hwrong : ¬ wrong) (hsigned : ¬ signed) : LoginRow now wrong signed row row

section Account

variable {svc : Service} {db : DB} {now : Time} {ctx : LoginContext} {req : LoginRequest}

theorem login_userIds (hkeys : UserIdsUnique db) (draw : LoginDraw) :
    UserIdsUnique (login svc db now ctx draw req).1 := by
  rw [UserIdsUnique]
  rcases @login_users svc db now ctx req draw with
    ⟨u, -, -, husers⟩ | ⟨-, ⟨-, husers⟩ | ⟨user, -, -, husers⟩⟩
  · rw [husers, updateWhere_ids (loginFailed_id now)]
    exact hkeys
  · rw [husers]
    exact hkeys
  · rw [husers, updateWhere_ids loginSucceeded_id]
    exact hkeys

/-- The row a login compares for the account is its row, and is not locked. -/
theorem loginCompares_row (hkeys : UserIdsUnique db) {u : Uuid} {row : User}
    (hrow : db.user? u = some row) {user : User}
    (hcompares : loginCompares svc db now ctx req = some user) (hu : user.id = u) :
    user = row ∧ row.isLocked now = false := by
  obtain ⟨hmem, hopen⟩ := loginCompares_eq_some hcompares
  obtain rfl : user = row := Table.eq_of_lookup hkeys hrow hmem hu
  exact ⟨rfl, hopen⟩

theorem login_row (hkeys : UserIdsUnique db) (draw : LoginDraw) {u : Uuid} {row : User}
    (hrow : db.user? u = some row) :
    ∃ row', (login svc db now ctx draw req).1.user? u = some row' ∧
      LoginRow now (wrongAttempt svc db now ctx req = some u)
        (signedIn (login svc db now ctx draw req) = some u) row row' := by
  have hid : row.id = u := (Table.lookup_eq_some hrow).2
  -- the account whose password was compared is the row with its id
  have hunlocked : ∀ user, loginCompares svc db now ctx req = some user → user.id = u →
      row.isLocked now = false :=
    fun user hcompares hu => (loginCompares_row hkeys hrow hcompares hu).2
  have hwrite : ∀ (f : User → User) (v : Uuid), (∀ r, (f r).id = r.id) →
      (login svc db now ctx draw req).1.users = Table.updateWhere (·.id = v) f db.users →
      (login svc db now ctx draw req).1.user? u = some (if u = v then f row else row) := by
    intro f v hf husers
    have hlookup := user?_updateUser db v f hf u
    rw [hrow, Option.map_some, hid] at hlookup
    rw [DB.user?, husers]
    exact hlookup
  rcases @login_users svc db now ctx req draw with
    ⟨v, hwrong, hsigned, husers⟩ | ⟨hwrong, ⟨hsigned, husers⟩ | ⟨user, hcompares, hsigned, husers⟩⟩
  · refine ⟨_, hwrite _ v (loginFailed_id now) husers, ?_⟩
    rw [hwrong, hsigned]
    by_cases hv : u = v
    · subst hv
      obtain ⟨user, hcompares, hu⟩ := wrongAttempt_eq_some hwrong
      rw [if_pos rfl]
      exact .failed rfl (by simp) (hunlocked user hcompares hu)
    · rw [if_neg hv]
      exact .kept (by simpa using Ne.symm hv) (by simp)
  · refine ⟨row, by rw [DB.user?, husers]; exact hrow, ?_⟩
    rw [hwrong, hsigned]
    exact .kept (by simp) (by simp)
  · refine ⟨_, hwrite _ user.id loginSucceeded_id husers, ?_⟩
    rw [hwrong, hsigned]
    by_cases hv : u = user.id
    · rw [if_pos hv]
      exact .succeeded (by simp) (by rw [hv]) (hunlocked user hcompares hv.symm)
    · rw [if_neg hv]
      exact .kept (by simp) (by simpa using Ne.symm hv)

end Account

/-! ## Attempts one after the other -/

structure LoginAttempt where
  now : Time
  ctx : LoginContext
  draw : LoginDraw
  req : LoginRequest

namespace LoginAttempt

variable (svc : Service) (db : DB) (a : LoginAttempt)

def result : DB × Reply LoginResponse := login svc db a.now a.ctx a.draw a.req

/-- A wrong password or a wrong code for this account. -/
def isWrong (u : Uuid) : Prop := wrongAttempt svc db a.now a.ctx a.req = some u

def isSuccess (u : Uuid) : Prop := signedIn (a.result svc db) = some u

instance (u : Uuid) : Decidable (a.isWrong svc db u) := inferInstanceAs (Decidable (_ = _))
instance (u : Uuid) : Decidable (a.isSuccess svc db u) := inferInstanceAs (Decidable (_ = _))

/-- The attempt locks the account from now on. -/
def locks (u : Uuid) : Prop :=
  (db.user? u).all (·.isLocked a.now = false) = true ∧
    ((a.result svc db).1.user? u).any (·.lockedUntil = some (a.now + lockoutDuration)) = true

instance (u : Uuid) : Decidable (a.locks svc db u) := inferInstanceAs (Decidable (_ ∧ _))

end LoginAttempt

/-- The database, and the wrong attempts on an account since its last success or
lock. -/
structure LockoutState where
  db : DB
  wrong : Nat

def LockoutState.step (svc : Service) (u : Uuid) (s : LockoutState) (a : LoginAttempt) :
    LockoutState where
  db := (a.result svc s.db).1
  wrong :=
    if a.isSuccess svc s.db u ∨ a.locks svc s.db u then 0
    else if a.isWrong svc s.db u then s.wrong + 1
    else s.wrong

/-- The row of the account shows the count, which is below the threshold. -/
structure CountShown (u : Uuid) (s : LockoutState) : Prop where
  keys : UserIdsUnique s.db
  row : ∃ row, s.db.user? u = some row ∧ row.failedLoginAttempts = s.wrong
  below : s.wrong < maxFailedLoginAttempts

/-- What one attempt does to an account, from its row to the row after it. -/
structure LockoutRule (svc : Service) (u : Uuid) (s : LockoutState) (a : LoginAttempt)
    (row row' : User) : Prop where
  below : row'.failedLoginAttempts < maxFailedLoginAttempts
  counted : row'.failedLoginAttempts = (s.step svc u a).wrong
  locks_iff : a.locks svc s.db u ↔ a.isWrong svc s.db u ∧ s.wrong + 1 = maxFailedLoginAttempts
  locked : row.isLocked a.now = true → row' = row ∧
    (∀ user, loginCompares svc s.db a.now a.ctx a.req = some user → user.id ≠ u) ∧
    (fetchUserForLogin s.db (svc.toLower a.req.username) = some row → ∀ passwords,
      a.result { svc with passwords } s.db = a.result svc s.db)
  success : a.isSuccess svc s.db u → row'.failedLoginAttempts = 0 ∧ row'.lockedUntil = none
  neither : ¬ a.isWrong svc s.db u → ¬ a.isSuccess svc s.db u → row' = row

section Attempt

variable {svc : Service} {u : Uuid} {s : LockoutState} {a : LoginAttempt} {row row' : User}

theorem lt_add_lockoutDuration (now : Time) : now < now + lockoutDuration :=
  Int.lt_add_of_pos_right now (by decide)

/-- A row that is not locked shows no lock that ends after now. -/
theorem User.lockedUntil_ne {now : Time} (h : row.isLocked now = false) :
    row.lockedUntil ≠ some (now + lockoutDuration) := by
  intro hlock
  have hlt := lt_add_lockoutDuration now
  simp [User.isLocked, hlock, hlt] at h

theorem locks_iff_row (hrow : s.db.user? u = some row)
    (hrow' : (a.result svc s.db).1.user? u = some row') :
    a.locks svc s.db u ↔
      row.isLocked a.now = false ∧ row'.lockedUntil = some (a.now + lockoutDuration) := by
  simp [LoginAttempt.locks, hrow, hrow']

/-- The row after an attempt, with the count of the run. -/
theorem lockout_step (hrow : s.db.user? u = some row) (hcount : row.failedLoginAttempts = s.wrong)
    (hbelow : s.wrong < maxFailedLoginAttempts)
    (hrow' : (a.result svc s.db).1.user? u = some row')
    (h : LoginRow a.now (a.isWrong svc s.db u) (a.isSuccess svc s.db u) row row') :
    row'.failedLoginAttempts = (s.step svc u a).wrong ∧
      (s.step svc u a).wrong < maxFailedLoginAttempts ∧
      (a.locks svc s.db u ↔ a.isWrong svc s.db u ∧ s.wrong + 1 = maxFailedLoginAttempts) := by
  have hlocks := locks_iff_row hrow hrow'
  simp only [LockoutState.step]
  cases h with
  | failed hwrong hsigned hopen =>
    by_cases hfull : s.wrong + 1 = maxFailedLoginAttempts
    · have hfailed : row.loginFailed a.now = { row with
          failedLoginAttempts := 0, lockedUntil := some (a.now + lockoutDuration) } :=
        if_pos (by omega)
      have hlock : a.locks svc s.db u := hlocks.mpr ⟨hopen, by rw [hfailed]⟩
      simp [hlock, hwrong, hfull, hfailed]
      decide
    · have hfailed : row.loginFailed a.now = { row with
          failedLoginAttempts := row.failedLoginAttempts + 1 } := if_neg (by omega)
      have hlock : ¬ a.locks svc s.db u := by
        rw [hlocks, hfailed]
        rintro ⟨-, h⟩
        exact User.lockedUntil_ne hopen h
      simp [hlock, hsigned, hwrong, hfull, hfailed, hcount]
      omega
  | succeeded hwrong hsigned hopen =>
    have hlock : ¬ a.locks svc s.db u := by
      rw [hlocks]
      rintro ⟨-, h⟩
      cases h
    simp [hlock, hwrong, hsigned, User.loginSucceeded]
    decide
  | kept hwrong hsigned =>
    have hlock : ¬ a.locks svc s.db u := by
      rw [hlocks]
      rintro ⟨hopen, h⟩
      exact User.lockedUntil_ne hopen h
    simp [hlock, hwrong, hsigned, hcount, hbelow]

theorem CountShown.step (h : CountShown u s) (a : LoginAttempt) :
    CountShown u (s.step svc u a) := by
  obtain ⟨hkeys, ⟨row, hrow, hcount⟩, hbelow⟩ := h
  obtain ⟨row', hrow', hchange⟩ := @login_row svc s.db a.now a.ctx a.req hkeys a.draw u row hrow
  obtain ⟨hcounted, hlt, -⟩ := lockout_step hrow hcount hbelow hrow' hchange
  exact ⟨login_userIds hkeys a.draw, ⟨row', hrow', hcounted⟩, hlt⟩

/-- A login that names a locked account does not look at the password. -/
theorem not_compares_locked (hkeys : UserIdsUnique s.db) (hrow : s.db.user? u = some row)
    (hlocked : row.isLocked a.now = true) :
    ∀ user, loginCompares svc s.db a.now a.ctx a.req = some user → user.id ≠ u := by
  intro user hcompares hu
  obtain ⟨-, hopen⟩ := loginCompares_row hkeys hrow hcompares hu
  rw [hlocked] at hopen
  cases hopen

theorem CountShown.rule (h : CountShown u s) (a : LoginAttempt) :
    ∃ row row', s.db.user? u = some row ∧ (s.step svc u a).db.user? u = some row' ∧
      LockoutRule svc u s a row row' := by
  obtain ⟨hkeys, ⟨row, hrow, hcount⟩, hbelow⟩ := h
  obtain ⟨row', hrow', hchange⟩ := @login_row svc s.db a.now a.ctx a.req hkeys a.draw u row hrow
  obtain ⟨hcounted, hlt, hlocks⟩ := lockout_step hrow hcount hbelow hrow' hchange
  have hcompares : row.isLocked a.now = true →
      ∀ user, loginCompares svc s.db a.now a.ctx a.req = some user → user.id ≠ u :=
    not_compares_locked hkeys hrow
  refine ⟨row, row', hrow, hrow', hcounted ▸ hlt, hcounted, hlocks, ?_, ?_, ?_⟩
  · intro hlocked
    refine ⟨?_, hcompares hlocked, fun hfetch passwords => ?_⟩
    · cases hchange with
      | failed _ _ hopen => simp [hlocked] at hopen
      | succeeded _ _ hopen => simp [hlocked] at hopen
      | kept _ _ => rfl
    · refine login_of_not_compares ?_ a.draw passwords
      cases hnone : loginCompares svc s.db a.now a.ctx a.req with
      | none => rfl
      | some user =>
        -- the one account a login can compare is the one it names
        have hne := hcompares hlocked user hnone
        simp only [loginCompares, hfetch] at hnone
        split at hnone
        · cases hnone
        · obtain rfl := Option.some.inj (Option.filter_eq_some_iff.mp hnone).1
          exact absurd (Table.lookup_eq_some hrow).2 hne
  · intro hsuccess
    cases hchange with
    | failed _ hsigned _ => exact absurd hsuccess hsigned
    | succeeded _ _ _ => exact ⟨rfl, rfl⟩
    | kept _ hsigned => exact absurd hsuccess hsigned
  · intro hwrong hsigned
    cases hchange with
    | failed hwrong' _ _ => exact absurd hwrong' hwrong
    | succeeded _ hsigned' _ => exact absurd hsigned' hsigned
    | kept _ _ => rfl

end Attempt

/-- Along any sequence of logins the row of an account counts its wrong attempts
since the last success or lock and stays below the threshold, the account is
locked exactly by the attempt that reaches it, a locked account has no password
compared, and a success resets the row. -/
theorem account_lockout (svc : Service) {db : DB} (hkeys : UserIdsUnique db) {u : Uuid}
    {user : User} (huser : db.user? u = some user)
    (hbelow : user.failedLoginAttempts < maxFailedLoginAttempts) (attempts : List LoginAttempt) :
    Runs.Every (LockoutState.step svc u)
      (fun s a => ∃ row row', s.db.user? u = some row ∧
        (s.step svc u a).db.user? u = some row' ∧ LockoutRule svc u s a row row')
      ⟨db, user.failedLoginAttempts⟩ attempts := by
  have hstart : CountShown u ⟨db, user.failedLoginAttempts⟩ := ⟨hkeys, ⟨user, huser, rfl⟩, hbelow⟩
  have hstep : ∀ s a, CountShown u s → CountShown u (LockoutState.step svc u s a) :=
    fun _ a h => h.step a
  exact Runs.every_of_invariant hstep (fun _ a h => h.rule a) hstart attempts

/-- One account, and a login with a wrong password for it. -/
def oneAccount : DB where
  users := [{ sampleUser 1 "ada" with status := .active, passwordHash := [7] }]

def wrongLogin : LoginAttempt where
  now := 0
  ctx := ⟨⟨"", ""⟩, "", none, none⟩
  draw := ⟨Uuid.ofNat 20, "r", Uuid.ofNat 21, []⟩
  req := ⟨"ada", "guess", "", false⟩

theorem account_lockout_guesses :
    Runs.Every (LockoutState.step sampleService (Uuid.ofNat 1))
      (fun s a => ∃ row row', s.db.user? (Uuid.ofNat 1) = some row ∧
        (s.step sampleService (Uuid.ofNat 1) a).db.user? (Uuid.ofNat 1) = some row' ∧
        LockoutRule sampleService (Uuid.ofNat 1) s a row row')
      ⟨oneAccount, 0⟩ (List.replicate maxFailedLoginAttempts wrongLogin) := by
  have hkeys : UserIdsUnique oneAccount := by decide
  have huser : oneAccount.user? (Uuid.ofNat 1) =
      some { sampleUser 1 "ada" with status := .active, passwordHash := [7] } := rfl
  exact account_lockout sampleService hkeys huser (Nat.zero_lt_succ 9) _

end IronStock

import IronStock.Authority
import IronStock.KeypairCalls

/-!
# Who writes key pairs

What each statement does to `user_keypairs`: most leave the table alone, one
adds a placeholder, and three update the row of one user.
-/
namespace IronStock

/-! ## Logins and checks -/

section Frame

variable {svc : Service} {db : DB} {now : Time} {ctx : LoginContext} {draw : LoginDraw}
  {user : User}

theorem finishLogin_userKeypairs :
    (finishLogin svc db now ctx draw user).1.userKeypairs = db.userKeypairs := by
  unfold finishLogin
  split
  · rfl
  · next db' h =>
    obtain ⟨db₁, hcreate, rfl⟩ := openSession_eq_ok h
    obtain ⟨_, _, _, rfl⟩ := createSession_eq_ok.mp hcreate
    rfl

theorem rememberDevice_userKeypairs (r : DB × Reply LoginResponse) :
    (rememberDevice svc now draw user r).1.userKeypairs = r.1.userKeypairs := by
  unfold rememberDevice
  split
  · rfl
  · split
    · rfl
    · next db' hcreate =>
      obtain ⟨rows, rfl⟩ := createTrustedDevice_eq_ok hcreate
      rfl

theorem loginWithCode_userKeypairs (row : TotpSecret) (req : LoginRequest) :
    (loginWithCode svc db now ctx draw user row req).1.userKeypairs = db.userKeypairs := by
  unfold loginWithCode
  split
  · rfl
  · split
    · rfl
    · split
      · simp only
        split
        · rw [rememberDevice_userKeypairs]
          exact finishLogin_userKeypairs
        · exact finishLogin_userKeypairs
      · rfl

theorem verifyTrustedDevice_userKeypairs (u : Uuid) (hash : Option Digest) :
    (verifyTrustedDevice db now u hash).1.userKeypairs = db.userKeypairs := by
  cases hash <;> rfl

theorem loginFactors_userKeypairs (req : LoginRequest) :
    (loginFactors svc db now ctx draw user req).1.userKeypairs = db.userKeypairs := by
  unfold loginFactors
  split
  · exact finishLogin_userKeypairs
  · have hdevice := @verifyTrustedDevice_userKeypairs db now user.id
      (ctx.deviceCookie.bind (hashDeviceToken svc))
    simp only
    split
    · split
      · exact finishLogin_userKeypairs.trans hdevice
      · exact finishLogin_userKeypairs.trans hdevice
    · exact (loginWithCode_userKeypairs _ req).trans hdevice

theorem recordRefusal_userKeypairs (r : LoginRefusal) :
    (db.recordRefusal user r).userKeypairs = db.userKeypairs := by
  have hfold : ∀ (actions : List String) (d : DB), (actions.foldl (fun d action =>
      d.audit ⟨user.id.text, action, "user", user.id.text⟩) d).userKeypairs = d.userKeypairs := by
    intro actions
    induction actions with
    | nil => exact fun _ => rfl
    | cons action rest ih => exact fun d => ih _
  exact hfold r.actions _

/-- A login leaves the key pairs alone. -/
theorem login_userKeypairs (req : LoginRequest) :
    (login svc db now ctx draw req).1.userKeypairs = db.userKeypairs := by
  unfold login
  split
  · rfl
  · split
    · rfl
    · split
      · exact recordRefusal_userKeypairs _
      · split
        · rfl
        · rfl
        · exact loginFactors_userKeypairs req

/-- So do the checks before a change, and they leave everything alone if they
pass. -/
theorem confirmedSubject_userKeypairs (authz : String) (validated : Reply Unit)
    (password : String) :
    (confirmedSubject svc db now authz validated password).1.userKeypairs = db.userKeypairs := by
  unfold confirmedSubject
  split
  · rfl
  · next claims _ =>
    split
    · rfl
    · have hconfirm : (confirmPassword svc db now claims.subject password).1.userKeypairs =
          db.userKeypairs := by
        unfold confirmPassword
        split
        · rfl
        · split <;> rfl
      split <;> simp_all

theorem confirmedSubject_eq_ok {authz password : String} {validated : Reply Unit} {userID : Uuid}
    (h : (confirmedSubject svc db now authz validated password).2 = .ok userID) :
    validated = .ok () ∧
      confirmedSubject svc db now authz validated password = (db, .ok userID) := by
  unfold confirmedSubject at h ⊢
  split at h
  · cases h
  · next claims hauth =>
    split at h
    · cases h
    · split at h
      · cases h
      · next db' hconfirm =>
        cases h
        obtain ⟨rfl, _⟩ := confirmPassword_eq_ok hconfirm
        exact ⟨rfl, by simp⟩

end Frame

/-! ## Updates of one row -/

/-- An update of the row of this user. -/
structure Rewrites (db db' : DB) (userID : Uuid) (publicKey : Option Bytes) (kekParams : String) :
    Prop where
  others : ∀ u, u ≠ userID → db'.keypair? u = db.keypair? u
  absent : db.keypair? userID = none → db'.keypair? userID = none
  own : ∀ k, db.keypair? userID = some k → ∃ k', db'.keypair? userID = some k' ∧
    k'.publicKey = publicKey.getD k.publicKey ∧ k'.kekParams = kekParams ∧
    k'.version = k.version + 1

section Rewrites

variable {svc : Service} {db db' : DB} {now : Time} {userID : Uuid} {publicKey : Option Bytes}
  {privateKeyEnc kekSalt salt : Bytes} {kekParams : String}

theorem UserKeypair.rotate_eq_ok {k k' : UserKeypair} {publicKey : Bytes}
    (h : k.rotate publicKey privateKeyEnc kekSalt kekParams = .ok k') :
    k'.userId = k.userId ∧ k'.publicKey = publicKey ∧ k'.kekParams = kekParams ∧
      k'.version = k.version + 1 := by
  unfold UserKeypair.rotate at h
  split at h
  · split at h
    · cases h
      exact ⟨rfl, rfl, rfl, rfl⟩
    · cases h
  · cases h

theorem rotateKeypair_rewrites
    (h : db.rotateKeypair userID publicKey privateKeyEnc kekSalt kekParams = .ok db') :
    Rewrites db db' userID publicKey kekParams := by
  unfold DB.rotateKeypair at h
  split at h
  · next hnone =>
    cases h
    refine ⟨fun _ _ => rfl, id, fun k hk => ?_⟩
    rw [DB.keypair?, hnone] at hk
    cases hk
  · next k hk =>
    split at h
    · cases h
    · next k' hrotate =>
      cases h
      obtain ⟨hid, hpublic, hparams, hversion⟩ := UserKeypair.rotate_eq_ok hrotate
      have hown : k'.userId = userID := hid.trans (Table.lookup_eq_some hk).2
      refine ⟨fun u hu => Table.lookup_updateWhere_of_ne hown hu _, fun hnone => ?_,
        fun k₁ hk₁ => ?_⟩
      · rw [DB.keypair?, hk] at hnone
        cases hnone
      · have hsame : k = k₁ := by
          rw [DB.keypair?, hk] at hk₁
          exact Option.some.inj hk₁
        subst hsame
        have hany : db.userKeypairs.any (fun x => x.userId = userID) = true := by
          rw [← Table.lookup_isSome, hk]
          rfl
        exact ⟨k', Table.lookup_updateWhere_const hown hany, hpublic, hparams, hversion⟩

/-- Statements on other tables before and after. -/
theorem Rewrites.congr {db₁ db₂ db₁' db₂' : DB} (h : Rewrites db₁ db₁' userID publicKey kekParams)
    (hbefore : db₁.userKeypairs = db₂.userKeypairs)
    (hafter : db₁'.userKeypairs = db₂'.userKeypairs) :
    Rewrites db₂ db₂' userID publicKey kekParams := by
  have hbefore : db₂.keypair? = db₁.keypair? := funext fun u => by
    rw [DB.keypair?, DB.keypair?, hbefore]
  have hafter : db₂'.keypair? = db₁'.keypair? := funext fun u => by
    rw [DB.keypair?, DB.keypair?, hafter]
  refine ⟨?_, ?_, ?_⟩
  · rw [hbefore, hafter]
    exact h.others
  · rw [hbefore, hafter]
    exact h.absent
  · rw [hbefore, hafter]
    exact h.own

theorem storePassword_rewrites {req : ChangePasswordRequest}
    (h : storePassword svc db now userID req salt = .ok db') :
    Rewrites db db' userID none req.newKEKParams := by
  simp only [storePassword, Reply.bind_eq_ok, Reply.orElse_eq_ok, Reply.toOption_eq_some,
    Reply.pure_eq_ok] at h
  obtain ⟨db₁, hrotate, rfl⟩ := h
  exact (rotateKeypair_rewrites hrotate).congr rfl rfl

theorem replaceKeypair_rewrites {req : KeypairInitRequest}
    (h : replaceKeypair db userID req = .ok db') :
    Rewrites db db' userID (some req.newPublicKey) req.newKEKParams := by
  simp only [replaceKeypair, Reply.bind_eq_ok, Reply.orElse_eq_ok, Reply.toOption_eq_some,
    Reply.pure_eq_ok] at h
  obtain ⟨db₁, hrotate, rfl⟩ := h
  exact (rotateKeypair_rewrites hrotate).congr rfl rfl

theorem rotateAll_rewrites {req : RecoverCompleteRequest} {codes : List (Uuid × Bytes)}
    (h : rotateAll svc db now userID req salt codes = .ok db') :
    Rewrites db db' userID (some req.publicKey) req.newKEKParams := by
  simp only [rotateAll, Reply.bind_eq_ok, Reply.orElse_eq_ok, Reply.toOption_eq_some,
    Reply.require_eq_ok, Reply.pure_eq_ok] at h
  obtain ⟨db₁, hrotate, _, _, rfl⟩ := h
  exact (rotateKeypair_rewrites hrotate).congr rfl rfl

/-- A new account comes with the placeholder, and no other key pair changes. -/
theorem provisionUser_eq_ok {actor : Uuid} {user : User} {roles : List Role}
    (h : provisionUser db actor user roles = .ok db') :
    db.keypair? user.id = none ∧
      db'.userKeypairs = db.userKeypairs ++ [placeholderKeypair user.id] := by
  unfold provisionUser at h
  split at h
  · split at h <;> cases h
  · next db₁ huser =>
    simp only [Reply.bind_eq_ok, Reply.orElse_eq_ok, Reply.toOption_eq_some,
      Reply.pure_eq_ok] at h
    obtain ⟨db₂, hkeypair, rfl⟩ := h
    have hsame : db₁.userKeypairs = db.userKeypairs := by
      obtain ⟨_, rfl⟩ := insertUser_eq_ok huser
      rfl
    have hroles : ∀ (d : DB), (roles.foldl (fun db role => db.addUserRole ⟨user.id, role⟩)
        d).userKeypairs = d.userKeypairs := by
      induction roles with
      | nil => exact fun _ => rfl
      | cons role rest ih => exact fun d => ih _
    unfold DB.insertKeypair at hkeypair
    split at hkeypair
    · cases hkeypair
    · next hnew =>
      split at hkeypair
      · cases hkeypair
      · cases hkeypair
        rw [DB.keypair?, hsame] at hnew
        refine ⟨Option.not_isSome_iff_eq_none.mp hnew, ?_⟩
        show DB.userKeypairs (roles.foldl _ _) = _
        rw [hroles]
        exact congrArg (· ++ [placeholderKeypair user.id]) hsame

end Rewrites

/-! ## The effect of a statement -/

/-- What a statement does to the key pairs, and which answers tell. -/
inductive KeypairEffect (s : ResetState) (call : KeypairCall) : KeypairResult → Prop
  | silent {s' : ResetState} {c : KeypairCall ⊕ KeypairAnswer}
      (hkeys : s'.tables.db.userKeypairs = s.tables.db.userKeypairs)
      (hsilent : ∀ userID, c ≠ .inr (.initialised userID))
      (hreset : ∀ reset, c = .inl (.reset reset) → ResetCallOk (.inl reset)) :
      KeypairEffect s call (s', c)
  | provisioned {s' : ResetState} {actor : Uuid} {user : User} {roles : List Role}
      (hcall : call = .provision actor user roles)
      (hnew : s.tables.db.keypair? user.id = none)
      (hkeys : s'.tables.db.userKeypairs =
        s.tables.db.userKeypairs ++ [placeholderKeypair user.id]) :
      KeypairEffect s call (s', .inr (.created user.id))
  | stored {s' : ResetState} {userID : Uuid} {req : ChangePasswordRequest} {salt : Bytes}
      (hcall : call = .storePassword userID req salt)
      (hrewrites : Rewrites s.tables.db s'.tables.db userID none req.newKEKParams) :
      KeypairEffect s call (s', .inr (.passwordChanged userID))
  | replaced {s' : ResetState} {userID : Uuid} {req : KeypairInitRequest}
      (hcall : call = .replaceKeypair userID req)
      (hrewrites : Rewrites s.tables.db s'.tables.db userID (some req.newPublicKey)
        req.newKEKParams) :
      KeypairEffect s call (s', .inr (.initialised userID))
  | rotated {s' : ResetState} {userID : Uuid} {req : RecoverCompleteRequest} {salt : Bytes}
      {codes : List (Uuid × Bytes)} (hcall : call = .rotate userID req salt codes)
      (hrewrites : Rewrites s.tables.db s'.tables.db userID (some req.publicKey)
        req.newKEKParams) :
      KeypairEffect s call (s', .inr (.recovered userID))

namespace KeypairEffect

variable {s : ResetState} {call : KeypairCall}

theorem answered {s' : ResetState} {answer : KeypairAnswer}
    (hkeys : s'.tables.db.userKeypairs = s.tables.db.userKeypairs)
    (hanswer : ∀ userID, answer ≠ .initialised userID) :
    KeypairEffect s call (s', .inr answer) :=
  .silent hkeys (fun userID h => hanswer userID (Sum.inr.inj h)) nofun

theorem failed {s' : ResetState} (hkeys : s'.tables.db.userKeypairs = s.tables.db.userKeypairs)
    (e : ApiError) : KeypairEffect s call (s', .inr (.failed e)) :=
  .answered hkeys (by simp)

theorem goesOn {s' : ResetState} {rest : KeypairCall}
    (hkeys : s'.tables.db.userKeypairs = s.tables.db.userKeypairs)
    (hrest : ∀ reset, rest ≠ .reset reset) : KeypairEffect s call (s', .inl rest) :=
  .silent hkeys nofun fun reset h => absurd (Sum.inl.inj h) (hrest reset)

/-- A transaction that fails leaves the tables alone. -/
theorem commit {s₀ : ResetState} {result : Reply DB} {answer : KeypairAnswer}
    (hsame : s₀.tables = s.tables)
    (h : ∀ db, result = .ok db → KeypairEffect s call (s₀.withDB db, .inr answer)) :
    KeypairEffect s call (s₀.commit result answer) := by
  cases result with
  | error e => exact failed (by rw [hsame]) e
  | ok db => exact h db rfl

theorem goOn {s₀ : ResetState} {checks : DB × Reply Uuid} {rest : Uuid → KeypairCall}
    (hkeys : checks.1.userKeypairs = s.tables.db.userKeypairs)
    (hrest : ∀ userID reset, rest userID ≠ .reset reset) :
    KeypairEffect s call (s₀.goOn checks rest) := by
  obtain ⟨db, _ | userID⟩ := checks
  · exact failed hkeys _
  · exact goesOn hkeys (hrest userID)

end KeypairEffect

theorem KeypairRequest.exec_effect (svc : Service) {s s₀ : ResetState}
    (hsame : s₀.tables = s.tables) (call : KeypairCall) (r : KeypairRequest) :
    KeypairEffect s call (r.exec svc s₀) := by
  have hdb : s₀.tables.db.userKeypairs = s.tables.db.userKeypairs := by rw [hsame]
  cases r with
  | createUser authz req newID salt =>
    simp only [KeypairRequest.exec]
    split
    · exact .failed hdb _
    · exact .failed hdb _
    · exact .goesOn hdb (by simp)
  | login ctx draw req =>
    have hlogin := @login_userKeypairs svc s₀.tables.db s₀.clock ctx draw req
    simp only [KeypairRequest.exec]
    split
    · next heq =>
      rw [heq] at hlogin
      exact .failed (hlogin.trans hdb) _
    · next heq =>
      rw [heq] at hlogin
      exact .answered (hlogin.trans hdb) (by simp)
  | changePassword authz req salt =>
    exact .goOn ((confirmedSubject_userKeypairs ..).trans hdb) (by simp)
  | initKeypair authz req => exact .goOn ((confirmedSubject_userKeypairs ..).trans hdb) (by simp)
  | recoverComplete authz req salt codes => exact .goOn hdb (by simp)
  | resetPassword r =>
    refine .silent hdb (by simp) fun reset h => ?_
    cases h
    trivial

theorem KeypairCall.exec_effect (svc : Service) (kekAlg : String → Option String) (elapsed : Nat)
    (s : ResetState) (call : KeypairCall) (hreset : ∀ reset, call = .reset reset →
      ResetCallOk (.inl reset)) :
    KeypairEffect s call (call.exec svc kekAlg elapsed s) := by
  have htick : (s.tick elapsed).tables = s.tables := rfl
  have hkeys : (s.tick elapsed).tables.db.userKeypairs = s.tables.db.userKeypairs := rfl
  cases call with
  | request r => exact KeypairRequest.exec_effect svc htick _ r
  | provision actor user roles =>
    refine .commit htick fun db hdb => ?_
    obtain ⟨hnew, hkeys⟩ := provisionUser_eq_ok hdb
    exact .provisioned rfl hnew hkeys
  | storePassword userID req salt =>
    exact .commit htick fun db hdb => .stored rfl (storePassword_rewrites hdb)
  | readKEKParams userID req =>
    simp only [KeypairCall.exec]
    split
    · exact .failed hkeys _
    · split
      · exact .goesOn hkeys (by simp)
      · exact .failed hkeys _
  | replaceKeypair userID req =>
    exact .commit htick fun db hdb => .replaced rfl (replaceKeypair_rewrites hdb)
  | rotate userID req salt codes =>
    exact .commit htick fun db hdb => .rotated rfl (rotateAll_rewrites hdb)
  | reset reset =>
    have hok := ResetCall.exec_callOk svc elapsed s (hreset reset rfl)
    have htables := ResetCall.exec_atomic svc elapsed s reset fun token hsucceeds => by
      rw [hsucceeds] at hok
      exact hok
    simp only [KeypairCall.exec]
    cases hresult : (reset.exec svc elapsed s).2 with
    | inl rest =>
      rw [hresult] at hok
      refine .silent (by rw [htables]) (by simp) fun rest' h => ?_
      cases h
      exact hok
    | inr answer => exact .answered (by rw [htables]) (by simp)

end IronStock

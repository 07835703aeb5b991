import IronStock.RecoverCalls

/-!
# When recovery codes are one-shot

A code stays one-shot as long as the `UPDATE` that marks it finds it unused,
and its token as long as it is not presented again once it has been used.
-/
namespace IronStock

open Interleaving

/-! ## What one run promises -/

/-- The answer accepts this code. -/
def acceptsCode (code : Uuid) : RecoverCall ⊕ RecoverAnswer → Bool
  | .inr (.accepted code' _) => code' = code
  | _ => false

/-- The answer ends a recovery that this token authorised. -/
def completesWith (token : String) : RecoverCall ⊕ RecoverAnswer → Bool
  | .inr (.completed token') => token' = token
  | _ => false

structure RecoveryOneShot (s : System RecoverState RecoverCall RecoverAnswer) : Prop where
  codes : ∀ code, s.calls.countP (acceptsCode code) ≤ 1
  completions : ∀ code token, .inr (.accepted code token) ∈ s.calls →
    s.calls.countP (completesWith token) ≤ 1

/-! ## The moves that keep it -/

/-- The writes of `RecoverComplete` go through for this user. -/
def Rotatable (db : DB) (userID : Uuid) : Prop :=
  (db.user? userID).isSome = true ∧
    (Table.lookup UserKeypair.userId userID db.userKeypairs).all (·.version + 1 ≤ 32767) = true

/-- The ids drawn for the codes a call is about to store. -/
def drawnIDs : Option (RecoverCall ⊕ RecoverAnswer) → List Uuid
  | some (.inl (.rotate _ _ _ _ codes)) => codes.map Prod.fst
  | _ => []

/-- The ids of new codes were never those of an accepted one. -/
def DrawsNewCodes (s : System RecoverState RecoverCall RecoverAnswer) :
    Move RecoverRequest Nat → Prop
  | .begin _ => True
  | .advance i _ => ∀ id ∈ drawnIDs s.calls[i]?, s.calls.countP (acceptsCode id) = 0

/-- What a call has to find so that nothing is used twice: the matching code
still unused, the token not yet used. -/
def FindsUnused (s : System RecoverState RecoverCall RecoverAnswer) :
    Option (RecoverCall ⊕ RecoverAnswer) → Prop
  | some (.inl (.markUsed _ code)) =>
    s.shared.db.recoveryCodes.any (fun c => c.id = code ∧ c.usedAt = none) = true
  | some (.inl (.rotate token userID _ _ _)) =>
    Rotatable s.shared.db userID → s.calls.countP (completesWith token) = 0
  | _ => True

def UsesOnce (s : System RecoverState RecoverCall RecoverAnswer) : Move RecoverRequest Nat → Prop
  | .begin _ => True
  | .advance i _ => FindsUnused s s.calls[i]?

instance (db : DB) (userID : Uuid) : Decidable (Rotatable db userID) :=
  inferInstanceAs (Decidable (_ ∧ _))

instance (s : System RecoverState RecoverCall RecoverAnswer) :
    (m : Move RecoverRequest Nat) → Decidable (DrawsNewCodes s m)
  | .begin _ => .isTrue trivial
  | .advance i _ =>
    inferInstanceAs (Decidable (∀ id ∈ drawnIDs s.calls[i]?, s.calls.countP (acceptsCode id) = 0))

instance (s : System RecoverState RecoverCall RecoverAnswer) :
    (c : Option (RecoverCall ⊕ RecoverAnswer)) → Decidable (FindsUnused s c)
  | some (.inl (.markUsed _ _)) => inferInstanceAs (Decidable (_ = true))
  | some (.inl (.rotate _ _ _ _ _)) => inferInstanceAs (Decidable (Rotatable _ _ → _ = 0))
  | some (.inl (.request _)) | some (.inl (.selectCodes _ _)) | some (.inl (.countFailure _))
  | some (.inr _) | none => .isTrue trivial

instance (s : System RecoverState RecoverCall RecoverAnswer) :
    (m : Move RecoverRequest Nat) → Decidable (UsesOnce s m)
  | .begin _ => .isTrue trivial
  | .advance i _ => inferInstanceAs (Decidable (FindsUnused s s.calls[i]?))

/-! ## The statements -/

/-- What a statement does to the codes and answers. -/
inductive RecoverEffect (s : RecoverState) (call : RecoverCall) :
    RecoverState × (RecoverCall ⊕ RecoverAnswer) → Prop
  | silent {s' : RecoverState} {c : RecoverCall ⊕ RecoverAnswer}
      (hcodes : s'.db.recoveryCodes = s.db.recoveryCodes)
      (hsilent : ∀ answer, c = .inr answer → ∃ e, answer = .failed e) :
      RecoverEffect s call (s', c)
  | marked {s' : RecoverState} {userID code : Uuid} {token : String} {now : Time}
      (hcall : call = .markUsed userID code)
      (hcodes : s'.db.recoveryCodes = (s.db.markRecoveryCode now code).recoveryCodes) :
      RecoverEffect s call (s', .inr (.accepted code token))
  | rotated {s' : RecoverState} {token : String} {userID : Uuid} {req : RecoverCompleteRequest}
      {salt : Bytes} {codes : List (Uuid × Bytes)}
      (hcall : call = .rotate token userID req salt codes) (hrotate : Rotatable s.db userID)
      (hcodes : s'.db.recoveryCodes =
        ((s.db.deleteRecoveryCodes userID).addRecoveryCodes userID codes).recoveryCodes) :
      RecoverEffect s call (s', .inr (.completed token))

theorem rotateKeypair_eq_ok {db db' : DB} {userID : Uuid} {publicKey : Option Bytes}
    {privateKeyEnc kekSalt : Bytes} {kekParams : String}
    (h : db.rotateKeypair userID publicKey privateKeyEnc kekSalt kekParams = .ok db') :
    db'.users = db.users ∧ db'.recoveryCodes = db.recoveryCodes ∧
      (Table.lookup UserKeypair.userId userID db.userKeypairs).all (·.version + 1 ≤ 32767) =
        true := by
  unfold DB.rotateKeypair at h
  split at h
  · next hnone =>
    cases h
    exact ⟨rfl, rfl, by rw [hnone]; rfl⟩
  · next k hsome =>
    split at h
    · cases h
    · next k' hrotate =>
      cases h
      refine ⟨rfl, rfl, ?_⟩
      unfold UserKeypair.rotate at hrotate
      split at hrotate
      · split at hrotate
        · next hversion => simpa [hsome] using hversion
        · cases hrotate
      · cases hrotate

theorem rotateAll_eq_ok {svc : Service} {db db' : DB} {now : Time} {userID : Uuid}
    {req : RecoverCompleteRequest} {salt : Bytes} {codes : List (Uuid × Bytes)}
    (h : rotateAll svc db now userID req salt codes = .ok db') :
    Rotatable db userID ∧ db'.recoveryCodes =
      ((db.deleteRecoveryCodes userID).addRecoveryCodes userID codes).recoveryCodes := by
  simp only [rotateAll, Reply.bind_eq_ok, Reply.orElse_eq_ok, Reply.toOption_eq_some,
    Reply.require_eq_ok, Reply.pure_eq_ok] at h
  obtain ⟨db₁, hrotate, _, huser, rfl⟩ := h
  obtain ⟨husers, hcodes, hversion⟩ := rotateKeypair_eq_ok hrotate
  refine ⟨⟨?_, hversion⟩, ?_⟩
  · let f (u : User) : User :=
      { u.withPassword (svc.passwords.hashPassword req.newPassword salt) with status := .active }
    have hsame : db₁.user? userID = (db.updateUser userID f).user? userID := by
      rw [DB.user?, husers, DB.user?]
    rw [hsame, user?_updateUser db userID f (fun _ => rfl), Option.isSome_map] at huser
    exact huser
  · show (Table.deleteWhere _ db₁.recoveryCodes ++ _ : List RecoveryCode) = _
    rw [hcodes]
    rfl

theorem recoverAccount_codes (svc : Service) (db : DB) (now : Time)
    (username recoveryCode : String) :
    (recoverAccount svc db now username recoveryCode).1.recoveryCodes = db.recoveryCodes := by
  unfold recoverAccount
  split
  · rfl
  · split
    · rfl
    · split <;> rfl

theorem RecoverCall.exec_effect (svc : Service) (elapsed : Nat) (s : RecoverState)
    (call : RecoverCall) : RecoverEffect s call (call.exec svc elapsed s) := by
  have hwaits : ∀ rest : RecoverCall, ∀ answer, (.inl rest : RecoverCall ⊕ RecoverAnswer) =
      .inr answer → ∃ e, answer = .failed e := fun _ _ h => by cases h
  have hfails : ∀ e, ∀ answer, (.inr (.failed e) : RecoverCall ⊕ RecoverAnswer) = .inr answer →
      ∃ e, answer = .failed e := fun e _ h => by cases h; exact ⟨e, rfl⟩
  cases call with
  | request r =>
    cases r with
    | init username recoveryCode =>
      have hcodes := recoverAccount_codes svc s.db (s.tick elapsed).clock username recoveryCode
      simp only [RecoverCall.exec, RecoverRequest.exec]
      split
      · next db e heq =>
        rw [show (s.tick elapsed).db = s.db from rfl] at heq
        exact .silent (by rw [← hcodes, heq]) (hfails e)
      · next db userID heq =>
        rw [show (s.tick elapsed).db = s.db from rfl] at heq
        exact .silent (by rw [← hcodes, heq]) (hwaits _)
    | complete authz req salt codes =>
      simp only [RecoverCall.exec, RecoverRequest.exec]
      split
      · exact .silent rfl (hfails _)
      · exact .silent rfl (hwaits _)
  | selectCodes userID recoveryCode =>
    simp only [RecoverCall.exec]
    split <;> exact .silent rfl (hwaits _)
  | countFailure userID => exact .silent rfl (hfails _)
  | markUsed userID code =>
    simp only [RecoverCall.exec, issueTmp_recovery]
    exact .marked rfl rfl
  | rotate token userID req salt codes =>
    simp only [RecoverCall.exec]
    split
    · exact .silent rfl (hfails _)
    · next hrotate =>
      obtain ⟨hrotatable, hcodes⟩ := rotateAll_eq_ok hrotate
      exact .rotated rfl hrotatable hcodes

/-! ## The runs -/

structure RecoverSystemOk (s : System RecoverState RecoverCall RecoverAnswer) : Prop where
  used : ∀ code token, .inr (.accepted code token) ∈ s.calls →
    ∀ c ∈ s.shared.db.recoveryCodes, c.id = code → c.usedAt ≠ none
  codes : ∀ code, s.calls.countP (acceptsCode code) ≤ 1
  completions : ∀ token, s.calls.countP (completesWith token) ≤ 1

/-- A stored state in which no request has been made. -/
def recoverStart (s : RecoverState) : System RecoverState RecoverCall RecoverAnswer := ⟨s, []⟩

theorem recoverStart_ok (s : RecoverState) : RecoverSystemOk (recoverStart s) :=
  ⟨fun _ _ hmem => (by cases hmem), fun _ => Nat.zero_le 1, fun _ => Nat.zero_le 1⟩

section Step

variable {s : System RecoverState RecoverCall RecoverAnswer}

/-- A code that is not counted has not been accepted. -/
theorem not_mem_of_countP_acceptsCode {code : Uuid} (h : s.calls.countP (acceptsCode code) = 0)
    (token : String) : .inr (.accepted code token) ∉ s.calls := fun hmem =>
  List.countP_eq_zero.mp h _ hmem (by simp [acceptsCode])

/-- An unused code has not been accepted. -/
theorem RecoverSystemOk.countP_eq_zero (h : RecoverSystemOk s) {c : RecoveryCode}
    (hc : c ∈ s.shared.db.recoveryCodes) (hunused : c.usedAt = none) :
    s.calls.countP (acceptsCode c.id) = 0 := by
  refine List.countP_eq_zero.mpr fun answer hanswer haccepts => ?_
  match answer, hanswer, haccepts with
  | .inr (.accepted code token), hmem, haccepts =>
    have heq : code = c.id := by simpa [acceptsCode] using haccepts
    exact h.used code token hmem c hc heq.symm hunused

/-- A statement of a call, given what it does. -/
theorem RecoverSystemOk.put (h : RecoverSystemOk s) {i : Nat} {call : RecoverCall}
    (hcall : s.calls[i]? = some (.inl call)) (hfinds : FindsUnused s (some (.inl call)))
    (hnew : ∀ id ∈ drawnIDs (some (.inl call)), s.calls.countP (acceptsCode id) = 0)
    {r : RecoverState × (RecoverCall ⊕ RecoverAnswer)} (heffect : RecoverEffect s.shared call r) :
    RecoverSystemOk (s.put i r) := by
  cases heffect with
  | @silent s' c hcodes hsilent =>
    have hnone : (∀ code, acceptsCode code c = false) ∧ ∀ token, completesWith token c = false := by
      cases c with
      | inl call => exact ⟨fun _ => rfl, fun _ => rfl⟩
      | inr answer =>
        obtain ⟨e, rfl⟩ := hsilent answer rfl
        exact ⟨fun _ => rfl, fun _ => rfl⟩
    refine ⟨fun code token hmem => ?_, fun code => ?_, fun token => ?_⟩
    · rcases List.mem_or_eq_of_mem_set hmem with hmem | rfl
      · rw [System.put_shared, hcodes]
        exact h.used code token hmem
      · have haccepts := hnone.1 code
        simp [acceptsCode] at haccepts
    · exact Program.countP_set_le_one hcall (h.codes code) (by simp [hnone.1])
    · exact Program.countP_set_le_one hcall (h.completions token) (by simp [hnone.2])
  | @marked s' userID code token now heq hcodes =>
    subst heq
    simp only [FindsUnused, List.any_eq_true, decide_eq_true_eq] at hfinds
    obtain ⟨c₀, hc₀, rfl, hunused⟩ := hfinds
    have hfirst := h.countP_eq_zero hc₀ hunused
    refine ⟨fun code' token' hmem c hc hid => ?_, fun code' => ?_, fun token' => ?_⟩
    · rw [System.put_shared, hcodes] at hc
      obtain ⟨c₁, hc₁, rfl⟩ := Table.mem_updateWhere.mp hc
      by_cases hmark : c₁.id = c₀.id ∧ c₁.usedAt = none
      · simp [hmark]
      · simp only [decide_eq_true_eq, if_neg hmark] at hid ⊢
        rcases List.mem_or_eq_of_mem_set hmem with hmem | heq
        · exact h.used code' token' hmem c₁ hc₁ hid
        · cases heq
          exact fun hnone => hmark ⟨hid, hnone⟩
    · refine Program.countP_set_le_one hcall (h.codes code') fun haccepts => ?_
      obtain rfl : c₀.id = code' := by simpa [acceptsCode] using haccepts
      exact hfirst
    · exact Program.countP_set_le_one hcall (h.completions token') nofun
  | @rotated s' token userID req salt codes heq hrotate hcodes =>
    subst heq
    have hfirst := hfinds hrotate
    refine ⟨fun code token' hmem c hc hid => ?_, fun code => ?_, fun token' => ?_⟩
    · have hold : .inr (.accepted code token') ∈ s.calls := by
        rcases List.mem_or_eq_of_mem_set hmem with hmem | heq
        · exact hmem
        · cases heq
      rw [System.put_shared, hcodes] at hc
      rcases List.mem_append.mp hc with hc | hc
      · exact h.used code token' hold c (Table.mem_deleteWhere.mp hc).1 hid
      · obtain ⟨new, hdrawn, rfl⟩ := List.mem_map.mp hc
        have hid : new.1 = code := hid
        have hzero := hnew new.1 (List.mem_map_of_mem hdrawn)
        exact absurd (hid ▸ hold) (not_mem_of_countP_acceptsCode hzero token')
    · exact Program.countP_set_le_one hcall (h.codes code) nofun
    · refine Program.countP_set_le_one hcall (h.completions token') fun hcompletes => ?_
      obtain rfl : token = token' := by simpa [completesWith] using hcompletes
      exact hfirst

theorem RecoverSystemOk.step (svc : Service) (h : RecoverSystemOk s) (m : Move RecoverRequest Nat)
    (hnew : DrawsNewCodes s m) (huses : UsesOnce s m) :
    RecoverSystemOk ((recoverHandlers svc).step s m) := by
  obtain ⟨r, _, hstep⟩ | ⟨i, elapsed, call, rfl, hcall, hstep⟩ | hstep :=
    (recoverHandlers svc).step_cases s m
  · rw [hstep]
    refine ⟨fun code token hmem => ?_, fun code => ?_, fun token => ?_⟩
    · rcases List.mem_append.mp hmem with hmem | hmem
      · exact h.used code token hmem
      · cases List.mem_singleton.mp hmem
    · rw [List.countP_append]
      exact h.codes code
    · rw [List.countP_append]
      exact h.completions token
  · rw [hstep]
    have heffect := RecoverCall.exec_effect svc elapsed s.shared call
    simp only [UsesOnce, DrawsNewCodes, hcall] at huses hnew
    exact h.put hcall huses hnew heffect
  · rw [hstep]
    exact h

theorem RecoverSystemOk.oneShot (h : RecoverSystemOk s) : RecoveryOneShot s :=
  ⟨h.codes, fun _ token _ => h.completions token⟩

end Step

/-- A service whose signer knows one recovery token. -/
def recoverService : Service :=
  { sampleService with
    jwt := sampleSigner [(0, "tmp", ⟨⟨Uuid.ofNat 1, []⟩, purposeRecovery, ""⟩)] }

/-- One account with one code. -/
def recoverDB : DB where
  users := [sampleUser 1 "ada"]
  recoveryCodes := [⟨Uuid.ofNat 9, Uuid.ofNat 1,
    samplePasswordHasher.hashRecoveryCode "code" (List.replicate 16 0), none⟩]

def recoverReq : RecoverCompleteRequest where
  newPassword := "a new password"
  publicKey := List.replicate 32 7
  newPrivateKeyEnc := [7]
  newKEKSalt := List.replicate 16 7
  newKEKParams := "\x7b\"alg\":\"argon2id\"\x7d"

def completeMove (id : Nat) : Move RecoverRequest Nat :=
  .begin (.complete "Bearer tmp" recoverReq (List.replicate 16 0) [(Uuid.ofNat id, [])])

/-- The statements of the call at this place. -/
def statements (i n : Nat) : List (Move RecoverRequest Nat) := List.replicate n (.advance i 0)

/-- Both requests read the codes before either marks one. -/
def raceRun : List (Move RecoverRequest Nat) :=
  [.begin (.init "ada" "code"), .begin (.init "ada" "code")] ++ statements 0 2 ++ statements 1 3 ++
    statements 0 1

/-- The token of one code completes two recoveries. -/
def replayRun : List (Move RecoverRequest Nat) :=
  .begin (.init "ada" "code") :: statements 0 3 ++ completeMove 10 :: statements 1 2 ++
    completeMove 11 :: statements 2 2

/-- A recovery in two requests. -/
def recoverRun : List (Move RecoverRequest Nat) :=
  .begin (.init "ada" "code") :: statements 0 3 ++ completeMove 10 :: statements 1 2

end IronStock

import IronStock.KeypairWrites

/-!
# The life of a key pair

A placeholder stays one, in both columns that say so, until the first
`InitKeypair`, and is none from then on, as long as no statement writes one
column without the other and the row is replaced as it was read.
-/
namespace IronStock

open Interleaving

/-! ## What is promised -/

/-- The answer to an `InitKeypair` of this user that succeeded. -/
def initialisedFor (userID : Uuid) : KeypairCall ⊕ KeypairAnswer → Bool
  | .inr (.initialised userID') => userID' = userID
  | _ => false

def KeypairCall.isInit : KeypairCall → Bool
  | .request (.initKeypair _ _) | .readKEKParams _ _ | .replaceKeypair _ _ => true
  | _ => false

section Promises

variable (svc : Service) (kekAlg : String → Option String)

/-- An `InitKeypair` of a user whose public key is still the placeholder stores
the key pair, if token, body and password are in order. -/
def FirstInitAccepted (s : ResetState) : Prop :=
  ∀ userID k authz req, s.tables.db.keypair? userID = some k →
    k.publicKey = placeholderPublicKey →
    (confirmedSubject svc s.tables.db s.clock authz (validateKeypairInit req)
      req.currentPassword).2 = .ok userID →
    ∃ s', (keypairHandlers svc kekAlg).alone 0 3 s (.request (.initKeypair authz req)) =
        (s', .inr (.initialised userID)) ∧
      (s'.tables.db.keypair? userID).map UserKeypair.publicKey = some req.newPublicKey

/-- Whoever has the placeholder for a public key can start. -/
structure PlaceholdersOpen (s : KeypairSystem) : Prop where
  params : ∀ userID k, s.shared.tables.db.keypair? userID = some k →
    k.publicKey = placeholderPublicKey → k.isPlaceholder kekAlg = true
  accepted : FirstInitAccepted svc kekAlg s.shared

/-- No statement of an `InitKeypair` replaces the public key of a user for whom
one has succeeded. -/
def InitKeepsKey (s : KeypairSystem) (m : Move KeypairRequest Nat) : Prop :=
  ∀ i elapsed call userID, m = .advance i elapsed → s.calls[i]? = some (.inl call) →
    call.isInit = true → s.calls.any (initialisedFor userID) = true →
    (((keypairHandlers svc kekAlg).step s m).shared.tables.db.keypair? userID).map
        UserKeypair.publicKey =
      (s.shared.tables.db.keypair? userID).map UserKeypair.publicKey

end Promises

/-! ## The moves that keep it -/

section Moves

variable (kekAlg : String → Option String)

/-- What may be written over the row of this user by a change of password or a
recovery: where it leaves the placeholder for a public key, parameters that say
so, with a version to spare, and none such once `InitKeypair` has succeeded. -/
def KeepsOpen (s : KeypairSystem) (userID : Uuid) (publicKey : Option Bytes)
    (kekParams : String) : Prop :=
  ((s.shared.tables.db.keypair? userID).all fun k =>
    publicKey.getD k.publicKey = placeholderPublicKey →
      kekAlg kekParams = some "none" ∧ k.version + 1 < 32767) = true ∧
  (s.calls.any (initialisedFor userID) = true → kekAlg kekParams ≠ some "none")

/-- What the `UPDATE` of `InitKeypair` has to find and to write: the placeholder
that was read, or the key it writes; and neither the placeholder nor parameters
that say so. -/
def InitsOnce (s : KeypairSystem) (userID : Uuid) (req : KeypairInitRequest) : Prop :=
  ((s.shared.tables.db.keypair? userID).any fun k =>
    k.isPlaceholder kekAlg || req.newPublicKey = k.publicKey) = true ∧
  req.newPublicKey ≠ placeholderPublicKey ∧ kekAlg req.newKEKParams ≠ some "none"

def KeepsStatement (s : KeypairSystem) : Option (KeypairCall ⊕ KeypairAnswer) → Prop
  | some (.inl (.storePassword userID req _)) => KeepsOpen kekAlg s userID none req.newKEKParams
  | some (.inl (.rotate userID req _ _)) =>
    KeepsOpen kekAlg s userID (some req.publicKey) req.newKEKParams
  | some (.inl (.replaceKeypair userID req)) => InitsOnce kekAlg s userID req
  | _ => True

def KeepsLifecycle (s : KeypairSystem) : Move KeypairRequest Nat → Prop
  | .begin _ => True
  | .advance i _ => KeepsStatement kekAlg s s.calls[i]?

instance (s : KeypairSystem) (userID : Uuid) (publicKey : Option Bytes) (kekParams : String) :
    Decidable (KeepsOpen kekAlg s userID publicKey kekParams) :=
  inferInstanceAs (Decidable (_ ∧ (_ → _ ≠ _)))

instance (s : KeypairSystem) (userID : Uuid) (req : KeypairInitRequest) :
    Decidable (InitsOnce kekAlg s userID req) :=
  inferInstanceAs (Decidable (_ ∧ _ ≠ _ ∧ _ ≠ _))

instance (s : KeypairSystem) :
    (c : Option (KeypairCall ⊕ KeypairAnswer)) → Decidable (KeepsStatement kekAlg s c)
  | some (.inl (.storePassword _ _ _)) => inferInstanceAs (Decidable (KeepsOpen ..))
  | some (.inl (.rotate _ _ _ _)) => inferInstanceAs (Decidable (KeepsOpen ..))
  | some (.inl (.replaceKeypair _ _)) => inferInstanceAs (Decidable (InitsOnce ..))
  | some (.inl (.request _)) | some (.inl (.provision _ _ _)) | some (.inl (.readKEKParams _ _))
  | some (.inl (.reset _)) | some (.inr _) | none => .isTrue trivial

instance (s : KeypairSystem) :
    (m : Move KeypairRequest Nat) → Decidable (KeepsLifecycle kekAlg s m)
  | .begin _ => .isTrue trivial
  | .advance i _ => inferInstanceAs (Decidable (KeepsStatement kekAlg s s.calls[i]?))

end Moves

/-! ## The invariant -/

section Invariant

variable {svc : Service} {kekAlg : String → Option String}

/-- A stored placeholder is one in both columns, with a version to spare. -/
def PlaceholdersReady (kekAlg : String → Option String) (db : DB) : Prop :=
  ∀ userID k, db.keypair? userID = some k → k.publicKey = placeholderPublicKey →
    k.isPlaceholder kekAlg = true ∧ k.version < 32767

structure KeypairsOk (kekAlg : String → Option String) (s : KeypairSystem) : Prop where
  ready : PlaceholdersReady kekAlg s.shared.tables.db
  closed : ∀ userID, s.calls.any (initialisedFor userID) = true →
    ∃ k, s.shared.tables.db.keypair? userID = some k ∧ k.isPlaceholder kekAlg = false
  resets : ∀ reset, .inl (.reset reset) ∈ s.calls → ResetCallOk (.inl reset)

/-- Stored tables under which no request has been made. -/
def keypairStart (s : ResetState) : KeypairSystem := ⟨s, []⟩

theorem keypairStart_ok {s : ResetState} (h : PlaceholdersReady kekAlg s.tables.db) :
    KeypairsOk kekAlg (keypairStart s) :=
  ⟨h, nofun, nofun⟩

theorem initialisedFor_iff {userID : Uuid} {c : KeypairCall ⊕ KeypairAnswer} :
    initialisedFor userID c = true ↔ c = .inr (.initialised userID) := by
  cases c with
  | inl call => simp [initialisedFor]
  | inr answer => cases answer <;> simp [initialisedFor]

/-- Who has succeeded after one more result. -/
theorem any_initialisedFor_set {calls : List (KeypairCall ⊕ KeypairAnswer)} {i : Nat}
    {c : KeypairCall ⊕ KeypairAnswer} {userID : Uuid}
    (h : (calls.set i c).any (initialisedFor userID) = true) :
    calls.any (initialisedFor userID) = true ∨ c = .inr (.initialised userID) := by
  obtain ⟨c', hmem, hc'⟩ := List.any_eq_true.mp h
  rcases List.mem_or_eq_of_mem_set hmem with hmem | rfl
  · exact .inl (List.any_eq_true.mpr ⟨c', hmem, hc'⟩)
  · exact .inr (initialisedFor_iff.mp hc')

theorem placeholderKeypair_ready (hplaceholder : kekAlg placeholderKEKParams = some "none")
    (userID : Uuid) : (placeholderKeypair userID).isPlaceholder kekAlg = true := by
  simp [UserKeypair.isPlaceholder, placeholderKeypair, hplaceholder]

variable {s : KeypairSystem} {userID : Uuid} {publicKey : Option Bytes} {kekParams : String}

/-- An update that keeps what a placeholder says keeps it for every user. -/
theorem Rewrites.ready {db' : DB}
    (h : Rewrites s.shared.tables.db db' userID publicKey kekParams)
    (hready : PlaceholdersReady kekAlg s.shared.tables.db)
    (hown : ∀ k, s.shared.tables.db.keypair? userID = some k →
      publicKey.getD k.publicKey = placeholderPublicKey →
      kekAlg kekParams = some "none" ∧ k.version + 1 < 32767) : PlaceholdersReady kekAlg db' := by
  intro u k' hk' hzero
  by_cases hu : u = userID
  · subst hu
    cases hk : s.shared.tables.db.keypair? u with
    | none =>
      rw [h.absent hk] at hk'
      cases hk'
    | some k =>
      obtain ⟨k₁, hk₁, hpublic, hparams, hversion⟩ := h.own k hk
      obtain rfl := Option.some.inj (hk₁.symm.trans hk')
      obtain ⟨halg, hspare⟩ := hown k hk (hpublic.symm.trans hzero)
      exact ⟨by simp [UserKeypair.isPlaceholder, hparams, halg], hversion ▸ hspare⟩
  · rw [h.others u hu] at hk'
    exact hready u k' hk' hzero

/-- An update that does not bring the placeholder back keeps who has started. -/
theorem Rewrites.closed {db' : DB} {u : Uuid}
    (h : Rewrites s.shared.tables.db db' userID publicKey kekParams)
    (hu : ∃ k, s.shared.tables.db.keypair? u = some k ∧
      (u = userID ∨ k.isPlaceholder kekAlg = false))
    (hparams : u = userID → kekAlg kekParams ≠ some "none") :
    ∃ k, db'.keypair? u = some k ∧ k.isPlaceholder kekAlg = false := by
  obtain ⟨k, hk, hclosed⟩ := hu
  by_cases hown : u = userID
  · subst hown
    obtain ⟨k', hk', _, hparams', _⟩ := h.own k hk
    refine ⟨k', hk', ?_⟩
    simpa [UserKeypair.isPlaceholder, hparams'] using hparams rfl
  · exact ⟨k, (h.others u hown).trans hk, hclosed.resolve_left hown⟩

/-- The resets that go on after one more result. -/
theorem KeypairsOk.resets_set (h : KeypairsOk kekAlg s) {i : Nat}
    {c : KeypairCall ⊕ KeypairAnswer}
    (hc : ∀ reset, c = .inl (.reset reset) → ResetCallOk (.inl reset)) (reset : ResetCall)
    (hmem : .inl (.reset reset) ∈ s.calls.set i c) : ResetCallOk (.inl reset) := by
  rcases List.mem_or_eq_of_mem_set hmem with hmem | heq
  · exact h.resets reset hmem
  · exact hc reset heq.symm

/-- Who has succeeded before a result that tells of nobody. -/
theorem KeypairsOk.closed_set (h : KeypairsOk kekAlg s) {i : Nat}
    {c : KeypairCall ⊕ KeypairAnswer} {u : Uuid} (hc : c ≠ .inr (.initialised u))
    (hany : (s.calls.set i c).any (initialisedFor u) = true) :
    s.calls.any (initialisedFor u) = true ∧
      ∃ k, s.shared.tables.db.keypair? u = some k ∧ k.isPlaceholder kekAlg = false := by
  have hbefore := (any_initialisedFor_set hany).resolve_right hc
  exact ⟨hbefore, h.closed u hbefore⟩

/-- A statement that updates a row as it may. -/
theorem KeypairsOk.rewrite (h : KeypairsOk kekAlg s)
    (hkeeps : KeepsOpen kekAlg s userID publicKey kekParams) {s' : ResetState}
    (hrewrites : Rewrites s.shared.tables.db s'.tables.db userID publicKey kekParams) {i : Nat}
    {answer : KeypairAnswer} (hanswer : ∀ u, answer ≠ .initialised u) :
    KeypairsOk kekAlg (s.put i (s', .inr answer)) := by
  obtain ⟨hplaceholder, hclosed⟩ := hkeeps
  refine ⟨hrewrites.ready h.ready fun k hk hzero => ?_, fun u hany => ?_, h.resets_set nofun⟩
  · rw [hk] at hplaceholder
    simpa using (decide_eq_true_eq.mp hplaceholder) hzero
  · obtain ⟨hbefore, k, hk, hno⟩ := h.closed_set (fun heq => hanswer u (Sum.inr.inj heq)) hany
    exact hrewrites.closed ⟨k, hk, .inr hno⟩ fun hu => hclosed (hu ▸ hbefore)

/-- A statement of a call, given what it does. -/
theorem KeypairsOk.put (hplaceholder : kekAlg placeholderKEKParams = some "none")
    (h : KeypairsOk kekAlg s) {i : Nat} {call : KeypairCall}
    (hkeeps : KeepsStatement kekAlg s (some (.inl call))) {r : KeypairResult}
    (heffect : KeypairEffect s.shared call r) : KeypairsOk kekAlg (s.put i r) := by
  cases heffect with
  | @silent s' c hkeys hsilent hreset =>
    have hsame : s'.tables.db.keypair? = s.shared.tables.db.keypair? := funext fun u => by
      rw [DB.keypair?, DB.keypair?, hkeys]
    refine ⟨?_, fun u hany => ?_, h.resets_set hreset⟩
    · intro u k
      rw [System.put_shared, hsame]
      exact h.ready u k
    · rw [System.put_shared, hsame]
      exact (h.closed_set (hsilent u) hany).2
  | @provisioned s' actor user roles hcall hnew hkeys =>
    have hlookup : ∀ u, s'.tables.db.keypair? u = (s.shared.tables.db.keypair? u).or
        (if user.id = u then some (placeholderKeypair user.id) else none) := fun u => by
      rw [DB.keypair?, hkeys, Table.lookup_append]
      rfl
    refine ⟨fun u k hk hzero => ?_, fun u hany => ?_, h.resets_set (by simp)⟩
    · rw [System.put_shared, hlookup] at hk
      cases hold : s.shared.tables.db.keypair? u with
      | some k₀ =>
        rw [hold, Option.some_or] at hk
        exact h.ready u k (hold.trans hk) hzero
      | none =>
        rw [hold, Option.none_or] at hk
        split at hk
        · obtain rfl := Option.some.inj hk
          exact ⟨placeholderKeypair_ready hplaceholder _, show (1 : Int) < 32767 by decide⟩
        · cases hk
    · have hother : (.inr (.created user.id) : KeypairCall ⊕ KeypairAnswer) ≠
          .inr (.initialised u) := by simp
      obtain ⟨_, k, hk, hno⟩ := h.closed_set hother hany
      exact ⟨k, by rw [System.put_shared, hlookup, hk, Option.some_or], hno⟩
  | stored hcall hrewrites =>
    subst hcall
    exact h.rewrite hkeeps hrewrites (by simp)
  | rotated hcall hrewrites =>
    subst hcall
    exact h.rewrite hkeeps hrewrites (by simp)
  | @replaced s' userID req hcall hrewrites =>
    subst hcall
    obtain ⟨hrow, hnonzero, hparams⟩ := hkeeps
    obtain ⟨k₀, hk₀, _⟩ := (Option.any_eq_true _ _).mp hrow
    refine ⟨hrewrites.ready h.ready fun k _ hzero => absurd hzero hnonzero, fun u hany => ?_,
      h.resets_set (by simp)⟩
    refine hrewrites.closed ?_ fun _ => hparams
    rcases any_initialisedFor_set hany with hany | heq
    · obtain ⟨k, hk, hno⟩ := h.closed u hany
      exact ⟨k, hk, .inr hno⟩
    · cases heq
      exact ⟨k₀, hk₀, .inl rfl⟩

theorem KeypairsOk.step (svc : Service) (hplaceholder : kekAlg placeholderKEKParams = some "none")
    (h : KeypairsOk kekAlg s) (m : Move KeypairRequest Nat) (hm : KeepsLifecycle kekAlg s m) :
    KeypairsOk kekAlg ((keypairHandlers svc kekAlg).step s m) := by
  obtain ⟨r, _, hstep⟩ | ⟨i, elapsed, call, rfl, hcall, hstep⟩ | hstep :=
    (keypairHandlers svc kekAlg).step_cases s m
  · rw [hstep]
    refine ⟨h.ready, fun u hany => ?_, fun reset hmem => ?_⟩
    · rw [List.any_append, Bool.or_eq_true] at hany
      exact h.closed u (hany.resolve_right nofun)
    · rcases List.mem_append.mp hmem with hmem | hmem
      · exact h.resets reset hmem
      · cases List.mem_singleton.mp hmem
  · rw [hstep]
    simp only [KeepsLifecycle, hcall] at hm
    have hreset : ∀ reset, call = .reset reset → ResetCallOk (.inl reset) := fun reset heq =>
      h.resets reset (heq ▸ List.mem_of_getElem? hcall)
    exact h.put hplaceholder hm (KeypairCall.exec_effect svc kekAlg elapsed s.shared call hreset)
  · rw [hstep]
    exact h

end Invariant

/-! ## What the invariant gives -/

section Runs

variable {svc : Service} {kekAlg : String → Option String}

/-- The `UPDATE` of `InitKeypair` finds a row and passes the checks of the table. -/
theorem replaceKeypair_ok {db : DB} {userID : Uuid} {req : KeypairInitRequest} {k : UserKeypair}
    (hk : db.keypair? userID = some k) (hspare : k.version < 32767)
    (hreq : validateKeypairInit req = .ok ()) :
    ∃ db', replaceKeypair db userID req = .ok db' ∧
      (db'.keypair? userID).map UserKeypair.publicKey = some req.newPublicKey := by
  simp only [validateKeypairInit, Reply.bind_eq_ok, Reply.require_eq_ok, exists_and_left,
    exists_const] at hreq
  obtain ⟨_, hpublic, hprivate, hsalt, _⟩ := hreq
  have hlengths : req.newPublicKey.length = 32 ∧ 0 < req.newPrivateKeyEnc.length ∧
      16 ≤ req.newKEKSalt.length := ⟨hpublic, Nat.pos_of_ne_zero hprivate, hsalt⟩
  have hversion : k.version + 1 ≤ 32767 := hspare
  obtain ⟨k', hrotate⟩ : ∃ k', k.rotate req.newPublicKey req.newPrivateKeyEnc req.newKEKSalt
      req.newKEKParams = .ok k' := by
    simp only [UserKeypair.rotate, dif_pos hlengths, if_pos hversion]
    exact ⟨_, rfl⟩
  obtain ⟨db', hdb'⟩ : ∃ db', replaceKeypair db userID req = .ok db' := by
    rw [DB.keypair?] at hk
    simp only [replaceKeypair, DB.rotateKeypair, hk, Option.getD_some, hrotate]
    exact ⟨_, rfl⟩
  obtain ⟨k₁, hk₁, hkey, _⟩ := (replaceKeypair_rewrites hdb').own k hk
  exact ⟨db', hdb', by rw [hk₁, Option.map_some, hkey]; rfl⟩

theorem PlaceholdersReady.accepted {s : ResetState} (h : PlaceholdersReady kekAlg s.tables.db) :
    FirstInitAccepted svc kekAlg s := by
  intro userID k authz req hk hzero hchecks
  obtain ⟨hplaceholder, hspare⟩ := h userID k hk hzero
  obtain ⟨hreq, hsubject⟩ := confirmedSubject_eq_ok hchecks
  obtain ⟨db', hreplace, hkey⟩ := replaceKeypair_ok hk hspare hreq
  refine ⟨s.withDB db', ?_, hkey⟩
  simp only [Program.alone, keypairHandlers, KeypairCall.exec, KeypairRequest.exec,
    ResetState.tick_zero, hsubject, ResetState.goOn, ResetState.withDB, hk, hplaceholder, if_true,
    hreplace, ResetState.commit]

variable {s : KeypairSystem}

theorem KeypairsOk.placeholdersOpen (h : KeypairsOk kekAlg s) : PlaceholdersOpen svc kekAlg s :=
  ⟨fun userID k hk hzero => (h.ready userID k hk hzero).1, h.ready.accepted⟩

theorem KeypairsOk.initKeepsKey (svc : Service) (h : KeypairsOk kekAlg s)
    (m : Move KeypairRequest Nat) (hm : KeepsLifecycle kekAlg s m) :
    InitKeepsKey svc kekAlg s m := by
  rintro i elapsed call userID rfl hcall hinit hdone
  have hreset : ∀ reset, call = .reset reset → ResetCallOk (.inl reset) := fun reset heq => by
    subst heq
    cases hinit
  have heffect := KeypairCall.exec_effect svc kekAlg elapsed s.shared call hreset
  simp only [KeepsLifecycle, hcall] at hm
  have hstep : (keypairHandlers svc kekAlg).step s (.advance i elapsed) =
      s.put i (call.exec svc kekAlg elapsed s.shared) := by
    simp only [Program.step, hcall]
    rfl
  rw [hstep]
  generalize call.exec svc kekAlg elapsed s.shared = r at heffect
  cases heffect with
  | silent hkeys _ _ => rw [System.put_shared, DB.keypair?, hkeys, DB.keypair?]
  | provisioned heq _ _ | stored heq _ | rotated heq _ =>
    subst heq
    cases hinit
  | @replaced s' userID' req heq hrewrites =>
    subst heq
    by_cases hu : userID = userID'
    · subst hu
      -- the user has started, so what the `UPDATE` finds is the key it writes
      obtain ⟨k, hk, hno⟩ := h.closed userID hdone
      obtain ⟨hrow, _, _⟩ := hm
      have hsame : req.newPublicKey = k.publicKey := by simpa [hk, hno] using hrow
      obtain ⟨k', hk', hkey, _⟩ := hrewrites.own k hk
      rw [System.put_shared, hk', hk, Option.map_some, Option.map_some, hkey, Option.getD_some,
        hsame]
    · rw [System.put_shared, hrewrites.others userID hu]

end Runs

/-- A user whose public key is the placeholder can start, and starts once, in
every run whose statements write what they may. -/
theorem keypair_lifecycle (svc : Service) (kekAlg : String → Option String) (s : ResetState)
    (moves : List (Move KeypairRequest Nat))
    (hplaceholder : kekAlg placeholderKEKParams = some "none")
    (hready : PlaceholdersReady kekAlg s.tables.db)
    (hmoves : Runs.Every (keypairHandlers svc kekAlg).step (KeepsLifecycle kekAlg) (keypairStart s)
      moves) :
    Runs.Along (keypairHandlers svc kekAlg).step (PlaceholdersOpen svc kekAlg) (keypairStart s)
        moves ∧
      Runs.Every (keypairHandlers svc kekAlg).step (InitKeepsKey svc kekAlg) (keypairStart s)
        moves := by
  have hok : Runs.Along (keypairHandlers svc kekAlg).step (KeypairsOk kekAlg) (keypairStart s)
      moves :=
    Runs.along_of_every (fun _ m hx hm => hx.step svc hplaceholder m hm) (keypairStart_ok hready)
      hmoves
  exact ⟨hok.mono fun _ hx => hx.placeholdersOpen,
    Runs.every_of_along (fun _ m hx hm => hx.initKeepsKey svc m hm) hok hmoves⟩

/-! ## Concrete runs -/

/-- Reads `alg` where it is the first member, as in the texts below. -/
def sampleKekAlg (kekParams : String) : Option String :=
  if kekParams.toList.take 8 = "\x7b\"alg\":\"".toList then
    some (String.ofList ((kekParams.toList.drop 8).takeWhile (·.toNat ≠ 34)))
  else some ""

/-- A service whose signer knows the access tokens of an administrator and of a
user. -/
def keypairService : Service :=
  { sampleService with
    jwt := sampleSigner
      [(0, "admin", ⟨⟨Uuid.ofNat 1, [.admin]⟩, purposeAccess, ""⟩),
        (0, "user", ⟨⟨Uuid.ofNat 2, []⟩, purposeAccess, ""⟩)] }

def keypairState : ResetState := { tables := ⟨{ users := [sampleUser 1 "ada"] }, []⟩ }

def argon2Params := "\x7b\"alg\":\"argon2id\"\x7d"

def createRequest : CreateUserRequest :=
  ⟨"grace", "grace@example.org", "first password", [], none, none⟩

def changeRequest (kekParams : String) : ChangePasswordRequest where
  currentPassword := "first password"
  newPassword := "second password"
  newPrivateKeyEnc := [7]
  newKEKSalt := List.replicate 16 7
  newKEKParams := kekParams

def initRequest (password : String) (key : UInt8) : KeypairInitRequest where
  currentPassword := password
  newPublicKey := List.replicate 32 key
  newPrivateKeyEnc := [7]
  newKEKSalt := List.replicate 16 7
  newKEKParams := argon2Params

def keypairMoves (i n : Nat) : List (Move KeypairRequest Nat) := List.replicate n (.advance i 0)

def createMoves : List (Move KeypairRequest Nat) :=
  .begin (.createUser "Bearer admin" createRequest (Uuid.ofNat 2) (List.replicate 16 0)) ::
    keypairMoves 0 2

def changeMoves (kekParams : String) : List (Move KeypairRequest Nat) :=
  .begin (.changePassword "Bearer user" (changeRequest kekParams) (List.replicate 16 0)) ::
    keypairMoves 1 2

/-- The password is changed under the old parameters, then one `InitKeypair`
succeeds and another is refused. -/
def keypairRun : List (Move KeypairRequest Nat) :=
  createMoves ++ changeMoves placeholderKEKParams ++
    .begin (.initKeypair "Bearer user" (initRequest "second password" 7)) :: keypairMoves 2 3 ++
    .begin (.initKeypair "Bearer user" (initRequest "second password" 8)) :: keypairMoves 3 2

/-- The forced change of password writes the parameters of a real key pair. -/
def overwriteRun : List (Move KeypairRequest Nat) := createMoves ++ changeMoves argon2Params

/-- Two `InitKeypair` have read the placeholder and one has replaced it. -/
def keypairRace : List (Move KeypairRequest Nat) :=
  createMoves ++ [.begin (.initKeypair "Bearer user" (initRequest "first password" 7)),
    .begin (.initKeypair "Bearer user" (initRequest "first password" 8))] ++ keypairMoves 1 2 ++
    keypairMoves 2 2 ++ keypairMoves 1 1

theorem keypair_lifecycle_run :
    Runs.Along (keypairHandlers keypairService sampleKekAlg).step
        (PlaceholdersOpen keypairService sampleKekAlg) (keypairStart keypairState) keypairRun ∧
      Runs.Every (keypairHandlers keypairService sampleKekAlg).step
        (InitKeepsKey keypairService sampleKekAlg) (keypairStart keypairState) keypairRun :=
  keypair_lifecycle keypairService sampleKekAlg keypairState keypairRun (by decide) nofun
    (by decide)

/-- The forced change of password closes the door on the first `InitKeypair`,
and of two that have both read the placeholder the second replaces the key of
the first. -/
theorem keypair_lifecycle_broken :
    PlaceholdersReady sampleKekAlg keypairState.tables.db ∧
      ¬ Runs.Along (keypairHandlers keypairService sampleKekAlg).step
        (PlaceholdersOpen keypairService sampleKekAlg) (keypairStart keypairState) overwriteRun ∧
      ¬ Runs.Every (keypairHandlers keypairService sampleKekAlg).step
        (InitKeepsKey keypairService sampleKekAlg) (keypairStart keypairState)
        (keypairRace ++ [.advance 2 0]) := by
  refine ⟨nofun, fun h => ?_, fun h => ?_⟩
  · have hkey : ((Runs.run (keypairHandlers keypairService sampleKekAlg).step
        (keypairStart keypairState) overwriteRun).shared.tables.db.keypair? (Uuid.ofNat 2)).any
        (fun k => k.publicKey = placeholderPublicKey ∧ k.isPlaceholder sampleKekAlg = false) =
          true := by decide
    obtain ⟨k, hk, hstuck⟩ := (Option.any_eq_true _ _).mp hkey
    obtain ⟨hzero, hclosed⟩ := decide_eq_true_eq.mp hstuck
    exact absurd (h.last.params _ k hk hzero) (by simp [hclosed])
  · obtain ⟨hkept, _⟩ := ((Runs.every_append ..).mp h).2
    have hsame := hkept 2 0 (.replaceKeypair (Uuid.ofNat 2) (initRequest "first password" 8))
      (Uuid.ofNat 2) rfl (by rfl) rfl (by decide)
    revert hsame
    decide

end IronStock

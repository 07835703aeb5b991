import IronStock.FrontDoors
import IronStock.Lib.Runs
import Mathlib.Logic.Function.Basic

/-!
# Security keys and their counters

Registrations and logins of `webauthn.go` and `auth_webauthn.go`, whose statements
interleave: a login loads the keys of its user, later it checks the assertion against
what it has loaded, writes the counter and goes on to the session.
-/
namespace IronStock

/-- A credential of the library. -/
structure KeyCredential extends GowaCredential where
  backupEligible : Bool
  cloneWarning : Bool
  counter_lt : signCount < 4294967296

/-- What an authenticator asserts. -/
structure KeyAssertion where
  credentialId : Bytes
  counter : Nat
  backupEligible : Bool
  signature : Bytes
  counter_lt : counter < 4294967296

/-- `Authenticator.UpdateCounter` -/
def KeyCredential.counted (c : KeyCredential) (a : KeyAssertion) : KeyCredential :=
  if c.signCount < a.counter ∨ (a.counter = 0 ∧ c.signCount = 0) then
    { c with signCount := a.counter, counter_lt := a.counter_lt }
  else { c with cloneWarning := true }

/-- `ValidateLogin`, by the keys that it is given. -/
abbrev ValidateLogin := List KeyCredential → KeyAssertion → Option KeyCredential

structure ValidateLogin.Lawful (validate : ValidateLogin)
    (verified : (publicKey : Bytes) → KeyAssertion → Prop) : Prop where
  sound : ∀ creds a c', validate creds a = some c' → ∃ c ∈ creds, c.id = a.credentialId ∧
    c.backupEligible = a.backupEligible ∧ verified c.publicKey a ∧ c' = c.counted a
  complete : ∀ creds a, (∃ c ∈ creds, c.id = a.credentialId) →
    (∀ c ∈ creds, c.id = a.credentialId →
      c.backupEligible = a.backupEligible ∧ verified c.publicKey a) →
    (validate creds a).isSome = true

/-- The row of `SaveCredential`. -/
def KeyCredential.saved (c : KeyCredential) (userId : Uuid) : WebAuthnCredential where
  userId := userId
  credentialId := c.id
  publicKey := c.publicKey
  signCount := c.signCount
  transports := c.transport
  uvRequired := c.userVerified
  lastUsedAt := none

/-- The credential that `LoadUser` builds; the other flags are left as they are. -/
def WebAuthnCredential.loaded (row : WebAuthnCredential) : Option KeyCredential :=
  if h : 0 ≤ row.signCount ∧ row.signCount < 4294967296 then
    some {
      id := row.credentialId, publicKey := row.publicKey, signCount := row.signCount.toNat
      transport := row.transports, userVerified := row.uvRequired
      backupEligible := false, cloneWarning := false
      counter_lt := by omega }
  else none

/-- The table, what the library gave at each registration, and what each login has loaded. -/
structure KeyRing where
  doors : DoorState Unit
  registered : List (Uuid × KeyCredential)
  calls : Nat → List KeyCredential

inductive KeyEvent
  /-- `SaveCredential` -/
  | register (userId : Uuid) (credential : KeyCredential)
  /-- `LoadUser` of a login -/
  | load (call : Nat) (userId : Uuid)
  /-- the rest of the login -/
  | finish (call : Nat) (assertion : KeyAssertion) (now : Time)

namespace KeyRing

def start : KeyRing := ⟨{ db := {} }, [], fun _ => []⟩

/-- `credential_id` is unique. -/
def register (k : KeyRing) (userId : Uuid) (c : KeyCredential) : KeyRing :=
  if k.doors.credentials.any (·.credentialId = c.id) then k
  else { k with
    doors := { k.doors with credentials := k.doors.credentials ++ [c.saved userId] }
    registered := (userId, c) :: k.registered }

/-- What `LoadUser` gives; after an error the login is over, as without any key. -/
def loadUser (k : KeyRing) (userId : Uuid) : List KeyCredential :=
  ((k.doors.credentials.filter (·.userId = userId)).mapM WebAuthnCredential.loaded).getD []

/-- The counter is written whatever the library says of clones. -/
def finish (validate : ValidateLogin) (k : KeyRing) (call : Nat) (a : KeyAssertion) (now : Time) :
    KeyRing :=
  match validate (k.calls call) a with
  | none => { k with calls := Function.update k.calls call [] }
  | some c => { k with
      doors := k.doors.updateSignCount now c.toGowaCredential
      calls := Function.update k.calls call [] }

def step (validate : ValidateLogin) (k : KeyRing) : KeyEvent → KeyRing
  | .register userId c => k.register userId c
  | .load call userId => { k with calls := Function.update k.calls call (k.loadUser userId) }
  | .finish call a now => k.finish validate call a now

/-- The login goes on to its session. -/
def LogsIn (validate : ValidateLogin) (k : KeyRing) (call : Nat) (a : KeyAssertion) : Prop :=
  (validate (k.calls call) a).isSome = true

instance (validate : ValidateLogin) (k : KeyRing) (call : Nat) (a : KeyAssertion) :
    Decidable (k.LogsIn validate call a) :=
  inferInstanceAs (Decidable (_ = true))

/-- The stored counters of a credential. -/
def counts (k : KeyRing) (credentialId : Bytes) : List Int :=
  (k.doors.credentials.filter (·.credentialId = credentialId)).map (·.signCount)

end KeyRing

/-- Security keys keep working, and clones are refused. -/
structure KeysWork (validate : ValidateLogin) (verified : Bytes → KeyAssertion → Prop)
    (k : KeyRing) (e : KeyEvent) : Prop where
  loaded : ∀ u c, (u, c) ∈ k.registered → ∃ c' ∈ k.loadUser u,
    c'.id = c.id ∧ c'.publicKey = c.publicKey ∧ c'.backupEligible = c.backupEligible ∧
      (c'.signCount : Int) ∈ k.counts c.id
  login : ∀ call a now u c, e = .finish call a now → (u, c) ∈ k.registered →
    (∃ c' ∈ k.calls call, c'.id = c.id) → a.credentialId = c.id →
    a.backupEligible = c.backupEligible → verified c.publicKey a →
    (∀ n ∈ k.counts c.id, n < a.counter) → k.LogsIn validate call a
  counter : ∀ row ∈ k.doors.credentials, ∃ row' ∈ (k.step validate e).doors.credentials,
    row'.credentialId = row.credentialId ∧ row.signCount ≤ row'.signCount
  clone : ∀ call a now, e = .finish call a now → k.LogsIn validate call a →
    ∀ n ∈ k.counts a.credentialId, 0 < n → n < a.counter

/-- No key is eligible for backup, and an assertion that verifies counts on from what is
stored then. -/
def CountsOn (verified : Bytes → KeyAssertion → Prop) (k : KeyRing) : KeyEvent → Prop
  | .register _ c => c.backupEligible = false
  | .load _ _ => True
  | .finish _ a _ => ∀ row ∈ k.doors.credentials, row.credentialId = a.credentialId →
      a.backupEligible = false → verified row.publicKey a →
      row.signCount < a.counter ∨ (a.counter = 0 ∧ row.signCount = 0)

/-! ## Invariant -/

/-- A key that a login has loaded is that of its row, at most behind it. -/
def LoadedFrom (rows : List WebAuthnCredential) (c : KeyCredential) : Prop :=
  c.backupEligible = false ∧ (∃ row ∈ rows, row.credentialId = c.id) ∧
    ∀ row ∈ rows, row.credentialId = c.id →
      row.publicKey = c.publicKey ∧ (c.signCount : Int) ≤ row.signCount

structure KeyRing.Ok (k : KeyRing) : Prop where
  counts : ∀ row ∈ k.doors.credentials, 0 ≤ row.signCount ∧ row.signCount < 4294967296
  unique : ∀ row ∈ k.doors.credentials, ∀ row' ∈ k.doors.credentials,
    row.credentialId = row'.credentialId → row = row'
  stored : ∀ u c, (u, c) ∈ k.registered → c.backupEligible = false ∧
    ∃ row ∈ k.doors.credentials, row.userId = u ∧ row.credentialId = c.id ∧
      row.publicKey = c.publicKey
  calls : ∀ call, ∀ c ∈ k.calls call, LoadedFrom k.doors.credentials c

section Runs

variable {validate : ValidateLogin} {verified : Bytes → KeyAssertion → Prop} {k : KeyRing}

theorem WebAuthnCredential.loaded_eq_some {row : WebAuthnCredential} {c : KeyCredential}
    (h : row.loaded = some c) : c.id = row.credentialId ∧ c.publicKey = row.publicKey ∧
      c.backupEligible = false ∧ (c.signCount : Int) = row.signCount := by
  unfold WebAuthnCredential.loaded at h
  split at h
  · next hcount =>
    obtain rfl := Option.some.inj h
    exact ⟨rfl, rfl, rfl, Int.toNat_of_nonneg hcount.1⟩
  · cases h

theorem mem_of_mapM {α β : Type} {f : α → Option β} {xs : List α} {ys : List β} {y : β}
    (h : xs.mapM f = some ys) (hy : y ∈ ys) : ∃ x ∈ xs, f x = some y := by
  induction xs generalizing ys with
  | nil =>
    cases h
    cases hy
  | cons x xs ih =>
    rw [List.mapM_cons] at h
    obtain ⟨z, hz, h⟩ := Option.bind_eq_some_iff.mp h
    obtain ⟨zs, hzs, h⟩ := Option.bind_eq_some_iff.mp h
    cases h
    obtain rfl | hy := List.mem_cons.mp hy
    · exact ⟨x, List.mem_cons_self, hz⟩
    · obtain ⟨x', hx', hf⟩ := ih hzs hy
      exact ⟨x', List.mem_cons_of_mem x hx', hf⟩

/-- If the function is defined on the list, so is the list of its values. -/
theorem mapM_of_forall {α β : Type} {f : α → Option β} {xs : List α}
    (h : ∀ x ∈ xs, (f x).isSome = true) :
    ∃ ys, xs.mapM f = some ys ∧ ∀ x ∈ xs, ∃ y ∈ ys, f x = some y := by
  induction xs with
  | nil => exact ⟨[], rfl, fun x hx => absurd hx List.not_mem_nil⟩
  | cons x xs ih =>
    obtain ⟨y, hy⟩ := Option.isSome_iff_exists.mp (h x List.mem_cons_self)
    obtain ⟨ys, hys, hall⟩ := ih fun x' hx' => h x' (List.mem_cons_of_mem x hx')
    refine ⟨y :: ys, ?_, fun x' hx' => ?_⟩
    · rw [List.mapM_cons, hy, hys]
      rfl
    · obtain rfl | hx' := List.mem_cons.mp hx'
      · exact ⟨y, List.mem_cons_self, hy⟩
      · obtain ⟨y', hy', hf⟩ := hall x' hx'
        exact ⟨y', List.mem_cons_of_mem y hy', hf⟩

theorem mem_loadUser {u : Uuid} {c : KeyCredential} (h : c ∈ k.loadUser u) :
    ∃ row ∈ k.doors.credentials, row.loaded = some c := by
  rw [KeyRing.loadUser] at h
  cases hrows : (k.doors.credentials.filter (·.userId = u)).mapM WebAuthnCredential.loaded with
  | none =>
    rw [hrows] at h
    cases h
  | some cs =>
    rw [hrows] at h
    obtain ⟨row, hrow, hloaded⟩ := mem_of_mapM hrows h
    exact ⟨row, (List.mem_filter.mp hrow).1, hloaded⟩

namespace KeyRing.Ok

theorem loadUser_of_row (h : k.Ok) {row : WebAuthnCredential} (hrow : row ∈ k.doors.credentials) :
    ∃ c ∈ k.loadUser row.userId, row.loaded = some c := by
  have hdefined : ∀ r ∈ k.doors.credentials.filter (·.userId = row.userId),
      r.loaded.isSome = true := by
    intro r hr
    have hcount := h.counts r (List.mem_filter.mp hr).1
    rw [WebAuthnCredential.loaded, dif_pos hcount]
    rfl
  obtain ⟨cs, hcs, hall⟩ := mapM_of_forall hdefined
  have hmem : row ∈ k.doors.credentials.filter (·.userId = row.userId) :=
    List.mem_filter.mpr ⟨hrow, decide_eq_true rfl⟩
  obtain ⟨c, hc, hloaded⟩ := hall row hmem
  refine ⟨c, ?_, hloaded⟩
  rw [KeyRing.loadUser, hcs]
  exact hc

theorem loadedFrom (h : k.Ok) {u : Uuid} {c : KeyCredential} (hc : c ∈ k.loadUser u) :
    LoadedFrom k.doors.credentials c := by
  obtain ⟨row, hrow, hloaded⟩ := mem_loadUser hc
  obtain ⟨hid, hkey, hbackup, hcount⟩ := WebAuthnCredential.loaded_eq_some hloaded
  refine ⟨hbackup, ⟨row, hrow, hid.symm⟩, fun row' hrow' hid' => ?_⟩
  obtain rfl := h.unique row hrow row' hrow' (hid.symm.trans hid'.symm)
  exact ⟨hkey.symm, Int.le_of_eq hcount⟩

theorem start : KeyRing.start.Ok where
  counts _ hrow := absurd hrow List.not_mem_nil
  unique _ hrow := absurd hrow List.not_mem_nil
  stored _ _ hc := absurd hc List.not_mem_nil
  calls _ _ hc := absurd hc List.not_mem_nil

theorem register (h : k.Ok) (u : Uuid) {c : KeyCredential} (hbackup : c.backupEligible = false) :
    (k.register u c).Ok := by
  rw [KeyRing.register]
  split
  · exact h
  · next hnew =>
    have hfresh : ∀ row ∈ k.doors.credentials, row.credentialId ≠ c.id := by
      simpa using hnew
    refine ⟨fun row hrow => ?_, fun row hrow row' hrow' hid => ?_, fun u' c' hc' => ?_,
      fun call c' hc' => ?_⟩
    · obtain hold | hrow := List.mem_append.mp hrow
      · exact h.counts row hold
      · rw [List.mem_singleton.mp hrow]
        have hlt := c.counter_lt
        exact ⟨Int.natCast_nonneg _, by simp only [KeyCredential.saved]; omega⟩
    · obtain hold | hrow := List.mem_append.mp hrow
      · obtain hold' | hrow' := List.mem_append.mp hrow'
        · exact h.unique row hold row' hold' hid
        · rw [List.mem_singleton.mp hrow'] at hid
          exact absurd hid (hfresh row hold)
      · obtain hold' | hrow' := List.mem_append.mp hrow'
        · rw [List.mem_singleton.mp hrow] at hid
          exact absurd hid.symm (hfresh row' hold')
        · rw [List.mem_singleton.mp hrow, List.mem_singleton.mp hrow']
    · obtain hnew | hold := List.mem_cons.mp hc'
      · cases hnew
        exact ⟨hbackup, c.saved u, List.mem_append_right _ (List.mem_singleton_self _), rfl, rfl,
          rfl⟩
      · obtain ⟨hbackup', row, hrow, hrest⟩ := h.stored u' c' hold
        exact ⟨hbackup', row, List.mem_append_left _ hrow, hrest⟩
    · obtain ⟨hbackup', ⟨row, hrow, hid⟩, hrows⟩ := h.calls call c' hc'
      refine ⟨hbackup', ⟨row, List.mem_append_left _ hrow, hid⟩, fun row' hrow' hid' => ?_⟩
      obtain hold | hrow' := List.mem_append.mp hrow'
      · exact hrows row' hold hid'
      · rw [List.mem_singleton.mp hrow'] at hid'
        exact absurd (hid.trans hid'.symm) (hfresh row hrow)

end KeyRing.Ok

/-- A row after `UpdateSignCount`. -/
def WebAuthnCredential.recounted (row : WebAuthnCredential) (now : Time) (c : GowaCredential) :
    WebAuthnCredential :=
  if row.credentialId = c.id then { row with signCount := c.signCount, lastUsedAt := some now }
  else row

theorem mem_updateSignCount {s : DoorState Unit} {now : Time} {c : GowaCredential}
    {row' : WebAuthnCredential} : row' ∈ (s.updateSignCount now c).credentials ↔
      ∃ row ∈ s.credentials, row.recounted now c = row' := by
  rw [DoorState.updateSignCount, Table.mem_updateWhere]
  simp only [WebAuthnCredential.recounted, decide_eq_true_eq]

theorem WebAuthnCredential.recounted_frame (row : WebAuthnCredential) (now : Time)
    (c : GowaCredential) : (row.recounted now c).credentialId = row.credentialId ∧
      (row.recounted now c).publicKey = row.publicKey ∧
        (row.recounted now c).userId = row.userId := by
  rw [recounted]
  split
  · exact ⟨rfl, rfl, rfl⟩
  · exact ⟨rfl, rfl, rfl⟩

theorem WebAuthnCredential.le_recounted {row : WebAuthnCredential} {c : GowaCredential}
    (h : row.credentialId = c.id → row.signCount ≤ c.signCount) (now : Time) :
    row.signCount ≤ (row.recounted now c).signCount := by
  rw [recounted]
  split
  · next hid => exact h hid
  · exact Int.le_refl _

theorem KeyCredential.counted_id (c : KeyCredential) (a : KeyAssertion) :
    (c.counted a).id = c.id := by
  rw [counted]
  split
  · rfl
  · rfl

/-- A counter that goes on from what is stored goes on from what was loaded. -/
theorem KeyCredential.counted_signCount {c : KeyCredential} {a : KeyAssertion} {n : Int}
    (hle : (c.signCount : Int) ≤ n) (h : n < a.counter ∨ (a.counter = 0 ∧ n = 0)) :
    (c.counted a).signCount = a.counter := by
  have hon : c.signCount < a.counter ∨ (a.counter = 0 ∧ c.signCount = 0) := by omega
  rw [counted, if_pos hon]

/-- What a login that goes on has found. -/
theorem KeyRing.Ok.finished (h : k.Ok) (hlaw : validate.Lawful verified) {call : Nat}
    {a : KeyAssertion} {now : Time} {c : KeyCredential}
    (hcounts : CountsOn verified k (.finish call a now))
    (hc : validate (k.calls call) a = some c) :
    c.id = a.credentialId ∧ c.signCount = a.counter ∧
      ∀ row ∈ k.doors.credentials, row.credentialId = a.credentialId →
        row.signCount < a.counter ∨ (a.counter = 0 ∧ row.signCount = 0) := by
  obtain ⟨c₀, hmem, hid, hbackup, hverified, rfl⟩ := hlaw.sound _ _ _ hc
  obtain ⟨hfalse, ⟨row, hrow, hrowid⟩, hrows⟩ := h.calls call c₀ hmem
  have hon : ∀ row ∈ k.doors.credentials, row.credentialId = a.credentialId →
      row.signCount < a.counter ∨ (a.counter = 0 ∧ row.signCount = 0) := by
    intro row hrow hrowid
    obtain ⟨hkey, _⟩ := hrows row hrow (hrowid.trans hid.symm)
    exact hcounts row hrow hrowid (hbackup.symm.trans hfalse) (hkey ▸ hverified)
  obtain ⟨_, hle⟩ := hrows row hrow hrowid
  exact ⟨(c₀.counted_id a).trans hid,
    KeyCredential.counted_signCount hle (hon row hrow (hrowid.trans hid)), hon⟩

namespace KeyRing.Ok

theorem load (h : k.Ok) (call : Nat) (cs : List KeyCredential)
    (hcs : ∀ c ∈ cs, LoadedFrom k.doors.credentials c) :
    KeyRing.Ok { k with calls := Function.update k.calls call cs } := by
  refine ⟨h.counts, h.unique, h.stored, fun call' c hc => ?_⟩
  change c ∈ Function.update k.calls call cs call' at hc
  by_cases hcall : call' = call
  · subst hcall
    rw [Function.update_self] at hc
    exact hcs c hc
  · rw [Function.update_of_ne hcall] at hc
    exact h.calls call' c hc

/-- A counter that does not go back keeps the table. -/
theorem updateSignCount (h : k.Ok) {c : KeyCredential} (now : Time)
    (hle : ∀ row ∈ k.doors.credentials, row.credentialId = c.id → row.signCount ≤ c.signCount) :
    KeyRing.Ok { k with doors := k.doors.updateSignCount now c.toGowaCredential } := by
  refine ⟨fun row' hrow' => ?_, fun row' hrow' row'' hrow'' hid => ?_, fun u c' hc' => ?_,
    fun call c' hc' => ?_⟩
  · obtain ⟨row, hrow, rfl⟩ := mem_updateSignCount.mp hrow'
    have hlt := c.counter_lt
    rw [WebAuthnCredential.recounted]
    split
    · exact ⟨Int.natCast_nonneg _, by dsimp only; omega⟩
    · exact h.counts row hrow
  · obtain ⟨row, hrow, rfl⟩ := mem_updateSignCount.mp hrow'
    obtain ⟨row₁, hrow₁, rfl⟩ := mem_updateSignCount.mp hrow''
    rw [(row.recounted_frame now _).1, (row₁.recounted_frame now _).1] at hid
    rw [h.unique row hrow row₁ hrow₁ hid]
  · obtain ⟨hbackup, row, hrow, huser, hid, hkey⟩ := h.stored u c' hc'
    obtain ⟨hid', hkey', huser'⟩ := row.recounted_frame now c.toGowaCredential
    exact ⟨hbackup, _, mem_updateSignCount.mpr ⟨row, hrow, rfl⟩, huser'.trans huser,
      hid'.trans hid, hkey'.trans hkey⟩
  · obtain ⟨hbackup, ⟨row, hrow, hid⟩, hrows⟩ := h.calls call c' hc'
    refine ⟨hbackup, ⟨_, mem_updateSignCount.mpr ⟨row, hrow, rfl⟩,
      (row.recounted_frame now _).1.trans hid⟩, fun row' hrow' hid' => ?_⟩
    obtain ⟨row₁, hrow₁, rfl⟩ := mem_updateSignCount.mp hrow'
    obtain ⟨hid₁, hkey₁, _⟩ := row₁.recounted_frame now c.toGowaCredential
    obtain ⟨hkey, hcount⟩ := hrows row₁ hrow₁ (hid₁.symm.trans hid')
    exact ⟨hkey₁.trans hkey,
      Int.le_trans hcount (WebAuthnCredential.le_recounted (hle row₁ hrow₁) now)⟩

theorem step (h : k.Ok) (hlaw : validate.Lawful verified) {e : KeyEvent}
    (hcounts : CountsOn verified k e) : (k.step validate e).Ok := by
  cases e with
  | register u c => exact h.register u hcounts
  | load call u => exact h.load call _ fun c hc => h.loadedFrom hc
  | finish call a now =>
    show (k.finish validate call a now).Ok
    rw [KeyRing.finish]
    split
    · exact h.load call [] fun c hc => absurd hc List.not_mem_nil
    · next c hc =>
      obtain ⟨hid, hcount, hon⟩ := h.finished hlaw hcounts hc
      have hle : ∀ row ∈ k.doors.credentials, row.credentialId = c.id →
          row.signCount ≤ c.signCount := by
        intro row hrow hrowid
        have hrowon := hon row hrow (hrowid.trans hid)
        omega
      exact (h.updateSignCount now hle).load call [] fun c' hc' => absurd hc' List.not_mem_nil

theorem counter (h : k.Ok) (hlaw : validate.Lawful verified) {e : KeyEvent}
    (hcounts : CountsOn verified k e) {row : WebAuthnCredential}
    (hrow : row ∈ k.doors.credentials) :
    ∃ row' ∈ (k.step validate e).doors.credentials,
      row'.credentialId = row.credentialId ∧ row.signCount ≤ row'.signCount := by
  cases e with
  | register u c =>
    show ∃ row' ∈ (k.register u c).doors.credentials, _
    rw [KeyRing.register]
    split
    · exact ⟨row, hrow, rfl, Int.le_refl _⟩
    · exact ⟨row, List.mem_append_left _ hrow, rfl, Int.le_refl _⟩
  | load call u => exact ⟨row, hrow, rfl, Int.le_refl _⟩
  | finish call a now =>
    show ∃ row' ∈ (k.finish validate call a now).doors.credentials, _
    rw [KeyRing.finish]
    split
    · exact ⟨row, hrow, rfl, Int.le_refl _⟩
    · next c hc =>
      obtain ⟨hid, hcount, hon⟩ := h.finished hlaw hcounts hc
      refine ⟨_, mem_updateSignCount.mpr ⟨row, hrow, rfl⟩, (row.recounted_frame now _).1,
        WebAuthnCredential.le_recounted (fun hrowid => ?_) now⟩
      have hrowon := hon row hrow (hrowid.trans hid)
      omega

theorem keysWork (h : k.Ok) (hlaw : validate.Lawful verified) {e : KeyEvent}
    (hcounts : CountsOn verified k e) : KeysWork validate verified k e where
  loaded u c hc := by
    obtain ⟨hbackup, row, hrow, rfl, hid, hkey⟩ := h.stored u c hc
    obtain ⟨c', hc', hloaded⟩ := h.loadUser_of_row hrow
    obtain ⟨hid', hkey', hbackup', hcount⟩ := WebAuthnCredential.loaded_eq_some hloaded
    have hstored : row ∈ k.doors.credentials.filter (·.credentialId = c.id) :=
      List.mem_filter.mpr ⟨hrow, decide_eq_true hid⟩
    exact ⟨c', hc', hid'.trans hid, hkey'.trans hkey, hbackup'.trans hbackup.symm,
      List.mem_map.mpr ⟨row, hstored, hcount.symm⟩⟩
  login call a now u c he hc hcall hid hbackup hverified _ := by
    obtain ⟨c', hc', hid'⟩ := hcall
    obtain ⟨hfalse, row, hrow, _, hrowid, hkey⟩ := h.stored u c hc
    refine hlaw.complete _ _ ⟨c', hc', hid'.trans hid.symm⟩ fun c'' hc'' hid'' => ?_
    obtain ⟨hfalse'', _, hrows⟩ := h.calls call c'' hc''
    obtain ⟨hkey'', _⟩ := hrows row hrow (hrowid.trans (hid''.trans hid).symm)
    refine ⟨hfalse''.trans (hbackup.trans hfalse).symm, ?_⟩
    rw [← hkey'', hkey]
    exact hverified
  counter _ hrow := h.counter hlaw hcounts hrow
  clone call a now he hlogin n hn hpos := by
    subst he
    obtain ⟨c, hc⟩ := Option.isSome_iff_exists.mp hlogin
    obtain ⟨_, _, hon⟩ := h.finished hlaw hcounts hc
    obtain ⟨row, hrow, rfl⟩ := List.mem_map.mp hn
    obtain ⟨hmem, hid⟩ := List.mem_filter.mp hrow
    obtain hlt | ⟨_, hzero⟩ := hon row hmem (of_decide_eq_true hid)
    · exact hlt
    · rw [hzero] at hpos
      exact absurd hpos (Int.lt_irrefl 0)

end KeyRing.Ok

end Runs

/-! ## Authenticators -/

/-- The library with keys that sign by showing themselves. -/
def sampleValidate : ValidateLogin := fun creds a =>
  match creds.find? (·.id = a.credentialId) with
  | none => none
  | some c =>
    if c.backupEligible = a.backupEligible ∧ a.signature = c.publicKey then some (c.counted a)
    else none

def SampleVerified (publicKey : Bytes) (a : KeyAssertion) : Prop := a.signature = publicKey

instance (publicKey : Bytes) (a : KeyAssertion) : Decidable (SampleVerified publicKey a) :=
  inferInstanceAs (Decidable (_ = _))

theorem sampleValidate_lawful : sampleValidate.Lawful SampleVerified where
  sound creds a c' h := by
    rw [sampleValidate] at h
    split at h
    · cases h
    · next c hc =>
      split at h
      · next hchecks =>
        have hid : c.id = a.credentialId := by simpa using List.find?_some hc
        exact ⟨c, List.mem_of_find?_eq_some hc, hid, hchecks.1, hchecks.2,
          (Option.some.inj h).symm⟩
      · cases h
  complete creds a hex hall := by
    rw [sampleValidate]
    split
    · next hnone =>
      obtain ⟨c, hc, hid⟩ := hex
      exact absurd (decide_eq_true hid) (List.find?_eq_none.mp hnone c hc)
    · next c hc =>
      have hid : c.id = a.credentialId := by simpa using List.find?_some hc
      obtain ⟨hbackup, hverified⟩ := hall c (List.mem_of_find?_eq_some hc) hid
      rw [if_pos ⟨hbackup, hverified⟩]
      rfl

def sampleOwner : Uuid := Uuid.ofNat 1

def sampleAuthenticator (backupEligible : Bool) : KeyCredential :=
  ⟨⟨[7], [9], 5, ["usb"], true⟩, backupEligible, false, by decide⟩

def sampleAssertion (backupEligible : Bool) (counter : Nat) (h : counter < 4294967296) :
    KeyAssertion := ⟨[7], counter, backupEligible, [9], h⟩

/-- Two logins of a key, one after the other. -/
def keyUsed : List KeyEvent :=
  [.register sampleOwner (sampleAuthenticator false), .load 0 sampleOwner,
    .finish 0 (sampleAssertion false 6 (by decide)) 0, .load 1 sampleOwner,
    .finish 1 (sampleAssertion false 7 (by decide)) 1]

theorem countsOn_keyUsed :
    Runs.Every (KeyRing.step sampleValidate) (CountsOn SampleVerified) KeyRing.start keyUsed := by
  refine ⟨rfl, trivial, ?_, trivial, ?_, trivial⟩
  · intro row hrow _ _ _
    obtain rfl := List.mem_singleton.mp hrow
    exact Or.inl (by decide)
  · intro row hrow _ _ _
    obtain rfl := List.mem_singleton.mp hrow
    exact Or.inl (by decide)

end IronStock

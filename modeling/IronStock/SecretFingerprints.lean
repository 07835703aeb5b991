import IronStock.ItemHandlers

/-!
# Fingerprints of secrets

`PUT /api/v1/items/{id}/scan` registers the hash of a field value. The table is
unique in the fingerprint, not in the item and the fingerprint, and the upsert
goes by that key: a value that another item has registered stays with it.
-/
namespace IronStock.Scan

/-! ## The table -/

structure SecretFingerprint where
  id : Uuid
  itemId : Uuid
  fieldDefId : Option Int
  fingerprint : Bytes
  scanEnabled : Bool
  createdAt : Time
  updatedAt : Time
deriving DecidableEq

structure ScanState where
  db : DB
  fingerprints : List SecretFingerprint
  /-- `secret_fingerprints_fp_uniq` -/
  unique : (fingerprints.map SecretFingerprint.fingerprint).Nodup

/-- `DO UPDATE SET scan_enabled = EXCLUDED.scan_enabled, updated_at = now()`. -/
def SecretFingerprint.toggle (enabled : Bool) (now : Time) (r : SecretFingerprint) :
    SecretFingerprint :=
  { r with scanEnabled := enabled, updatedAt := now }

/-- `ON CONFLICT (fingerprint)`. -/
def upsertRows (rows : List SecretFingerprint) (r : SecretFingerprint) : List SecretFingerprint :=
  Table.upsert (·.fingerprint = r.fingerprint) (.toggle r.scanEnabled r.updatedAt) r rows

theorem upsertRows_nodup {rows : List SecretFingerprint} (r : SecretFingerprint)
    (h : (rows.map SecretFingerprint.fingerprint).Nodup) :
    ((upsertRows rows r).map SecretFingerprint.fingerprint).Nodup := by
  unfold upsertRows Table.upsert
  split
  · have hkeep : ∀ x, (SecretFingerprint.toggle r.scanEnabled r.updatedAt x).fingerprint =
        x.fingerprint := fun _ => rfl
    rw [Table.map_updateWhere hkeep]
    exact h
  · next hnone =>
    rw [List.map_append, List.map_singleton]
    refine List.nodup_append.mpr ⟨h, List.nodup_singleton _, ?_⟩
    rintro fp hfp _ hsame rfl
    obtain ⟨r₀, hr₀, rfl⟩ := List.mem_map.mp hfp
    rw [List.mem_singleton] at hsame
    exact hnone (List.any_eq_true.mpr ⟨r₀, hr₀, by simpa using hsame⟩)

/-! ## The handler -/

/-- `hex.DecodeString`. -/
def hexDecode : List Char → Option Bytes
  | [] => some []
  | [_] => none
  | a :: b :: cs =>
    match Uuid.hexValue a, Uuid.hexValue b, hexDecode cs with
    | some x, some y, some rest => some (UInt8.ofNat (16 * x.val + y.val) :: rest)
    | _, _, _ => none

structure UpsertFingerprintRequest where
  fieldDefID : Option String
  fingerprintHex : String
  scanEnabled : Bool

structure UpsertFingerprintResponse where
  id : Uuid
  itemID : String
  scanEnabled : Bool
deriving DecidableEq

/-- `$2` as a `bigint`; the outer `none` is a failed cast. -/
def castNullableInt8 (castInt8 : String → Option Int) : Option String → Option (Option Int)
  | none => some none
  | some text => (castInt8 text).map some

/-- The statement, with the id the default draws and `castInt8` the input
function of `bigint`. A row that is there keeps its item, so the foreign keys
are asked only where one is inserted. -/
def upsertFingerprintRow (castInt8 : String → Option Int) (s : ScanState) (now : Time)
    (itemID : String) (fieldDefID : Option String) (fingerprint : Bytes) (enabled : Bool)
    (newID : Uuid) : Except PgError (ScanState × Uuid) :=
  match castUuid itemID, castNullableInt8 castInt8 fieldDefID with
  | some item, some fieldDef =>
    let r : SecretFingerprint := ⟨newID, item, fieldDef, fingerprint, enabled, now, now⟩
    let s' : ScanState :=
      { s with fingerprints := upsertRows s.fingerprints r, unique := upsertRows_nodup r s.unique }
    match s.fingerprints.find? (·.fingerprint = fingerprint) with
    | some old => .ok (s', old.id)
    | none =>
      if (s.db.item? item).isSome ∧ fieldDef.all (s.db.fieldDefinitions.contains ·) then
        .ok (s', newID)
      else .error .foreignKeyViolation
  | _, _ => .error .invalidText

/-- The level of the caller; a failed query leaves none. -/
def callerLevel (db : DB) (now : Time) (claims : Claims) (itemID : String) : Perm :=
  match resolveItemPermission db now claims.subject itemID with
  | .ok perm => perm
  | .error _ => .none

/-- `UpsertFingerprint`. -/
def upsertFingerprint (castInt8 : String → Option Int) (s : ScanState) (now : Time)
    (claims : Claims) (itemID : String) (req : UpsertFingerprintRequest) (newID : Uuid) :
    Reply (ScanState × UpsertFingerprintResponse) := do
  .unlessAdmin claims do
    .require (callerLevel s.db now claims itemID ≠ .none)
      ⟨404, errCodeNotFound, "Öğe bulunamadı veya erişim yok."⟩
    .require ((callerLevel s.db now claims itemID).allowsWrite = true)
      ⟨403, errCodeForbidden, "Sızıntı taraması için yazma izni gerekli."⟩
  .require (req.fingerprintHex ≠ "") (badRequest "fingerprint_hex zorunludur.")
  let fpBytes ← .orElse ((hexDecode req.fingerprintHex.toList).filter (·.length = 32))
    (badRequest "fingerprint_hex geçerli 64-karakter hex SHA-256 olmalıdır.")
  let (s', fpID) ← statement
    (upsertFingerprintRow castInt8 s now itemID req.fieldDefID fpBytes req.scanEnabled newID)
    "Parmak izi kaydedilemedi."
  let entry : AuditEntry :=
    ⟨claims.subject.text, "security.fingerprint_registered", "item", itemID⟩
  pure ({ s' with db := s'.db.audit entry }, ⟨fpID, itemID, req.scanEnabled⟩)

/-! ## What a request registers -/

/-- The item has the fingerprint with this flag, and the rows of all others are
as they were. -/
structure Registers (s s' : ScanState) (item : Uuid) (fingerprint : Bytes) (enabled : Bool) :
    Prop where
  registered : ∃ r ∈ s'.fingerprints,
    r.itemId = item ∧ r.fingerprint = fingerprint ∧ r.scanEnabled = enabled
  others : s'.fingerprints.filter (·.itemId ≠ item) = s.fingerprints.filter (·.itemId ≠ item)

section Registers
variable {castInt8 : String → Option Int} {s s' : ScanState} {now : Time} {claims : Claims}
  {itemID : String} {req : UpsertFingerprintRequest} {newID : Uuid}
  {resp : UpsertFingerprintResponse}

/-- What a request that succeeds has read, and the rows it leaves. -/
theorem upsertFingerprint_eq_ok
    (h : upsertFingerprint castInt8 s now claims itemID req newID = .ok (s', resp)) :
    ∃ item fieldDef fp, castUuid itemID = some item ∧
      hexDecode req.fingerprintHex.toList = some fp ∧ resp.itemID = itemID ∧
      s'.fingerprints = upsertRows s.fingerprints
        ⟨newID, item, fieldDef, fp, req.scanEnabled, now, now⟩ := by
  simp only [upsertFingerprint, Reply.bind_eq_ok, Reply.orElse_eq_ok, statement_eq_ok,
    Reply.pure_eq_ok, Option.filter_eq_some_iff, Prod.mk.injEq, Prod.exists] at h
  obtain ⟨-, -, -, -, fp, ⟨hfp, -⟩, s₁, fpID, hrow, rfl, rfl⟩ := h
  unfold upsertFingerprintRow at hrow
  split at hrow
  · next item fieldDef hitem _ =>
    refine ⟨item, fieldDef, fp, hitem, hfp, rfl, ?_⟩
    cases hfind : s.fingerprints.find? (fun r => decide (r.fingerprint = fp)) with
    | some old =>
      rw [hfind] at hrow
      cases hrow
      rfl
    | none =>
      simp only [hfind] at hrow
      split at hrow
      · cases hrow
        rfl
      · cases hrow
  · cases hrow

/-- Where the fingerprint is the item's or nobody's, only the item is written. -/
theorem filter_upsertRows_others {rows : List SecretFingerprint} {r : SecretFingerprint}
    (h : ∀ r₀ ∈ rows, r₀.fingerprint = r.fingerprint → r₀.itemId = r.itemId) :
    (upsertRows rows r).filter (·.itemId ≠ r.itemId) = rows.filter (·.itemId ≠ r.itemId) := by
  unfold upsertRows Table.upsert
  split
  · have hitem : ∀ x, decide ((SecretFingerprint.toggle r.scanEnabled r.updatedAt x).itemId ≠
        r.itemId) = decide (x.itemId ≠ r.itemId) := fun _ => rfl
    rw [Table.filter_updateWhere hitem]
    apply Table.updateWhere_eq_self
    intro r₀ hr₀
    obtain ⟨hmem, hother⟩ := List.mem_filter.mp hr₀
    simp only [decide_eq_false_iff_not]
    intro hsame
    exact of_decide_eq_true hother (h r₀ hmem hsame)
  · simp [List.filter_append]

/-- A fingerprint that is registered stays with its item. -/
theorem itemId_of_mem_upsertRows {rows : List SecretFingerprint} {r r₀ r₁ : SecretFingerprint}
    (hunique : (rows.map SecretFingerprint.fingerprint).Nodup) (h₀ : r₀ ∈ rows)
    (hsame : r₀.fingerprint = r.fingerprint) (h₁ : r₁ ∈ upsertRows rows r)
    (hfp : r₁.fingerprint = r.fingerprint) : r₁.itemId = r₀.itemId := by
  have hany : rows.any (fun x => decide (x.fingerprint = r.fingerprint)) = true :=
    List.any_eq_true.mpr ⟨r₀, h₀, by simpa using hsame⟩
  unfold upsertRows Table.upsert at h₁
  rw [if_pos hany] at h₁
  obtain ⟨r₂, h₂, rfl⟩ := Table.mem_updateWhere.mp h₁
  have hkept : ∀ x, (if decide (x.fingerprint = r.fingerprint) = true then
      SecretFingerprint.toggle r.scanEnabled r.updatedAt x else x).fingerprint = x.fingerprint ∧
      (if decide (x.fingerprint = r.fingerprint) = true then
        SecretFingerprint.toggle r.scanEnabled r.updatedAt x else x).itemId = x.itemId := by
    intro x
    split
    · exact ⟨rfl, rfl⟩
    · exact ⟨rfl, rfl⟩
  rw [(hkept r₂).1] at hfp
  rw [(hkept r₂).2, List.inj_on_of_nodup_map hunique h₂ h₀ (hfp.trans hsame.symm)]

/-- The row asked for is there, under whatever item has it. -/
theorem exists_mem_upsertRows (rows : List SecretFingerprint) (r : SecretFingerprint) :
    ∃ r₁ ∈ upsertRows rows r, r₁.fingerprint = r.fingerprint ∧ r₁.scanEnabled = r.scanEnabled ∧
      (r₁.itemId = r.itemId ∨ ∃ r₀ ∈ rows, r₀.fingerprint = r.fingerprint ∧
        r₁.itemId = r₀.itemId) := by
  unfold upsertRows Table.upsert
  split
  · next h =>
    obtain ⟨r₀, h₀, hsame⟩ := List.any_eq_true.mp h
    have hfp : r₀.fingerprint = r.fingerprint := of_decide_eq_true hsame
    refine ⟨r₀.toggle r.scanEnabled r.updatedAt, ?_, hfp, rfl, .inr ⟨r₀, h₀, hfp, rfl⟩⟩
    exact Table.mem_updateWhere.mpr ⟨r₀, h₀, if_pos hsame⟩
  · exact ⟨r, by simp, rfl, rfl, .inl rfl⟩

/-- A request that succeeds registers the fingerprint for its item, and leaves
the other items alone, exactly if no other item has registered the value. -/
theorem upsertFingerprint_registers_iff {item : Uuid} {fp : Bytes}
    (h : upsertFingerprint castInt8 s now claims itemID req newID = .ok (s', resp))
    (hitem : castUuid itemID = some item) (hfp : hexDecode req.fingerprintHex.toList = some fp) :
    Registers s s' item fp req.scanEnabled ↔
      ∀ r ∈ s.fingerprints, r.fingerprint = fp → r.itemId = item := by
  obtain ⟨item', fieldDef, fp', hitem', hfp', -, hrows⟩ := upsertFingerprint_eq_ok h
  obtain rfl : item = item' := Option.some.inj (hitem.symm.trans hitem')
  obtain rfl : fp = fp' := Option.some.inj (hfp.symm.trans hfp')
  constructor
  · rintro ⟨⟨r₁, h₁, hr₁, hfp₁, -⟩, -⟩ r₀ h₀ hsame
    rw [hrows] at h₁
    rw [← itemId_of_mem_upsertRows s.unique h₀ hsame h₁ hfp₁]
    exact hr₁
  · intro hown
    constructor
    · obtain ⟨r₁, h₁, hfp₁, henabled, howner⟩ := exists_mem_upsertRows s.fingerprints
        ⟨newID, item, fieldDef, fp, req.scanEnabled, now, now⟩
      refine ⟨r₁, by rw [hrows]; exact h₁, ?_, hfp₁, henabled⟩
      rcases howner with hnew | ⟨r₀, h₀, hsame, hold⟩
      · exact hnew
      · exact hold.trans (hown r₀ h₀ hsame)
    · rw [hrows]
      exact @filter_upsertRows_others _
        ⟨newID, item, fieldDef, fp, req.scanEnabled, now, now⟩ hown

end Registers

/-! ## Two items with one value -/

/-- Item 5 of user 1 and item 6 of user 2. -/
def twoItems : DB where
  users := [sampleUser 1 "owner", sampleUser 2 "guest"]
  folders := [sampleFolder 10 1]
  items := [sampleItem 5 10 1, sampleItem 6 10 2]

def noFingerprints : ScanState := ⟨twoItems, [], .nil⟩

def sampleFingerprint : Bytes := List.replicate 32 0

/-- User 1 has registered the value for item 5. -/
def registeredForFive : ScanState :=
  ⟨twoItems, [⟨Uuid.ofNat 20, Uuid.ofNat 5, none, sampleFingerprint, true, 0, 0⟩],
    List.nodup_singleton _⟩

/-- User 2 asks for the same value on item 6, not to be scanned for. -/
def upsertForSix (s : ScanState) : Reply (ScanState × UpsertFingerprintResponse) :=
  upsertFingerprint (fun _ => none) s 1 ⟨Uuid.ofNat 2, [.write]⟩ (Uuid.ofNat 6).text
    ⟨none, String.ofList (List.replicate 64 '0'), false⟩ (Uuid.ofNat 21)

theorem hexDecode_zeros :
    hexDecode (String.ofList (List.replicate 64 '0')).toList = some sampleFingerprint := by
  rw [String.toList_ofList]
  decide

theorem upsertForSix_isOk :
    (upsertForSix noFingerprints).isOk = true ∧ (upsertForSix registeredForFive).isOk = true := by
  decide

/-- A value that nobody has registered. -/
theorem upsertFingerprint_registers_fresh :
    ∃ s' resp, upsertForSix noFingerprints = .ok (s', resp) ∧
      Registers noFingerprints s' (Uuid.ofNat 6) sampleFingerprint false := by
  cases h : upsertForSix noFingerprints with
  | error e =>
    have hok := upsertForSix_isOk.1
    rw [h] at hok
    cases hok
  | ok out =>
    exact ⟨out.1, out.2, rfl, (upsertFingerprint_registers_iff h (castUuid_text _)
      hexDecode_zeros).mpr (fun r hr => by cases hr)⟩

/-- The other item's fingerprint is switched off, and item 6 gets none. -/
theorem upsertFingerprint_takes_other_item :
    ¬ ∀ (castInt8 : String → Option Int) (s s' : ScanState) (now : Time) (claims : Claims)
      (itemID : String) (req : UpsertFingerprintRequest) (newID item : Uuid) (fp : Bytes)
      (resp : UpsertFingerprintResponse),
      upsertFingerprint castInt8 s now claims itemID req newID = .ok (s', resp) →
        castUuid itemID = some item → hexDecode req.fingerprintHex.toList = some fp →
          Registers s s' item fp req.scanEnabled := by
  intro hall
  cases h : upsertForSix registeredForFive with
  | error e =>
    have hok := upsertForSix_isOk.2
    rw [h] at hok
    cases hok
  | ok out =>
    have hreg := hall _ _ _ _ _ _ _ _ _ _ out.2 h (castUuid_text _) hexDecode_zeros
    obtain ⟨item, fieldDef, fp, hitem, hfp, -, hrows⟩ := upsertFingerprint_eq_ok h
    obtain rfl : sampleFingerprint = fp := Option.some.inj (hexDecode_zeros.symm.trans hfp)
    obtain ⟨r, hr, howner, hvalue, -⟩ := hreg.registered
    rw [hrows] at hr
    have hfive := itemId_of_mem_upsertRows
      (r := ⟨Uuid.ofNat 21, item, fieldDef, sampleFingerprint, false, 1, 1⟩)
      registeredForFive.unique (List.mem_singleton.mpr rfl) rfl hr hvalue
    exact absurd (howner.symm.trans hfive) (by decide)

end IronStock.Scan

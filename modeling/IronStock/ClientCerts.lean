import IronStock.CertExpiry
import IronStock.FrontDoorGates

/-!
# Client certificates

`ValidateCertForUser` on the table of registered certificates. A certificate whose
expiry no layout fits counts as one that never expires.
-/
namespace IronStock

open TimestampText

/-! ## The table -/

structure ClientCertificate where
  id : Uuid
  userId : Uuid
  caId : Uuid
  fingerprintSHA256 : Bytes
  subjectCN : String
  serialNumber : String
  notBefore : Timestamptz
  notAfter : Timestamptz
  revokedAt : Option Timestamptz
  label : Option String
  createdAt : Timestamptz
deriving DecidableEq

/-- `client_certificates`, with its UNIQUE fingerprint. -/
structure ClientCertificates where
  rows : List ClientCertificate
  unique : (rows.map (·.fingerprintSHA256)).Nodup

/-- The row as it is scanned. -/
structure CertRow where
  id : String
  userID : String
  caID : String
  fingerprintSHA256 : Bytes
  subjectCN : String
  serialNumber : String
  notBefore : String
  notAfter : String
  revokedAt : Option String
  label : Option String
  createdAt : String

section certs

variable (zone : SessionZone) (certs : ClientCertificates)

def ClientCertificate.scan (row : ClientCertificate) : CertRow where
  id := row.id.text
  userID := row.userId.text
  caID := row.caId.text
  fingerprintSHA256 := row.fingerprintSHA256
  subjectCN := row.subjectCN
  serialNumber := row.serialNumber
  notBefore := String.ofList (row.notBefore.text zone)
  notAfter := String.ofList (row.notAfter.text zone)
  revokedAt := row.revokedAt.map fun t => String.ofList (t.text zone)
  label := row.label
  createdAt := String.ofList (row.createdAt.text zone)

def errCertNotFound := "clientcert: no active registered certificate found"
def errCertExpired := "clientcert: certificate is expired"
def errCertRevoked := "clientcert: certificate has been revoked"
def errCertWrongUser := "clientcert: certificate does not belong to this user"

def lookupByFingerprint (fingerprint : Bytes) : Except String CertRow :=
  match certs.rows.find? (·.fingerprintSHA256 = fingerprint) with
  | none => .error errCertNotFound
  | some row => .ok (row.scan zone)

/-- `now` is in nanoseconds. -/
def validateCertForUser (now : Int) (fingerprint : Bytes) (userID : String) :
    Except String Unit :=
  match lookupByFingerprint zone certs fingerprint with
  | .error _ => .error errCertNotFound
  | .ok row =>
    if row.revokedAt ≠ none then .error errCertRevoked
    else if row.userID ≠ userID then .error errCertWrongUser
    else if row.notAfter ≠ "" ∧ (parseNotAfter row.notAfter.toList).any (· < now) then
      .error errCertExpired
    else .ok ()

/-! ## What the check stands for -/

/-- A registered certificate of the user that is neither revoked nor expired. -/
def ClientCertificates.Admits (now : Int) (fingerprint : Bytes) (userID : String) : Prop :=
  ∃ row ∈ certs.rows, row.fingerprintSHA256 = fingerprint ∧ row.userId.text = userID ∧
    row.revokedAt = none ∧ ¬ row.notAfter.Before now

/-- A value whose text one of the layouts fits. -/
def LayoutsFit : Timestamptz → Prop
  | .finite t => LayoutFits (zone.shown t)
  | .infinity | .negInfinity => False

variable {zone certs} {now : Int} {fingerprint : Bytes} {userID : String}

theorem find?_fingerprint {row : ClientCertificate} (hrow : row ∈ certs.rows) :
    certs.rows.find? (·.fingerprintSHA256 = row.fingerprintSHA256) = some row := by
  cases hfind : certs.rows.find? (·.fingerprintSHA256 = row.fingerprintSHA256) with
  | none =>
    have hnone := List.find?_eq_none.mp hfind row hrow
    simp at hnone
  | some found =>
    have hsame : found.fingerprintSHA256 = row.fingerprintSHA256 :=
      by simpa using List.find?_some hfind
    rw [List.inj_on_of_nodup_map certs.unique (List.mem_of_find?_eq_some hfind) hrow hsame]

theorem text_ne_empty (t : Timestamptz) : String.ofList (t.text zone) ≠ "" := by
  have hne : t.text zone ≠ [] := by
    cases t with
    | finite t =>
      rw [Timestamptz.text_finite, Zoned.text]
      exact List.append_ne_nil_of_right_ne_nil _ (List.cons_ne_nil _ _)
    | infinity =>
      rw [Timestamptz.text_infinity]
      decide
    | negInfinity =>
      rw [Timestamptz.text_negInfinity]
      decide
  intro h
  exact hne (by simpa using congrArg String.toList h)

/-- An expiry counts where its text can be read. -/
theorem parse_before_iff (t : Timestamptz) :
    (parseNotAfter (t.text zone)).any (· < now) = true ↔ t.Before now ∧ LayoutsFit zone t := by
  cases t with
  | finite t =>
    have hinstant := zone.instant_shown t
    rw [Timestamptz.text_finite, parseNotAfter_text, Timestamptz.Before, LayoutsFit]
    split
    case isTrue hfits => simp [hfits, hinstant]
    case isFalse hfits => simp [hfits]
  | infinity =>
    rw [parseNotAfter_infinite zone (Or.inl rfl)]
    simp [LayoutsFit]
  | negInfinity =>
    rw [parseNotAfter_infinite zone (Or.inr rfl)]
    simp [LayoutsFit]

/-- The check passes the user's registered certificates that are not revoked, and
refuses one that has expired only where its expiry can be read. -/
theorem validateCertForUser_eq_ok_iff :
    validateCertForUser zone certs now fingerprint userID = .ok () ↔
      ∃ row ∈ certs.rows, row.fingerprintSHA256 = fingerprint ∧ row.userId.text = userID ∧
        row.revokedAt = none ∧ ¬ (row.notAfter.Before now ∧ LayoutsFit zone row.notAfter) := by
  have hrow : ∀ row : ClientCertificate,
      (if (row.scan zone).revokedAt ≠ none then .error errCertRevoked
        else if (row.scan zone).userID ≠ userID then .error errCertWrongUser
        else if (row.scan zone).notAfter ≠ "" ∧
          (parseNotAfter (row.scan zone).notAfter.toList).any (· < now) then .error errCertExpired
        else Except.ok ()) = (.ok () : Except String Unit) ↔
      row.userId.text = userID ∧ row.revokedAt = none ∧
        ¬ (row.notAfter.Before now ∧ LayoutsFit zone row.notAfter) := by
    intro row
    rw [← parse_before_iff]
    simp only [ClientCertificate.scan, ne_eq, text_ne_empty, not_false_eq_true, true_and,
      String.toList_ofList, Option.map_eq_none_iff]
    by_cases hrevoked : row.revokedAt = none
    · by_cases huser : row.userId.text = userID
      · simp [hrevoked, huser]
      · simp [hrevoked, huser]
    · simp [hrevoked]
  constructor
  · intro h
    rw [validateCertForUser, lookupByFingerprint] at h
    cases hfind : certs.rows.find? (·.fingerprintSHA256 = fingerprint) with
    | none =>
      rw [hfind] at h
      cases h
    | some row =>
      rw [hfind] at h
      exact ⟨row, List.mem_of_find?_eq_some hfind, by simpa using List.find?_some hfind,
        (hrow row).mp h⟩
  · rintro ⟨row, hmem, rfl, hok⟩
    rw [validateCertForUser, lookupByFingerprint, find?_fingerprint hmem]
    exact (hrow row).mpr hok

/-- The gate is exact where every expired certificate shows an expiry that can be
read. -/
theorem validateCertForUser_exact_iff (zone : SessionZone) (certs : ClientCertificates)
    (now : Int) (fingerprint : Bytes) (userID : String) :
    (validateCertForUser zone certs now fingerprint userID = .ok () ↔
      certs.Admits now fingerprint userID) ↔
    ∀ row ∈ certs.rows, row.fingerprintSHA256 = fingerprint → row.userId.text = userID →
      row.revokedAt = none → row.notAfter.Before now → LayoutsFit zone row.notAfter := by
  rw [validateCertForUser_eq_ok_iff]
  constructor
  · intro hexact row hrow hfp huser hrevoked hbefore
    by_contra hfits
    obtain ⟨other, hother, hfp', -, -, hvalid⟩ :=
      hexact.mp ⟨row, hrow, hfp, huser, hrevoked, fun h => hfits h.2⟩
    rw [List.inj_on_of_nodup_map certs.unique hother hrow (hfp'.trans hfp.symm)] at hvalid
    exact hvalid hbefore
  · intro hread
    constructor
    · rintro ⟨row, hrow, hfp, huser, hrevoked, hnot⟩
      exact ⟨row, hrow, hfp, huser, hrevoked, fun hbefore =>
        hnot ⟨hbefore, hread row hrow hfp huser hrevoked hbefore⟩⟩
    · rintro ⟨row, hrow, hfp, huser, hrevoked, hvalid⟩
      exact ⟨row, hrow, hfp, huser, hrevoked, fun h => hvalid h.1⟩

/-- What the login asks of a certificate when it goes by this check. -/
theorem certificateMet_iff {svc : Service} {sum : String → Bytes} {now : Time}
    {ctx : LoginContext} {user : User}
    (hsvc : ∀ cert, svc.clientCertTrusted now cert user.id = true ↔
      validateCertForUser zone certs (now * 1000) (sum cert) user.id.text = .ok ()) :
    user.certificateMet svc now ctx ↔
      (user.requiresClientCert = true → ∃ cert, ctx.clientCert = some cert ∧
        ∃ row ∈ certs.rows, row.fingerprintSHA256 = sum cert ∧ row.userId = user.id ∧
          row.revokedAt = none ∧
          ¬ (row.notAfter.Before (now * 1000) ∧ LayoutsFit zone row.notAfter)) := by
  have htext : ∀ row : ClientCertificate, row.userId.text = user.id.text ↔ row.userId = user.id :=
    fun row => ⟨Uuid.text_injective, congrArg Uuid.text⟩
  unfold User.certificateMet
  cases ctx.clientCert with
  | none => simp
  | some cert =>
    rw [Option.any_some, hsvc cert, validateCertForUser_eq_ok_iff]
    simp only [htext, Option.some.injEq, exists_eq_left']

end certs

/-! ## A session three hours east of Greenwich -/

/-- Nine in the evening in London, the new year in Istanbul. -/
def newYear : Zoned where
  wall :=
    { year := 2020, month := 1, day := 1, hour := 0, minute := 0, second := 0, micro := 0,
      isDate := ⟨by decide, by decide, by decide, by decide⟩
      hour_lt := by decide
      minute_lt := by decide
      second_lt := by decide
      micro_lt := by decide }
  offset := 10800
  offset_lt := by decide

def newYearCertificate : ClientCertificate where
  id := .ofNat 1
  userId := .ofNat 2
  caId := .ofNat 3
  fingerprintSHA256 := List.replicate 32 7
  subjectCN := "ayse"
  serialNumber := "1"
  notBefore := .finite 0
  notAfter := .finite newYear.instant
  revokedAt := none
  label := none
  createdAt := .finite 0

/-- A day after its expiry the certificate passes, for the hours of the offset come
without minutes. -/
theorem expired_certificate_passes :
    ∃ zone : SessionZone,
      newYearCertificate.notAfter.text zone = "2020-01-01 00:00:00+03".toList ∧
      validateCertForUser zone ⟨[newYearCertificate], List.nodup_singleton _⟩
        ((newYear.instant + 86400000000) * 1000) (List.replicate 32 7) (Uuid.ofNat 2).text =
          .ok () ∧
      ¬ ClientCertificates.Admits ⟨[newYearCertificate], List.nodup_singleton _⟩
        ((newYear.instant + 86400000000) * 1000) (List.replicate 32 7) (Uuid.ofNat 2).text := by
  obtain ⟨zone, hzone⟩ := exists_shown newYear
  refine ⟨zone, ?_, ?_, ?_⟩
  · have htext : newYear.text = "2020-01-01 00:00:00+03".toList := by decide
    rw [← htext, newYearCertificate, Timestamptz.text_finite, hzone]
  · rw [validateCertForUser_eq_ok_iff]
    refine ⟨newYearCertificate, List.mem_singleton_self _, rfl, rfl, rfl, fun h => ?_⟩
    have hfits : LayoutFits (zone.shown newYear.instant) := h.2
    rw [hzone] at hfits
    exact absurd hfits (by decide)
  · rintro ⟨row, hrow, -, -, -, hvalid⟩
    rw [List.mem_singleton.mp hrow] at hvalid
    exact hvalid (by decide)

end IronStock

import IronStock.ClientCerts
import IronStock.ClusterCredentials
import IronStock.ItemTags
import IronStock.Replies
import IronStock.Lib.ErrorChain

/-!
# Conflicts on a unique key

Five handlers insert a row and mean to answer 409 if its key is taken. What they go
by is a method of the error. The error of the driver has the code of the server in
a field.
-/
namespace IronStock.Conflicts

open ErrorChain (Wrapped)
open K8s (Library parseKubeconfig)
open ClusterAdmin (NamedCluster ClusterRequest)

/-! ## Errors -/

/-- The value of an error, as far as the handlers can ask it. -/
inductive ErrorValue
  /-- `*pgconn.PgError`, with its field `Code`; it has no method of that name -/
  | pgError (code : String)
  /-- any other, with what a method `Code()` of it returns if there is one -/
  | other (text : String) (codeMethod : Option String)

namespace ErrorValue

/-- `interface{ Code() string }`. -/
def codeMethod : ErrorValue → Option String
  | pgError _ => none
  | other _ code => code

/-- `SQLState()`. -/
def sqlState : ErrorValue → Option String
  | pgError code => some code
  | other _ _ => none

end ErrorValue

/-- `isUniqueViolation`. -/
def isUniqueViolation (err : Wrapped ErrorValue) : Bool :=
  match err.as ErrorValue.codeMethod with
  | some code => code = "23505"
  | none => false

/-- How a statement fails: the server refuses it, or it gets no answer. -/
inductive Failure
  | refused (code : String)
  | lost (cause : String)

/-- What the driver returns for a statement that failed. -/
structure Driver where
  report : Failure → Wrapped ErrorValue
  sqlState_report : ∀ code, (report (.refused code)).as ErrorValue.sqlState = some code
  codeMethod_report : ∀ f, ∀ v ∈ (report f).values, v.codeMethod = none

/-! ## Handlers that insert a row -/

/-- A handler up to its INSERT, the INSERT, the two answers to its failure, and what
follows its success. -/
structure Insertion (α σ ρ : Type) where
  prepare : Reply α
  insert : α → Except Failure σ
  conflict : String
  failed : String
  finish : α → σ → Reply ρ

namespace Insertion

variable {α σ ρ : Type} (h : Insertion α σ ρ) (driver : Driver)

/-- The answer to the failure of the INSERT. -/
def refusal (f : Failure) : ApiError :=
  if isUniqueViolation (driver.report f) then ⟨409, errCodeConflict, h.conflict⟩
  else internalError h.failed

def answer : Reply ρ := do
  let a ← h.prepare
  match h.insert a with
  | .error f => .error (h.refusal driver f)
  | .ok s => h.finish a s

/-- How the INSERT failed, if the handler got there. -/
def failure : Option Failure :=
  match h.prepare with
  | .error _ => none
  | .ok a =>
    match h.insert a with
    | .error f => some f
    | .ok _ => none

end Insertion

/-! ## The tables -/

/-- One more row, whose fingerprint is free. -/
def addCertificate (certs : ClientCertificates) (row : ClientCertificate)
    (h : certs.rows.any (·.fingerprintSHA256 = row.fingerprintSHA256) = false) :
    ClientCertificates where
  rows := certs.rows ++ [row]
  unique := by
    rw [List.map_append, List.map_singleton, List.nodup_append_comm, List.singleton_append,
      List.nodup_cons]
    refine ⟨fun hmem => ?_, certs.unique⟩
    obtain ⟨r, hr, hsame⟩ := List.mem_map.mp hmem
    have hother := List.any_eq_false.mp h r hr
    exact hother (decide_eq_true hsame)


/-- A row of `client_cert_cas`. -/
structure CertAuthority where
  id : Uuid
  name : String

structure State where
  db : DB
  tags : List Tags.Tag
  clusters : List NamedCluster
  authorities : List CertAuthority
  certs : ClientCertificates

def State.audit (s : State) (e : AuditEntry) : State := { s with db := s.db.audit e }

/-- What `x509.ParseCertificate` reads; the times are formatted. -/
structure ParsedCert where
  subjectCN : String
  serialNumber : String
  notBefore : String
  notAfter : String

/-- The service, the libraries, what is drawn for a request, and which of its steps
outside the process fail, with what their errors say. -/
structure World where
  svc : Service
  lib : Library
  /-- `pem.Decode`: the type and the bytes of the first block -/
  decodePEM : String → Option (String × Bytes)
  parseCertificate : Bytes → Except String ParsedCert
  /-- the input function of `timestamptz` -/
  castTimestamptz : String → Option TimestampText.Timestamptz
  now : Time
  /-- `now()` as a column takes it -/
  certTime : TimestampText.Timestamptz
  newID : Uuid
  salt : Bytes
  draw : EnvelopeDraw
  cluster : ClusterAdmin.Conduct
  faults : Nat → Option String

namespace World
variable (w : World)

/-- A step that can only fail. -/
def check (n : Nat) (message : String) : Reply Unit :=
  if (w.faults n).isSome then .error (internalError message) else .ok ()

/-- A statement whose failure is answered with 500. -/
def run {α : Type} (n : Nat) (r : Except PgError α) (message : String) : Reply α := do
  w.check n message
  statement r message

/-- A statement with its failure. -/
def exec {α : Type} (n : Nat) (r : Except PgError α) : Except Failure α :=
  match w.faults n with
  | some cause => .error (.lost cause)
  | none => r.mapError fun e => .refused e.sqlState

end World

section Handlers

variable (w : World) (s : State)

/-! ## Register -/

/-- `kekParams` is the text of the object, empty for an empty one. -/
structure RegisterRequest where
  username : String
  email : String
  masterPassword : String
  publicKey : Bytes
  privateKeyEnc : Bytes
  kekSalt : Bytes
  kekParams : String

def validateRegisterRequest (r : RegisterRequest) : Reply Unit := do
  .require (usernameRE r.username = true) (badRequest "username 3-64 ASCII alphanumerics/._-")
  .require ('@' ∈ r.email.toList ∧ 3 ≤ r.email.utf8ByteSize ∧ r.email.utf8ByteSize ≤ 255)
    (badRequest "email format invalid")
  .require (12 ≤ r.masterPassword.utf8ByteSize)
    (badRequest "master_password must be >= 12 characters")
  .require (r.publicKey.length = 32) (badRequest "public_key must be 32 bytes (X25519)")
  .require (r.privateKeyEnc.length ≠ 0) (badRequest "private_key_enc is required")
  .require (16 ≤ r.kekSalt.length) (badRequest "kek_salt must be >= 16 bytes")
  .require (r.kekParams ≠ "") (badRequest "kek_params is required")

namespace RegisterRequest
variable (req : RegisterRequest)

/-- The row of the INSERT into `users`. -/
def newUser : User where
  id := w.newID
  username := w.svc.toLower req.username
  email := w.svc.toLower req.email
  passwordHash := (w.svc.passwords.hashPassword req.masterPassword w.salt).1
  argon2Params := defaultArgon2ParamsJSON
  status := .active

/-- `persistArgon2Salt`. -/
def withSalt (u : User) : User :=
  { u with argon2Params := (w.svc.passwords.hashPassword req.masterPassword w.salt).2 }

/-- `INSERT INTO user_keypairs`, with its CHECKs. -/
def insertKeypair (db : DB) : Except PgError DB :=
  if h : req.publicKey.length = 32 ∧ 0 < req.privateKeyEnc.length ∧ 16 ≤ req.kekSalt.length then
    db.insertKeypair ⟨w.newID, 1, req.publicKey, req.privateKeyEnc, req.kekSalt, req.kekParams, h⟩
  else .error .checkViolation

end RegisterRequest

/-- `Register`: the user and the temporary token. -/
def register (req : RegisterRequest) : Insertion Unit State (State × String × String) where
  prepare := do
    validateRegisterRequest req
    w.check 0 "Şifre işlenirken hata oluştu."
    w.check 1 "Veritabanı hatası."
  insert _ := w.exec 2 ((insertUser s.db (req.newUser w)).map fun db => { s with db := db })
  conflict := "Kullanıcı adı veya e-posta zaten kullanımda."
  failed := "Kullanıcı oluşturulamadı."
  finish _ s := do
    w.check 3 "Kullanıcı parametreleri yazılamadı."
    let db := { s.db with
      users := Table.updateWhere (fun u => u.id = w.newID) (req.withSalt w) s.db.users }
    let db ← w.run 4 (req.insertKeypair w db) "Anahtar çifti kaydedilemedi."
    w.check 5 "İşlem tamamlanamadı."
    let tmpToken ← .orElse (w.svc.jwt.issueTmp w.now w.newID purposeTOTPEnroll)
      (internalError "Geçici token üretilemedi.")
    pure (({ s with db := db }).audit ⟨w.newID.text, "auth.register", "user", w.newID.text⟩,
      w.newID.text, tmpToken)

/-! ## Items -/

/-- The INSERT of `Create`, with the cast of `expires_at`. -/
def insertItemRow (claims : Claims) (req : ItemRequest) (envelope : Envelope) :
    Except PgError DB :=
  match castExpiresAt w.svc req.expiresAt with
  | none => .error (pgError "22007")
  | some expiresAt =>
    insertItem .fail w.svc s.db w.now (req.newItem w.svc claims envelope expiresAt)

/-- `ItemHandlers.Create`. -/
def itemCreate (claims : Claims) (req : ItemRequest) :
    Insertion Envelope DB (DB × ItemResponse) where
  prepare := do
    validateItemCreate req
    .unlessAdmin claims do
      w.check 0 "Yetki sorgulanamadı."
      requireFolderWrite s.db w.now claims req.folderID "Yetki sorgulanamadı."
        "Bu klasörde yazma yetkiniz yok."
    let envelope ← envelopeReply (sealItemName w.svc w.draw req.id req.name)
    w.check 1 "Veritabanı hatası."
    pure envelope
  insert envelope := w.exec 2 (insertItemRow w s claims req envelope)
  conflict := "Bu ID zaten kullanımda."
  failed := "Item kaydedilemedi."
  finish _ db := do
    let db ← w.run 3
      (insertOwnerShare .fail db req.id claims.subject req.ownerDEKWrapped req.ownerWrapNonce)
      "Owner share kaydedilemedi."
    let item ← .orElse (castUuid req.id) (internalError "Field kaydedilemedi.")
    w.check 4 "Field kaydedilemedi."
    let db ← .orElse (insertItemFields db w.now item (req.fields.getD []))
      (internalError "Field kaydedilemedi.")
    w.check 5 "İşlem tamamlanamadı."
    pure (db.audit ⟨claims.subject.text, "item.created", "item", req.id⟩,
      itemCreateResponse w.svc w.now claims req)

/-! ## Tags -/

structure CreateTagRequest where
  name : String
  color : Option String

/-- The CHECK of `color`. -/
def isHexColor (color : String) : Bool :=
  match color.toList with
  | '#' :: cs => cs.length = 6 && cs.all isHexLetter
  | _ => false

/-- `INSERT INTO tags`, UNIQUE in the name and the user. -/
def insertTag (name : String) (color : Option String) (user : Uuid) :
    Except PgError (State × Tags.Tag) :=
  if '\x00' ∈ name.toList ∨ color.any (fun c => c.toList.contains '\x00') then
    .error ClusterAdmin.PgError.nulInText
  else if name.length < 1 ∨ 64 < name.length ∨ color.all isHexColor = false then
    .error .checkViolation
  else if s.tags.any (fun t => t.id = w.newID ∨ t.name = name ∧ t.createdBy = user) then
    .error .uniqueViolation
  else if (s.db.user? user).isNone then .error .foreignKeyViolation
  else
    let tag : Tags.Tag := ⟨w.newID, name, user⟩
    .ok ({ s with tags := s.tags ++ [tag] }, tag)

/-- `CreateTag`: the answer is the row with the color. -/
def createTag (claims : Claims) (req : CreateTagRequest) :
    Insertion String (State × Tags.Tag) (State × Tags.Tag × Option String) where
  prepare := do
    let name := trimSpace req.name
    .require (name ≠ "" ∧ name.utf8ByteSize ≤ 64) (badRequest "name 1-64 karakter olmalı.")
    pure name
  insert name := w.exec 0 (insertTag w s name req.color claims.subject)
  conflict := "Bu isimde bir etiket zaten var."
  failed := "Etiket oluşturulamadı."
  finish _ r :=
    pure (r.1.audit ⟨claims.subject.text, "tag.created", "tag", r.2.id.text⟩, r.2, req.color)

/-! ## Clusters -/

/-- `CreateCluster`. -/
def createCluster (claims : Claims) (req : ClusterRequest) :
    Insertion K8s.AuthMode ClusterAdmin.State (ClusterAdmin.State × String) where
  prepare := req.validateCreate w.lib
  insert mode := w.exec 0
    ((⟨s.db, s.clusters⟩ : ClusterAdmin.State).insertCluster claims.subject w.newID mode req)
  conflict := "Bu isimde bir cluster zaten var."
  failed := "Cluster oluşturulamadı."
  finish mode s :=
    let s := ClusterAdmin.saveCredentials w.svc w.cluster s w.newID.text mode req
    pure (s.audit ⟨claims.subject.text, "admin.k8s_cluster_created", "", ""⟩, w.newID.text)

/-! ## Client certificates -/

structure RegisterCertRequest where
  certPEM : String
  caID : String
  label : Option String

/-- `clientcert.FingerprintFromPEM`. -/
def fingerprintFromPEM (certPEM : String) : Except String (Bytes × ParsedCert) :=
  match w.decodePEM certPEM with
  | none => .error "clientcert: no CERTIFICATE PEM block found"
  | some (kind, der) =>
    if kind ≠ "CERTIFICATE" then .error "clientcert: no CERTIFICATE PEM block found"
    else
      match w.parseCertificate der with
      | .error e => .error ("clientcert: parse cert PEM: " ++ e)
      | .ok cert => .ok ((w.svc.sha256 der).bytes, cert)

/-- The handler's error for a text that is no certificate. -/
def certReply (r : Except String (Bytes × ParsedCert)) : Reply (Bytes × ParsedCert) :=
  match r with
  | .error e => .error (badRequest ("Geçersiz sertifika PEM: " ++ e))
  | .ok found => .ok found

/-- `INSERT INTO client_certificates`, UNIQUE in the fingerprint. -/
def insertCertificate (userID : String) (ca : CertAuthority) (fp : Bytes) (cert : ParsedCert)
    (label : Option String) : Except PgError (State × ClientCertificate) :=
  match castUuid userID, w.castTimestamptz cert.notBefore, w.castTimestamptz cert.notAfter with
  | some user, some notBefore, some notAfter =>
    if [cert.subjectCN, label.getD ""].any (fun t => t.toList.contains '\x00') then
      .error ClusterAdmin.PgError.nulInText
    else if hfree : s.certs.rows.any (·.fingerprintSHA256 = fp) = false then
      if (s.db.user? user).isNone then .error .foreignKeyViolation
      else
        let row : ClientCertificate := ⟨w.newID, user, ca.id, fp, cert.subjectCN, cert.serialNumber,
          notBefore, notAfter, none, label, w.certTime⟩
        .ok ({ s with certs := addCertificate s.certs row hfree }, row)
    else .error .uniqueViolation
  | none, _, _ => .error .invalidText
  | some _, _, _ => .error (pgError "22007")

/-- `RegisterCert`: the answer shows the row and the name of its authority. -/
def registerCert (claims : Claims) (userID : String) (req : RegisterCertRequest) :
    Insertion (Bytes × ParsedCert × CertAuthority) (State × ClientCertificate)
      (State × ClientCertificate × String) where
  prepare := do
    .require (userID ≠ "") (badRequest "id zorunlu.")
    .require (req.certPEM ≠ "" ∧ req.caID ≠ "") (badRequest "cert_pem ve ca_id zorunlu.")
    let found ← certReply (fingerprintFromPEM w req.certPEM)
    let ca ← .orElse
      (if (w.faults 0).isSome then none
        else (castUuid req.caID).bind fun id => s.authorities.find? (·.id = id))
      (badRequest "Belirtilen CA bulunamadı.")
    pure (found.1, found.2, ca)
  insert p := w.exec 1 (insertCertificate w s userID p.2.2 p.1 p.2.1 req.label)
  conflict := "Bu sertifika zaten kayıtlı."
  failed := "Sertifika kaydedilemedi."
  finish p r :=
    pure (r.1.audit ⟨claims.subject.text, "admin.client_cert_registered", "client_certificate",
      r.2.id.text⟩, r.2, p.2.2.name)

end Handlers

/-! ## Requests -/

inductive Request
  | register (req : RegisterRequest)
  | itemCreate (claims : Claims) (req : ItemRequest)
  | createTag (claims : Claims) (req : CreateTagRequest)
  | createCluster (claims : Claims) (req : ClusterRequest)
  | registerCert (claims : Claims) (userID : String) (req : RegisterCertRequest)

/-- What a handler answers, its body left out, and how its INSERT failed. -/
structure Outcome where
  answer : Reply Unit
  failure : Option Failure

def Insertion.outcome {α σ ρ : Type} (h : Insertion α σ ρ) (driver : Driver) : Outcome :=
  ⟨(h.answer driver).map fun _ => (), h.failure⟩

def Request.handle (w : World) (driver : Driver) (s : State) : Request → Outcome
  | .register req => (Conflicts.register w s req).outcome driver
  | .itemCreate claims req => (Conflicts.itemCreate w s claims req).outcome driver
  | .createTag claims req => (Conflicts.createTag w s claims req).outcome driver
  | .createCluster claims req => (Conflicts.createCluster w s claims req).outcome driver
  | .registerCert claims userID req =>
    (Conflicts.registerCert w s claims userID req).outcome driver

/-- The INSERT failed with the SQLSTATE of a unique key that is taken. -/
def Outcome.IsDuplicate (driver : Driver) (o : Outcome) : Prop :=
  ∃ f, o.failure = some f ∧ (driver.report f).as ErrorValue.sqlState = some "23505"

/-- A conflict is answered exactly for a key that is taken. -/
def Outcome.Reported (driver : Driver) (o : Outcome) : Prop :=
  (∃ e, o.answer = .error e ∧ e.status = 409) ↔ o.IsDuplicate driver

/-! ## No conflict is ever answered -/

theorem isUniqueViolation_report (driver : Driver) (f : Failure) :
    isUniqueViolation (driver.report f) = false := by
  rw [isUniqueViolation, Wrapped.as_eq_none (driver.codeMethod_report f)]

section NoConflict

variable {α : Type}

abbrev NoConflict (r : Reply α) : Prop := r.Avoids 409

@[simp] theorem noConflict_check (w : World) (n : Nat) (message : String) :
    NoConflict (w.check n message) := by
  simp only [World.check]
  split <;> simp

@[simp] theorem noConflict_run (w : World) (n : Nat) (r : Except PgError α) (message : String) :
    NoConflict (w.run n r message) := by
  simp [World.run]

theorem noConflict_requireFolderWrite (db : DB) (now : Time) (claims : Claims)
    (folderID queryFailed denied : String) :
    NoConflict (requireFolderWrite db now claims folderID queryFailed denied) := by
  simp only [requireFolderWrite]
  split <;> simp

theorem noConflict_envelopeReply (r : Except EnvelopeError Envelope) :
    NoConflict (envelopeReply r) := by
  simp only [envelopeReply]
  split <;> simp

theorem noConflict_checkKubeconfig (lib : Library) (req : ClusterRequest) :
    NoConflict (req.checkKubeconfig lib) := by
  simp only [ClusterRequest.checkKubeconfig]
  split <;> simp

variable {σ ρ : Type}

/-- Where nothing else answers a conflict, the failure of the INSERT does not either. -/
theorem noConflict_answer {h : Insertion α σ ρ} (driver : Driver) (hprepare : NoConflict h.prepare)
    (hfinish : ∀ a s, NoConflict (h.finish a s)) : NoConflict (h.answer driver) := by
  rw [NoConflict, Insertion.answer, Reply.avoids_bind]
  refine ⟨hprepare, fun a _ => ?_⟩
  cases h.insert a with
  | error f =>
    have hrefusal : h.refusal driver f = internalError h.failed := by
      rw [Insertion.refusal, isUniqueViolation_report, if_neg Bool.false_ne_true]
    simp only [hrefusal, Reply.avoids_error, status_internalError]
    decide
  | ok s => exact hfinish a s

end NoConflict

/-! ## The handlers -/

section Handlers

variable (w : World) (driver : Driver) (s : State)

theorem noConflict_register (req : RegisterRequest) :
    NoConflict ((register w s req).answer driver) := by
  apply noConflict_answer
  · simp [register, validateRegisterRequest]
  · simp [register]

theorem noConflict_itemCreate (claims : Claims) (req : ItemRequest) :
    NoConflict ((itemCreate w s claims req).answer driver) := by
  apply noConflict_answer
  · have hfolder : NoConflict (Reply.unlessAdmin claims do
        w.check 0 "Yetki sorgulanamadı."
        requireFolderWrite s.db w.now claims req.folderID "Yetki sorgulanamadı."
          "Bu klasörde yazma yetkiniz yok.") := by
      apply Reply.avoids_unlessAdmin
      simp [noConflict_requireFolderWrite]
    simp [itemCreate, validateItemCreate, hfolder, noConflict_envelopeReply]
  · simp [itemCreate]

theorem noConflict_createTag (claims : Claims) (req : CreateTagRequest) :
    NoConflict ((createTag w s claims req).answer driver) := by
  apply noConflict_answer <;> simp [createTag]

theorem noConflict_createCluster (claims : Claims) (req : ClusterRequest) :
    NoConflict ((createCluster w s claims req).answer driver) := by
  apply noConflict_answer
  · simp only [createCluster, ClusterRequest.validateCreate, ClusterRequest.mode, Reply.avoids_bind,
      Reply.avoids_require, Reply.avoids_orElse]
    simp
    intro _ _ mode _ _ _
    split <;> simp [noConflict_checkKubeconfig]
  · simp [createCluster]

theorem noConflict_registerCert (claims : Claims) (userID : String) (req : RegisterCertRequest) :
    NoConflict ((registerCert w s claims userID req).answer driver) := by
  apply noConflict_answer
  · have hcert : NoConflict (certReply (fingerprintFromPEM w req.certPEM)) := by
      simp only [certReply]
      split <;> simp
    simp [registerCert, hcert]
  · simp [registerCert]

theorem noConflict_handle (req : Request) : NoConflict (req.handle w driver s).answer := by
  have hmap : ∀ {α : Type} {r : Reply α}, NoConflict r → NoConflict (r.map fun _ => ()) :=
    fun h => Reply.avoids_map.mpr h
  cases req with
  | register req => exact hmap (noConflict_register w driver s req)
  | itemCreate claims req => exact hmap (noConflict_itemCreate w driver s claims req)
  | createTag claims req => exact hmap (noConflict_createTag w driver s claims req)
  | createCluster claims req => exact hmap (noConflict_createCluster w driver s claims req)
  | registerCert claims userID req =>
    exact hmap (noConflict_registerCert w driver s claims userID req)

/-- The handlers report a key that is taken exactly where there is none to report. -/
theorem conflicts_reported_iff (req : Request) :
    (req.handle w driver s).Reported driver ↔ ¬ (req.handle w driver s).IsDuplicate driver := by
  have hnone : ¬ ∃ e, (req.handle w driver s).answer = .error e ∧ e.status = 409 := by
    rintro ⟨e, hanswer, hstatus⟩
    exact noConflict_handle w driver s req e hanswer hstatus
  rw [Outcome.Reported, iff_false_left hnone]

end Handlers

/-! ## The handlers on a database that answers -/

section Faultless

variable (w : World) (driver : Driver) (s : State)

theorem row_codeMethod {svc : Service} {now : Time} {n : NewItem} {e : PgError}
    (h : n.row svc now = .error e) : e.codeMethod = none := by
  simp only [NewItem.row] at h
  split at h
  · split at h
    · cases h
      rfl
    · split at h
      · split at h
        · cases h
        · cases h
          rfl
      · cases h
        rfl
  · cases h
    rfl
  · cases h
    rfl

theorem insertItemRow_codeMethod {claims : Claims} {req : ItemRequest} {envelope : Envelope}
    {e : PgError} (h : insertItemRow w s claims req envelope = .error e) : e.codeMethod = none := by
  simp only [insertItemRow] at h
  split at h
  · cases h
    rfl
  · simp only [insertItem, OnConflict.taken] at h
    split at h
    · next hrow =>
      cases h
      exact row_codeMethod hrow
    · split at h
      · cases h
        rfl
      · split at h
        · cases h
        · cases h
          rfl

/-- The statement of the item, as the handler on the tables alone has it. -/
theorem createItemRow_eq (hfaults : ∀ n, w.faults n = none) (claims : Claims)
    (req : ItemRequest) (envelope : Envelope) :
    createItemRow w.svc s.db w.now claims req envelope =
      match (itemCreate w s claims req).insert envelope with
      | .error f => .error ((itemCreate w s claims req).refusal driver f)
      | .ok db => .ok db := by
  have hrefusal : ∀ f, (itemCreate w s claims req).refusal driver f =
      internalError "Item kaydedilemedi." := by
    intro f
    rw [Insertion.refusal, isUniqueViolation_report, if_neg Bool.false_ne_true]
    rfl
  have hinsert : (itemCreate w s claims req).insert envelope =
      (insertItemRow w s claims req envelope).mapError fun e => .refused e.sqlState := by
    simp only [itemCreate, World.exec, hfaults]
  simp only [hinsert, hrefusal]
  have hcode := @insertItemRow_codeMethod w s claims req envelope
  simp only [createItemRow, insertItemRow] at hcode ⊢
  cases hcast : castExpiresAt w.svc req.expiresAt with
  | none => rfl
  | some expiresAt =>
    simp only [hcast] at hcode
    cases hrow : insertItem .fail w.svc s.db w.now
        (req.newItem w.svc claims envelope expiresAt) with
    | ok db => simp only [hrow, Except.mapError]
    | error e =>
      have hno : IronStock.isUniqueViolation e = false := by
        simp [IronStock.isUniqueViolation, hcode hrow]
      simp only [hrow, Except.mapError, hno, Bool.false_eq_true, if_false]

/-- Where no step fails `Create` is the handler on the tables alone. -/
theorem itemCreate_answer (hfaults : ∀ n, w.faults n = none) (claims : Claims)
    (req : ItemRequest) :
    (itemCreate w s claims req).answer driver =
      IronStock.itemCreate w.svc s.db w.now claims w.draw req := by
  have hcheck : ∀ n message, w.check n message = .ok () := by
    intro n message
    simp [World.check, hfaults]
  have hrun : ∀ {α : Type} n (r : Except PgError α) message,
      w.run n r message = statement r message := by
    intro α n r message
    rw [World.run, hcheck]
    rfl
  have hok : ∀ {β : Type} (f : Unit → Reply β), (Except.ok () >>= f : Reply β) = f () := by
    intro β f
    rfl
  simp only [IronStock.itemCreate, createItemRow_eq w driver s hfaults]
  simp only [Insertion.answer, itemCreate, hcheck, hrun, hok, bind_assoc, pure_bind]
  refine bind_congr fun _ => bind_congr fun _ => bind_congr fun envelope => ?_
  cases w.exec 2 (insertItemRow w s claims req envelope) <;> rfl

end Faultless

/-! ## A tag that is there already -/

/-- The error of a query, which wraps that of the server. -/
def plainDriver : Driver where
  report
    | .refused code => .wrap (.other "query" none) (.bare (.pgError code))
    | .lost cause => .bare (.other cause none)
  sqlState_report _ := rfl
  codeMethod_report
    | .refused code => by
      intro v hv
      rw [Wrapped.values_wrap, Wrapped.values_bare] at hv
      rcases List.mem_cons.mp hv with rfl | hv
      · rfl
      · rw [List.mem_singleton.mp hv]
        rfl
    | .lost cause => by
      intro v hv
      rw [Wrapped.values_bare, List.mem_singleton] at hv
      rw [hv]
      rfl

def quietWorld : World where
  svc := sampleService
  lib := ClusterAdmin.plainLibrary
  decodePEM _ := none
  parseCertificate _ := .error ""
  castTimestamptz _ := none
  now := 0
  certTime := .infinity
  newID := Uuid.ofNat 21
  salt := []
  draw := ⟨List.replicate keyLength 0, sampleNonce, sampleNonce, length_zeroKey⟩
  cluster := ClusterAdmin.smoothly
  faults _ := none

/-- The user 1 has a tag "db". -/
def taggedState : State where
  db := { users := [sampleUser 1 "ada"] }
  tags := [⟨Uuid.ofNat 20, "db", Uuid.ofNat 1⟩]
  clusters := []
  authorities := []
  certs := ⟨[], List.nodup_nil⟩

def secondTag : Request := .createTag ⟨Uuid.ofNat 1, []⟩ ⟨"db", none⟩

/-- The second tag of one name is answered with 500. -/
theorem createTag_duplicate_not_reported :
    ¬ ∀ (w : World) (driver : Driver) (s : State) (req : Request),
      (req.handle w driver s).Reported driver := by
  intro h
  have hduplicate : (secondTag.handle quietWorld plainDriver taggedState).IsDuplicate
      plainDriver := ⟨.refused "23505", by rfl, rfl⟩
  obtain ⟨e, hanswer, hstatus⟩ := (h quietWorld plainDriver taggedState secondTag).mpr hduplicate
  exact noConflict_handle quietWorld plainDriver taggedState secondTag e hanswer hstatus

end IronStock.Conflicts

import IronStock.Service
import IronStock.Permissions

/-!
# Folder handlers

`POST /api/v1/folders` and `PUT /api/v1/folders/{id}`. Both check the caller's
level through the folder resolver and leave the rest to the schema: the foreign
key on the parent and the CHECK against a folder that is its own parent.
-/
namespace IronStock

structure FolderRequest where
  name : String
  parentID : Option String
  position : Int

structure FolderResponse where
  id : Uuid
  parentID : Option String
  name : String
  position : Int
  createdBy : Uuid
  createdAt : String
  updatedAt : String
  permission : Perm
deriving DecidableEq

def validateFolderRequest (req : FolderRequest) : Reply Unit := do
  .require (req.name ≠ "") (badRequest "name zorunlu")
  .require (req.name.utf8ByteSize ≤ 200) (badRequest "name 200 karakterden uzun olamaz")

/-- A folder the caller must have write on, with the messages for a failed
query and for a refusal. -/
def requireFolderWrite (db : DB) (now : Time) (claims : Claims) (folderID : String)
    (queryFailed denied : String) : Reply Unit :=
  match resolveFolderPermission db now claims.subject folderID with
  | .error _ => .error (internalError queryFailed)
  | .ok perm => .require (perm.allowsWrite = true) ⟨403, errCodeUnauthorized, denied⟩

/-- The envelope columns of a folder name, with the nonce drawn for it. -/
def encryptFolderName (svc : Service) (nonce : Nonce) (name : String) : Bytes :=
  svc.master.sealBlob nonce (bytesOf name) (makeAAD "folders" "*" "name_enc")

/-- `nullableUUID` and the cast of what it passes on. -/
def castParentID : Option String → Option (Option Uuid)
  | none => some none
  | some s => castNullableUuid s

/-! ## Statements -/

/-- The `INSERT INTO folders`. -/
def insertFolder (db : DB) (now : Time) (newID : Uuid) (parentID : Option String)
    (nameEnc : Bytes) (nameNonce : Nonce) (nameSearch : Bytes) (position : Int)
    (createdBy : Uuid) : Except PgError DB :=
  if ¬ isInt4 position then .error .outOfRange
  else match castParentID parentID with
  | none => .error .invalidText
  | some parent =>
    if h : parent = some newID then .error .checkViolation
    else if (db.folder? newID).isSome then .error .uniqueViolation
    else if (db.user? createdBy).isNone ∨ ¬ parent.all (fun p => (db.folder? p).isSome) then
      .error .foreignKeyViolation
    else .ok { db with folders := db.folders ++
      [⟨newID, parent, nameEnc, nameNonce, nameSearch, position, createdBy, now, now, h⟩] }

/-- The columns an accepted update sets. The CHECK has passed, so a row that
could not take the parent does not occur. -/
def Folder.set (f : Folder) (parent : Option Uuid) (nameEnc : Bytes) (nameNonce : Nonce)
    (nameSearch : Bytes) (position : Int) (now : Time) : Folder :=
  if h : parent ≠ some f.id then
    { f with
      parentId := parent, nameEnc := nameEnc, nameNonce := nameNonce, nameSearch := nameSearch,
      position := position, updatedAt := now, noSelfParent := h }
  else f

/-- The `UPDATE folders … WHERE id = $1::uuid`. No row is no error. -/
def updateFolder (db : DB) (now : Time) (id : String) (parentID : Option String)
    (nameEnc : Bytes) (nameNonce : Nonce) (nameSearch : Bytes) (position : Int) :
    Except PgError DB :=
  if ¬ isInt4 position then .error .outOfRange
  else match castUuid id, castParentID parentID with
  | some id, some parent =>
    if (db.folder? id).isNone then .ok db
    else if parent = some id then .error .checkViolation
    else if ¬ parent.all (fun p => (db.folder? p).isSome) then .error .foreignKeyViolation
    else
      let set (f : Folder) := f.set parent nameEnc nameNonce nameSearch position now
      .ok { db with folders := Table.updateWhere (·.id = id) set db.folders }
  | _, _ => .error .invalidText

/-- The value of a statement, or the handler's error for a failed one. -/
def statement {α : Type} (r : Except PgError α) (message : String) : Reply α :=
  match r with
  | .ok a => .ok a
  | .error _ => .error (internalError message)

@[simp] theorem statement_eq_ok {α : Type} {r : Except PgError α} {message : String} {a : α} :
    statement r message = .ok a ↔ r = .ok a := by
  unfold statement
  split <;> simp_all

/-! ## Handlers -/

/-- The permission gate of `Create`: a root folder needs the admin role, a
sub-folder write on its parent. -/
def requireFolderCreate (db : DB) (now : Time) (claims : Claims) : Option String → Reply Unit
  | none =>
    .require (claims.hasRole .admin = true)
      ⟨403, errCodeUnauthorized, "Kök klasör oluşturmak için admin yetkisi gerekli."⟩
  | some parent =>
    .unlessAdmin claims
      (requireFolderWrite db now claims parent "Yetki sorgulanamadı."
        "Bu klasörde yazma yetkiniz yok.")

/-- `FolderHandlers.Create`, with the id and the nonce drawn for the row. -/
def folderCreate (svc : Service) (db : DB) (now : Time) (claims : Claims) (newID : Uuid)
    (nonce : Nonce) (req : FolderRequest) : Reply (DB × FolderResponse) := do
  validateFolderRequest req
  requireFolderCreate db now claims req.parentID
  let nameEnc := encryptFolderName svc nonce req.name
  let nameNonce ← .orElse (extractNonce nameEnc) (internalError "Klasör kaydedilemedi.")
  let nameSearch ← .orElse (svc.searchHash req.name)
    (internalError "Klasör adı index'i üretilemedi.")
  let db' ← statement
    (insertFolder db now newID req.parentID nameEnc nameNonce nameSearch req.position
      claims.subject)
    "Klasör kaydedilemedi."
  pure (db'.audit ⟨claims.subject.text, "folder.created", "folder", newID.text⟩,
    { id := newID, parentID := req.parentID, name := req.name, position := req.position,
      createdBy := claims.subject, createdAt := svc.timestampText now,
      updatedAt := svc.timestampText now, permission := .write })

/-- Write on the destination parent, if the request names one. -/
def requireDestination (db : DB) (now : Time) (claims : Claims) : Option String → Reply Unit
  | none => .ok ()
  | some parent =>
    requireFolderWrite db now claims parent "Hedef klasör yetkisi sorgulanamadı."
      "Hedef klasörde yazma yetkisi yok."

/-- `FolderHandlers.Update`. -/
def folderUpdate (svc : Service) (db : DB) (now : Time) (claims : Claims) (id : String)
    (nonce : Nonce) (req : FolderRequest) : Reply DB := do
  .require (id ≠ "") (badRequest "id zorunlu.")
  validateFolderRequest req
  .unlessAdmin claims do
    requireFolderWrite db now claims id "Yetki sorgulanamadı." "Yazma yetkisi yok."
    requireDestination db now claims req.parentID
  let nameEnc := encryptFolderName svc nonce req.name
  let nameNonce ← .orElse (extractNonce nameEnc) (internalError "Klasör güncellenemedi.")
  let nameSearch ← .orElse (svc.searchHash req.name)
    (internalError "Klasör adı index'i üretilemedi.")
  let db' ← statement
    (updateFolder db now id req.parentID nameEnc nameNonce nameSearch req.position)
    "Klasör güncellenemedi."
  pure (db'.audit ⟨claims.subject.text, "folder.updated", "folder", id⟩)

end IronStock

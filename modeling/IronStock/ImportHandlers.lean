import IronStock.FolderHandlers
import IronStock.ItemRows
import IronStock.Lib.Runs

/-!
# Bulk import

`POST /api/v1/import/batch`. The elements of a batch are handled one after the
other without a transaction; an element that fails is reported by name and the
loop goes on. The item row is inserted with `ON CONFLICT (id) DO NOTHING`, and
the statements after it run whether or not it inserted anything.
-/
namespace IronStock

structure BatchImportItem where
  id : String
  folderID : String
  itemTypeID : Int
  name : String
  description : String
  fields : List ItemFieldInput
  ownerDEKWrapped : Bytes
  ownerWrapNonce : Bytes
  expiresAt : Option Time
  rotationIntervalDays : Option Int

/-- An element of the batch with the time its statements see and what is drawn
for it. -/
structure ImportElem where
  now : Time
  draw : EnvelopeDraw
  item : BatchImportItem

/-- An entry of `errors`: its text, followed by the text of the driver's error
if there is one. -/
structure ImportError where
  text : String
  cause : Option PgError
deriving DecidableEq

structure BatchImportResponse where
  created : Nat
  errors : List ImportError
deriving DecidableEq

/-- Whether the caller may write to the folder the request names. A failed
query counts as no. -/
def mayImportInto (db : DB) (now : Time) (claims : Claims) (folderID : String) : Bool :=
  claims.hasRole .admin ||
    match resolveFolderPermission db now claims.subject folderID with
    | .error _ => false
    | .ok perm => perm.allowsWrite

/-- The checks before the first statement, and its parameters. -/
def prepareImport (svc : Service) (db : DB) (claims : Claims) (e : ImportElem) :
    Except ImportError NewItem :=
  let it := e.item
  if it.id = "" ∨ it.folderID = "" ∨ it.name = "" then .error ⟨"id/folder_id/name zorunlu", none⟩
  else if it.ownerDEKWrapped.length = 0 ∨ it.ownerWrapNonce.length = 0 then
    .error ⟨it.name ++ ": dek wrap eksik", none⟩
  else if mayImportInto db e.now claims it.folderID = false then
    .error ⟨it.name ++ ": klasör yazma yetkisi yok", none⟩
  else
    match sealItemName svc e.draw it.id it.name with
    | .error .cipher => .error ⟨it.name ++ ": cipher hatası — ", none⟩
    | .error .searchHash => .error ⟨it.name ++ ": search hash hatası — ", none⟩
    | .ok envelope => .ok {
        id := it.id, folderID := it.folderID, itemTypeID := it.itemTypeID
        envelope := envelope, namePlain := svc.toLower it.name
        description := some it.description, externalSource := none
        createdBy := claims.subject, expiresAt := it.expiresAt
        rotationIntervalDays := it.rotationIntervalDays }

/-- Whether the plain `INSERT INTO item_fields` would go through. -/
def fieldInsertable (db : DB) (itemID : Uuid) (f : ItemFieldInput) : Bool :=
  (checkFieldValue f.valueEnc f.valueNonce).isOk && !(db.hasField itemID f.fieldDefinitionID) &&
    db.fieldReferencesExist itemID f.fieldDefinitionID

/-- One field of an imported item; its error is logged only. -/
def importField (db : DB) (itemID : Uuid) (f : ItemFieldInput) : DB :=
  match checkFieldValue f.valueEnc f.valueNonce with
  | .error _ => db
  | .ok value =>
    if db.hasField itemID f.fieldDefinitionID then db
    else if db.fieldReferencesExist itemID f.fieldDefinitionID then
      db.addField itemID f.fieldDefinitionID value 0
    else db

/-- The fields of an imported item. The id has been cast before. -/
def importFields (db : DB) (itemID : String) (fields : List ItemFieldInput) : DB :=
  match castUuid itemID with
  | none => db
  | some item => Runs.run (importField · item ·) db fields

/-- One round of the loop: the new state, and the error unless it counted. -/
def importItem (svc : Service) (db : DB) (claims : Claims) (e : ImportElem) :
    DB × Option ImportError :=
  match prepareImport svc db claims e with
  | .error err => (db, some err)
  | .ok n =>
    match insertItem .doNothing svc db e.now n with
    | .error err => (db, some ⟨e.item.name ++ ": insert hatası — ", some err⟩)
    | .ok db₁ =>
      match insertOwnerShare .doNothing db₁ e.item.id claims.subject e.item.ownerDEKWrapped
          e.item.ownerWrapNonce with
      | .error err => (db₁, some ⟨e.item.name ++ ": owner share hatası — ", some err⟩)
      | .ok db₂ =>
        ((importFields db₂ e.item.id e.item.fields).audit
          ⟨claims.subject.text, "item.imported", "item", e.item.id⟩, none)

/-- The loop's variables. -/
structure ImportState where
  db : DB
  created : Nat
  errors : List ImportError

def importStep (svc : Service) (claims : Claims) (s : ImportState) (e : ImportElem) :
    ImportState :=
  match importItem svc s.db claims e with
  | (db, some err) => { s with db := db, errors := s.errors ++ [err] }
  | (db, none) => { s with db := db, created := s.created + 1 }

def importLoop (svc : Service) (db : DB) (claims : Claims) (batch : List ImportElem) :
    ImportState :=
  Runs.run (importStep svc claims) ⟨db, 0, []⟩ batch

/-- `ItemHandlers.BatchImport`. -/
def batchImport (svc : Service) (db : DB) (claims : Claims) (batch : List ImportElem) :
    DB × Reply BatchImportResponse :=
  if batch.length = 0 then (db, .error (badRequest "items boş."))
  else if batch.length > 1000 then
    (db, .error (badRequest "Tek seferde en fazla 1000 item import edilebilir."))
  else
    let s := importLoop svc db claims batch
    (s.db, .ok ⟨s.created, s.errors⟩)

end IronStock

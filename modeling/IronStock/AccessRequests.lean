import IronStock.ItemReads
import IronStock.Lib.Interleaving

/-!
# Access requests

`access_request_handlers.go`, statement by statement, with the check of the
approval gate as a request of its own. The rest of the database is what each
statement finds there. The audit entries and the events are left out.
-/
namespace IronStock

open Interleaving

/-- A row of `access_requests` with all its columns. -/
structure AccessRequestRow extends AccessRequest where
  reason : Option String
  approvedBy : Option Uuid

structure ApprovalState where
  clock : Time := 0
  requests : List AccessRequestRow := []

/-- What a statement finds outside the table, and how much later it runs. -/
structure ApprovalMoment where
  elapsed : Nat
  db : DB

def minute : Time := 60 * 1000000

/-- 24 h in minutes. -/
def maxAccessMinutes : Int := 1440

/-- `timeoutMW` of the router. -/
def requestTimeout : Time := 30 * 1000000

/-- The duration `CreateAccessRequest` stores. -/
def requestedMinutes (n : Int) : Int :=
  let n := if n ≤ 0 then 60 else n
  if maxAccessMinutes < n then maxAccessMinutes else n

/-- The duration `ApproveAccessRequest` grants: the admin may override the one
requested. -/
def approvedMinutes (override : Option Int) (requested : Int) : Int :=
  let n := match override with
    | some n => if 0 < n then n else requested
    | none => requested
  if maxAccessMinutes < n then maxAccessMinutes else n

namespace AccessRequestRow

def isPending (r : AccessRequestRow) : Bool := r.status = .pending

/-- The row of the `INSERT`, the other columns at their defaults. -/
def requested (id item requester : Uuid) (reason : String) (minutes : Int) (now : Time) :
    AccessRequestRow where
  id := id
  itemId := item
  requesterId := requester
  status := .pending
  accessDurationMinutes := minutes
  requestedAt := now
  respondedAt := none
  expiresAt := none
  denyReason := none
  reason := if reason = "" then none else some reason
  approvedBy := none

def approve (r : AccessRequestRow) (now : Time) (approver : Uuid) (expiresAt : Time)
    (minutes : Int) : AccessRequestRow :=
  { r with
    status := .approved, approvedBy := some approver, respondedAt := some now
    expiresAt := some expiresAt, accessDurationMinutes := minutes }

def deny (r : AccessRequestRow) (now : Time) (reason : String) : AccessRequestRow :=
  { r with status := .denied, denyReason := some reason, respondedAt := some now }

def cancel (r : AccessRequestRow) (now : Time) : AccessRequestRow :=
  { r with status := .cancelled, respondedAt := some now }

def expire (r : AccessRequestRow) : AccessRequestRow := { r with status := .expired }

end AccessRequestRow

/-! ## The table -/

namespace ApprovalState

def tick (s : ApprovalState) (elapsed : Nat) : ApprovalState :=
  { s with clock := s.clock + elapsed }

/-- The database with this table. -/
def inDB (s : ApprovalState) (db : DB) : DB :=
  { db with accessRequests := s.requests.map AccessRequestRow.toAccessRequest }

/-- The `INSERT`, with `idx_ar_pending_unique`. -/
def insertRequest (s : ApprovalState) (db : DB) (row : AccessRequestRow) :
    Except PgError ApprovalState :=
  if ¬ (s.requests.all fun r => r.id ≠ row.id ∧
      ¬ (r.isPending ∧ r.itemId = row.itemId ∧ r.requesterId = row.requesterId)) then
    .error .uniqueViolation
  else if ¬ ((db.item? row.itemId).isSome ∧ (db.user? row.requesterId).isSome) then
    .error .foreignKeyViolation
  else .ok { s with requests := s.requests ++ [row] }

/-- `SELECT … WHERE id = $1 AND status = 'pending'`. -/
def pending? (s : ApprovalState) (id : Uuid) : Option AccessRequestRow :=
  s.requests.find? fun r => r.id = id ∧ r.isPending

/-- `UPDATE … SET f WHERE p AND status = 'pending'`, if a row was affected. -/
def updatePending (s : ApprovalState) (p : AccessRequestRow → Bool)
    (f : AccessRequestRow → AccessRequestRow) : Option ApprovalState :=
  if s.requests.any fun r => p r && r.isPending then
    some { s with requests := Table.updateWhere (fun r => p r && r.isPending) f s.requests }
  else none

/-- A request that has outlived its approval. -/
def isStale (s : ApprovalState) (item user : Uuid) (r : AccessRequestRow) : Bool :=
  r.itemId = item ∧ r.requesterId = user ∧ r.status = .approved ∧ r.expiresAt.any (· ≤ s.clock)

/-- The `UPDATE` of `hasActiveApproval`. -/
def expire (s : ApprovalState) (item user : Uuid) : ApprovalState :=
  { s with requests := Table.updateWhere (s.isStale item user) AccessRequestRow.expire s.requests }

/-- On the table, `expire` is what the approval gate does. -/
theorem inDB_expire (s : ApprovalState) (db : DB) (item user : Uuid) :
    (s.expire item user).inDB db = (s.inDB db).expireApprovals s.clock item user := by
  simp only [inDB, expire, DB.expireApprovals, Table.updateWhere, List.map_map]
  congr 1
  apply List.map_congr_left
  intro r _
  exact apply_ite AccessRequestRow.toAccessRequest _ _ _

end ApprovalState

/-- `hasActiveApproval` -/
def hasActiveApproval (db : DB) (now : Time) (itemID userID : Uuid) : DB × Bool :=
  let db := db.expireApprovals now itemID userID
  (db, db.hasActiveApproval now itemID userID)

/-! ## The handlers -/

/-- A request comes with the id `gen_random_uuid()` draws for it. The body of
`approve` is optional; for one that does not decode the error has been sent
before the handler goes on without it. -/
inductive ApprovalRequest
  | create (claims : Claims) (itemID reason : String) (minutes : Int) (id : Uuid)
  | approve (claims : Claims) (reqID : String) (override : Option Int)
  | deny (claims : Claims) (reqID reason : String)
  | cancel (claims : Claims) (reqID : String)
  | check (item user : Uuid)

/-- What is left of a request. `stamp` is `Approve` before it reads the clock; a
statement after the deadline is not sent any more. -/
inductive ApprovalCall
  | request (r : ApprovalRequest)
  | insert (claims : Claims) (itemID reason : String) (minutes : Int) (id : Uuid)
  | stamp (claims : Claims) (id : Uuid) (minutes : Int) (deadline : Time)
  | approve (claims : Claims) (id : Uuid) (minutes : Int) (expiresAt deadline : Time)
  | deny (id : Uuid) (reason : String)
  | select (item user : Uuid)

inductive ApprovalAnswer
  | created (row : AccessRequestRow)
  | noContent
  | checked (active : Bool)
  | failed (e : ApiError)

def notAdmin : ApiError := ⟨403, errCodeForbidden, "Admin yetkisi gerekli."⟩
def noPendingRequest : ApiError := ⟨404, errCodeBadRequest, "Bekleyen onay isteği bulunamadı."⟩
def alreadyRequested : ApiError :=
  ⟨409, errCodeConflict, "Bu item için zaten bekleyen bir onay isteğiniz var."⟩

/-- The requester must have at least read permission on the item. -/
def requireRequestable (db : DB) (now : Time) (claims : Claims) (itemID : String) : Reply Unit :=
  .unlessAdmin claims
    (match resolveItemPermission db now claims.subject itemID with
      | .error _ => .error ⟨404, errCodeBadRequest, "Item bulunamadı."⟩
      | .ok p => .require p.allowsRead ⟨404, errCodeBadRequest, "Item bulunamadı."⟩)

/-- The pending request an admin is about to answer. -/
def fetchPending (s : ApprovalState) (claims : Claims) (reqID : String) :
    Reply AccessRequestRow := do
  .require (claims.hasRole .admin) notAdmin
  .orElse ((castUuid reqID).bind s.pending?) noPendingRequest

/-- The first statement of a request. -/
def ApprovalRequest.exec (db : DB) (s : ApprovalState) :
    ApprovalRequest → ApprovalState × (ApprovalCall ⊕ ApprovalAnswer)
  | .create claims itemID reason minutes id =>
    match requireRequestable db s.clock claims itemID with
    | .error e => (s, .inr (.failed e))
    | .ok () => (s, .inl (.insert claims itemID reason (requestedMinutes minutes) id))
  | .approve claims reqID override =>
    match fetchPending s claims reqID with
    | .error e => (s, .inr (.failed e))
    | .ok row =>
      let minutes := approvedMinutes override row.accessDurationMinutes
      (s, .inl (.stamp claims row.id minutes (s.clock + requestTimeout)))
  | .deny claims reqID reason =>
    match fetchPending s claims reqID with
    | .error e => (s, .inr (.failed e))
    | .ok row => (s, .inl (.deny row.id reason))
  | .cancel claims reqID =>
    let cancelled := (castUuid reqID).bind fun id =>
      s.updatePending (fun r => r.id = id ∧ r.requesterId = claims.subject) (·.cancel s.clock)
    match cancelled with
    | none => (s, .inr (.failed noPendingRequest))
    | some s' => (s', .inr .noContent)
  | .check item user => (s.expire item user, .inl (.select item user))

/-- The next statement of a request, on a clock that has moved on. -/
def ApprovalCall.exec (m : ApprovalMoment) (s : ApprovalState) (call : ApprovalCall) :
    ApprovalState × (ApprovalCall ⊕ ApprovalAnswer) :=
  let s := s.tick m.elapsed
  match call with
  | .request r => r.exec m.db s
  | .insert claims itemID reason minutes id =>
    match castUuid itemID with
    | none => (s, .inr (.failed (internalError "Onay isteği oluşturulamadı.")))
    | some item =>
      let row := AccessRequestRow.requested id item claims.subject reason minutes s.clock
      match s.insertRequest m.db row with
      | .error e =>
        (s, .inr (.failed (if isUniqueViolation e then alreadyRequested
          else internalError "Onay isteği oluşturulamadı.")))
      | .ok s' => (s', .inr (.created row))
  | .stamp claims id minutes deadline =>
    (s, .inl (.approve claims id minutes (s.clock + minutes * minute) deadline))
  | .approve claims id minutes expiresAt deadline =>
    let approved :=
      if s.clock ≤ deadline ∧ (m.db.user? claims.subject).isSome then
        s.updatePending (·.id = id) (·.approve s.clock claims.subject expiresAt minutes)
      else none
    match approved with
    | none =>
      (s, .inr (.failed ⟨409, errCodeConflict, "İstek onaylanamadı (zaten işlenmiş olabilir)."⟩))
    | some s' => (s', .inr .noContent)
  | .deny id reason =>
    match s.updatePending (·.id = id) (·.deny s.clock reason) with
    | none => (s, .inr (.failed ⟨409, errCodeConflict, "İstek reddedilemedi."⟩))
    | some s' => (s', .inr .noContent)
  | .select item user =>
    (s, .inr (.checked ((s.inDB m.db).hasActiveApproval s.clock item user)))

/-- The handlers as calls on the table. -/
def accessRequestHandlers :
    Program ApprovalState ApprovalRequest ApprovalCall ApprovalAnswer ApprovalMoment where
  enter := .request
  exec m s call := call.exec m s

end IronStock

import IronStock.Database
import IronStock.Lib.RetriedAppend

/-!
# The audit writer

`audit.Writer.Write`: one INSERT with RETURNING and, whatever error that one
gives, the same INSERT again without it. The columns have their types and the
CHECKs of `audit_log`: the user agent is a `text`, the details a `jsonb`, the
address an `inet`.
-/
namespace IronStock

open RetriedAppend

/-- `netip.Addr`; a link-local address may have a zone. -/
structure Addr where
  ip : String
  zone : String
deriving DecidableEq

/-- A value of `Details`, its strings as the request spells them. -/
inductive Detail
  | text (s : Bytes)
  | texts (l : List Bytes)
  | flag (b : Bool)
  | number (n : Int)
deriving DecidableEq

/-- A `text` value: valid UTF-8 and no zero byte. -/
def isText (b : Bytes) : Bool := (ByteArray.mk b.toArray).validateUTF8 && !b.contains 0

/-- A `jsonb` value. The encoder replaces what is not UTF-8, but it writes a
zero byte as the escape that `jsonb` refuses. -/
def Detail.isJsonb : Detail → Bool
  | .text s => !s.contains 0
  | .texts l => l.all (!·.contains 0)
  | .flag _ | .number _ => true

namespace Audit

/-- `audit.Entry`. -/
structure Entry where
  actorUserID : String
  action : String
  resourceType : String
  resourceID : String
  details : List (String × Detail)
  ipAddress : Option Addr
  userAgent : Bytes

/-- The columns the CHECKs and the foreign key are about. -/
def Entry.columns (e : Entry) : AuditEntry :=
  ⟨e.actorUserID, e.action, e.resourceType, e.resourceID⟩

/-- The other parameters have the types of their columns; `inet` knows no
zones. -/
def Entry.isTyped (e : Entry) : Bool :=
  isText e.userAgent && e.details.all (·.2.isJsonb) && e.ipAddress.all (·.zone = "")

/-- The row of an entry, if the statement accepts it. -/
def Entry.row (e : Entry) (db : DB) : Option AuditRow :=
  if e.isTyped then e.columns.row db else none

/-- What `Write` leaves: the tables, its error, and what the forwarders got. -/
structure Written where
  db : DB
  err : Option String
  published : Option Entry

/-- `Writer.Write`. Only an entry whose id came back is published. -/
def write (db : DB) (e : Entry) (l : Link) : Written :=
  if e.action = "" then ⟨db, some "audit: action is required", none⟩
  else
    match append db.auditLog (e.row db) l.first with
    | (log, true) => ⟨{ db with auditLog := log }, none, some e⟩
    | (log, false) =>
      match append log (e.row db) l.second with
      | (log, true) => ⟨{ db with auditLog := log }, none, none⟩
      | (log, false) => ⟨{ db with auditLog := log }, some "audit: insert", none⟩

section Write
variable (db : DB) (e : Entry) (l : Link)

theorem row_eq_none_of_action (h : e.action = "") : e.row db = none := by
  unfold Entry.row AuditEntry.row
  split
  · split
    · rw [if_neg]
      rintro ⟨-, hlen, -⟩
      simp [Entry.columns, h] at hlen
    · rfl
  · rfl

/-- What a write adds to the log, on every path through the connection. -/
theorem write_db :
    (write db e l).db =
      { db with auditLog := db.auditLog ++ (e.row db).elim [] (List.replicate l.copies) } := by
  obtain ⟨first, second⟩ := l
  by_cases hact : e.action = ""
  · rw [row_eq_none_of_action db e hact]
    simp [write, hact]
  · cases hrow : e.row db with
    | none => simp [write, hact, hrow]
    | some row =>
      cases first <;> cases second <;>
        simp [write, hact, hrow, append, Link.copies, Delivery.effect, List.replicate]

/-- Over a sound connection the writer is the one insert the handlers rely on. -/
theorem write_sound (h : e.isTyped = true) : (write db e .sound).db = db.audit e.columns := by
  rw [write_db, Entry.row, if_pos h]
  unfold DB.audit
  cases e.columns.row db <;> rfl

/-- A write that reports no error has left at least one row. -/
theorem write_err (h : (write db e l).err = none) :
    (e.row db).isSome = true ∧ 1 ≤ l.copies := by
  obtain ⟨first, second⟩ := l
  by_cases hact : e.action = ""
  · simp [write, hact] at h
  · cases hrow : e.row db with
    | none => simp [write, hact, hrow] at h
    | some row =>
      cases first <;> cases second <;>
        simp_all [write, append, Link.copies, Delivery.effect]

/-- The forwarders hear of an entry exactly when its first INSERT is answered,
and then it is in the log once. -/
theorem write_published (h : (write db e l).published ≠ none) :
    l.first = .answered ∧ (e.row db).isSome = true := by
  obtain ⟨first, second⟩ := l
  by_cases hact : e.action = ""
  · simp [write, hact] at h
  · cases hrow : e.row db with
    | none => simp [write, hact, hrow] at h
    | some row =>
      cases first <;> cases second <;> simp_all [write, append]

end Write

end Audit

end IronStock

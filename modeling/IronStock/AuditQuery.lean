import IronStock.AuditWriter
import IronStock.ItemSearch
import IronStock.Lib.ByteaText
import IronStock.Lib.Runes
import IronStock.Lib.TimeLayouts
import IronStock.Lib.TimestampText

/-!
# The audit query

`GET /api/v1/admin/audit-log`. The filters of the query string become conditions with numbered
placeholders; the page is aggregated into one array for each column, which the handler puts
together again by index. The details go through `details::text::bytea`.
-/
namespace IronStock

open Runes (Text ofString toString?)
open JsonText (Node)
open TimestampText (SessionZone Timestamptz)

/-- A row of `audit_log`. The details are the object that `Write` stored: `json.Marshal` and the
`jsonb` column keep the value. The address is as `host` shows it. -/
structure AuditLogRow where
  id : Int
  actorUserID : Option Uuid
  action : String
  resourceType : Option String
  resourceID : Option Uuid
  details : Node .members
  ipAddress : Option String
  userAgent : Option String
  createdAt : Time

/-- `audit_log`, with its primary key. -/
structure AuditTable where
  rows : List AuditLogRow
  ids_nodup : (rows.map AuditLogRow.id).Nodup

/-- The query string: the first value of each parameter, empty if there is none. -/
structure AuditQuery where
  action : Text := []
  actorUserID : Text := []
  resourceType : Text := []
  resourceID : Text := []
  fromTime : Text := []
  toTime : Text := []
  limit : Text := []
  offset : Text := []

/-! ## The filter -/

/-- `auditFilter`; the times are in nanoseconds since 1970. -/
structure AuditFilter where
  action : Text
  actorUserID : Text
  resourceType : Text
  resourceID : Text
  fromTime : Option Int
  toTime : Option Int

def validResourceType (rt : Text) : Bool := auditResourceTypes.any fun s => rt = ofString s

/-- `time.RFC3339`. -/
def rfc3339 : List TimeLayouts.Chunk :=
  [.longYear, .literal '-', .zeroMonth, .literal '-', .zeroDay, .literal 'T', .hour, .literal ':',
    .zeroMinute, .literal ':', .zeroSecond, .iso8601ColonTZ]

/-- The bound of a time parameter; the outer `none` is an error of `time.Parse`. -/
def parseBound (s : Text) : Option (Option Int) :=
  let s := Runes.trimSpace s
  if s = [] then some none
  else ((toString? s).bind fun s => TimeLayouts.parse rfc3339 s.toList).map some

def buildAuditFilter (q : AuditQuery) : Except String AuditFilter :=
  let rt := Runes.trimSpace q.resourceType
  if rt ≠ [] ∧ validResourceType rt = false then .error "resource_type geçersiz"
  else
    match parseBound q.fromTime, parseBound q.toTime with
    | none, _ => .error "from parametresi RFC3339 olmalı"
    | some _, none => .error "to parametresi RFC3339 olmalı"
    | some lo, some hi =>
      if lo.any (fun lo => hi.any fun hi => hi < lo) then
        .error "to parametresi from'dan önce olamaz"
      else
        .ok ⟨Runes.trimSpace q.action, Runes.trimSpace q.actorUserID, rt,
          Runes.trimSpace q.resourceID, lo, hi⟩

/-! ## Conditions and placeholders -/

namespace AuditSQL

/-- The templates of `whereClause`. -/
inductive Template
  /-- `action = ?` -/
  | action
  /-- `actor_user_id = ?::uuid` -/
  | actorUserID
  /-- `resource_type = ?` -/
  | resourceType
  /-- `resource_id = ?::uuid` -/
  | resourceID
  /-- `created_at >= ?` -/
  | createdFrom
  /-- `created_at < ?` -/
  | createdTo
deriving DecidableEq

inductive Arg
  | text (t : Text)
  | timestamp (nanos : Int)
  | int (n : Nat)
deriving DecidableEq

/-- A template with `$n` for its `?`. -/
structure Cond where
  template : Template
  placeholder : Nat
deriving DecidableEq

/-- Conditions and arguments. -/
abbrev Where := List Cond × List Arg

def addCond (w : Where) (template : Template) (val : Arg) : Where :=
  (w.1 ++ [⟨template, w.2.length + 1⟩], w.2 ++ [val])

/-- A condition that is added only for a filter that is set. -/
def addCondIf (p : Prop) [Decidable p] (w : Where) (template : Template) (val : Arg) : Where :=
  if p then addCond w template val else w

def addBound (w : Where) (template : Template) : Option Int → Where
  | none => w
  | some t => addCond w template (.timestamp t)

def whereClause (f : AuditFilter) : Where :=
  let w : Where := ([], [])
  let w := addCondIf (f.action ≠ []) w .action (.text f.action)
  let w := addCondIf (f.actorUserID ≠ []) w .actorUserID (.text f.actorUserID)
  let w := addCondIf (f.resourceType ≠ []) w .resourceType (.text f.resourceType)
  let w := addCondIf (f.resourceID ≠ []) w .resourceID (.text f.resourceID)
  let w := addBound w .createdFrom f.fromTime
  addBound w .createdTo f.toTime

/-! ## The statements -/

/-- `$n`. -/
def parameter (args : List Arg) : Nat → Option Arg
  | 0 => none
  | n + 1 => args[n]?

/-- A `text` parameter: UTF-8 without a zero byte. -/
def Arg.asText : Arg → Option String
  | .text t => (toString? t).filter fun s => !s.toList.contains '\x00'
  | _ => none

/-- The cast of a text parameter to `uuid`. -/
def Arg.asUuid : Arg → Option Uuid
  | .text t => (toString? t).bind castUuid
  | _ => none

/-- A time is sent in whole microseconds. -/
def Arg.asTimestamptz : Arg → Option Time
  | .timestamp nanos => some (nanos / 1000)
  | _ => none

def Arg.asInt : Arg → Option Nat
  | .int n => some n
  | _ => none

/-- The rows a condition selects for its parameter; `none` if the parameter is refused. -/
def Template.select (val : Arg) : Template → Option (AuditLogRow → Bool)
  | .action => val.asText.map fun s row => row.action = s
  | .actorUserID => val.asUuid.map fun u row => row.actorUserID = some u
  | .resourceType => val.asText.map fun s row => row.resourceType = some s
  | .resourceID => val.asUuid.map fun u row => row.resourceID = some u
  | .createdFrom => val.asTimestamptz.map fun t row => t ≤ row.createdAt
  | .createdTo => val.asTimestamptz.map fun t row => row.createdAt < t

def Cond.select (args : List Arg) (c : Cond) : Option (AuditLogRow → Bool) :=
  (parameter args c.placeholder).bind fun val => c.template.select val

/-- `FROM audit_log WHERE …`. -/
def selectWhere (table : AuditTable) (conds : List Cond) (args : List Arg) :
    Option (List AuditLogRow) :=
  (conds.mapM (Cond.select args)).map fun ps => table.rows.filter fun row => ps.all (· row)

/-- `ORDER BY id DESC`. -/
def newestFirst (rows : List AuditLogRow) : List AuditLogRow :=
  rows.mergeSort fun a b => b.id ≤ a.id

/-- The statement of `buildCountSQL`. -/
def countRows (table : AuditTable) (f : AuditFilter) : Option Nat :=
  let (conds, args) := whereClause f
  (selectWhere table conds args).map List.length

/-- The subquery of `buildPageSQL`: its limit and offset are the last two arguments. -/
def selectPage (table : AuditTable) (f : AuditFilter) (limit offset : Nat) :
    Option (List AuditLogRow) := do
  let (conds, args) := whereClause f
  let args := args ++ [.int limit, .int offset]
  let rows ← selectWhere table conds args
  let limit ← (parameter args (args.length - 1)).bind Arg.asInt
  let offset ← (parameter args args.length).bind Arg.asInt
  some (((newestFirst rows).drop offset).take limit)

/-- The arrays of the page. -/
structure PageArrays where
  ids : List Int
  actorIDs : List String
  actions : List String
  resourceTypes : List String
  resourceIDs : List String
  details : List Bytes
  ips : List String
  userAgents : List String
  createdAts : List String

/-- `created_at::text`, in the zone of the session. -/
def createdAtText (zone : SessionZone) (t : Time) : String :=
  String.ofList ((Timestamptz.finite t).text zone)

/-- The aggregates of the columns, for details that `bytea` has read. -/
def pageArrays (zone : SessionZone) (page : List AuditLogRow) (details : List Bytes) :
    PageArrays where
  ids := page.map (·.id)
  actorIDs := page.map fun row => (row.actorUserID.map Uuid.text).getD ""
  actions := page.map (·.action)
  resourceTypes := page.map fun row => row.resourceType.getD ""
  resourceIDs := page.map fun row => (row.resourceID.map Uuid.text).getD ""
  details := details
  ips := page.map fun row => row.ipAddress.getD ""
  userAgents := page.map fun row => row.userAgent.getD ""
  createdAts := page.map fun row => createdAtText zone row.createdAt

/-- `details::text::bytea`. -/
def detailBytes (row : AuditLogRow) : Option Bytes :=
  ByteaText.byteain (Node.object row.details).render

/-- The page by descending id, column by column; `none` if `bytea` refuses some details. -/
def aggregatePage (zone : SessionZone) (page : List AuditLogRow) : Option PageArrays :=
  let page := newestFirst page
  (page.mapM detailBytes).map (pageArrays zone page)

end AuditSQL

/-! ## The handler -/

open AuditSQL

structure AuditLogEntry where
  id : Int
  actorUserID : Option String
  action : String
  resourceType : Option String
  resourceID : Option String
  details : Bytes
  ipAddress : Option String
  userAgent : Option String
  createdAt : String
deriving DecidableEq

structure AuditLogResponse where
  entries : List AuditLogEntry
  total : Nat
  limit : Nat
  offset : Nat
deriving DecidableEq

def emptyToNil (s : String) : Option String := if s = "" then none else some s

/-- The loop over `ids`; the arrays have one length. -/
def pageEntries (a : PageArrays) : List AuditLogEntry :=
  a.ids.zipIdx.map fun (id, i) => {
    id := id
    actorUserID := emptyToNil (a.actorIDs.getD i "")
    action := a.actions.getD i ""
    resourceType := emptyToNil (a.resourceTypes.getD i "")
    resourceID := emptyToNil (a.resourceIDs.getD i "")
    details := a.details.getD i []
    ipAddress := emptyToNil (a.ips.getD i "")
    userAgent := emptyToNil (a.userAgents.getD i "")
    createdAt := a.createdAts.getD i "" }

def AuditQuery.limitValue (q : AuditQuery) : Nat :=
  (parseIntDefault ((toString? q.limit).getD "") 50 1 500).toNat

def AuditQuery.offsetValue (q : AuditQuery) : Nat :=
  (parseIntDefault ((toString? q.offset).getD "") 0 0 (2 ^ 24)).toNat

/-- `QueryAuditLog`. -/
def queryAuditLog (zone : SessionZone) (table : AuditTable) (q : AuditQuery) :
    Reply AuditLogResponse :=
  match buildAuditFilter q with
  | .error message => .error (badRequest message)
  | .ok f =>
    match countRows table f with
    | none => .error (internalError "Audit log sayılamadı.")
    | some total =>
      match (selectPage table f q.limitValue q.offsetValue).bind (aggregatePage zone) with
      | none => .error (internalError "Audit log okunamadı.")
      | some arrays => .ok ⟨pageEntries arrays, total, q.limitValue, q.offsetValue⟩

end IronStock

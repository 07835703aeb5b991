import IronStock.DesktopClient

/-!
# The offline queue

The mutations a client could not send, as `lib/pending-ops.ts` stores them and
`lib/offline-sync.ts` replays them. Every change of the stored queue reads it,
awaits, and writes it back, so each read and each write is a step of its own.
The history is what the callers of `apiFetch`, the server and the user see.
-/
namespace IronStock

namespace OfflineQueue

/-! ## Stored operations -/

structure PendingOp where
  id : String
  method : Desktop.Method
  path : String
  /-- the body as JSON -/
  body : Option String
  createdAt : Nat
  retryCount : Nat
deriving DecidableEq

def maxRetries : Nat := 3

/-- The operation as it was queued. -/
def PendingOp.asQueued (op : PendingOp) : PendingOp := { op with retryCount := 0 }

/-- The options `syncPendingOps` replays it with. -/
def PendingOp.request (op : PendingOp) : Desktop.RequestOptions where
  method := op.method
  body := op.body

/-- What `pushPendingOp` makes of the arguments of `apiFetch`. -/
def newOp (path : String) (options : Desktop.RequestOptions) (id : String) (now : Nat) :
    PendingOp where
  id := id
  method := options.method
  path := path
  body := options.body
  createdAt := now
  retryCount := 0

/-- What `removePendingOp` writes back. -/
def removePendingOp (id : String) (ops : List PendingOp) : List PendingOp :=
  ops.filter fun op => op.id ≠ id

/-- What `incrementRetryCount` writes back, with the operation it returns. -/
def incrementRetryCount (id : String) (ops : List PendingOp) :
    Option (List PendingOp × PendingOp) :=
  let idx := ops.findIdx fun op => op.id = id
  ops[idx]?.map fun op =>
    let updated := { op with retryCount := op.retryCount + 1 }
    (ops.set idx updated, updated)

/-! ## The running calls -/

/-- A `pushPendingOp`, with what it has read. -/
structure Push where
  op : PendingOp
  loaded : Option (List PendingOp)
deriving DecidableEq

/-- Where the replay of an operation stands. -/
inductive Stage
  /-- `await rawFetch` -/
  | fetching (noRetry : Bool)
  /-- `await ensureRefresh()` after this error -/
  | refreshing (err : ApiError)
  /-- `await pushPendingOp` -/
  | pushing (push : Push)
  /-- `await incrementRetryCount` -/
  | counting (loaded : Option (List PendingOp))
  /-- `await removePendingOp` after the reply, or for an operation given up -/
  | removing (discarded : Bool) (loaded : Option (List PendingOp))
deriving DecidableEq

/-- `syncPendingOps`; it is idle while `_isSyncing` is false. -/
inductive Sync
  | idle
  /-- `await loadPendingOps()` -/
  | loading
  | replaying (op : PendingOp) (rest : List PendingOp) (stage : Stage)
deriving DecidableEq

/-- The loop goes on with the operations that are left. -/
def Sync.next : List PendingOp → Sync
  | [] => .idle
  | op :: rest => .replaying op rest (.fetching false)

/-- The operation whose fetch is awaited. -/
def Sync.sending : Sync → Option PendingOp
  | .replaying op _ (.fetching _) => some op
  | _ => none

def Sync.renewing : Sync → Bool
  | .replaying _ _ (.refreshing _) => true
  | _ => false

/-- What was read for the write that is awaited. -/
def Sync.loaded : Sync → Option (List PendingOp)
  | .replaying _ _ (.pushing push) => push.loaded
  | .replaying _ _ (.counting loaded) => loaded
  | .replaying _ _ (.removing _ loaded) => loaded
  | _ => none

/-- All operations are named as they were queued. -/
structure History where
  /-- the ids drawn by `pushPendingOp` -/
  drawn : List String
  queued : List PendingOp
  /-- answered with success by the server -/
  accepted : List PendingOp
  /-- replays that ended in an error of the server -/
  apiErrors : List PendingOp
  /-- `offline-sync:discarded` -/
  discarded : List PendingOp
  /-- replays that queued the operation once more -/
  copied : List PendingOp
deriving DecidableEq

structure State where
  stored : List PendingOp
  offlineModeEnabled : Bool
  pushes : List Push
  sync : Sync
  history : History
deriving DecidableEq

def State.started (offlineModeEnabled : Bool) : State where
  stored := []
  offlineModeEnabled := offlineModeEnabled
  pushes := []
  sync := .idle
  history := ⟨[], [], [], [], [], []⟩

/-! ## Steps -/

inductive RefreshOutcome
  | refreshed
  /-- there is no refresh token, or the server does not renew it -/
  | refused
  /-- the refresh fails on the network -/
  | unreachable
deriving DecidableEq

inductive Input
  /-- a call of the application fails on the network, with what `pushPendingOp` draws -/
  | unreachable (path : String) (options : Desktop.RequestOptions) (id : String) (now : Nat)
  | loadPush (i : Nat)
  | savePush (i : Nat)
  | syncPendingOps
  /-- the read or the write that the sync awaits -/
  | storage
  /-- the server answers the fetch of the sync -/
  | respond (status : Nat) (body : Desktop.ResponseBody)
  /-- the fetch of the sync fails on the network -/
  | fail (id : String) (now : Nat)
  /-- the refresh that the sync awaits has ended -/
  | refresh (outcome : RefreshOutcome)
  | setOfflineModeEnabled (value : Bool)
deriving DecidableEq

/-- `apiFetch` queues the request that could not be sent. -/
def queues (offlineModeEnabled : Bool) (options : Desktop.RequestOptions) : Bool :=
  offlineModeEnabled ∧ options.method ≠ .get ∧ options.unauthenticated = false

def networkErr : ApiError := ⟨0, "network_error", "Sunucuya ulaşılamadı."⟩

/-- The loop of `syncPendingOps` after `await apiFetch`. -/
def settle (op : PendingOp) (rest : List PendingOp) : Desktop.Outcome → Sync
  | .returned _ => .replaying op rest (.removing false none)
  | .error err => if err.status = 0 then .idle else .replaying op rest (.counting none)
  | .offlineQueued | .thrown => .replaying op rest (.counting none)

namespace State
variable (s : State)

def draw (id : String) : State :=
  { s with history := { s.history with drawn := id :: s.history.drawn } }

/-- A successful answer. -/
def accept (op : PendingOp) : State :=
  { s with history := { s.history with accepted := s.history.accepted ++ [op.asQueued] } }

/-- An error of the server. -/
def refuse (op : PendingOp) (err : ApiError) : State :=
  if err.status = 0 then s
  else { s with history := { s.history with apiErrors := s.history.apiErrors ++ [op.asQueued] } }

/-- `apiFetch` of the application, after a network failure. -/
def unreachable (path : String) (options : Desktop.RequestOptions) (id : String) (now : Nat) :
    State :=
  if queues s.offlineModeEnabled options then
    { s.draw id with pushes := s.pushes ++ [⟨newOp path options id now, none⟩] }
  else s

def loadPush (i : Nat) : State :=
  match s.pushes[i]? with
  | some ⟨op, none⟩ => { s with pushes := s.pushes.set i ⟨op, some s.stored⟩ }
  | _ => s

def savePush (i : Nat) : State :=
  match s.pushes[i]? with
  | some ⟨op, some ops⟩ =>
    { s with
      stored := ops ++ [op]
      pushes := s.pushes.eraseIdx i
      history := { s.history with queued := s.history.queued ++ [op] } }
  | _ => s

/-- `apiFetch` of the sync, after the answer to its fetch. -/
def respond (status : Nat) (body : Desktop.ResponseBody) : State :=
  match s.sync with
  | .replaying op rest (.fetching noRetry) =>
    if Desktop.isOk status then
      let outcome : Desktop.Outcome :=
        if status = 204 then .returned none
        else match body.json with
          | some json => .returned (some json)
          | none => .thrown
      { s.accept op with sync := settle op rest outcome }
    else
      let apiErr := Desktop.parseError status body.error
      if noRetry = false ∧ Desktop.isAccessTokenExpired apiErr then
        { s with sync := .replaying op rest (.refreshing apiErr) }
      else { s.refuse op apiErr with sync := settle op rest (.error apiErr) }
  | _ => s

/-- `apiFetch` of the sync, after a network failure. -/
def fail (id : String) (now : Nat) : State :=
  match s.sync with
  | .replaying op rest (.fetching _) =>
    if queues s.offlineModeEnabled op.request then
      { s.draw id with
        sync := .replaying op rest (.pushing ⟨newOp op.path op.request id now, none⟩) }
    else { s with sync := settle op rest (.error networkErr) }
  | _ => s

/-- `apiFetch` of the sync, after `await ensureRefresh()`. -/
def refresh (outcome : RefreshOutcome) : State :=
  match s.sync with
  | .replaying op rest (.refreshing apiErr) =>
    match outcome with
    | .refreshed => { s with sync := .replaying op rest (.fetching true) }
    | .refused => { s.refuse op apiErr with sync := settle op rest (.error apiErr) }
    | .unreachable => { s with sync := settle op rest (.error apiErr) }
  | _ => s

/-- The copy is queued and `OfflineQueuedError` is thrown. -/
def saveCopy (op : PendingOp) (rest : List PendingOp) (copy : PendingOp) (ops : List PendingOp) :
    State :=
  { s with
    stored := ops ++ [copy]
    sync := settle op rest .offlineQueued
    history := { s.history with
      queued := s.history.queued ++ [copy]
      copied := s.history.copied ++ [op.asQueued] } }

def saveCount (op : PendingOp) (rest : List PendingOp) (ops : List PendingOp) : State :=
  match incrementRetryCount op.id ops with
  | none => { s with sync := .next rest }
  | some (ops, updated) =>
    { s with
      stored := ops
      sync := if maxRetries ≤ updated.retryCount then .replaying op rest (.removing true none)
        else .next rest }

def saveRemoval (op : PendingOp) (rest : List PendingOp) (discarded : Bool)
    (ops : List PendingOp) : State :=
  { s with
    stored := removePendingOp op.id ops
    sync := .next rest
    history := { s.history with
      discarded := if discarded then s.history.discarded ++ [op.asQueued]
        else s.history.discarded } }

/-- The next read or write of `syncPendingOps`. -/
def storage : State :=
  match s.sync with
  | .idle => s
  | .loading => { s with sync := .next s.stored }
  | .replaying op rest stage =>
    match stage with
    | .fetching _ | .refreshing _ => s
    | .pushing ⟨copy, none⟩ =>
      { s with sync := .replaying op rest (.pushing ⟨copy, some s.stored⟩) }
    | .pushing ⟨copy, some ops⟩ => s.saveCopy op rest copy ops
    | .counting none =>
      -- an operation that is gone is not written back
      if (incrementRetryCount op.id s.stored).isSome then
        { s with sync := .replaying op rest (.counting (some s.stored)) }
      else { s with sync := .next rest }
    | .counting (some ops) => s.saveCount op rest ops
    | .removing discarded none =>
      { s with sync := .replaying op rest (.removing discarded (some s.stored)) }
    | .removing discarded (some ops) => s.saveRemoval op rest discarded ops

end State

def step (s : State) : Input → State
  | .unreachable path options id now => s.unreachable path options id now
  | .loadPush i => s.loadPush i
  | .savePush i => s.savePush i
  | .syncPendingOps => if s.sync = .idle then { s with sync := .loading } else s
  | .storage => s.storage
  | .respond status body => s.respond status body
  | .fail id now => s.fail id now
  | .refresh outcome => s.refresh outcome
  | .setOfflineModeEnabled value => { s with offlineModeEnabled := value }

/-! ## What the queue promises -/

/-- Each mutation is delivered once or reported. -/
structure Delivered (s : State) : Prop where
  /-- as it was queued, at most once and in queue order -/
  accepted : s.history.accepted.Sublist s.history.queued
  once : s.history.queued.Nodup
  accounted : ∀ op ∈ s.history.queued,
    op ∈ s.history.accepted ∨ op ∈ s.history.discarded ∨
      op ∈ s.stored.map PendingOp.asQueued
  apart : ∀ op ∈ s.history.discarded, op ∉ s.history.accepted
  /-- between two syncs an operation has exactly one of the three fates -/
  settled : s.sync = .idle → s.history.queued.Perm
    (s.history.accepted ++ s.history.discarded ++ s.stored.map PendingOp.asQueued)
  reported : ∀ op ∈ s.history.discarded, s.history.apiErrors.count op = maxRetries
  /-- only an error of the server counts as one -/
  counted : ∀ op ∈ s.stored, op.retryCount ≤ s.history.apiErrors.count op.asQueued
  single : s.history.copied = []

/-- The id that an input draws is a new one. -/
def Fresh (s : State) : Input → Prop
  | .unreachable _ options id _ => queues s.offlineModeEnabled options → id ∉ s.history.drawn
  | .fail id _ => ∀ op ∈ s.sync.sending,
      queues s.offlineModeEnabled op.request → id ∉ s.history.drawn
  | _ => True

/-- What keeps the promise: nobody has written between a read of the queue and
the write that follows it, a replay does not meet an outage while it would
queue the request or renew the token, a success can be read, and one that comes
after an error comes before the successes of all that is queued behind. -/
def Undisturbed (s : State) : Input → Prop
  | .savePush i => ∀ push ∈ s.pushes[i]?, ∀ ops ∈ push.loaded, ops = s.stored
  | .storage => ∀ ops ∈ s.sync.loaded, ops = s.stored
  | .fail _ _ => ∀ op ∈ s.sync.sending, queues s.offlineModeEnabled op.request = false
  | .respond status body => ∀ op ∈ s.sync.sending, Desktop.isOk status →
      (status = 204 ∨ body.json.isSome) ∧
        (0 < op.retryCount → ∀ a ∈ s.history.accepted,
          ¬ [op.asQueued, a].Sublist s.history.queued)
  | .refresh .unreachable => s.sync.renewing = false
  | _ => True

instance : (s : State) → (i : Input) → Decidable (Fresh s i)
  | s, .unreachable _ options id _ => inferInstanceAs
      (Decidable (queues s.offlineModeEnabled options → id ∉ s.history.drawn))
  | s, .fail id _ => inferInstanceAs (Decidable (∀ op ∈ s.sync.sending,
      queues s.offlineModeEnabled op.request → id ∉ s.history.drawn))
  | _, .loadPush _ | _, .savePush _ | _, .syncPendingOps | _, .storage | _, .respond _ _
  | _, .refresh _ | _, .setOfflineModeEnabled _ => .isTrue trivial

instance : (s : State) → (i : Input) → Decidable (Undisturbed s i)
  | s, .savePush i => inferInstanceAs
      (Decidable (∀ push ∈ s.pushes[i]?, ∀ ops ∈ push.loaded, ops = s.stored))
  | s, .storage => inferInstanceAs (Decidable (∀ ops ∈ s.sync.loaded, ops = s.stored))
  | s, .fail _ _ => inferInstanceAs (Decidable (∀ op ∈ s.sync.sending,
      queues s.offlineModeEnabled op.request = false))
  | s, .respond status body => inferInstanceAs (Decidable (∀ op ∈ s.sync.sending,
      Desktop.isOk status → (status = 204 ∨ body.json.isSome) ∧
        (0 < op.retryCount → ∀ a ∈ s.history.accepted,
          ¬ [op.asQueued, a].Sublist s.history.queued)))
  | s, .refresh .unreachable => inferInstanceAs (Decidable (s.sync.renewing = false))
  | _, .refresh .refreshed | _, .refresh .refused => .isTrue trivial
  | _, .unreachable _ _ _ _ | _, .loadPush _ | _, .syncPendingOps
  | _, .setOfflineModeEnabled _ => .isTrue trivial

end OfflineQueue

end IronStock

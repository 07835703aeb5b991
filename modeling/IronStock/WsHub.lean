import IronStock.Http
import Mathlib.Logic.Function.Basic

/-!
# The WebSocket hub

`internal/ws/hub.go` on any number of server processes. `Publish` offers an event to
the connections of its own process and then hands it to Redis; the subscriber of
another process takes it from there and offers it to its own connections. Each step
below is one that the lock, the send channels or Redis make atomic.
-/
namespace IronStock.WsHub

def sendBufferSize : Nat := 32

structure Event where
  type : String
  resourceID : String
  actorUserID : String
  timestamp : Time
deriving DecidableEq

/-- How a process was started: `NewHub`, or `NewHubWithRedis` with its pod id. -/
structure Process where
  podID : String
  redis : Bool

variable {ι : Type}

/-- One call of `Publish`: the number of the call, and the goroutine that makes it. -/
structure Published (ι : Type) where
  id : Nat
  process : ι
  goroutine : Nat
  event : Event
deriving DecidableEq

/-- `redisEnvelope`. -/
structure RedisEnvelope (ι : Type) where
  podID : String
  event : Published ι

/-- What a goroutine does with an event: it is about to take the read lock, holds it
with some connections to go, or is on its way to Redis. -/
inductive Phase (ι : Type)
  | idle
  | called (p : Published ι)
  | fanout (p : Published ι) (rest : List Nat)
  | remote (p : Published ι)

namespace Phase

def event? : Phase ι → Option (Published ι)
  | idle => none
  | called p | fanout p _ | remote p => some p

/-- The event is still to be offered to the connection, if that is registered. -/
def Pending (ph : Phase ι) (p : Published ι) (k : Nat) : Prop :=
  ph = .called p ∨ ∃ rest, ph = .fanout p rest ∧ k ∈ rest

end Phase

/-- A goroutine that publishes, or the subscriber. -/
abbrev Worker := Option Nat

/-- A hub with its connections, which are numbered as they are accepted. -/
structure Hub (ι : Type) where
  connections : List Nat
  /-- the goroutines that hold the read lock -/
  readers : List Worker
  phase : Worker → Phase ι
  /-- the first message of the channel that the subscription may still deliver -/
  subscription : Option Nat
  /-- what is in `send` -/
  send : Nat → List (Published ι)
  /-- what was put into `send`, from the start -/
  accepted : Nat → List (Published ι)
  /-- the connections that `Register` was called with -/
  registered : List Nat
  /-- those whose release function has returned -/
  released : List Nat

/-- All hubs, the messages of the Redis channel and the calls of `Publish`, from the
start. -/
structure State (ι : Type) where
  hubs : ι → Hub ι
  channel : List (RedisEnvelope ι)
  calls : List (Published ι)

/-! ## The steps of one hub -/

namespace Hub
variable [DecidableEq ι] (h : Hub ι)

def setPhase (w : Worker) (ph : Phase ι) : Hub ι :=
  { h with phase := Function.update h.phase w ph }

/-- `h.mu.RLock()`, which a goroutine in `localPublish` waits for. -/
def rlock (w : Worker) : Hub ι :=
  match h.phase w with
  | .called p => { h.setPhase w (.fanout p h.connections) with readers := w :: h.readers }
  | _ => h

/-- `c.send <- ev`, or nothing if the channel is full. -/
def trySend (k : Nat) (p : Published ι) : Hub ι :=
  if (h.send k).length < sendBufferSize then
    { h with
      send := Function.update h.send k (h.send k ++ [p])
      accepted := Function.update h.accepted k (h.accepted k ++ [p]) }
  else h

/-- One round of the loop over the connections, which come in any order. -/
def offer (w : Worker) (k : Nat) : Hub ι :=
  match h.phase w with
  | .fanout p rest =>
    if k ∈ rest then (h.setPhase w (.fanout p (rest.erase k))).trySend k p else h
  | _ => h

/-- `h.mu.RUnlock()`. A goroutine that publishes goes on to Redis, if there is one
whose circuit is not open. -/
def runlock (redis : Bool) (w : Worker) (isOpen : Bool) : Hub ι :=
  match h.phase w with
  | .fanout p [] =>
    { h.setPhase w (if w.isSome && redis && !isOpen then .remote p else .idle) with
      readers := h.readers.erase w }
  | _ => h

/-- `Register`, which is called with a connection that was just accepted. -/
def register (k : Nat) : Hub ι :=
  if h.readers = [] ∧ k ∉ h.registered then
    { h with connections := h.connections ++ [k], registered := h.registered ++ [k] }
  else h

/-- The release function. -/
def release (k : Nat) : Hub ι :=
  if h.readers = [] ∧ k ∈ h.registered then
    { h with connections := h.connections.erase k, released := h.released ++ [k] }
  else h

/-- `Close`. The canceled context ends loops, which may stop here at any point. -/
def close : Hub ι := if h.readers = [] then { h with connections := [] } else h

/-- `runWriter` takes an event. -/
def write (k : Nat) : Hub ι :=
  { h with send := Function.update h.send k (h.send k).tail }

/-- A subscription gets the messages that are published after it was made. -/
def subscribe (redis : Bool) (channel : List (RedisEnvelope ι)) : Hub ι :=
  match h.phase none, h.subscription with
  | .idle, none => if redis then { h with subscription := some channel.length } else h
  | _, _ => h

/-- The next message of the subscription; those before it are lost. -/
def receive (podID : String) (channel : List (RedisEnvelope ι)) (n : Nat) : Hub ι :=
  match h.phase none, h.subscription, channel[n]? with
  | .idle, some cursor, some env =>
    if cursor ≤ n then
      { h.setPhase none (if env.podID = podID then .idle else .called env.event) with
        subscription := some (n + 1) }
    else h
  | _, _, _ => h

/-- The subscription has ended, which is seen when the next message is waited for. -/
def lose : Hub ι :=
  match h.phase none with
  | .idle => { h with subscription := none }
  | _ => h

end Hub

/-! ## The steps of the system -/

inductive Action (ι : Type)
  | publish (i : ι) (g : Nat) (ev : Event)
  | rlock (i : ι) (w : Worker)
  | offer (i : ι) (w : Worker) (k : Nat)
  | runlock (i : ι) (w : Worker) (isOpen : Bool)
  /-- `redis.Publish`, which fails without effect or puts the message into the channel -/
  | redisPublish (i : ι) (g : Nat) (ok : Bool)
  | subscribe (i : ι)
  | receive (i : ι) (n : Nat)
  | lose (i : ι)
  | register (i : ι) (k : Nat)
  | release (i : ι) (k : Nat)
  | close (i : ι)
  | write (i : ι) (k : Nat)

namespace State
variable [DecidableEq ι] (proc : ι → Process) (s : State ι)

def setHub (i : ι) (h : Hub ι) : State ι := { s with hubs := Function.update s.hubs i h }

@[simp] theorem setHub_self (i : ι) (h : Hub ι) : (s.setHub i h).hubs i = h :=
  Function.update_self _ _ _

theorem setHub_of_ne {s : State ι} {i j : ι} {h : Hub ι} (hne : j ≠ i) :
    (s.setHub i h).hubs j = s.hubs j := Function.update_of_ne hne _ _

/-- The call of `Publish`. -/
def publish (i : ι) (g : Nat) (ev : Event) : State ι :=
  match (s.hubs i).phase (some g) with
  | .idle =>
    { s.setHub i ((s.hubs i).setPhase (some g) (.called ⟨s.calls.length, i, g, ev⟩)) with
      calls := s.calls ++ [⟨s.calls.length, i, g, ev⟩] }
  | _ => s

def redisPublish (i : ι) (g : Nat) (ok : Bool) : State ι :=
  match (s.hubs i).phase (some g) with
  | .remote p =>
    { s.setHub i ((s.hubs i).setPhase (some g) .idle) with
      channel := if ok then s.channel ++ [⟨(proc i).podID, p⟩] else s.channel }
  | _ => s

def step : Action ι → State ι
  | .publish i g ev => s.publish i g ev
  | .rlock i w => s.setHub i ((s.hubs i).rlock w)
  | .offer i w k => s.setHub i ((s.hubs i).offer w k)
  | .runlock i w isOpen => s.setHub i ((s.hubs i).runlock (proc i).redis w isOpen)
  | .redisPublish i g ok => s.redisPublish proc i g ok
  | .subscribe i => s.setHub i ((s.hubs i).subscribe (proc i).redis s.channel)
  | .receive i n => s.setHub i ((s.hubs i).receive (proc i).podID s.channel n)
  | .lose i => s.setHub i (s.hubs i).lose
  | .register i k => s.setHub i ((s.hubs i).register k)
  | .release i k => s.setHub i ((s.hubs i).release k)
  | .close i => s.setHub i (s.hubs i).close
  | .write i k => s.setHub i ((s.hubs i).write k)

end State

/-- Nothing has happened. -/
def initial : State ι where
  hubs := fun _ => ⟨[], [], fun _ => .idle, none, fun _ => [], fun _ => [], [], []⟩
  channel := []
  calls := []

end IronStock.WsHub

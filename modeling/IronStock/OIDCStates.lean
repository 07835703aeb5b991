import IronStock.SSOHandlers
import IronStock.Tickets

/-!
# OIDC states over an unreliable Redis

`issueOIDCState` and `consumeOIDCState` of several processes that share one
Redis, statement by statement, up to the check of the provider in
`OIDCCallback`. Redis and its clients fail as they do for the tickets.
-/
namespace IronStock

open Interleaving

/-- 10 minutes. -/
def oidcStateTTL : Time := 10 * 60 * 1000000

/-- A key `oidc_state:…` with its value; Redis drops it at the end of its
lifetime. -/
structure RedisState where
  state : String
  entry : OIDCState
  goneAt : Time

/-- An entry of `oidcStateStore` in one process. -/
structure LocalState where
  pod : Nat
  state : String
  entry : OIDCState

/-- A state with what it was drawn for, and when. -/
structure DrawnState where
  pod : Nat
  state : String
  providerID : String
  pkceVerifier : String
  time : Time

def DrawnState.entry (t : DrawnState) : OIDCState :=
  ⟨t.providerID, t.pkceVerifier, t.time + oidcStateTTL⟩

/-! ## The stores -/

/-- Redis, the processes and the clock. What was issued and presented is kept
for the results. -/
structure OIDCStore where
  clock : Time := 0
  redis : List RedisState := []
  clients : Nat → CacheClient := fun _ => {}
  memory : List LocalState := []
  issued : List DrawnState := []
  presented : List String := []

namespace OIDCStore

def tick (s : OIDCStore) (elapsed : Nat) : OIDCStore := { s with clock := s.clock + elapsed }

def isOpen (s : OIDCStore) (pod : Nat) : Bool := (s.clients pod).isOpen s.clock

/-- The client of a process after a call on Redis. -/
def observed (s : OIDCStore) (pod : Nat) (failed : Bool) : OIDCStore :=
  let client := ((s.clients pod).halfOpen s.clock).observe s.clock failed
  { s with clients := Function.update s.clients pod client }

/-- `SET key value EX ttl`. -/
def set (s : OIDCStore) (t : DrawnState) : OIDCStore :=
  let others := Table.deleteWhere (·.state = t.state) s.redis
  { s with redis := others ++ [⟨t.state, t.entry, s.clock + oidcStateTTL⟩] }

/-- The value of a key that Redis still has. -/
def get (s : OIDCStore) (state : String) : Option OIDCState :=
  (s.redis.find? fun k => k.state = state ∧ s.clock < k.goneAt).map RedisState.entry

def del (s : OIDCStore) (state : String) : OIDCStore :=
  { s with redis := Table.deleteWhere (·.state = state) s.redis }

/-- `oidcStateStore[state] = entry`, after the entries that are over. -/
def storeLocal (s : OIDCStore) (t : DrawnState) : OIDCStore :=
  let live := Table.deleteWhere (fun m => m.pod = t.pod ∧ m.entry.expiresAt < s.clock) s.memory
  let others := Table.deleteWhere (fun m => m.pod = t.pod ∧ m.state = t.state) live
  { s with memory := others ++ [⟨t.pod, t.state, t.entry⟩] }

/-- The entry in memory, deleted even if it is over. -/
def takeLocal (s : OIDCStore) (pod : Nat) (state : String) : OIDCStore × Option OIDCState :=
  match s.memory.find? fun m => m.pod = pod ∧ m.state = state with
  | none => (s, none)
  | some m =>
    ({ s with memory := Table.deleteWhere (fun m => m.pod = pod ∧ m.state = state) s.memory },
      if m.entry.expiresAt < s.clock then none else some m.entry)

/-- `issueOIDCState` returns. -/
def issue (s : OIDCStore) (t : DrawnState) : OIDCStore := { s with issued := s.issued ++ [t] }

def present (s : OIDCStore) (state : String) : OIDCStore :=
  { s with presented := state :: s.presented }

end OIDCStore

/-! ## The calls -/

/-- One callback up to the check of its state: when its state was looked up,
whether its call on Redis, if it made one, was answered at the first try, whether
the state had not been presented before, and the state if it had been issued. -/
structure StatePresentation where
  pod : Nat
  state : String
  providerID : String
  time : Time
  answered : Bool
  first : Bool
  issue : Option DrawnState

/-- `issueOIDCState` comes with the text of the bytes it drew. -/
inductive OIDCStateRequest
  | issue (pod : Nat) (providerID pkceVerifier state : String)
  | callback (pod : Nat) (providerID state : String)

/-- What is left of a call: all of it, or the part after Redis. -/
inductive OIDCStateCall
  | request (r : OIDCStateRequest)
  | storeLocal (t : DrawnState)
  | takeLocal (p : StatePresentation)

inductive OIDCStateAnswer
  | issued (state : String)
  | consumed (p : StatePresentation) (entry : Option OIDCState)

/-- What the callback goes on with. -/
def callbackEntry (p : StatePresentation) (entry : Option OIDCState) :
    Except PlainError OIDCState :=
  PlainError.check (entry.filter (·.providerID = p.providerID)) 400
    "Geçersiz veya süresi dolmuş SSO oturumu. Lütfen tekrar deneyin."

def OIDCStore.presentation (s : OIDCStore) (pod : Nat) (providerID state : String)
    (answered : Bool) : StatePresentation where
  pod := pod
  state := state
  providerID := providerID
  time := s.clock
  answered := answered
  first := state ∉ s.presented
  issue := s.issued.find? (·.state = state)

/-- The call on Redis, if the circuit lets it through; every other outcome leads
to the memory. -/
def OIDCStateRequest.exec (useRedis : Bool) (o : RedisOutcome) (s : OIDCStore) :
    OIDCStateRequest → OIDCStore × (OIDCStateCall ⊕ OIDCStateAnswer)
  | .issue pod providerID pkceVerifier state =>
    let t : DrawnState := ⟨pod, state, providerID, pkceVerifier, s.clock⟩
    if useRedis && !s.isOpen pod then
      match o with
      | .ok | .retried => (((s.set t).observed pod false).issue t, .inr (.issued state))
      | .failBefore => (s.observed pod true, .inl (.storeLocal t))
      | .failAfter => ((s.set t).observed pod true, .inl (.storeLocal t))
    else (s, .inl (.storeLocal t))
  | .callback pod providerID state =>
    let s₀ := s.present state
    if useRedis && !s.isOpen pod then
      let p := s.presentation pod providerID state (o = .ok)
      match o with
      | .ok =>
        match s.get state with
        | some entry =>
          ((s₀.del state).observed pod false,
            .inr (.consumed p (if entry.expiresAt < s.clock then none else some entry)))
        | none => ((s₀.del state).observed pod false, .inl (.takeLocal p))
      | .retried => ((s₀.del state).observed pod false, .inl (.takeLocal p))
      | .failBefore => (s₀.observed pod true, .inl (.takeLocal p))
      | .failAfter => ((s₀.del state).observed pod true, .inl (.takeLocal p))
    else (s₀, .inl (.takeLocal (s.presentation pod providerID state true)))

def OIDCStateCall.exec (useRedis : Bool) (m : TicketMoment) (s : OIDCStore)
    (call : OIDCStateCall) : OIDCStore × (OIDCStateCall ⊕ OIDCStateAnswer) :=
  let s := s.tick m.elapsed
  match call with
  | .request r => r.exec useRedis m.outcome s
  | .storeLocal t => ((s.storeLocal t).issue t, .inr (.issued t.state))
  | .takeLocal p =>
    let r := s.takeLocal p.pod p.state
    (r.1, .inr (.consumed { p with time := s.clock } r.2))

/-- The states of every process. -/
def oidcStates (useRedis : Bool) :
    Program OIDCStore OIDCStateRequest OIDCStateCall OIDCStateAnswer TicketMoment where
  enter := .request
  exec m s call := call.exec useRedis m s

end IronStock

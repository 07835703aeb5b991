import IronStock.Authentication
import IronStock.Lib.Interleaving
import IronStock.Lib.Table

/-!
# Websocket tickets over an unreliable Redis

`ws.TicketStore` of several processes that share one Redis, statement by
statement. Each call on Redis may fail before or after it took effect, and the
client of each process has its circuit breaker. Whether Redis is configured at
all is a parameter.
-/
namespace IronStock

open Interleaving

/-! ## The Redis client -/

/-- What happens to one call on Redis. The client tries twice: `retried` is a
first try that took effect without a reply and a second one with a reply. -/
inductive RedisOutcome
  | ok
  | retried
  | failBefore
  | failAfter
deriving DecidableEq, Repr

/-- The breaker of `cache.Client`; 0 is a closed circuit. -/
structure CacheClient where
  consecErrors : Nat := 0
  circuitUntil : Time := 0
deriving DecidableEq

def redisErrThreshold : Nat := 5
def circuitOpenDuration : Time := 30 * 1000000

namespace CacheClient

/-- `isOpen` -/
def isOpen (c : CacheClient) (now : Time) : Bool := c.circuitUntil ≠ 0 ∧ now < c.circuitUntil

/-- The client after `isOpen`: a circuit that is due is half open. -/
def halfOpen (c : CacheClient) (now : Time) : CacheClient :=
  if c.circuitUntil ≠ 0 ∧ c.circuitUntil ≤ now then {} else c

/-- `recordError` -/
def recordError (c : CacheClient) (now : Time) : CacheClient :=
  if redisErrThreshold ≤ c.consecErrors + 1 then ⟨c.consecErrors + 1, now + circuitOpenDuration⟩
  else { c with consecErrors := c.consecErrors + 1 }

/-- `observe` -/
def observe (c : CacheClient) (now : Time) (failed : Bool) : CacheClient :=
  if failed then c.recordError now else { c with consecErrors := 0 }

end CacheClient

/-- A key `ws:ticket:…` with its value. -/
structure RedisKey where
  token : String
  userID : String
  expiresAt : Time
deriving DecidableEq

/-- `ticketEntry` in the map of one process. -/
structure LocalTicket where
  pod : Nat
  token : String
  userID : String
  expiresAt : Time
deriving DecidableEq

/-- A ticket that `Issue` returned. -/
structure IssuedTicket where
  pod : Nat
  token : String
  userID : String
  time : Time
deriving DecidableEq

/-! ## The stores -/

/-- Redis, the processes and the clock. What was issued, presented and accepted
is kept for the results. -/
structure TicketState where
  clock : Time := 0
  redis : List RedisKey := []
  clients : Nat → CacheClient := fun _ => {}
  tickets : List LocalTicket := []
  issued : List IssuedTicket := []
  presented : List String := []
  accepted : List String := []

namespace TicketState

def tick (s : TicketState) (elapsed : Nat) : TicketState := { s with clock := s.clock + elapsed }

def isOpen (s : TicketState) (pod : Nat) : Bool := (s.clients pod).isOpen s.clock

/-- The client of a process after a call on Redis. -/
def observed (s : TicketState) (pod : Nat) (failed : Bool) : TicketState :=
  let client := ((s.clients pod).halfOpen s.clock).observe s.clock failed
  { s with clients := Function.update s.clients pod client }

/-- `SET key value EX ttl`. -/
def set (s : TicketState) (token userID : String) : TicketState :=
  let others := Table.deleteWhere (·.token = token) s.redis
  { s with redis := others ++ [⟨token, userID, s.clock + ticketTTL⟩] }

/-- The value of a key that has not expired. -/
def get (s : TicketState) (token : String) : Option String :=
  (s.redis.find? fun k => k.token = token ∧ s.clock < k.expiresAt).map RedisKey.userID

def del (s : TicketState) (token : String) : TicketState :=
  { s with redis := Table.deleteWhere (·.token = token) s.redis }

/-- `SetEX`, and whether it returned no error. -/
def setEX (s : TicketState) (pod : Nat) (o : RedisOutcome) (token userID : String) :
    TicketState × Bool :=
  if s.isOpen pod then (s, false)
  else match o with
    | .ok | .retried => ((s.set token userID).observed pod false, true)
    | .failBefore => (s.observed pod true, false)
    | .failAfter => ((s.set token userID).observed pod true, false)

/-- The value, `redis.Nil`, or another error. -/
inductive GetDelResult
  | value (userID : String)
  | nil
  | failed
deriving DecidableEq

def GetDelResult.ofOption : Option String → GetDelResult
  | some userID => .value userID
  | none => .nil

/-- `GetDel` -/
def getDel (s : TicketState) (pod : Nat) (o : RedisOutcome) (token : String) :
    TicketState × GetDelResult :=
  if s.isOpen pod then (s, .failed)
  else match o with
    | .ok => ((s.del token).observed pod false, .ofOption (s.get token))
    | .retried => ((s.del token).observed pod false, .nil)
    | .failBefore => (s.observed pod true, .failed)
    | .failAfter => ((s.del token).observed pod true, .failed)

/-- `ts.tickets[token] = …` -/
def storeLocal (s : TicketState) (pod : Nat) (token userID : String) : TicketState :=
  let others := Table.deleteWhere (fun e => e.pod = pod ∧ e.token = token) s.tickets
  { s with tickets := others ++ [⟨pod, token, userID, s.clock + ticketTTL⟩] }

/-- The second half of `Consume`: the entry is deleted even if it has expired. -/
def takeLocal (s : TicketState) (pod : Nat) (token : String) : TicketState × Option String :=
  match s.tickets.find? fun e => e.pod = pod ∧ e.token = token with
  | none => (s, none)
  | some entry =>
    ({ s with tickets := Table.deleteWhere (fun e => e.pod = pod ∧ e.token = token) s.tickets },
      if entry.expiresAt < s.clock then none else some entry.userID)

/-- `Cleanup` -/
def cleanup (s : TicketState) (pod : Nat) : TicketState :=
  { s with tickets := Table.deleteWhere (fun e => e.pod = pod ∧ e.expiresAt < s.clock) s.tickets }

/-- `Issue` returns the ticket. -/
def issue (s : TicketState) (pod : Nat) (token userID : String) : TicketState :=
  { s with issued := s.issued ++ [⟨pod, token, userID, s.clock⟩] }

def present (s : TicketState) (token : String) : TicketState :=
  { s with presented := token :: s.presented }

def accept (s : TicketState) (token : String) (answer : Option String) : TicketState :=
  if answer.isSome then { s with accepted := token :: s.accepted } else s

end TicketState

/-! ## The calls -/

/-- One call of `Consume`: whether its call on Redis was answered at the first
try, whether the ticket had not been presented before, and the ticket if `Issue`
had returned it. -/
structure Presentation where
  pod : Nat
  token : String
  time : Time
  answered : Bool
  first : Bool
  issue : Option IssuedTicket

/-- A call of `Issue` comes with the text of the bytes it drew. -/
inductive TicketRequest
  | issue (pod : Nat) (userID token : String)
  | consume (pod : Nat) (token : String)
  | cleanup (pod : Nat)

/-- What is left of a call: all of it, or the part after Redis has failed. -/
inductive TicketCall
  | request (r : TicketRequest)
  | storeLocal (pod : Nat) (userID token : String)
  | takeLocal (p : Presentation)

inductive TicketAnswer
  | issued (token : String)
  | consumed (p : Presentation) (answer : Option String)
  | cleaned

/-- How much later a statement runs, and what its call on Redis meets. -/
structure TicketMoment where
  elapsed : Nat
  outcome : RedisOutcome

/-- What `Consume` begins with. -/
def TicketState.presentation (s : TicketState) (pod : Nat) (token : String) (answered : Bool) :
    Presentation where
  pod := pod
  token := token
  time := s.clock
  answered := answered
  first := token ∉ s.presented
  issue := s.issued.find? (·.token = token)

/-- `Consume` accepts or rejects. -/
def consumed (s : TicketState) (p : Presentation) (answer : Option String) :
    TicketState × (TicketCall ⊕ TicketAnswer) :=
  (s.accept p.token answer, .inr (.consumed p answer))

def TicketRequest.exec (useRedis : Bool) (o : RedisOutcome) (s : TicketState) :
    TicketRequest → TicketState × (TicketCall ⊕ TicketAnswer)
  | .issue pod userID token =>
    if useRedis then
      match s.setEX pod o token userID with
      | (s', true) => (s'.issue pod token userID, .inr (.issued token))
      | (s', false) => (s', .inl (.storeLocal pod userID token))
    else ((s.storeLocal pod token userID).issue pod token userID, .inr (.issued token))
  | .consume pod token =>
    let s₀ := s.present token
    if useRedis then
      let p := s.presentation pod token (!s.isOpen pod && o = .ok)
      match s₀.getDel pod o token with
      | (s', .value userID) => consumed s' p (some userID)
      | (s', .nil) => consumed s' p none
      | (s', .failed) => (s', .inl (.takeLocal p))
    else
      let r := s₀.takeLocal pod token
      consumed r.1 (s.presentation pod token true) r.2
  | .cleanup pod => (s.cleanup pod, .inr .cleaned)

def TicketCall.exec (useRedis : Bool) (m : TicketMoment) (s : TicketState) (call : TicketCall) :
    TicketState × (TicketCall ⊕ TicketAnswer) :=
  let s := s.tick m.elapsed
  match call with
  | .request r => r.exec useRedis m.outcome s
  | .storeLocal pod userID token =>
    ((s.storeLocal pod token userID).issue pod token userID, .inr (.issued token))
  | .takeLocal p =>
    let r := s.takeLocal p.pod p.token
    consumed r.1 { p with time := s.clock } r.2

/-- `Issue`, `Consume` and `Cleanup` of every process. -/
def ticketStore (useRedis : Bool) :
    Program TicketState TicketRequest TicketCall TicketAnswer TicketMoment where
  enter := .request
  exec m s call := call.exec useRedis m s

end IronStock

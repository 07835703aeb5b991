import IronStock.Lib.Runs
import Mathlib.Data.List.Perm.Basic
import Mathlib.Logic.Function.Basic

/-!
# The log-forwarding manager

`internal/logfwd/manager.go`. `Publish` offers an event to every registered queue under
the read lock, `Add`, `Remove` and `StopAll` change the maps under the write lock, and
each queue has a goroutine that takes events out of it. Each step below is one that the
lock or a channel makes atomic.
-/
namespace IronStock.Logfwd

def chanBuffer : Nat := 256

variable {ε : Type}

/-- One call of `Publish`. -/
structure Published (ε : Type) where
  id : Nat
  event : ε
deriving DecidableEq

/-! ## One queue -/

/-- Where `runForwarder` is. -/
inductive Loop (ε : Type)
  | select
  | send (p : Published ε)
  | returned

/-- What a call of `Add` makes: a channel, a context and the goroutine over both. -/
structure Queue (ε : Type) where
  buffer : List (Published ε) := []
  isClosed : Bool := false
  /-- the context is canceled -/
  isDone : Bool := false
  loop : Loop ε := .select
  /-- what was put into the channel, from the start -/
  accepted : List (Published ε) := []
  /-- what was dropped with a warning -/
  dropped : List (Published ε) := []
  /-- what `Send` was called with -/
  sent : List (Published ε) := []

namespace Queue
variable (q : Queue ε)

/-- The `select` of `Publish` over an open channel. -/
def push (p : Published ε) : Queue ε :=
  if q.buffer.length < chanBuffer then
    { q with buffer := q.buffer ++ [p], accepted := q.accepted ++ [p] }
  else { q with dropped := q.dropped ++ [p] }

def cancel : Queue ε := { q with isDone := true }

def close : Queue ε := { q with isClosed := true }

/-- The second case of the `select`: a closed channel still yields what is in it. -/
def take : Queue ε :=
  match q.loop, q.buffer with
  | .select, p :: rest => { q with buffer := rest, loop := .send p, sent := q.sent ++ [p] }
  | .select, [] => if q.isClosed then { q with loop := .returned } else q
  | _, _ => q

/-- The first case of the `select`. -/
def quit : Queue ε :=
  match q.loop with
  | .select => if q.isDone then { q with loop := .returned } else q
  | _ => q

/-- `Send` has returned; an error is logged. -/
def sendReturns : Queue ε :=
  match q.loop with
  | .send _ => { q with loop := .select }
  | _ => q

end Queue

/-! ## The holder of the write lock -/

inductive Stmt
  | cancel (configID : String)
  | closeQueue (configID : String)
  | closeForwarder (configID : String)
  | register (configID : String)

def stopLocked (configID : String) : List Stmt :=
  [.cancel configID, .closeQueue configID, .closeForwarder configID]

inductive Op
  | add (configID : String)
  | remove (configID : String)
  | stopAll

/-- The statements under the lock; `order` is the one the loop over the map takes. -/
def Op.stmts (order : List String) : Op → List Stmt
  | .add configID => stopLocked configID ++ [.register configID]
  | .remove configID => stopLocked configID
  | .stopAll => order.flatMap stopLocked

/-! ## The manager -/

/-- What a goroutine does that calls the manager. -/
inductive Phase (ε : Type)
  | idle
  | publishing (p : Published ε)
  /-- it holds the read lock, with some queues to go -/
  | fanout (p : Published ε) (rest : List Nat)
  | waiting (op : Op)
  | holding (op : Op) (todo : List Stmt)

/-- The maps go from config ids to the numbers of queues. -/
structure Manager (ε : Type) where
  forwarders : List (String × Nat)
  chans : List (String × Nat)
  cancels : List (String × Nat)
  readers : List Nat
  writer : Option Nat
  phase : Nat → Phase ε
  queue : Nat → Queue ε
  /-- how many queues were made -/
  made : Nat
  /-- how many calls of `Publish` there were -/
  calls : Nat
  panicked : Bool

def newManager : Manager ε where
  forwarders := []
  chans := []
  cancels := []
  readers := []
  writer := none
  phase _ := .idle
  queue _ := {}
  made := 0
  calls := 0
  panicked := false

namespace Manager
variable (m : Manager ε)

def setPhase (g : Nat) (ph : Phase ε) : Manager ε :=
  { m with phase := Function.update m.phase g ph }

def setQueue (n : Nat) (q : Queue ε) : Manager ε :=
  { m with queue := Function.update m.queue n q }

/-- `m.chans`, without the ids. -/
def registered : List Nat := m.chans.map Prod.snd

def publish (g : Nat) (ev : ε) : Manager ε :=
  match m.phase g with
  | .idle => { m.setPhase g (.publishing ⟨m.calls, ev⟩) with calls := m.calls + 1 }
  | _ => m

def rlock (g : Nat) : Manager ε :=
  match m.phase g, m.writer with
  | .publishing p, none =>
    { m.setPhase g (.fanout p m.registered) with readers := g :: m.readers }
  | _, _ => m

/-- One round of the loop over the queues. To send on a closed channel is a panic. -/
def offer (g n : Nat) : Manager ε :=
  match m.phase g with
  | .fanout p rest =>
    if n ∈ rest then
      if (m.queue n).isClosed then { m with panicked := true }
      else (m.setPhase g (.fanout p (rest.erase n))).setQueue n ((m.queue n).push p)
    else m
  | _ => m

def runlock (g : Nat) : Manager ε :=
  match m.phase g with
  | .fanout _ [] => { m.setPhase g .idle with readers := m.readers.erase g }
  | _ => m

def call (g : Nat) (op : Op) : Manager ε :=
  match m.phase g with
  | .idle => m.setPhase g (.waiting op)
  | _ => m

def lock (g : Nat) (order : List String) : Manager ε :=
  match m.phase g, m.writer, m.readers with
  | .waiting op, none, [] =>
    if order.Perm (m.forwarders.map Prod.fst) then
      { m.setPhase g (.holding op (op.stmts order)) with writer := some g }
    else m
  | _, _, _ => m

def cancel (configID : String) : Manager ε :=
  match m.cancels.lookup configID with
  | some n =>
    { m.setQueue n (m.queue n).cancel with cancels := m.cancels.filter (·.1 ≠ configID) }
  | none => m

/-- To close a channel again is a panic. -/
def closeQueue (configID : String) : Manager ε :=
  match m.chans.lookup configID with
  | some n =>
    if (m.queue n).isClosed then { m with panicked := true }
    else { m.setQueue n (m.queue n).close with chans := m.chans.filter (·.1 ≠ configID) }
  | none => m

def closeForwarder (configID : String) : Manager ε :=
  { m with forwarders := m.forwarders.filter (·.1 ≠ configID) }

/-- A new channel and a new context under the id, and `go m.runForwarder`. -/
def register (configID : String) : Manager ε :=
  { m.setQueue m.made {} with
    forwarders := (configID, m.made) :: m.forwarders.filter (·.1 ≠ configID)
    chans := (configID, m.made) :: m.chans.filter (·.1 ≠ configID)
    cancels := (configID, m.made) :: m.cancels.filter (·.1 ≠ configID)
    made := m.made + 1 }

def exec : Stmt → Manager ε
  | .cancel configID => m.cancel configID
  | .closeQueue configID => m.closeQueue configID
  | .closeForwarder configID => m.closeForwarder configID
  | .register configID => m.register configID

def advance (g : Nat) : Manager ε :=
  match m.phase g with
  | .holding op (stmt :: todo) => (m.exec stmt).setPhase g (.holding op todo)
  | _ => m

def unlock (g : Nat) : Manager ε :=
  match m.phase g with
  | .holding _ [] => { m.setPhase g .idle with writer := none }
  | _ => m

end Manager

inductive Action (ε : Type)
  | publish (g : Nat) (ev : ε)
  | rlock (g : Nat)
  | offer (g n : Nat)
  | runlock (g : Nat)
  | call (g : Nat) (op : Op)
  | lock (g : Nat) (order : List String)
  | advance (g : Nat)
  | unlock (g : Nat)
  | take (n : Nat)
  | quit (n : Nat)
  | sendReturns (n : Nat)

def Manager.step (m : Manager ε) : Action ε → Manager ε
  | .publish g ev => m.publish g ev
  | .rlock g => m.rlock g
  | .offer g n => m.offer g n
  | .runlock g => m.runlock g
  | .call g op => m.call g op
  | .lock g order => m.lock g order
  | .advance g => m.advance g
  | .unlock g => m.unlock g
  | .take n => m.setQueue n (m.queue n).take
  | .quit n => m.setQueue n (m.queue n).quit
  | .sendReturns n => m.setQueue n (m.queue n).sendReturns

def run : Manager ε → List (Action ε) → Manager ε := Runs.run Manager.step

end IronStock.Logfwd

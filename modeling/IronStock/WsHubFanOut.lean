import IronStock.Lib.Runs
import IronStock.WsHubInvariant

/-!
# Fan-out

At most once, in order, without echo, to every connection that stays registered, and
never after its release: on every run of the hubs.
-/
namespace IronStock.WsHub

variable {ι : Type}

/-! ## What is put into the channels of the connections -/

/-- A step by which a hub accepts nothing and takes no release back. -/
def Quiet (h h' : Hub ι) : Prop :=
  h'.accepted = h.accepted ∧ ∀ k ∈ h.released, k ∈ h'.released

namespace Hub
variable {h : Hub ι} {w w' : Worker} {p : Published ι} {k k' : Nat}

theorem quiet_rlock : Quiet h (h.rlock w) := by
  unfold rlock
  split <;> exact ⟨rfl, fun _ hk => hk⟩

theorem quiet_runlock {redis isOpen : Bool} : Quiet h (h.runlock redis w isOpen) := by
  unfold runlock
  split <;> exact ⟨rfl, fun _ hk => hk⟩

theorem quiet_register : Quiet h (h.register k) := by
  unfold register
  split <;> exact ⟨rfl, fun _ hk => hk⟩

theorem quiet_release : Quiet h (h.release k) := by
  unfold release
  split
  · exact ⟨rfl, fun _ hk => List.mem_append_left _ hk⟩
  · exact ⟨rfl, fun _ hk => hk⟩

theorem quiet_close : Quiet h h.close := by
  unfold close
  split <;> exact ⟨rfl, fun _ hk => hk⟩

theorem quiet_subscribe {redis : Bool} {channel : List (RedisEnvelope ι)} :
    Quiet h (h.subscribe redis channel) := by
  unfold subscribe
  split
  · split <;> exact ⟨rfl, fun _ hk => hk⟩
  · exact ⟨rfl, fun _ hk => hk⟩

theorem quiet_receive {podID : String} {channel : List (RedisEnvelope ι)} {n : Nat} :
    Quiet h (h.receive podID channel n) := by
  unfold receive
  split
  · split <;> exact ⟨rfl, fun _ hk => hk⟩
  · exact ⟨rfl, fun _ hk => hk⟩

theorem quiet_lose : Quiet h h.lose := by
  unfold lose
  split <;> exact ⟨rfl, fun _ hk => hk⟩

/-- The channel of a connection has no room. -/
def Full (h : Hub ι) (k : Nat) : Prop := sendBufferSize ≤ (h.send k).length

theorem released_offer : (h.offer w k).released = h.released := by
  unfold offer trySend
  split
  · split
    · split <;> rfl
    · rfl
  · rfl

/-- An event is accepted where a goroutine offers it that has the connection to go. -/
theorem accepted_offer (h : Hub ι) (w : Worker) (k k' : Nat) : (h.offer w k').accepted k = h.accepted k ∨
    k' = k ∧ ∃ q rest, h.phase w = .fanout q rest ∧ k ∈ rest := by
  unfold offer trySend
  split
  · next q rest hphase =>
    split
    · next hk =>
      split
      · by_cases heq : k' = k
        · subst heq
          exact .inr ⟨rfl, q, rest, hphase, hk⟩
        · exact .inl (Function.update_of_ne (fun h => heq h.symm) _ _)
      · exact .inl rfl
    · exact .inl rfl
  · exact .inl rfl

/-- What was accepted stays. -/
theorem mem_accepted_offer {q : Published ι} (hq : q ∈ h.accepted k) :
    q ∈ (h.offer w k').accepted k := by
  unfold offer trySend
  split
  · split
    · split
      · by_cases heq : k = k'
        · subst heq
          simp [setPhase, hq]
        · simp [setPhase, heq, hq]
      · exact hq
    · exact hq
  · exact hq

end Hub

section Silence
variable [DecidableEq ι] {proc : ι → Process} {s : State ι}

/-- Every step is quiet for a hub but an offer there. -/
theorem quiet_step (proc : ι → Process) (s : State ι) (a : Action ι) (i : ι) :
    Quiet (s.hubs i) ((s.step proc a).hubs i) ∨ ∃ w k, a = .offer i w k := by
  have hself : Quiet (s.hubs i) (s.hubs i) := ⟨rfl, fun _ hk => hk⟩
  have hset {j : ι} {h : Hub ι} (hquiet : Quiet (s.hubs j) h) :
      Quiet (s.hubs i) ((s.setHub j h).hubs i) := by
    by_cases hj : i = j
    · subst hj
      rwa [State.setHub_self]
    · rwa [State.setHub_of_ne hj]
  cases a with
  | publish j g ev =>
    left
    change Quiet _ ((s.publish j g ev).hubs i)
    unfold State.publish
    split
    · apply hset
      exact ⟨rfl, fun _ hk => hk⟩
    · exact hself
  | redisPublish j g ok =>
    left
    change Quiet _ ((s.redisPublish proc j g ok).hubs i)
    unfold State.redisPublish
    split
    · apply hset
      exact ⟨rfl, fun _ hk => hk⟩
    · exact hself
  | offer j w k =>
    by_cases hj : i = j
    · exact .inr ⟨w, k, hj ▸ rfl⟩
    · exact .inl (by rw [State.step, State.setHub_of_ne hj]; exact hself)
  | rlock j w => exact .inl (hset Hub.quiet_rlock)
  | runlock j w isOpen => exact .inl (hset Hub.quiet_runlock)
  | subscribe j => exact .inl (hset Hub.quiet_subscribe)
  | receive j n => exact .inl (hset Hub.quiet_receive)
  | lose j => exact .inl (hset Hub.quiet_lose)
  | register j k => exact .inl (hset Hub.quiet_register)
  | release j k => exact .inl (hset Hub.quiet_release)
  | close j => exact .inl (hset Hub.quiet_close)
  | write j k => exact .inl (hset ⟨rfl, fun _ hk => hk⟩)

/-- Nothing is put into the channel of a connection that was released. -/
theorem silent_step (hok : Ok proc s) (a : Action ι) {i : ι} {k : Nat}
    (hk : k ∈ (s.hubs i).released) :
    ((s.step proc a).hubs i).accepted k = (s.hubs i).accepted k ∧
      k ∈ ((s.step proc a).hubs i).released := by
  rcases quiet_step proc s a i with hquiet | ⟨w, k', rfl⟩
  · exact ⟨by rw [hquiet.1], hquiet.2 k hk⟩
  · rw [State.step, State.setHub_self, Hub.released_offer]
    refine ⟨?_, hk⟩
    rcases Hub.accepted_offer (s.hubs i) w k k' with
      hsame | ⟨-, q, rest, hphase, hmem⟩
    · exact hsame
    · exact absurd (((hok.hubs i).rest w q rest hphase).2 k hmem) ((hok.hubs i).gone k hk).2

theorem silent (hok : Ok proc s) {i : ι} {k : Nat} (hk : k ∈ (s.hubs i).released)
    (as : List (Action ι)) :
    ((Runs.run (State.step proc) s as).hubs i).accepted k = (s.hubs i).accepted k := by
  induction as generalizing s with
  | nil => rfl
  | cons a as ih =>
    obtain ⟨hsame, hstill⟩ := silent_step hok a hk
    rw [Runs.run_cons, ih (hok.step a) hstill, hsame]

end Silence

/-! ## Delivery -/

section Delivery
variable {h : Hub ι} {w w' : Worker} {p : Published ι} {k k' : Nat}

theorem pending_setPhase {ph : Phase ι} (hp : (h.phase w).Pending p k)
    (hph : w' = w → ph.Pending p k) : ((h.setPhase w' ph).phase w).Pending p k := by
  rw [HubOk.setPhase_phase]
  split
  · next heq => exact hph heq.symm
  · exact hp

theorem pending_rlock (hp : (h.phase w).Pending p k) (hk : k ∈ h.connections) :
    ((h.rlock w').phase w).Pending p k := by
  unfold Hub.rlock
  split
  · next q hq =>
    apply pending_setPhase hp
    rintro rfl
    rcases hp with heq | ⟨rest, heq, -⟩
    · rw [hq] at heq
      cases heq
      exact .inr ⟨_, rfl, hk⟩
    · rw [hq] at heq
      cases heq
  · exact hp

theorem pending_runlock {redis isOpen : Bool} (hp : (h.phase w).Pending p k) :
    ((h.runlock redis w' isOpen).phase w).Pending p k := by
  unfold Hub.runlock
  split
  · next q hq =>
    apply pending_setPhase hp
    rintro rfl
    rcases hp with heq | ⟨rest, heq, hk⟩
    · rw [hq] at heq
      cases heq
    · rw [hq] at heq
      cases heq
      cases hk
  · exact hp

/-- An event that is offered to its connection is accepted there or finds no room; else
it is still to be offered. -/
theorem pending_offer (w' : Worker) (k' : Nat) (hp : (h.phase w).Pending p k) :
    ((h.offer w' k').phase w).Pending p k ∨
      w' = w ∧ k' = k ∧ (p ∈ (h.offer w' k').accepted k ∨ h.Full k) := by
  cases hphase : h.phase w' with
  | fanout q rest =>
    by_cases hmem : k' ∈ rest
    · have hoffer : h.offer w' k' = (h.setPhase w' (.fanout q (rest.erase k'))).trySend k' q := by
        simp [Hub.offer, hphase, hmem]
      have htry : (((h.setPhase w' (.fanout q (rest.erase k'))).trySend k' q).phase w) =
          (h.setPhase w' (.fanout q (rest.erase k'))).phase w := by
        unfold Hub.trySend
        split <;> rfl
      by_cases hthis : w' = w ∧ k' = k
      · obtain ⟨rfl, rfl⟩ := hthis
        have heq : q = p := by
          rcases hp with heq | ⟨rest', heq, -⟩
          · rw [hphase] at heq
            cases heq
          · rw [hphase] at heq
            cases heq
            rfl
        subst heq
        refine .inr ⟨rfl, rfl, ?_⟩
        rw [hoffer, Hub.trySend]
        split
        · exact .inl (by simp)
        · next hroom => exact .inr (Nat.le_of_not_lt hroom)
      · left
        rw [hoffer, htry]
        apply pending_setPhase hp
        rintro rfl
        have hk : k ≠ k' := fun heq => hthis ⟨rfl, heq.symm⟩
        rcases hp with heq | ⟨rest', heq, hk'⟩
        · rw [hphase] at heq
          cases heq
        · rw [hphase] at heq
          cases heq
          exact .inr ⟨_, rfl, (List.mem_erase_of_ne hk).2 hk'⟩
    · exact .inl (by simpa [Hub.offer, hphase, hmem] using hp)
  | idle => exact .inl (by simpa [Hub.offer, hphase] using hp)
  | called q => exact .inl (by simpa [Hub.offer, hphase] using hp)
  | remote q => exact .inl (by simpa [Hub.offer, hphase] using hp)

variable [DecidableEq ι] {proc : ι → Process} {s : State ι} {i : ι} {g : Nat}

/-- A connection that is registered keeps its place in a `Publish` until it is offered the
event. -/
theorem pending_step (proc : ι → Process) (a : Action ι) (hp : ((s.hubs i).phase (some g)).Pending p k)
    (hk : k ∈ (s.hubs i).connections) :
    (((s.step proc a).hubs i).phase (some g)).Pending p k ∨ a = .offer i (some g) k ∧
      (p ∈ ((s.step proc a).hubs i).accepted k ∨ (s.hubs i).Full k) := by
  have hset {j : ι} {h : Hub ι} (hself : j = i → (h.phase (some g)).Pending p k) :
      (((s.setHub j h).hubs i).phase (some g)).Pending p k := by
    by_cases hj : i = j
    · subst hj
      rw [State.setHub_self]
      exact hself rfl
    · rwa [State.setHub_of_ne hj]
  cases a with
  | publish j g' ev =>
    left
    change (((s.publish j g' ev).hubs i).phase (some g)).Pending p k
    unfold State.publish
    split
    · next hidle =>
      apply hset
      rintro rfl
      apply pending_setPhase hp
      rintro heq
      rw [← heq, hidle] at hp
      rcases hp with heq | ⟨rest, heq, -⟩ <;> cases heq
    · exact hp
  | redisPublish j g' ok =>
    left
    change (((s.redisPublish proc j g' ok).hubs i).phase (some g)).Pending p k
    unfold State.redisPublish
    split
    · next q hremote =>
      apply hset
      rintro rfl
      apply pending_setPhase hp
      rintro heq
      rw [← heq, hremote] at hp
      rcases hp with heq | ⟨rest, heq, -⟩ <;> cases heq
    · exact hp
  | offer j w k' =>
    by_cases hj : i = j
    · subst hj
      rw [State.step, State.setHub_self]
      rcases pending_offer w k' hp with hstill | ⟨rfl, rfl, hdone⟩
      · exact .inl hstill
      · exact .inr ⟨rfl, hdone⟩
    · left
      rwa [State.step, State.setHub_of_ne hj]
  | rlock j w => exact .inl (hset fun heq => heq ▸ pending_rlock hp hk)
  | runlock j w isOpen => exact .inl (hset fun heq => heq ▸ pending_runlock hp)
  | subscribe j =>
    refine .inl (hset fun heq => heq ▸ ?_)
    unfold Hub.subscribe
    split
    · split <;> exact hp
    · exact hp
  | receive j n =>
    refine .inl (hset fun heq => heq ▸ ?_)
    unfold Hub.receive
    split
    · next cursor env _ _ _ =>
      split
      · have hother : ∀ ph, (((s.hubs i).setPhase none ph).phase (some g)).Pending p k :=
          fun ph => pending_setPhase hp fun heq => absurd heq (Option.some_ne_none g).symm
        exact hother (if env.podID = (proc i).podID then .idle else .called env.event)
      · exact hp
    · exact hp
  | lose j =>
    refine .inl (hset fun heq => heq ▸ ?_)
    unfold Hub.lose
    split <;> exact hp
  | register j k' =>
    refine .inl (hset fun heq => heq ▸ ?_)
    unfold Hub.register
    split <;> exact hp
  | release j k' =>
    refine .inl (hset fun heq => heq ▸ ?_)
    unfold Hub.release
    split <;> exact hp
  | close j =>
    refine .inl (hset fun heq => heq ▸ ?_)
    unfold Hub.close
    split <;> exact hp
  | write j k' => exact .inl (hset fun heq => heq ▸ hp)

/-- What is accepted stays accepted. -/
theorem mem_accepted_step (a : Action ι) (hp : p ∈ (s.hubs i).accepted k) :
    p ∈ ((s.step proc a).hubs i).accepted k := by
  rcases quiet_step proc s a i with hquiet | ⟨w, k', rfl⟩
  · rwa [hquiet.1]
  · rw [State.step, State.setHub_self]
    exact Hub.mem_accepted_offer hp

theorem mem_accepted_run (as : List (Action ι)) (hp : p ∈ (s.hubs i).accepted k) :
    p ∈ ((Runs.run (State.step proc) s as).hubs i).accepted k := by
  induction as generalizing s with
  | nil => exact hp
  | cons a as ih => exact ih (mem_accepted_step a hp)

/-- A connection that stays registered while an event is pending for it gets the event
before its goroutine is done with it, unless there is no room. -/
theorem delivered (as : List (Action ι)) (hp : ((s.hubs i).phase (some g)).Pending p k)
    (hk : Runs.Along (State.step proc) (fun t => k ∈ (t.hubs i).connections) s as)
    (hdone : (((Runs.run (State.step proc) s as).hubs i).phase (some g)).event? ≠ some p) :
    p ∈ ((Runs.run (State.step proc) s as).hubs i).accepted k ∨
      ∃ before after, as = before ++ .offer i (some g) k :: after ∧
        ((Runs.run (State.step proc) s before).hubs i).Full k := by
  induction as generalizing s with
  | nil => exact absurd (Phase.event?_of_pending hp) hdone
  | cons a as ih =>
    rcases pending_step proc a hp hk.1 with hstill | ⟨rfl, haccepted | hfull⟩
    · rcases ih hstill hk.2 hdone with hin | ⟨before, after, rfl, hfull⟩
      · exact .inl hin
      · exact .inr ⟨a :: before, after, rfl, hfull⟩
    · exact .inl (mem_accepted_run as haccepted)
    · exact .inr ⟨[], as, rfl, hfull⟩

end Delivery

/-! ## Fan-out -/

section FanOut
variable [DecidableEq ι] (proc : ι → Process)

/-- What the hub promises in a state, for the steps that led there and all that may
follow. -/
structure FanOut (s : State ι) : Prop where
  /-- the calls of `Publish` are numbered, and nothing else is ever accepted -/
  numbered : ∀ (n : Nat) (p : Published ι), s.calls[n]? = some p → p.id = n
  published : ∀ i k, ∀ p ∈ (s.hubs i).accepted k, p ∈ s.calls
  /-- at most once -/
  once : ∀ i k, ((s.hubs i).accepted k).Nodup
  /-- in the order of the goroutine -/
  inOrder : ∀ i k, ((s.hubs i).accepted k).Pairwise fun p q =>
    p.process = q.process → p.goroutine = q.goroutine → p.id < q.id
  /-- the subscriber has no event of its own process -/
  noEcho : ∀ i p, ((s.hubs i).phase none).event? = some p → p.process ≠ i
  /-- a connection that is registered from the call of `Publish` to its return has the
  event then, or was full when it was offered -/
  delivered : ∀ i g ev k as, (s.hubs i).phase (some g) = .idle →
    Runs.Along (State.step proc) (fun t => k ∈ (t.hubs i).connections)
      (s.step proc (.publish i g ev)) as →
    (((Runs.run (State.step proc) (s.step proc (.publish i g ev)) as).hubs i).phase
      (some g)).event? ≠ some ⟨s.calls.length, i, g, ev⟩ →
    ⟨s.calls.length, i, g, ev⟩ ∈
        ((Runs.run (State.step proc) (s.step proc (.publish i g ev)) as).hubs i).accepted k ∨
      ∃ before after, as = before ++ .offer i (some g) k :: after ∧
        ((Runs.run (State.step proc) (s.step proc (.publish i g ev)) before).hubs i).Full k
  /-- nothing after the release function has returned -/
  silent : ∀ i k as, k ∈ (s.hubs i).released →
    ((Runs.run (State.step proc) s as).hubs i).accepted k = (s.hubs i).accepted k

end FanOut

end IronStock.WsHub

import IronStock.WsHub
import Mathlib.Data.List.Nodup

/-!
# What the hubs keep

An event reaches the connections of its own process before it goes to Redis, and those
of another process in the order of the channel. The invariant says how far each
goroutine and each subscription has come.
-/
namespace IronStock.WsHub

variable {ι : Type}

/-! ## The invariant -/

/-- Of two events of one goroutine the one that was published first comes first. -/
def InOrder (l : List (Published ι)) : Prop :=
  l.Pairwise fun p q => p.process = q.process → p.goroutine = q.goroutine → p.id < q.id

theorem inOrder_concat {l : List (Published ι)} {p : Published ι} :
    InOrder (l ++ [p]) ↔ InOrder l ∧
      ∀ q ∈ l, q.process = p.process → q.goroutine = p.goroutine → q.id < p.id := by
  simp [InOrder, List.pairwise_append]

theorem InOrder.nodup {l : List (Published ι)} (h : InOrder l) : l.Nodup := by
  apply List.Pairwise.imp _ h
  rintro p q hlt rfl
  exact Nat.lt_irrefl _ (hlt rfl rfl)

theorem InOrder.lt {l : List (Published ι)} (h : InOrder l) {n m : Nat} {p q : Published ι}
    (hp : l[n]? = some p) (hq : l[m]? = some q) (hnm : n < m) (hprocess : p.process = q.process)
    (hgoroutine : p.goroutine = q.goroutine) : p.id < q.id := by
  obtain ⟨hn, rfl⟩ := List.getElem?_eq_some_iff.1 hp
  obtain ⟨hm, rfl⟩ := List.getElem?_eq_some_iff.1 hq
  exact List.pairwise_iff_getElem.1 h n m hn hm hnm hprocess hgoroutine

/-- A message of the channel before a place. -/
def Sent (channel : List (RedisEnvelope ι)) (n : Nat) (p : Published ι) : Prop :=
  ∃ m e, m < n ∧ channel[m]? = some e ∧ e.event = p

theorem Sent.mono {channel : List (RedisEnvelope ι)} {n n' : Nat} {p : Published ι}
    (h : Sent channel n p) (hn : n ≤ n') : Sent channel n' p := by
  obtain ⟨m, e, hm, he, heq⟩ := h
  exact ⟨m, e, Nat.lt_of_lt_of_le hm hn, he, heq⟩

theorem Sent.append {channel more : List (RedisEnvelope ι)} {n : Nat} {p : Published ι}
    (h : Sent channel n p) : Sent (channel ++ more) n p := by
  obtain ⟨m, e, hm, he, heq⟩ := h
  refine ⟨m, e, hm, ?_, heq⟩
  rw [List.getElem?_append_left (List.getElem?_eq_some_iff.1 he).1, he]

/-- Where the subscription of a hub, or the next one, goes on. -/
def Hub.position (h : Hub ι) (channel : List (RedisEnvelope ι)) : Nat :=
  h.subscription.getD channel.length

/-- What holds of each hub. An event of another process reaches the connections by way
of the channel, in the order of the messages. -/
structure HubOk (calls : List (Published ι)) (channel : List (RedisEnvelope ι)) (i : ι)
    (h : Hub ι) : Prop where
  connections : h.connections.Nodup
  known : ∀ k ∈ h.connections, k ∈ h.registered
  gone : ∀ k ∈ h.released, k ∈ h.registered ∧ k ∉ h.connections
  reader : ∀ w p rest, h.phase w = .fanout p rest → w ∈ h.readers
  rest : ∀ w p rest, h.phase w = .fanout p rest → rest.Nodup ∧ ∀ k ∈ rest, k ∈ h.connections
  own : ∀ g p, (h.phase (some g)).event? = some p →
    p ∈ calls ∧ p.process = i ∧ p.goroutine = g
  ahead : ∀ g p, (h.phase (some g)).event? = some p → ∀ e ∈ channel,
    e.event.process = i → e.event.goroutine = g → e.event.id < p.id
  fresh : ∀ g p k, (h.phase (some g)).Pending p k → ∀ q ∈ h.accepted k,
    q.process = i → q.goroutine = g → q.id < p.id
  foreign : ∀ p, (h.phase none).event? = some p → p.process ≠ i ∧
    ∃ m e, h.subscription = some (m + 1) ∧ channel[m]? = some e ∧ e.event = p
  published : ∀ k, ∀ q ∈ h.accepted k, q ∈ calls
  remote : ∀ k, ∀ q ∈ h.accepted k, q.process ≠ i → Sent channel (h.position channel) q
  behind : ∀ p k, (h.phase none).Pending p k → ∀ q ∈ h.accepted k, q.process ≠ i →
    Sent channel (h.position channel - 1) q
  order : ∀ k, InOrder (h.accepted k)
  position : h.position channel ≤ channel.length

structure Ok (proc : ι → Process) (s : State ι) : Prop where
  numbered : ∀ (n : Nat) (p : Published ι), s.calls[n]? = some p → p.id = n
  channelOrder : InOrder (s.channel.map RedisEnvelope.event)
  channelCalls : ∀ e ∈ s.channel, e.event ∈ s.calls
  channelPods : ∀ e ∈ s.channel, e.podID = (proc e.event.process).podID
  hubs : ∀ i, HubOk s.calls s.channel i (s.hubs i)


/-! ## One step of a hub -/

theorem Phase.event?_of_pending {ph : Phase ι} {p : Published ι} {k : Nat} (h : ph.Pending p k) :
    ph.event? = some p := by
  rcases h with rfl | ⟨rest, rfl, -⟩
  · rfl
  · rfl

namespace HubOk
variable {calls : List (Published ι)} {channel : List (RedisEnvelope ι)} {i : ι} {h : Hub ι}

/-- A change of the phases by which no goroutine takes up an event. -/
theorem phases (hok : HubOk calls channel i h) {phase : Worker → Phase ι} {readers : List Worker}
    {send : Nat → List (Published ι)}
    (hevent : ∀ w q, (phase w).event? = some q → (h.phase w).event? = some q)
    (hpending : ∀ w q k, (phase w).Pending q k → (h.phase w).Pending q k)
    (hfanout : ∀ w p rest, phase w = .fanout p rest →
      w ∈ readers ∧ rest.Nodup ∧ ∀ k ∈ rest, k ∈ h.connections) :
    HubOk calls channel i { h with phase, readers, send } where
  connections := hok.connections
  known := hok.known
  gone := hok.gone
  reader := fun w p rest heq => (hfanout w p rest heq).1
  rest := fun w p rest heq => (hfanout w p rest heq).2
  own := fun g p hp => hok.own g p (hevent _ _ hp)
  ahead := fun g p hp => hok.ahead g p (hevent _ _ hp)
  fresh := fun g p k hp => hok.fresh g p k (hpending _ _ _ hp)
  foreign := fun p hp => hok.foreign p (hevent _ _ hp)
  published := hok.published
  remote := hok.remote
  behind := fun p k hp => hok.behind p k (hpending _ _ _ hp)
  order := hok.order
  position := hok.position

/-- While nobody holds the read lock the connections may change. -/
theorem unlocked (hok : HubOk calls channel i h) (hreaders : h.readers = [])
    {connections registered released : List Nat} (hnodup : connections.Nodup)
    (hknown : ∀ k ∈ connections, k ∈ registered)
    (hgone : ∀ k ∈ released, k ∈ registered ∧ k ∉ connections) :
    HubOk calls channel i { h with connections, registered, released } where
  connections := hnodup
  known := hknown
  gone := hgone
  reader := hok.reader
  rest := by
    intro w p rest heq
    have hmem := hok.reader w p rest heq
    rw [hreaders] at hmem
    cases hmem
  own := hok.own
  ahead := hok.ahead
  fresh := hok.fresh
  foreign := hok.foreign
  published := hok.published
  remote := hok.remote
  behind := hok.behind
  order := hok.order
  position := hok.position

/-- An event is put into the channel of a connection that no goroutine has it for. -/
theorem accept (hok : HubOk calls channel i h) {p : Published ι} {k : Nat}
    {send : Nat → List (Published ι)} (hcalls : p ∈ calls)
    (hlast : ∀ q ∈ h.accepted k, q.process = p.process → q.goroutine = p.goroutine → q.id < p.id)
    (hsent : p.process ≠ i → Sent channel (h.position channel) p)
    (hfresh : ∀ g q, (h.phase (some g)).Pending q k → p.process = i → p.goroutine ≠ g)
    (hbehind : ∀ q, (h.phase none).Pending q k → p.process = i) :
    HubOk calls channel i
      { h with send, accepted := Function.update h.accepted k (h.accepted k ++ [p]) } := by
  have hmem : ∀ k' q, q ∈ Function.update h.accepted k (h.accepted k ++ [p]) k' →
      q ∈ h.accepted k' ∨ k' = k ∧ q = p := by
    intro k' q hq
    by_cases hk : k' = k
    · subst hk
      rw [Function.update_self, List.mem_append, List.mem_singleton] at hq
      exact hq.imp id fun heq => ⟨rfl, heq⟩
    · rw [Function.update_of_ne hk] at hq
      exact .inl hq
  constructor
  · exact hok.connections
  · exact hok.known
  · exact hok.gone
  · exact hok.reader
  · exact hok.rest
  · exact hok.own
  · exact hok.ahead
  · intro g q k' hq r hr hprocess hgoroutine
    rcases hmem k' r hr with hold | ⟨rfl, rfl⟩
    · exact hok.fresh g q k' hq r hold hprocess hgoroutine
    · exact absurd hgoroutine (hfresh g q hq hprocess)
  · exact hok.foreign
  · intro k' q hq
    rcases hmem k' q hq with hold | ⟨rfl, rfl⟩
    · exact hok.published k' q hold
    · exact hcalls
  · intro k' q hq hprocess
    rcases hmem k' q hq with hold | ⟨rfl, rfl⟩
    · exact hok.remote k' q hold hprocess
    · exact hsent hprocess
  · intro q k' hq r hr hprocess
    rcases hmem k' r hr with hold | ⟨rfl, rfl⟩
    · exact hok.behind q k' hq r hold hprocess
    · exact absurd (hbehind q hq) hprocess
  · intro k'
    by_cases hk : k' = k
    · subst hk
      change InOrder (Function.update h.accepted k' _ k')
      rw [Function.update_self]
      exact inOrder_concat.2 ⟨hok.order k', hlast⟩
    · change InOrder (Function.update h.accepted k _ k')
      rw [Function.update_of_ne hk]
      exact hok.order k'
  · exact hok.position

theorem setPhase_phase (w : Worker) (ph : Phase ι) (w' : Worker) :
    (h.setPhase w ph).phase w' = if w' = w then ph else h.phase w' :=
  Function.update_apply _ _ _ _

/-- A goroutine that has just been given an event does not hold the lock. -/
theorem fanout_of_called {w w' : Worker} {p q : Published ι} {rest : List Nat}
    (hw : (if w = w' then .called q else h.phase w) = .fanout p rest) :
    h.phase w = .fanout p rest := by
  split at hw
  · cases hw
  · exact hw

/-- One goroutine goes on with the event it has, or lets it go. -/
theorem turn (hok : HubOk calls channel i h) (w : Worker) {ph : Phase ι} {readers : List Worker}
    (hevent : ∀ q, ph.event? = some q → (h.phase w).event? = some q)
    (hpending : ∀ q k, ph.Pending q k → (h.phase w).Pending q k)
    (hfanout : ∀ p rest, ph = .fanout p rest →
      w ∈ readers ∧ rest.Nodup ∧ ∀ k ∈ rest, k ∈ h.connections)
    (hreaders : ∀ w' ∈ h.readers, w' ≠ w → w' ∈ readers) :
    HubOk calls channel i { h.setPhase w ph with readers } := by
  have hphase : ∀ w', (h.setPhase w ph).phase w' = if w' = w then ph else h.phase w' :=
    setPhase_phase w ph
  apply hok.phases
  · intro w' q hq
    rw [hphase] at hq
    split at hq
    · next heq => exact heq ▸ hevent q hq
    · exact hq
  · intro w' q k hq
    rw [hphase] at hq
    split at hq
    · next heq => exact heq ▸ hpending q k hq
    · exact hq
  · intro w' p rest hq
    rw [hphase] at hq
    split at hq
    · next heq => exact heq ▸ hfanout p rest hq
    · next hne => exact ⟨hreaders w' (hok.reader w' p rest hq) hne, hok.rest w' p rest hq⟩

section Steps

theorem rlock (hok : HubOk calls channel i h) (w : Worker) :
    HubOk calls channel i (h.rlock w) := by
  unfold Hub.rlock
  split
  · next p hp =>
    apply hok.turn
    · intro q hq
      rw [hp]
      exact hq
    · rintro q k (heq | ⟨rest, heq, -⟩)
      · cases heq
      · cases heq
        exact .inl hp
    · rintro q rest ⟨⟩
      exact ⟨List.mem_cons_self, hok.connections, fun _ hk => hk⟩
    · intro w' hw' _
      exact List.mem_cons_of_mem _ hw'
  · exact hok

theorem runlock (hok : HubOk calls channel i h) (redis : Bool) (w : Worker) (isOpen : Bool) :
    HubOk calls channel i (h.runlock redis w isOpen) := by
  unfold Hub.runlock
  split
  · next p hp =>
    apply hok.turn
    · intro q hq
      rw [hp]
      split at hq
      · exact hq
      · cases hq
    · intro q k hq
      split at hq
      · rcases hq with heq | ⟨rest, heq, -⟩ <;> cases heq
      · rcases hq with heq | ⟨rest, heq, -⟩ <;> cases heq
    · intro q rest heq
      split at heq <;> cases heq
    · intro w' hw' hne
      exact (List.mem_erase_of_ne hne).2 hw'
  · exact hok

theorem offer (hok : HubOk calls channel i h) (hchannel : InOrder (channel.map (·.event)))
    (hcalls : ∀ e ∈ channel, e.event ∈ calls) (w : Worker) (k : Nat) :
    HubOk calls channel i (h.offer w k) := by
  unfold Hub.offer
  split
  · next p rest hp =>
    split
    · next hk =>
      have hnodup := (hok.rest w p rest hp).1
      have hpending : (h.phase w).Pending p k := .inr ⟨rest, hp, hk⟩
      have hevent : (h.phase w).event? = some p := Phase.event?_of_pending hpending
      have hturn : HubOk calls channel i (h.setPhase w (.fanout p (rest.erase k))) := by
        apply hok.turn
        · intro q hq
          rw [hevent]
          exact hq
        · rintro q k' (heq | ⟨rest', heq, hk'⟩)
          · cases heq
          · cases heq
            exact .inr ⟨rest, hp, List.mem_of_mem_erase hk'⟩
        · rintro q rest' ⟨⟩
          exact ⟨hok.reader w p rest hp, hnodup.erase k,
            fun k' hk' => (hok.rest w p rest hp).2 k' (List.mem_of_mem_erase hk')⟩
        · intro w' hw' _
          exact hw'
      have hdone : ∀ q, ¬ ((h.setPhase w (.fanout p (rest.erase k))).phase w).Pending q k := by
        intro q hq
        simp only [Hub.setPhase, Function.update_self] at hq
        rcases hq with heq | ⟨rest', heq, hk'⟩
        · cases heq
        · cases heq
          exact (hnodup.mem_erase_iff.1 hk').1 rfl
      unfold Hub.trySend
      split
      · cases w with
        | some g =>
          obtain ⟨hmem, hprocess, hgoroutine⟩ := hok.own g p hevent
          apply hturn.accept hmem
          · intro q hq heq hg
            exact hok.fresh g p k hpending q hq (heq.trans hprocess) (hg.trans hgoroutine)
          · exact fun hne => absurd hprocess hne
          · rintro g' q hq - heq
            obtain rfl : g = g' := hgoroutine.symm.trans heq
            exact hdone q hq
          · exact fun _ _ => hprocess
        | none =>
          obtain ⟨hprocess, m, e, hsub, he, rfl⟩ := hok.foreign p hevent
          have hposition : h.position channel = m + 1 := by simp [Hub.position, hsub]
          apply hturn.accept (hcalls e (List.mem_of_getElem? he))
          · intro q hq heq hg
            have hother : q.process ≠ i := fun h => hprocess (heq.symm.trans h)
            obtain ⟨n, e', hn, he', rfl⟩ := hok.behind _ k hpending q hq hother
            rw [hposition] at hn
            have hlt : n < m := hn
            exact hchannel.lt (by rw [List.getElem?_map, he']; rfl)
              (by rw [List.getElem?_map, he]; rfl) hlt heq hg
          · intro _
            have hsent : m < h.position channel := hposition ▸ Nat.lt_succ_self m
            exact ⟨m, e, hsent, he, rfl⟩
          · intro g q _ heq
            exact absurd heq hprocess
          · intro q hq
            exact absurd hq (hdone q)
      · exact hturn
    · exact hok
  · exact hok

theorem register (hok : HubOk calls channel i h) (k : Nat) :
    HubOk calls channel i (h.register k) := by
  unfold Hub.register
  split
  · next hcond =>
    have hnew : k ∉ h.connections := fun hk => hcond.2 (hok.known k hk)
    apply hok.unlocked hcond.1
    · simpa using List.Nodup.concat hnew hok.connections
    · intro k' hk'
      rw [List.mem_append] at hk' ⊢
      exact hk'.imp (hok.known k') id
    · intro k' hk'
      obtain ⟨hreg, hout⟩ := hok.gone k' hk'
      refine ⟨List.mem_append_left _ hreg, ?_⟩
      rw [List.mem_append, List.mem_singleton]
      rintro (hin | rfl)
      · exact hout hin
      · exact hcond.2 hreg
  · exact hok

theorem release (hok : HubOk calls channel i h) (k : Nat) :
    HubOk calls channel i (h.release k) := by
  unfold Hub.release
  split
  · next hcond =>
    apply hok.unlocked hcond.1
    · exact hok.connections.erase k
    · exact fun k' hk' => hok.known k' (List.mem_of_mem_erase hk')
    · intro k' hk'
      rw [hok.connections.mem_erase_iff]
      rcases List.mem_append.1 hk' with hold | hnew
      · exact ⟨(hok.gone k' hold).1, fun hin => (hok.gone k' hold).2 hin.2⟩
      · obtain rfl := List.mem_singleton.1 hnew
        exact ⟨hcond.2, fun hin => hin.1 rfl⟩
  · exact hok

theorem close (hok : HubOk calls channel i h) : HubOk calls channel i h.close := by
  unfold Hub.close
  split
  · next hreaders =>
    apply hok.unlocked hreaders List.nodup_nil
    · exact fun k hk => absurd hk List.not_mem_nil
    · exact fun k hk => ⟨(hok.gone k hk).1, List.not_mem_nil⟩
  · exact hok

theorem write (hok : HubOk calls channel i h) (k : Nat) : HubOk calls channel i (h.write k) :=
  hok.phases (fun _ _ hq => hq) (fun _ _ _ hq => hq) fun w p rest hq =>
    ⟨hok.reader w p rest hq, hok.rest w p rest hq⟩

/-- The position of a subscription moves on while its goroutine has no event. -/
theorem moveTo (hok : HubOk calls channel i h) (hidle : (h.phase none).event? = none)
    {subscription : Option Nat} (hle : h.position channel ≤ subscription.getD channel.length)
    (hlen : subscription.getD channel.length ≤ channel.length) :
    HubOk calls channel i { h with subscription } where
  connections := hok.connections
  known := hok.known
  gone := hok.gone
  reader := hok.reader
  rest := hok.rest
  own := hok.own
  ahead := hok.ahead
  fresh := hok.fresh
  foreign := by
    intro p hp
    rw [show (h.phase none).event? = some p from hp] at hidle
    cases hidle
  published := hok.published
  remote := fun k q hq hprocess => (hok.remote k q hq hprocess).mono hle
  behind := by
    intro p k hp
    rw [Phase.event?_of_pending (show (h.phase none).Pending p k from hp)] at hidle
    cases hidle
  order := hok.order
  position := hlen

theorem subscribe (hok : HubOk calls channel i h) (redis : Bool) :
    HubOk calls channel i (h.subscribe redis channel) := by
  unfold Hub.subscribe
  split
  · next hidle hnone =>
    split
    · exact hok.moveTo (by rw [hidle]; rfl) (show _ ≤ channel.length from hok.position)
        (Nat.le_refl channel.length)
    · exact hok
  · exact hok

theorem lose (hok : HubOk calls channel i h) : HubOk calls channel i h.lose := by
  unfold Hub.lose
  split
  · next hidle =>
    exact hok.moveTo (by rw [hidle]; rfl) (show _ ≤ channel.length from hok.position)
      (Nat.le_refl channel.length)
  · exact hok

/-- The subscriber takes up an event of another process, behind all that it has handed
on before. -/
theorem takeUp (hok : HubOk calls channel i h) {e : RedisEnvelope ι} {n : Nat}
    (he : channel[n]? = some e) (hother : e.event.process ≠ i) (hle : h.position channel ≤ n) :
    HubOk calls channel i
      { h.setPhase none (.called e.event) with subscription := some (n + 1) } := by
  have hphase : ∀ w, (h.setPhase none (.called e.event)).phase w =
      if w = none then .called e.event else h.phase w := setPhase_phase none _
  constructor
  · exact hok.connections
  · exact hok.known
  · exact hok.gone
  · intro w p rest hw
    exact hok.reader w p rest (fanout_of_called (hphase w ▸ hw))
  · intro w p rest hw
    exact hok.rest w p rest (fanout_of_called (hphase w ▸ hw))
  · intro g p hp
    exact hok.own g p (by simpa [hphase] using hp)
  · intro g p hp
    exact hok.ahead g p (by simpa [hphase] using hp)
  · intro g p k hp
    exact hok.fresh g p k (by simpa [hphase] using hp)
  · intro p hp
    change ((h.setPhase none (.called e.event)).phase none).event? = some p at hp
    rw [hphase, if_pos rfl] at hp
    cases hp
    exact ⟨hother, n, e, rfl, he, rfl⟩
  · exact hok.published
  · exact fun k q hq hprocess => (hok.remote k q hq hprocess).mono (Nat.le_succ_of_le hle)
  · exact fun p k _ q hq hprocess => (hok.remote k q hq hprocess).mono hle
  · exact hok.order
  · exact (List.getElem?_eq_some_iff.1 he).1

theorem receive (hok : HubOk calls channel i h) {proc : ι → Process}
    (hpods : ∀ e ∈ channel, e.podID = (proc e.event.process).podID) (n : Nat) :
    HubOk calls channel i (h.receive (proc i).podID channel n) := by
  unfold Hub.receive
  split
  · next cursor env hidle hsub henv =>
    split
    · next hcursor =>
      have hle : h.position channel ≤ n := by
        rw [Hub.position, hsub]
        exact hcursor
      split
      · have hself : h.setPhase none .idle = h := by
          simp [Hub.setPhase, ← hidle]
        rw [hself]
        exact hok.moveTo (by rw [hidle]; rfl) (Nat.le_succ_of_le hle)
          (List.getElem?_eq_some_iff.1 henv).1
      · next hpod =>
        apply hok.takeUp henv _ hle
        intro heq
        rw [hpods env (List.mem_of_getElem? henv), heq] at hpod
        exact hpod rfl
    · exact hok
  · exact hok

end Steps

section Growth

theorem more_calls (hok : HubOk calls channel i h) (p : Published ι) :
    HubOk (calls ++ [p]) channel i h where
  connections := hok.connections
  known := hok.known
  gone := hok.gone
  reader := hok.reader
  rest := hok.rest
  own := by
    intro g q hq
    obtain ⟨hmem, hby⟩ := hok.own g q hq
    exact ⟨List.mem_append_left _ hmem, hby⟩
  ahead := hok.ahead
  fresh := hok.fresh
  foreign := hok.foreign
  published := fun k q hq => List.mem_append_left _ (hok.published k q hq)
  remote := hok.remote
  behind := hok.behind
  order := hok.order
  position := hok.position

/-- A goroutine starts with an event that is ahead of all it has published. -/
theorem start (hok : HubOk calls channel i h) {p : Published ι} (hmem : p ∈ calls)
    (hprocess : p.process = i)
    (hahead : ∀ e ∈ channel, e.event.process = i → e.event.goroutine = p.goroutine →
      e.event.id < p.id)
    (hfresh : ∀ k, ∀ q ∈ h.accepted k, q.process = i → q.goroutine = p.goroutine → q.id < p.id) :
    HubOk calls channel i (h.setPhase (some p.goroutine) (.called p)) := by
  have hphase : ∀ w, (h.setPhase (some p.goroutine) (.called p)).phase w =
      if w = some p.goroutine then .called p else h.phase w := setPhase_phase _ _
  constructor
  · exact hok.connections
  · exact hok.known
  · exact hok.gone
  · intro w q rest hw
    exact hok.reader w q rest (fanout_of_called (hphase w ▸ hw))
  · intro w q rest hw
    exact hok.rest w q rest (fanout_of_called (hphase w ▸ hw))
  · intro g q hq
    rw [hphase] at hq
    split at hq
    · next heq =>
      cases hq
      exact ⟨hmem, hprocess, (Option.some.inj heq).symm⟩
    · exact hok.own g q hq
  · intro g q hq
    rw [hphase] at hq
    split at hq
    · next heq =>
      cases hq
      obtain rfl := Option.some.inj heq
      exact hahead
    · exact hok.ahead g q hq
  · intro g q k hq
    rw [hphase] at hq
    split at hq
    · next heq =>
      obtain rfl : p = q := Option.some.inj (Phase.event?_of_pending hq)
      obtain rfl := Option.some.inj heq
      exact hfresh k
    · exact hok.fresh g q k hq
  · intro q hq
    exact hok.foreign q (by simpa [hphase] using hq)
  · exact hok.published
  · exact hok.remote
  · intro q k hq
    exact hok.behind q k (by simpa [hphase] using hq)
  · exact hok.order
  · exact hok.position

theorem more_channel (hok : HubOk calls channel i h) {e : RedisEnvelope ι}
    (hahead : ∀ g q, (h.phase (some g)).event? = some q → e.event.process = i →
      e.event.goroutine = g → e.event.id < q.id) : HubOk calls (channel ++ [e]) i h := by
  have hle : h.position channel ≤ h.position (channel ++ [e]) := by
    unfold Hub.position
    cases h.subscription with
    | none => simp
    | some n => exact Nat.le_refl n
  constructor
  · exact hok.connections
  · exact hok.known
  · exact hok.gone
  · exact hok.reader
  · exact hok.rest
  · exact hok.own
  · intro g q hq e' he' hprocess hgoroutine
    rcases List.mem_append.1 he' with hold | hnew
    · exact hok.ahead g q hq e' hold hprocess hgoroutine
    · obtain rfl := List.mem_singleton.1 hnew
      exact hahead g q hq hprocess hgoroutine
  · exact hok.fresh
  · intro p hp
    obtain ⟨hprocess, m, e', hsub, he', heq⟩ := hok.foreign p hp
    refine ⟨hprocess, m, e', hsub, ?_, heq⟩
    rw [List.getElem?_append_left (List.getElem?_eq_some_iff.1 he').1, he']
  · exact hok.published
  · exact fun k q hq hprocess => (hok.remote k q hq hprocess).append.mono hle
  · exact fun p k hp q hq hprocess =>
      (hok.behind p k hp q hq hprocess).append.mono (Nat.sub_le_sub_right hle 1)
  · exact hok.order
  · have hlen := hok.position
    unfold Hub.position at hlen ⊢
    rw [List.length_append]
    cases hsub : h.subscription with
    | none => simp
    | some n =>
      rw [hsub] at hlen
      exact Nat.le_add_right_of_le hlen

end Growth

end HubOk

/-! ## One step of the system -/

section System
variable {proc : ι → Process} {s : State ι}

theorem ok_initial : Ok proc (initial : State ι) where
  numbered := by
    rintro n p ⟨⟩
  channelOrder := List.Pairwise.nil
  channelCalls := fun e he => absurd he List.not_mem_nil
  channelPods := fun e he => absurd he List.not_mem_nil
  hubs := by
    intro i
    constructor
    all_goals simp [initial, InOrder, Hub.position, Phase.event?, Phase.Pending]

theorem Ok.id_lt (hok : Ok proc s) {p : Published ι} (hp : p ∈ s.calls) :
    p.id < s.calls.length := by
  obtain ⟨n, hn⟩ := List.mem_iff_getElem?.1 hp
  rw [hok.numbered n p hn]
  exact (List.getElem?_eq_some_iff.1 hn).1

variable [DecidableEq ι]

/-- What holds of the hub that is set and of the others holds of all. -/
theorem hubs_setHub {calls : List (Published ι)} {channel : List (RedisEnvelope ι)} {i : ι}
    {h : Hub ι} (hother : ∀ j, j ≠ i → HubOk calls channel j (s.hubs j))
    (hh : HubOk calls channel i h) : ∀ j, HubOk calls channel j ((s.setHub i h).hubs j) := by
  intro j
  by_cases hj : j = i
  · subst hj
    rw [State.setHub_self]
    exact hh
  · rw [State.setHub_of_ne hj]
    exact hother j hj

/-- A step of one hub. -/
theorem Ok.setHub (hok : Ok proc s) {i : ι} {h : Hub ι} (hh : HubOk s.calls s.channel i h) :
    Ok proc (s.setHub i h) where
  numbered := hok.numbered
  channelOrder := hok.channelOrder
  channelCalls := hok.channelCalls
  channelPods := hok.channelPods
  hubs := hubs_setHub (fun j _ => hok.hubs j) hh

/-- A new call is ahead of everything its goroutine has published. -/
theorem Ok.publish (hok : Ok proc s) (i : ι) (g : Nat) (ev : Event) :
    Ok proc (s.publish i g ev) := by
  unfold State.publish
  split
  · constructor
    · intro n p hn
      change (s.calls ++ [_])[n]? = some p at hn
      rcases Nat.lt_or_ge n s.calls.length with hlt | hge
      · rw [List.getElem?_append_left hlt] at hn
        exact hok.numbered n p hn
      · rw [List.getElem?_append_right hge, List.getElem?_singleton] at hn
        split at hn
        · cases hn
          change s.calls.length = n
          omega
        · cases hn
    · exact hok.channelOrder
    · exact fun e he => List.mem_append_left _ (hok.channelCalls e he)
    · exact hok.channelPods
    · apply hubs_setHub
      · exact fun j _ => (hok.hubs j).more_calls _
      · exact ((hok.hubs i).more_calls ⟨s.calls.length, i, g, ev⟩).start
          (List.mem_append_right _ (List.mem_singleton.2 rfl)) rfl
          (fun e he _ _ => hok.id_lt (hok.channelCalls e he))
          fun k q hq _ _ => hok.id_lt ((hok.hubs i).published k q hq)
  · exact hok

theorem Ok.redisPublish (hok : Ok proc s) (i : ι) (g : Nat) (ok : Bool) :
    Ok proc (s.redisPublish proc i g ok) := by
  unfold State.redisPublish
  split
  · next p hp =>
    have hevent : ((s.hubs i).phase (some g)).event? = some p := by
      rw [hp]
      rfl
    obtain ⟨hcalls, hprocess, hgoroutine⟩ := (hok.hubs i).own g p hevent
    have hidle : HubOk s.calls s.channel i ((s.hubs i).setPhase (some g) .idle) := by
      apply (hok.hubs i).turn
      · rintro q ⟨⟩
      · rintro q k (heq | ⟨rest, heq, -⟩) <;> cases heq
      · rintro q rest ⟨⟩
      · exact fun w' hw' _ => hw'
    cases ok with
    | false => exact hok.setHub hidle
    | true =>
      simp only [if_true]
      constructor
      · exact hok.numbered
      · change InOrder ((s.channel ++ [_]).map _)
        rw [List.map_append]
        refine inOrder_concat.2 ⟨hok.channelOrder, ?_⟩
        intro q hq heq hg
        obtain ⟨e, he, rfl⟩ := List.mem_map.1 hq
        exact (hok.hubs i).ahead g p hevent e he (heq.trans hprocess) (hg.trans hgoroutine)
      · intro e he
        rcases List.mem_append.1 he with hold | hnew
        · exact hok.channelCalls e hold
        · obtain rfl := List.mem_singleton.1 hnew
          exact hcalls
      · intro e he
        rcases List.mem_append.1 he with hold | hnew
        · exact hok.channelPods e hold
        · obtain rfl := List.mem_singleton.1 hnew
          rw [hprocess]
      · apply hubs_setHub
        · intro j hj
          apply (hok.hubs j).more_channel
          intro g' q _ heq
          exact absurd (hprocess.symm.trans heq).symm hj
        · apply hidle.more_channel
          intro g' q hq _ heq
          obtain rfl : g = g' := hgoroutine.symm.trans heq
          simp [Hub.setPhase, Phase.event?] at hq
  · exact hok

theorem Ok.step (hok : Ok proc s) (a : Action ι) : Ok proc (s.step proc a) := by
  cases a with
  | publish i g ev => exact hok.publish i g ev
  | rlock i w => exact hok.setHub ((hok.hubs i).rlock w)
  | offer i w k => exact hok.setHub ((hok.hubs i).offer hok.channelOrder hok.channelCalls w k)
  | runlock i w isOpen => exact hok.setHub ((hok.hubs i).runlock _ w isOpen)
  | redisPublish i g ok => exact hok.redisPublish i g ok
  | subscribe i => exact hok.setHub ((hok.hubs i).subscribe _)
  | receive i n => exact hok.setHub ((hok.hubs i).receive hok.channelPods n)
  | lose i => exact hok.setHub (hok.hubs i).lose
  | register i k => exact hok.setHub ((hok.hubs i).register k)
  | release i k => exact hok.setHub ((hok.hubs i).release k)
  | close i => exact hok.setHub (hok.hubs i).close
  | write i k => exact hok.setHub ((hok.hubs i).write k)

end System

end IronStock.WsHub

import IronStock.LogManager
import Mathlib.Data.List.Nodup

/-!
# What the log-forwarding manager keeps

A channel is in the map until it is closed, so nobody sends on a closed one. The loop of
`Publish` goes over a map that cannot change, and the statements under the write lock are
judged by what they will leave in it.
-/
namespace IronStock.Logfwd

variable {ε : Type}

/-! ## What a queue keeps -/

structure QueueOk (calls : Nat) (q : Queue ε) : Prop where
  taken : q.accepted = q.sent ++ q.buffer
  bounded : q.buffer.length ≤ chanBuffer
  once : (q.accepted.map Published.id).Nodup
  known : ∀ p ∈ q.accepted, p.id < calls

/-- Nothing was accepted or dropped. -/
structure Queue.Kept (q q' : Queue ε) : Prop where
  accepted : q'.accepted = q.accepted
  dropped : q'.dropped = q.dropped

/-- A step of the goroutine, or the end of its context. -/
structure Queue.Quiet (q q' : Queue ε) : Prop extends Queue.Kept q q' where
  isClosed : q'.isClosed = q.isClosed

namespace QueueOk
variable {calls : Nat} {q : Queue ε}

theorem new : QueueOk (ε := ε) calls {} where
  taken := rfl
  bounded := Nat.zero_le _
  once := List.nodup_nil
  known := by simp

theorem mono (h : QueueOk calls q) {calls' : Nat} (hle : calls ≤ calls') : QueueOk calls' q where
  taken := h.taken
  bounded := h.bounded
  once := h.once
  known p hp := Nat.lt_of_lt_of_le (h.known p hp) hle

theorem push (h : QueueOk calls q) {p : Published ε} (hp : p.id < calls)
    (hfresh : ∀ r ∈ q.accepted, r.id ≠ p.id) : QueueOk calls (q.push p) := by
  unfold Queue.push
  split
  case isTrue hlt =>
    refine ⟨?_, ?_, ?_, ?_⟩
    · rw [h.taken, List.append_assoc]
    · rw [List.length_append]
      exact hlt
    · rw [List.map_append, List.nodup_append]
      refine ⟨h.once, by simp, ?_⟩
      intro a ha b hb
      obtain ⟨r, hr, rfl⟩ := List.mem_map.mp ha
      obtain rfl : b = p.id := by simpa using hb
      exact hfresh r hr
    · intro r hr
      rcases List.mem_append.mp hr with hr | hr
      · exact h.known r hr
      · rw [List.mem_singleton.mp hr]
        exact hp
  case isFalse => exact ⟨h.taken, h.bounded, h.once, h.known⟩

theorem take (h : QueueOk calls q) : QueueOk calls q.take ∧ q.Quiet q.take := by
  unfold Queue.take
  split
  case h_1 p rest hloop hbuffer =>
    have htaken := h.taken
    have hbounded := h.bounded
    rw [hbuffer] at htaken hbounded
    refine ⟨⟨?_, ?_, h.once, h.known⟩, ⟨rfl, rfl⟩, rfl⟩
    · rw [htaken, List.append_assoc, List.singleton_append]
    · exact Nat.le_of_succ_le hbounded
  case h_2 hloop hbuffer =>
    split
    · exact ⟨⟨h.taken, h.bounded, h.once, h.known⟩, ⟨rfl, rfl⟩, rfl⟩
    · exact ⟨h, ⟨rfl, rfl⟩, rfl⟩
  case h_3 => exact ⟨h, ⟨rfl, rfl⟩, rfl⟩

theorem quit (h : QueueOk calls q) : QueueOk calls q.quit ∧ q.Quiet q.quit := by
  unfold Queue.quit
  split
  case h_1 =>
    split
    · exact ⟨⟨h.taken, h.bounded, h.once, h.known⟩, ⟨rfl, rfl⟩, rfl⟩
    · exact ⟨h, ⟨rfl, rfl⟩, rfl⟩
  case h_2 => exact ⟨h, ⟨rfl, rfl⟩, rfl⟩

theorem sendReturns (h : QueueOk calls q) :
    QueueOk calls q.sendReturns ∧ q.Quiet q.sendReturns := by
  unfold Queue.sendReturns
  split
  case h_1 => exact ⟨⟨h.taken, h.bounded, h.once, h.known⟩, ⟨rfl, rfl⟩, rfl⟩
  case h_2 => exact ⟨h, ⟨rfl, rfl⟩, rfl⟩

end QueueOk

theorem Queue.mem_push {q : Queue ε} (p : Published ε) :
    p ∈ (q.push p).accepted ∨ p ∈ (q.push p).dropped := by
  unfold push
  split
  · exact .inl (List.mem_append_right _ (List.mem_singleton_self p))
  · exact .inr (List.mem_append_right _ (List.mem_singleton_self p))

theorem Queue.of_mem_push {q : Queue ε} {p r : Published ε} (h : r ∈ (q.push p).accepted) :
    r ∈ q.accepted ∨ r = p := by
  unfold push at h
  split at h
  · simpa using h
  · exact .inl h

theorem Queue.push_keeps {q : Queue ε} {r : Published ε} (p : Published ε)
    (h : r ∈ q.accepted ∨ r ∈ q.dropped) :
    r ∈ (q.push p).accepted ∨ r ∈ (q.push p).dropped := by
  unfold push
  split
  · exact h.imp_left (List.mem_append_left _)
  · exact h.imp_right (List.mem_append_left _)

@[simp] theorem Queue.push_isClosed {q : Queue ε} (p : Published ε) :
    (q.push p).isClosed = q.isClosed := by
  unfold push
  split <;> rfl

/-! ## What is left to do under the lock -/

/-- The ids that stay in `m.chans` when the statements are done. -/
def left (ids : List String) : List Stmt → List String
  | [] => ids
  | .cancel _ :: todo => left ids todo
  | .closeQueue configID :: todo => left (ids.filter (· ≠ configID)) todo
  | .closeForwarder _ :: todo => left ids todo
  | .register configID :: todo => left (configID :: ids.filter (· ≠ configID)) todo

/-- A forwarder is closed, and another one registered, when its channel is gone. -/
def Orderly (ids : List String) : List Stmt → Prop
  | [] => True
  | .cancel _ :: todo => Orderly ids todo
  | .closeQueue configID :: todo => Orderly (ids.filter (· ≠ configID)) todo
  | .closeForwarder configID :: todo => configID ∉ ids ∧ Orderly ids todo
  | .register configID :: todo =>
    configID ∉ ids ∧ Orderly (configID :: ids.filter (· ≠ configID)) todo

/-- What the statements of a call leave in `m.chans`. -/
def Op.Clears (ids : List String) : Op → Prop
  | .add _ => True
  | .remove configID => configID ∉ ids
  | .stopAll => ids = []

theorem orderly_stopLocked (ids : List String) (configID : String) {todo : List Stmt}
    (h : Orderly (ids.filter (· ≠ configID)) todo) :
    Orderly ids (stopLocked configID ++ todo) := by
  refine ⟨?_, h⟩
  simp

theorem orderly_stopAll (ids order : List String) : Orderly ids (order.flatMap stopLocked) := by
  induction order generalizing ids with
  | nil => trivial
  | cons configID order ih => exact orderly_stopLocked ids configID (ih _)

theorem left_stopAll (ids order : List String) :
    left ids (order.flatMap stopLocked) = ids.filter (· ∉ order) := by
  induction order generalizing ids with
  | nil => simp [left]
  | cons configID order ih =>
    rw [List.flatMap_cons, stopLocked, List.cons_append, left, List.cons_append, left,
      List.cons_append, left, List.nil_append, ih, List.filter_filter]
    congr 1
    funext a
    simp [not_or, Bool.and_comm]

theorem Op.stmts_orderly (op : Op) (ids order : List String) : Orderly ids (op.stmts order) := by
  cases op with
  | add configID =>
    refine orderly_stopLocked ids configID ⟨?_, trivial⟩
    simp
  | remove configID => exact orderly_stopLocked ids configID trivial
  | stopAll => exact orderly_stopAll ids order

theorem Op.stmts_clear (op : Op) {ids order : List String} (h : ∀ id ∈ ids, id ∈ order) :
    op.Clears (left ids (op.stmts order)) := by
  cases op with
  | add configID => trivial
  | remove configID => simp [Clears, stmts, stopLocked, left]
  | stopAll =>
    rw [Clears, stmts, left_stopAll, List.filter_eq_nil_iff]
    simpa using h

/-! ## The invariant -/

def Phase.event? : Phase ε → Option (Published ε)
  | .publishing p | .fanout p _ => some p
  | _ => none

/-- What a goroutine relies on, wherever it is. -/
def Relies (m : Manager ε) (g : Nat) : Phase ε → Prop
  | .idle | .waiting _ => True
  | .publishing p => p.id < m.calls ∧ ∀ n, ∀ r ∈ (m.queue n).accepted, r.id ≠ p.id
  | .fanout p rest =>
    g ∈ m.readers ∧ p.id < m.calls ∧ rest.Nodup ∧
      (∀ n ∈ rest, n ∈ m.registered ∧ ∀ r ∈ (m.queue n).accepted, r.id ≠ p.id) ∧
      ∀ n ∈ m.registered, n ∈ rest ∨ p ∈ (m.queue n).accepted ∨ p ∈ (m.queue n).dropped
  | .holding op todo =>
    m.writer = some g ∧ Orderly (m.chans.map Prod.fst) todo ∧
      op.Clears (left (m.chans.map Prod.fst) todo)

/-- The maps, the lock and the channels. -/
structure Shared (m : Manager ε) : Prop where
  calm : m.panicked = false
  apart : ∀ g, m.writer = some g → m.readers = []
  keys : (m.chans.map Prod.fst).Nodup
  numbers : m.registered.Nodup
  made : ∀ n ∈ m.registered, n < m.made
  opened : ∀ n ∈ m.registered, (m.queue n).isClosed = false
  covered : ∀ configID ∈ m.chans.map Prod.fst, configID ∈ m.forwarders.map Prod.fst
  queues : ∀ n, QueueOk m.calls (m.queue n)

structure Ok (m : Manager ε) : Prop extends Shared m where
  relies : ∀ g, Relies m g (m.phase g)
  distinct : ∀ g g' p p', (m.phase g).event? = some p → (m.phase g').event? = some p' →
    p.id = p'.id → g = g'

theorem ok_newManager : Ok (newManager : Manager ε) where
  calm := rfl
  apart g h := by cases h
  keys := List.nodup_nil
  numbers := List.nodup_nil
  made := by simp [newManager, Manager.registered]
  opened := by simp [newManager, Manager.registered]
  covered := by simp [newManager]
  queues _ := .new
  relies _ := trivial
  distinct g g' p p' h := by cases h

section Steps
variable {m : Manager ε}

@[simp] theorem Manager.setPhase_self (g : Nat) (ph : Phase ε) : (m.setPhase g ph).phase g = ph :=
  Function.update_self _ _ _

theorem Manager.setPhase_of_ne {g g' : Nat} (h : g' ≠ g) (ph : Phase ε) :
    (m.setPhase g ph).phase g' = m.phase g' := Function.update_of_ne h _ _

@[simp] theorem Manager.setQueue_self (n : Nat) (q : Queue ε) : (m.setQueue n q).queue n = q :=
  Function.update_self _ _ _

theorem Manager.setQueue_of_ne {n k : Nat} (h : k ≠ n) (q : Queue ε) :
    (m.setQueue n q).queue k = m.queue k := Function.update_of_ne h _ _

/-- A step of one goroutine: what it relies on afterwards, and that the others can go on. -/
theorem Ok.step_of {m' : Manager ε} (hok : Ok m) (g : Nat) (ph : Phase ε)
    (hshared : Shared m') (hphase : m'.phase = Function.update m.phase g ph)
    (hown : Relies m' g ph)
    (hothers : ∀ g', g' ≠ g → Relies m g' (m.phase g') → Relies m' g' (m.phase g'))
    (hevent : ∀ p, ph.event? = some p →
      (m.phase g).event? = some p ∨ ∀ g' p', (m.phase g').event? = some p' → p.id ≠ p'.id) :
    Ok m' where
  toShared := hshared
  relies g' := by
    rw [hphase]
    by_cases hg : g' = g
    · subst hg
      rw [Function.update_self]
      exact hown
    · rw [Function.update_of_ne hg]
      exact hothers g' hg (hok.relies g')
  distinct g₁ g₂ p₁ p₂ h₁ h₂ hid := by
    rw [hphase] at h₁ h₂
    by_cases hg₁ : g₁ = g
    · by_cases hg₂ : g₂ = g
      · rw [hg₁, hg₂]
      · subst hg₁
        rw [Function.update_self] at h₁
        rw [Function.update_of_ne hg₂] at h₂
        rcases hevent p₁ h₁ with h | h
        · exact hok.distinct _ _ _ _ h h₂ hid
        · exact absurd hid (h _ _ h₂)
    · rw [Function.update_of_ne hg₁] at h₁
      by_cases hg₂ : g₂ = g
      · subst hg₂
        rw [Function.update_self] at h₂
        rcases hevent p₂ h₂ with h | h
        · exact hok.distinct _ _ _ _ h₁ h hid
        · exact absurd hid.symm (h _ _ h₁)
      · rw [Function.update_of_ne hg₂] at h₂
        exact hok.distinct _ _ _ _ h₁ h₂ hid

theorem Ok.publish (hok : Ok m) (g : Nat) (ev : ε) : Ok (m.publish g ev) := by
  unfold Manager.publish
  split
  case h_2 => exact hok
  case h_1 hidle =>
    have hnew : ∀ g' p', (m.phase g').event? = some p' → p'.id < m.calls := by
      intro g' p' hp'
      have hrelies := hok.relies g'
      cases hphase : m.phase g' <;> rw [hphase] at hp' hrelies <;> cases hp'
      · exact hrelies.1
      · exact hrelies.2.1
    refine hok.step_of g (.publishing ⟨m.calls, ev⟩) ?_ rfl ?_ ?_ ?_
    · exact { hok.toShared with queues := fun n => (hok.queues n).mono (Nat.le_succ _) }
    · exact ⟨Nat.lt_succ_self _, fun n r hr => Nat.ne_of_lt ((hok.queues n).known r hr)⟩
    · intro g' hg' hrelies
      cases hphase : m.phase g' <;> rw [hphase] at hrelies
      case idle | waiting => trivial
      case publishing p => exact ⟨Nat.lt_succ_of_lt hrelies.1, hrelies.2⟩
      case fanout p rest =>
        exact ⟨hrelies.1, Nat.lt_succ_of_lt hrelies.2.1, hrelies.2.2⟩
      case holding => exact hrelies
    · rintro p ⟨⟩
      exact .inr fun g' p' hp' => Nat.ne_of_gt (hnew g' p' hp')

theorem Ok.rlock (hok : Ok m) (g : Nat) : Ok (m.rlock g) := by
  unfold Manager.rlock
  split
  case h_2 => exact hok
  case h_1 p hphase hwriter =>
    have hrelies := hok.relies g
    rw [hphase] at hrelies
    refine hok.step_of g (.fanout p m.registered) ?_ rfl ?_ ?_ ?_
    · exact { hok.toShared with apart := fun g' hg' => absurd (hwriter.symm.trans hg') (by simp) }
    · exact ⟨List.mem_cons_self .., hrelies.1, hok.numbers,
        fun n hn => ⟨hn, hrelies.2 n⟩, fun n hn => .inl hn⟩
    · intro g' hg' hother
      cases hphase' : m.phase g' <;> rw [hphase'] at hother
      case idle | waiting => trivial
      case publishing => exact hother
      case fanout => exact ⟨List.mem_cons_of_mem _ hother.1, hother.2⟩
      case holding => exact hother
    · rintro q ⟨⟩
      exact .inl (by rw [hphase]; rfl)

theorem Ok.runlock (hok : Ok m) (g : Nat) : Ok (m.runlock g) := by
  unfold Manager.runlock
  split
  case h_2 => exact hok
  case h_1 p hphase =>
    refine hok.step_of g .idle ?_ rfl trivial ?_ (by rintro p ⟨⟩)
    · refine { hok.toShared with apart := fun g' hg' => ?_ }
      have hnone : m.readers = [] := hok.apart g' hg'
      change m.readers.erase g = []
      rw [hnone]
      rfl
    · intro g' hg' hother
      cases hphase' : m.phase g' <;> rw [hphase'] at hother
      case idle | waiting => trivial
      case publishing => exact hother
      case fanout => exact ⟨(List.mem_erase_of_ne hg').mpr hother.1, hother.2⟩
      case holding => exact hother

theorem Ok.call (hok : Ok m) (g : Nat) (op : Op) : Ok (m.call g op) := by
  unfold Manager.call
  split
  case h_2 => exact hok
  case h_1 hphase =>
    exact hok.step_of g (.waiting op) { hok.toShared with } rfl trivial (fun _ _ h => by
      cases hphase' : m.phase _ <;> rw [hphase'] at h <;> exact h) (by rintro p ⟨⟩)

theorem Ok.lock (hok : Ok m) (g : Nat) (order : List String) : Ok (m.lock g order) := by
  unfold Manager.lock
  split
  case h_2 => exact hok
  case h_1 op hphase hwriter hreaders =>
    split
    case isFalse => exact hok
    case isTrue horder =>
      refine hok.step_of g (.holding op (op.stmts order)) ?_ rfl ?_ ?_ (by rintro p ⟨⟩)
      · exact { hok.toShared with apart := fun _ _ => hreaders }
      · exact ⟨rfl, op.stmts_orderly _ order,
          op.stmts_clear fun id hid => horder.mem_iff.mpr (hok.covered id hid)⟩
      · intro g' hg' hother
        cases hphase' : m.phase g' <;> rw [hphase'] at hother
        case idle | waiting => trivial
        case publishing => exact hother
        case fanout =>
          have hmem := hother.1
          rw [hreaders] at hmem
          cases hmem
        case holding => exact absurd (hwriter.symm.trans hother.1) (by simp)

theorem Ok.unlock (hok : Ok m) (g : Nat) : Ok (m.unlock g) := by
  unfold Manager.unlock
  split
  case h_2 => exact hok
  case h_1 op hphase =>
    have hrelies := hok.relies g
    rw [hphase] at hrelies
    refine hok.step_of g .idle ?_ rfl trivial ?_ (by rintro p ⟨⟩)
    · exact { hok.toShared with apart := by rintro g' ⟨⟩ }
    · intro g' hg' hother
      cases hphase' : m.phase g' <;> rw [hphase'] at hother
      case idle | waiting => trivial
      case publishing => exact hother
      case fanout => exact hother
      case holding => exact absurd (Option.some.inj (hother.1.symm.trans hrelies.1)) hg'

theorem Manager.quiet_queue {n : Nat} {q : Queue ε} (h : (m.queue n).Quiet q) (k : Nat) :
    (m.queue k).Quiet ((m.setQueue n q).queue k) := by
  by_cases hk : k = n
  · subst hk
    rw [setQueue_self]
    exact h
  · rw [setQueue_of_ne hk]
    exact ⟨⟨rfl, rfl⟩, rfl⟩

theorem Shared.setQueue (h : Shared m) {n : Nat} {q : Queue ε} (hq : QueueOk m.calls q)
    (hopen : n ∈ m.registered → q.isClosed = false) : Shared (m.setQueue n q) := by
  refine { h with opened := ?_, queues := ?_ }
  · intro k hk
    by_cases hkn : k = n
    · subst hkn
      rw [Manager.setQueue_self]
      exact hopen hk
    · rw [Manager.setQueue_of_ne hkn]
      exact h.opened k hk
  · intro k
    by_cases hkn : k = n
    · subst hkn
      rw [Manager.setQueue_self]
      exact hq
    · rw [Manager.setQueue_of_ne hkn]
      exact h.queues k

/-- A step of one queue by which nothing is added to it. -/
theorem Ok.quiet (hok : Ok m) (n : Nat) {q : Queue ε} (hq : QueueOk m.calls q)
    (hquiet : (m.queue n).Quiet q) : Ok (m.setQueue n q) := by
  have hsame := Manager.quiet_queue hquiet
  refine ⟨hok.toShared.setQueue hq fun hn => ?_, ?_, hok.distinct⟩
  · rw [hquiet.isClosed]
    exact hok.opened n hn
  · intro g
    have hrelies := hok.relies g
    change Relies _ g (m.phase g)
    cases hphase : m.phase g <;> rw [hphase] at hrelies
    case idle | waiting => trivial
    case publishing p =>
      refine ⟨hrelies.1, fun k r hr => ?_⟩
      rw [(hsame k).accepted] at hr
      exact hrelies.2 k r hr
    case fanout p rest =>
      obtain ⟨hreader, hid, hnodup, hrest, hdone⟩ := hrelies
      refine ⟨hreader, hid, hnodup, ?_, ?_⟩
      · intro k hk
        rw [(hsame k).accepted]
        exact hrest k hk
      · intro k hk
        rw [(hsame k).accepted, (hsame k).dropped]
        exact hdone k hk
    case holding => exact hrelies

theorem Ok.offer (hok : Ok m) (g n : Nat) : Ok (m.offer g n) := by
  unfold Manager.offer
  split
  case h_2 => exact hok
  case h_1 p rest hphase =>
    have hrelies := hok.relies g
    rw [hphase] at hrelies
    obtain ⟨hreader, hid, hnodup, hrest, hdone⟩ := hrelies
    split
    case isFalse => exact hok
    case isTrue hn =>
      obtain ⟨hregistered, hfresh⟩ := hrest n hn
      rw [if_neg (by simp [hok.opened n hregistered])]
      have hqueue : ∀ k, k ≠ n →
          ((m.setPhase g (.fanout p (rest.erase n))).setQueue n ((m.queue n).push p)).queue k =
            m.queue k := fun k hk => Manager.setQueue_of_ne hk _
      refine hok.step_of g (.fanout p (rest.erase n)) ?_ rfl ?_ ?_ ?_
      · refine Shared.setQueue (m := m.setPhase g (.fanout p (rest.erase n)))
          { hok.toShared with } ((hok.queues n).push hid hfresh) fun hn => ?_
        rw [Queue.push_isClosed]
        exact hok.opened n hn
      · refine ⟨hreader, hid, hnodup.erase n, ?_, ?_⟩
        · intro k hk
          obtain ⟨hkn, hk⟩ := (hnodup.mem_erase_iff).mp hk
          rw [hqueue k hkn]
          exact hrest k hk
        · intro k hk
          by_cases hkn : k = n
          · subst hkn
            rw [Manager.setQueue_self]
            exact .inr (Queue.mem_push p)
          · rw [hqueue k hkn]
            exact (hdone k hk).imp_left fun h => hnodup.mem_erase_iff.mpr ⟨hkn, h⟩
      · intro g' hg' hother
        -- the event of another goroutine has another number
        have hne : ∀ p', (m.phase g').event? = some p' → p.id ≠ p'.id := fun p' hp' heq =>
          hg' (hok.distinct g' g p' p hp' (by rw [hphase]; rfl) heq.symm)
        have haccepted : ∀ p', (m.phase g').event? = some p' → ∀ k,
            (∀ r ∈ (m.queue k).accepted, r.id ≠ p'.id) →
            ∀ r ∈ (((m.setPhase g (.fanout p (rest.erase n))).setQueue n
              ((m.queue n).push p)).queue k).accepted, r.id ≠ p'.id := by
          intro p' hp' k hk r hr
          by_cases hkn : k = n
          · subst hkn
            rw [Manager.setQueue_self] at hr
            rcases Queue.of_mem_push hr with hr | rfl
            · exact hk r hr
            · exact hne p' hp'
          · rw [hqueue k hkn] at hr
            exact hk r hr
        cases hphase' : m.phase g' <;> rw [hphase'] at hother haccepted
        case idle | waiting => trivial
        case publishing p' =>
          exact ⟨hother.1, fun k => haccepted p' rfl k (hother.2 k)⟩
        case fanout p' rest' =>
          obtain ⟨hreader', hid', hnodup', hrest', hdone'⟩ := hother
          refine ⟨hreader', hid', hnodup', ?_, ?_⟩
          · exact fun k hk => ⟨(hrest' k hk).1, haccepted p' rfl k (hrest' k hk).2⟩
          · intro k hk
            by_cases hkn : k = n
            · subst hkn
              rw [Manager.setQueue_self]
              exact (hdone' k hk).imp_right (Queue.push_keeps p)
            · rw [hqueue k hkn]
              exact hdone' k hk
        case holding => exact hother
      · rintro p' ⟨⟩
        exact .inl (by rw [hphase]; rfl)

/-- What a statement under the lock does, if it is in order. -/
structure ExecOk (m : Manager ε) (stmt : Stmt) (todo : List Stmt) (m' : Manager ε) : Prop where
  shared : Shared m'
  phase : m'.phase = m.phase
  calls : m'.calls = m.calls
  readers : m'.readers = m.readers
  writer : m'.writer = m.writer
  orderly : Orderly (m'.chans.map Prod.fst) todo
  left : left (m'.chans.map Prod.fst) todo = left (m.chans.map Prod.fst) (stmt :: todo)
  made : m.made ≤ m'.made
  chans : ∀ e ∈ m'.chans, e ∈ m.chans ∨ m.made ≤ e.2
  queue : ∀ n, (m.queue n).Kept (m'.queue n) ∨ m.made ≤ n ∧ m'.queue n = {}

theorem keys_filter (l : List (String × Nat)) (configID : String) :
    (l.filter (·.1 ≠ configID)).map Prod.fst = (l.map Prod.fst).filter (· ≠ configID) := by
  rw [List.filter_map]
  rfl

theorem registered_filter {configID : String} {n : Nat}
    (h : n ∈ (m.chans.filter (·.1 ≠ configID)).map Prod.snd) : n ∈ m.registered := by
  obtain ⟨e, he, rfl⟩ := List.mem_map.mp h
  exact List.mem_map_of_mem (List.mem_filter.mp he).1

theorem mem_of_lookup {l : List (String × Nat)} {configID : String} {n : Nat}
    (h : l.lookup configID = some n) : (configID, n) ∈ l := by
  obtain ⟨l₁, l₂, rfl, -⟩ := List.lookup_eq_some_iff.mp h
  simp

theorem cancel_ok (h : Shared m) {configID : String} {todo : List Stmt}
    (horder : Orderly (m.chans.map Prod.fst) (.cancel configID :: todo)) :
    ExecOk m (.cancel configID) todo (m.cancel configID) := by
  unfold Manager.cancel
  split
  case h_2 => exact ⟨h, rfl, rfl, rfl, rfl, horder, rfl, Nat.le_refl _, fun _ => .inl,
      fun _ => .inl ⟨rfl, rfl⟩⟩
  case h_1 n hlookup =>
    have hquiet : (m.queue n).Quiet (m.queue n).cancel := ⟨⟨rfl, rfl⟩, rfl⟩
    have hq := h.queues n
    have hset := h.setQueue (n := n) (q := (m.queue n).cancel)
      ⟨hq.taken, hq.bounded, hq.once, hq.known⟩ (h.opened n)
    exact ⟨{ hset with }, rfl, rfl, rfl, rfl, horder, rfl, Nat.le_refl _, fun _ => .inl,
      fun k => .inl (Manager.quiet_queue hquiet k).toKept⟩

/-- The number of a queue stands for one id. -/
theorem not_registered_filter (h : Shared m) {configID : String} {n : Nat}
    (hmem : (configID, n) ∈ m.chans) : n ∉ (m.chans.filter (·.1 ≠ configID)).map Prod.snd := by
  intro hn
  obtain ⟨e, he, heq⟩ := List.mem_map.mp hn
  obtain ⟨he, hne⟩ := List.mem_filter.mp he
  obtain rfl := List.inj_on_of_nodup_map h.numbers he hmem heq
  simp at hne

theorem closeQueue_ok (h : Shared m) {configID : String} {todo : List Stmt}
    (horder : Orderly (m.chans.map Prod.fst) (.closeQueue configID :: todo)) :
    ExecOk m (.closeQueue configID) todo (m.closeQueue configID) := by
  unfold Manager.closeQueue
  split
  case h_2 hlookup =>
    have hids : (m.chans.map Prod.fst).filter (· ≠ configID) = m.chans.map Prod.fst := by
      rw [List.filter_eq_self]
      intro id hid
      obtain ⟨e, he, rfl⟩ := List.mem_map.mp hid
      have hne : configID ≠ e.1 := by simpa using List.lookup_eq_none_iff.mp hlookup e he
      simpa using hne.symm
    refine ⟨h, rfl, rfl, rfl, rfl, ?_, ?_, Nat.le_refl _, fun _ => .inl, fun _ => .inl ⟨rfl, rfl⟩⟩
    · rw [Orderly, hids] at horder
      exact horder
    · rw [left, hids]
  case h_1 n hlookup =>
    have hmem := mem_of_lookup hlookup
    have hregistered : n ∈ m.registered := List.mem_map_of_mem hmem
    have hother := not_registered_filter h hmem
    have hq := h.queues n
    rw [if_neg (by simp [h.opened n hregistered])]
    have hqueues : ∀ k, QueueOk m.calls ((m.setQueue n (m.queue n).close).queue k) := by
      intro k
      by_cases hkn : k = n
      · subst hkn
        rw [Manager.setQueue_self]
        exact ⟨hq.taken, hq.bounded, hq.once, hq.known⟩
      · rw [Manager.setQueue_of_ne hkn]
        exact h.queues k
    have hkept : ∀ k, (m.queue k).Kept ((m.setQueue n (m.queue n).close).queue k) := by
      intro k
      by_cases hkn : k = n
      · subst hkn
        rw [Manager.setQueue_self]
        exact ⟨rfl, rfl⟩
      · rw [Manager.setQueue_of_ne hkn]
        exact ⟨rfl, rfl⟩
    refine ⟨?_, rfl, rfl, rfl, rfl, ?_, ?_, Nat.le_refl _,
      fun e he => .inl (List.mem_filter.mp he).1, fun k => .inl (hkept k)⟩
    · refine ⟨h.calm, h.apart, ?_, ?_, ?_, ?_, ?_, hqueues⟩
      · rw [keys_filter]
        exact h.keys.filter _
      · exact h.numbers.sublist (List.filter_sublist.map _)
      · exact fun k hk => h.made k (registered_filter hk)
      · intro k hk
        have hkn : k ≠ n := fun hkn => hother (hkn ▸ hk)
        change ((m.setQueue n (m.queue n).close).queue k).isClosed = false
        rw [Manager.setQueue_of_ne hkn]
        exact h.opened k (registered_filter hk)
      · intro id hid
        rw [keys_filter] at hid
        exact h.covered id (List.mem_filter.mp hid).1
    · rw [keys_filter]
      exact horder
    · rw [keys_filter, left]

theorem closeForwarder_ok (h : Shared m) {configID : String} {todo : List Stmt}
    (horder : Orderly (m.chans.map Prod.fst) (.closeForwarder configID :: todo)) :
    ExecOk m (.closeForwarder configID) todo (m.closeForwarder configID) := by
  refine ⟨{ h with covered := ?_ }, rfl, rfl, rfl, rfl, horder.2, rfl, Nat.le_refl _,
    fun _ => .inl, fun _ => .inl ⟨rfl, rfl⟩⟩
  intro id hid
  change id ∈ (m.forwarders.filter (·.1 ≠ configID)).map Prod.fst
  rw [keys_filter, List.mem_filter]
  refine ⟨h.covered id hid, ?_⟩
  have hne : id ≠ configID := by
    rintro rfl
    exact horder.1 hid
  simpa using hne

theorem register_ok (h : Shared m) {configID : String} {todo : List Stmt}
    (horder : Orderly (m.chans.map Prod.fst) (.register configID :: todo)) :
    ExecOk m (.register configID) todo (m.register configID) := by
  have hkeys : ((m.register configID).chans.map Prod.fst) =
      configID :: (m.chans.map Prod.fst).filter (· ≠ configID) := by
    rw [← keys_filter]
    rfl
  have hmem : ∀ k ∈ (m.register configID).registered, k = m.made ∨ k ∈ m.registered := by
    intro k hk
    exact (List.mem_cons.mp hk).imp_right registered_filter
  have hqueue : ∀ k, k ≠ m.made → (m.register configID).queue k = m.queue k :=
    fun k hk => Manager.setQueue_of_ne hk _
  have hnew : (m.register configID).queue m.made = {} := Manager.setQueue_self _ _
  refine ⟨?_, rfl, rfl, rfl, rfl, ?_, ?_, Nat.le_succ _, ?_, ?_⟩
  · refine ⟨h.calm, h.apart, ?_, ?_, ?_, ?_, ?_, ?_⟩
    · rw [hkeys, List.nodup_cons]
      exact ⟨by simp, h.keys.filter _⟩
    · refine List.nodup_cons.mpr ⟨fun hmade => ?_, h.numbers.sublist (List.filter_sublist.map _)⟩
      exact Nat.lt_irrefl _ (h.made _ (registered_filter hmade))
    · intro k hk
      rcases hmem k hk with rfl | hk
      · exact Nat.lt_succ_self _
      · exact Nat.lt_succ_of_lt (h.made k hk)
    · intro k hk
      by_cases hkn : k = m.made
      · rw [hkn, hnew]
      · rw [hqueue k hkn]
        exact h.opened k ((hmem k hk).resolve_left hkn)
    · intro id hid
      change id ∈ configID :: (m.forwarders.filter (·.1 ≠ configID)).map Prod.fst
      rw [hkeys] at hid
      rcases List.mem_cons.mp hid with rfl | hid
      · exact List.mem_cons_self ..
      · obtain ⟨hid, hne⟩ := List.mem_filter.mp hid
        rw [keys_filter]
        exact List.mem_cons_of_mem _ (List.mem_filter.mpr ⟨h.covered id hid, hne⟩)
    · intro k
      by_cases hkn : k = m.made
      · rw [hkn, hnew]
        exact .new
      · rw [hqueue k hkn]
        exact h.queues k
  · rw [hkeys]
    exact horder.2
  · rw [hkeys, left]
  · intro e he
    rcases List.mem_cons.mp he with rfl | he
    · exact .inr (Nat.le_refl _)
    · exact .inl (List.mem_filter.mp he).1
  · intro k
    by_cases hkn : k = m.made
    · subst hkn
      exact .inr ⟨Nat.le_refl _, hnew⟩
    · rw [hqueue k hkn]
      exact .inl ⟨rfl, rfl⟩

theorem exec_ok (h : Shared m) {stmt : Stmt} {todo : List Stmt}
    (horder : Orderly (m.chans.map Prod.fst) (stmt :: todo)) :
    ExecOk m stmt todo (m.exec stmt) := by
  cases stmt with
  | cancel configID => exact cancel_ok h horder
  | closeQueue configID => exact closeQueue_ok h horder
  | closeForwarder configID => exact closeForwarder_ok h horder
  | register configID => exact register_ok h horder

theorem Ok.advance (hok : Ok m) (g : Nat) : Ok (m.advance g) := by
  unfold Manager.advance
  split
  case h_2 => exact hok
  case h_1 op stmt todo hphase =>
    have hrelies := hok.relies g
    rw [hphase] at hrelies
    obtain ⟨hwriter, horder, hclears⟩ := hrelies
    have hexec := exec_ok hok.toShared horder
    refine hok.step_of g (.holding op todo) { hexec.shared with } ?_ ?_ ?_ (by rintro p ⟨⟩)
    · change Function.update (m.exec stmt).phase g _ = _
      rw [hexec.phase]
    · refine ⟨hexec.writer.trans hwriter, hexec.orderly, ?_⟩
      change op.Clears (left ((m.exec stmt).chans.map Prod.fst) todo)
      rw [hexec.left]
      exact hclears
    · intro g' hg' hother
      cases hphase' : m.phase g' <;> rw [hphase'] at hother
      case idle | waiting => trivial
      case publishing p =>
        refine ⟨?_, ?_⟩
        · change p.id < (m.exec stmt).calls
          rw [hexec.calls]
          exact hother.1
        · intro k r hr
          rcases hexec.queue k with hkept | ⟨-, hnew⟩
          · exact hother.2 k r (hkept.accepted ▸ hr)
          · change r ∈ ((m.exec stmt).queue k).accepted at hr
            rw [hnew] at hr
            cases hr
      case fanout =>
        have hmem := hother.1
        rw [hok.apart g hwriter] at hmem
        cases hmem
      case holding => exact absurd (Option.some.inj (hother.1.symm.trans hwriter)) hg'

end Steps

/-! ## Runs -/

theorem Ok.step {m : Manager ε} (hok : Ok m) (a : Action ε) : Ok (m.step a) := by
  cases a with
  | publish g ev => exact hok.publish g ev
  | rlock g => exact hok.rlock g
  | offer g n => exact hok.offer g n
  | runlock g => exact hok.runlock g
  | call g op => exact hok.call g op
  | lock g order => exact hok.lock g order
  | advance g => exact hok.advance g
  | unlock g => exact hok.unlock g
  | take n => exact hok.quiet n (hok.queues n).take.1 (hok.queues n).take.2
  | quit n => exact hok.quiet n (hok.queues n).quit.1 (hok.queues n).quit.2
  | sendReturns n => exact hok.quiet n (hok.queues n).sendReturns.1 (hok.queues n).sendReturns.2

/-- What a step can do to the map and to the queues: what comes into the map has a new
number, and events come into registered queues. -/
structure Grows (m m' : Manager ε) : Prop where
  made : m.made ≤ m'.made
  chans : ∀ e ∈ m'.chans, e ∈ m.chans ∨ m.made ≤ e.2
  queue : ∀ n, (m.queue n).Kept (m'.queue n) ∨
    (n ∈ m.registered ∧ ∃ p, m'.queue n = (m.queue n).push p) ∨ m.made ≤ n ∧ m'.queue n = {}

/-- A step that neither changes the map nor offers an event. -/
theorem Grows.of_kept {m m' : Manager ε} (hmade : m'.made = m.made) (hchans : m'.chans = m.chans)
    (hqueue : ∀ n, (m.queue n).Kept (m'.queue n)) : Grows m m' where
  made := Nat.le_of_eq hmade.symm
  chans _ he := .inl (hchans ▸ he)
  queue n := .inl (hqueue n)

theorem Grows.refl (m : Manager ε) : Grows m m := .of_kept rfl rfl fun _ => ⟨rfl, rfl⟩

theorem Ok.grows_offer {m : Manager ε} (hok : Ok m) (g k : Nat) : Grows m (m.offer g k) := by
  unfold Manager.offer
  split
  case h_2 => exact .refl m
  case h_1 p rest hphase =>
    have hrelies := hok.relies g
    rw [hphase] at hrelies
    split
    case isFalse => exact .refl m
    case isTrue hk =>
      split
      case isTrue => exact .of_kept rfl rfl fun _ => ⟨rfl, rfl⟩
      case isFalse =>
        refine ⟨Nat.le_refl _, fun _ => .inl, fun n => ?_⟩
        by_cases hne : n = k
        · subst hne
          rw [Manager.setQueue_self]
          exact .inr (.inl ⟨(hrelies.2.2.2.1 n hk).1, p, rfl⟩)
        · rw [Manager.setQueue_of_ne hne]
          exact .inl ⟨rfl, rfl⟩

theorem Ok.grows_advance {m : Manager ε} (hok : Ok m) (g : Nat) : Grows m (m.advance g) := by
  unfold Manager.advance
  split
  case h_2 => exact .refl m
  case h_1 op stmt todo hphase =>
    have hrelies := hok.relies g
    rw [hphase] at hrelies
    have hexec := exec_ok hok.toShared hrelies.2.1
    exact ⟨hexec.made, hexec.chans, fun n => (hexec.queue n).imp_right .inr⟩

theorem Ok.grows {m : Manager ε} (hok : Ok m) (a : Action ε) : Grows m (m.step a) := by
  have hphases : ∀ m' : Manager ε, m'.made = m.made → m'.chans = m.chans →
      m'.queue = m.queue → Grows m m' :=
    fun m' hmade hchans hqueue => .of_kept hmade hchans fun n => hqueue ▸ ⟨rfl, rfl⟩
  cases a with
  | publish g ev =>
    simp only [Manager.step, Manager.publish]
    split <;> exact hphases _ rfl rfl rfl
  | rlock g =>
    simp only [Manager.step, Manager.rlock]
    split <;> exact hphases _ rfl rfl rfl
  | runlock g =>
    simp only [Manager.step, Manager.runlock]
    split <;> exact hphases _ rfl rfl rfl
  | call g op =>
    simp only [Manager.step, Manager.call]
    split <;> exact hphases _ rfl rfl rfl
  | lock g order =>
    simp only [Manager.step, Manager.lock]
    repeat' split
    all_goals exact hphases _ rfl rfl rfl
  | unlock g =>
    simp only [Manager.step, Manager.unlock]
    split <;> exact hphases _ rfl rfl rfl
  | offer g k => exact hok.grows_offer g k
  | advance g => exact hok.grows_advance g
  | take k => exact .of_kept rfl rfl fun n => (Manager.quiet_queue (hok.queues k).take.2 n).toKept
  | quit k => exact .of_kept rfl rfl fun n => (Manager.quiet_queue (hok.queues k).quit.2 n).toKept
  | sendReturns k =>
    exact .of_kept rfl rfl fun n => (Manager.quiet_queue (hok.queues k).sendReturns.2 n).toKept

/-- A queue that was made and is not in the map, or not any more. -/
def Manager.Gone (m : Manager ε) (n : Nat) : Prop := n < m.made ∧ n ∉ m.registered

/-- Such a queue stays out of the map, and nothing is added to it. -/
theorem Ok.gone_step {m : Manager ε} (hok : Ok m) {n : Nat} (hn : m.Gone n) (a : Action ε) :
    (m.step a).Gone n ∧ ((m.step a).queue n).accepted = (m.queue n).accepted := by
  have hgrows := hok.grows a
  refine ⟨⟨Nat.lt_of_lt_of_le hn.1 hgrows.made, ?_⟩, ?_⟩
  · intro hmem
    obtain ⟨e, he, rfl⟩ := List.mem_map.mp hmem
    rcases hgrows.chans e he with he | hle
    · exact hn.2 (List.mem_map_of_mem he)
    · exact Nat.not_le_of_lt hn.1 hle
  · rcases hgrows.queue n with hkept | ⟨hregistered, -⟩ | ⟨hle, -⟩
    · exact hkept.accepted
    · exact absurd hregistered hn.2
    · exact absurd hn.1 (Nat.not_lt_of_le hle)

/-- An event is dropped only while the queue is full. -/
theorem Ok.dropped_step {m : Manager ε} (hok : Ok m) (a : Action ε) {n : Nat} {p : Published ε}
    (hp : p ∈ ((m.step a).queue n).dropped) :
    p ∈ (m.queue n).dropped ∨ (m.queue n).buffer.length = chanBuffer := by
  rcases (hok.grows a).queue n with hkept | ⟨-, r, hpush⟩ | ⟨-, hnew⟩
  · exact .inl (hkept.dropped ▸ hp)
  · rw [hpush, Queue.push] at hp
    split at hp
    · exact .inl hp
    · next hfull => exact .inr (Nat.le_antisymm (hok.queues n).bounded (Nat.le_of_not_lt hfull))
  · rw [hnew] at hp
    cases hp

/-- What holds in every state that the manager gets to. -/
structure Safe (m : Manager ε) : Prop where
  /-- no send on a closed channel and no second close -/
  calm : m.panicked = false
  oneQueue : ∀ configID n n', (configID, n) ∈ m.chans → (configID, n') ∈ m.chans → n = n'
  /-- what `Send` was called with came out of the queue in order, and each event once -/
  delivered : ∀ n, (m.queue n).sent <+: (m.queue n).accepted
  once : ∀ n, ((m.queue n).accepted.map Published.id).Nodup
  /-- when the loop of `Publish` ends, each registered queue has the event or dropped it -/
  offered : ∀ g p, m.phase g = .fanout p [] → ∀ n ∈ m.registered,
    p ∈ (m.queue n).accepted ∨ p ∈ (m.queue n).dropped
  removed : ∀ g configID, m.phase g = .holding (.remove configID) [] →
    ∀ n, (configID, n) ∉ m.chans
  stopped : ∀ g, m.phase g = .holding .stopAll [] → m.chans = []

theorem Ok.safe {m : Manager ε} (hok : Ok m) : Safe m where
  calm := hok.calm
  oneQueue configID n n' hn hn' := by
    have heq := List.inj_on_of_nodup_map hok.keys hn hn' rfl
    exact congrArg Prod.snd heq
  delivered n := by
    rw [(hok.queues n).taken]
    exact List.prefix_append _ _
  once n := (hok.queues n).once
  offered g p hphase n hn := by
    have hrelies := hok.relies g
    rw [hphase] at hrelies
    exact (hrelies.2.2.2.2 n hn).resolve_left List.not_mem_nil
  removed g configID hphase n hn := by
    have hrelies := hok.relies g
    rw [hphase] at hrelies
    exact hrelies.2.2 (List.mem_map_of_mem hn)
  stopped g hphase := by
    have hrelies := hok.relies g
    rw [hphase] at hrelies
    exact List.map_eq_nil_iff.mp hrelies.2.2

theorem run_append (m : Manager ε) (acts later : List (Action ε)) :
    run m (acts ++ later) = run (run m acts) later := Runs.run_append _ _ _ _

theorem ok_run {m : Manager ε} (hok : Ok m) (acts : List (Action ε)) : Ok (run m acts) :=
  Runs.run_invariant (fun _ a h => h.step a) hok acts

theorem run_chans {m : Manager ε} (hok : Ok m) (acts : List (Action ε)) :
    m.made ≤ (run m acts).made ∧ ∀ e ∈ (run m acts).chans, e ∈ m.chans ∨ m.made ≤ e.2 := by
  induction acts generalizing m with
  | nil => exact ⟨Nat.le_refl _, fun _ => .inl⟩
  | cons a acts ih =>
    have hgrows := hok.grows a
    obtain ⟨hmades, hmore⟩ := ih (hok.step a)
    refine ⟨Nat.le_trans hgrows.made hmades, fun e he => ?_⟩
    rcases hmore e he with he | hle
    · exact hgrows.chans e he
    · exact .inr (Nat.le_trans hgrows.made hle)

theorem gone_run {m : Manager ε} (hok : Ok m) {n : Nat} (hn : m.Gone n) (acts : List (Action ε)) :
    ((run m acts).queue n).accepted = (m.queue n).accepted := by
  induction acts generalizing m with
  | nil => rfl
  | cons a acts ih =>
    obtain ⟨hgone, hsame⟩ := hok.gone_step hn a
    exact (ih (hok.step a) hgone).trans hsame

/-- The queue that a call of `Remove` or `StopAll` has removed is gone. -/
theorem Ok.gone_of_removed {m : Manager ε} (hok : Ok m) {configID : String} {n : Nat}
    (hmem : (configID, n) ∈ m.chans) (acts : List (Action ε)) {g : Nat} {op : Op}
    (hphase : (run m acts).phase g = .holding op [])
    (hop : op = .remove configID ∨ op = .stopAll) : (run m acts).Gone n := by
  obtain ⟨hmade, hchans⟩ := run_chans hok acts
  have hsafe := (ok_run hok acts).safe
  have hlt := hok.made n (List.mem_map_of_mem hmem)
  refine ⟨Nat.lt_of_lt_of_le hlt hmade, fun hin => ?_⟩
  obtain ⟨⟨id, k⟩, he, heq⟩ := List.mem_map.mp hin
  obtain rfl : k = n := heq
  rcases hop with rfl | rfl
  · rcases hchans _ he with hold | hle
    · obtain ⟨rfl, -⟩ : id = configID ∧ k = k :=
        Prod.mk.inj (List.inj_on_of_nodup_map hok.numbers hold hmem rfl)
      exact hsafe.removed g id hphase k he
    · exact Nat.not_le_of_lt hlt hle
  · rw [hsafe.stopped g hphase] at he
    cases he

end IronStock.Logfwd

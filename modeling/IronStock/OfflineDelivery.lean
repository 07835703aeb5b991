import IronStock.OfflineQueue
import IronStock.Lib.Outbox
import IronStock.Lib.Runs

/-!
# Delivery from the offline queue

In an undisturbed run the stored queue and the sync that works on it behave as
an outbox: an answer of the server moves the outbox, and the stored queue
follows with the writes that are left to do.
-/
namespace IronStock

namespace OfflineQueue

/-! ## Lemmas on the stored queue -/

@[simp] theorem asQueued_id (op : PendingOp) : op.asQueued.id = op.id := rfl
@[simp] theorem asQueued_count (op : PendingOp) (n : Nat) :
    PendingOp.asQueued { op with retryCount := n } = op.asQueued := rfl

theorem asQueued_eq_self {op : PendingOp} (h : op.retryCount = 0) : op.asQueued = op := by
  obtain ⟨id, method, path, body, createdAt, retryCount⟩ := op
  subst h
  rfl

section
variable {pre post : List PendingOp} {op : PendingOp}

theorem ids_apart (h : ((pre ++ op :: post).map PendingOp.id).Nodup) :
    (∀ e ∈ pre, e.id ≠ op.id) ∧ ∀ e ∈ post, e.id ≠ op.id := by
  simp only [List.map_append, List.map_cons, List.nodup_append, List.nodup_cons, List.mem_cons,
    List.mem_map] at h
  obtain ⟨-, ⟨hpost, -⟩, hpre⟩ := h
  constructor
  · intro e he
    exact hpre e.id ⟨e, he, rfl⟩ op.id (.inl rfl)
  · intro e he heq
    exact hpost ⟨e, he, heq⟩

theorem removePendingOp_split (h : ((pre ++ op :: post).map PendingOp.id).Nodup) :
    removePendingOp op.id (pre ++ op :: post) = pre ++ post := by
  obtain ⟨hpre, hpost⟩ := ids_apart h
  have hkeep : ∀ {ops : List PendingOp}, (∀ e ∈ ops, e.id ≠ op.id) →
      ops.filter (fun e => e.id ≠ op.id) = ops := by
    intro ops hops
    apply List.filter_eq_self.2
    intro e he
    exact decide_eq_true (hops e he)
  rw [removePendingOp, List.filter_append, List.filter_cons_of_neg (by simp), hkeep hpre,
    hkeep hpost]

theorem incrementRetryCount_split (h : ((pre ++ op :: post).map PendingOp.id).Nodup) :
    incrementRetryCount op.id (pre ++ op :: post) =
      some (pre ++ { op with retryCount := op.retryCount + 1 } :: post,
        { op with retryCount := op.retryCount + 1 }) := by
  have hpre : pre.findIdx (fun e => e.id = op.id) = pre.length := by
    apply List.findIdx_eq_length_of_false
    intro e he
    exact decide_eq_false ((ids_apart h).1 e he)
  have hidx : (pre ++ op :: post).findIdx (fun e => e.id = op.id) = pre.length := by
    rw [List.findIdx_append, hpre, if_neg (Nat.lt_irrefl _), List.findIdx_cons]
    simp
  simp [incrementRetryCount, hidx]

end

/-! ## The outbox behind the queue -/

def entries (ops : List PendingOp) : List (PendingOp × Nat) :=
  ops.map fun op => (op.asQueued, op.retryCount)

@[simp] theorem entries_append (ops ops' : List PendingOp) :
    entries (ops ++ ops') = entries ops ++ entries ops' := List.map_append
@[simp] theorem entries_cons (op : PendingOp) (ops : List PendingOp) :
    entries (op :: ops) = (op.asQueued, op.retryCount) :: entries ops := rfl

theorem entries_tried {ops : List PendingOp} (h : ∀ op ∈ ops, 0 < op.retryCount) :
    ∀ e ∈ entries ops, 0 < e.2 := by
  intro e he
  obtain ⟨op, hop, rfl⟩ := List.mem_map.1 he
  exact h op hop

/-- Where the replayed operation stands in the stored queue, and what waits. An
answer moves the outbox at once, the stored queue follows with its next write. -/
def At (stored : List PendingOp) (h : History) (o : Outbox.State PendingOp) : Sync → Prop
  | .idle | .loading => o.waiting = entries stored ∧ o.dropped = h.discarded
  | .replaying op rest stage => ∃ pre cur fresh,
      stored = pre ++ cur :: (rest ++ fresh) ∧ (∀ e ∈ pre, 0 < e.retryCount) ∧
      cur.asQueued = op.asQueued ∧
      match stage with
      | .fetching _ | .refreshing _ =>
        cur = op ∧ o.waiting = entries stored ∧ o.dropped = h.discarded
      | .pushing _ => False
      | .counting _ =>
        cur = op ∧ op.retryCount < h.apiErrors.count op.asQueued ∧
        if op.retryCount + 1 < maxRetries then
          o.waiting = entries (pre ++ { op with retryCount := op.retryCount + 1 } ::
            (rest ++ fresh)) ∧ o.dropped = h.discarded
        else o.waiting = entries (pre ++ (rest ++ fresh)) ∧
          o.dropped = h.discarded ++ [op.asQueued]
      | .removing discarded _ =>
        cur.retryCount ≤ h.apiErrors.count op.asQueued ∧
        o.waiting = entries (pre ++ (rest ++ fresh)) ∧
        o.dropped = if discarded then h.discarded ++ [op.asQueued] else h.discarded

structure Refines (s : State) (o : Outbox.State PendingOp) : Prop where
  queued : o.queued = s.history.queued
  delivered : o.delivered = s.history.accepted
  refusals : o.refusals = s.history.apiErrors
  sync : At s.stored s.history o s.sync

/-- What holds of the ids and of the records. -/
structure Tidy (s : State) : Prop where
  ids : (s.history.queued.map PendingOp.id ++ s.pushes.map (·.op.id)).Nodup
  drawn : ∀ id ∈ s.history.queued.map PendingOp.id ++ s.pushes.map (·.op.id),
    id ∈ s.history.drawn
  fresh : ∀ push ∈ s.pushes, push.op.retryCount = 0
  stored : (s.stored.map PendingOp.asQueued).Sublist s.history.queued
  single : s.history.copied = []

def Inv (s : State) : Prop := Tidy s ∧ ∃ o, Outbox.Valid maxRetries o ∧ Refines s o

theorem inv_started (offlineModeEnabled : Bool) : Inv (.started offlineModeEnabled) := by
  constructor
  · constructor <;> simp [State.started]
  · refine ⟨.empty, Outbox.valid_empty, ?_⟩
    constructor <;> simp [State.started, Outbox.State.empty, At, entries]

theorem Tidy.stored_nodup {s : State} (h : Tidy s) : (s.stored.map PendingOp.id).Nodup := by
  have hsub := h.stored.map PendingOp.id
  rw [List.map_map] at hsub
  exact (List.nodup_append.1 h.ids).1.sublist hsub

/-- The loop goes on behind the operations that stay. -/
theorem at_next {pre rest fresh : List PendingOp} {h : History} {o : Outbox.State PendingOp}
    (hpre : ∀ e ∈ pre, 0 < e.retryCount) (hw : o.waiting = entries (pre ++ (rest ++ fresh)))
    (hd : o.dropped = h.discarded) : At (pre ++ (rest ++ fresh)) h o (.next rest) := by
  cases rest with
  | nil => exact ⟨hw, hd⟩
  | cons op rest => exact ⟨pre, op, fresh, rfl, hpre, rfl, rfl, hw, hd⟩

/-! ## Steps of a push -/

theorem Inv.unreachable {s : State} (h : Inv s) (path : String) (options : Desktop.RequestOptions)
    (id : String) (now : Nat)
    (hfresh : queues s.offlineModeEnabled options → id ∉ s.history.drawn) :
    Inv (s.unreachable path options id now) := by
  simp only [State.unreachable]
  split
  next hq =>
    obtain ⟨ht, o, hv, hr⟩ := h
    have hid : id ∉ s.history.queued.map PendingOp.id ++ s.pushes.map (·.op.id) :=
      fun hmem => hfresh hq (ht.drawn id hmem)
    refine ⟨⟨?_, ?_, ?_, ht.stored, ht.single⟩, o, hv, hr.queued, hr.delivered, hr.refusals,
      hr.sync⟩
    · simp only [State.draw, List.map_append, List.map_cons, List.map_nil, ← List.append_assoc]
      apply List.nodup_append.2
      simpa using ⟨ht.ids, fun a ha hax => hid (by simpa [newOp, hax] using ha)⟩
    · simp only [State.draw, List.map_append, List.map_cons, List.map_nil, ← List.append_assoc]
      intro x hx
      rcases List.mem_append.1 hx with hx | hx
      · exact List.mem_cons_of_mem _ (ht.drawn x hx)
      · simpa [newOp] using Or.inl (List.mem_singleton.1 hx)
    · intro push hpush
      rcases List.mem_append.1 hpush with hpush | hpush
      · exact ht.fresh push hpush
      · rw [List.mem_singleton.1 hpush]
        rfl
  next => exact h

theorem Inv.loadPush {s : State} (h : Inv s) (i : Nat) : Inv (s.loadPush i) := by
  simp only [State.loadPush]
  split
  next op hop =>
    obtain ⟨ht, o, hv, hr⟩ := h
    obtain ⟨hi, hget⟩ := List.getElem?_eq_some_iff.1 hop
    have hids : (s.pushes.set i ⟨op, some s.stored⟩).map (·.op.id) = s.pushes.map (·.op.id) := by
      rw [List.map_set]
      apply List.ext_getElem (by simp)
      intro j hj hj'
      grind
    refine ⟨⟨?_, ?_, ?_, ht.stored, ht.single⟩, o, hv, hr.queued, hr.delivered, hr.refusals,
      hr.sync⟩
    · rw [hids]
      exact ht.ids
    · rw [hids]
      exact ht.drawn
    · intro push hpush
      rcases List.mem_or_eq_of_mem_set hpush with hpush | rfl
      · exact ht.fresh push hpush
      · exact ht.fresh ⟨op, none⟩ (List.mem_of_getElem? hop)
  next => exact h

/-- A new operation goes behind everything that waits. -/
theorem At.append {stored : List PendingOp} {h : History} {o : Outbox.State PendingOp} {sync : Sync}
    (hat : At stored h o sync) {op : PendingOp} (hop : op.retryCount = 0) :
    At (stored ++ [op]) { h with queued := h.queued ++ [op] }
      { o with queued := o.queued ++ [op], waiting := o.waiting ++ [(op, 0)] } sync := by
  have hentry : entries [op] = [(op, 0)] := by simp [entries, asQueued_eq_self hop, hop]
  cases sync with
  | idle | loading => exact ⟨by rw [entries_append, hat.1, hentry], hat.2⟩
  | replaying op' rest stage =>
    obtain ⟨pre, cur, fresh, hs, hpre, hcur, hstage⟩ := hat
    refine ⟨pre, cur, fresh ++ [op], by simp [hs], hpre, hcur, ?_⟩
    cases stage with
    | fetching _ | refreshing _ =>
      exact ⟨hstage.1, by rw [entries_append, hstage.2.1, hentry], hstage.2.2⟩
    | pushing _ => exact hstage.elim
    | counting _ =>
      obtain ⟨heq, hlower, hstage⟩ := hstage
      refine ⟨heq, hlower, ?_⟩
      split at hstage
      next hlt =>
        rw [if_pos hlt]
        exact ⟨by simp [hstage.1, hentry], hstage.2⟩
      next hlt =>
        rw [if_neg hlt]
        exact ⟨by simp [hstage.1, hentry], hstage.2⟩
    | removing discarded _ =>
      exact ⟨hstage.1, by simp [hstage.2.1, hentry], hstage.2.2⟩

theorem Inv.savePush {s : State} (h : Inv s) (i : Nat)
    (hund : ∀ push ∈ s.pushes[i]?, ∀ ops ∈ push.loaded, ops = s.stored) :
    Inv (s.savePush i) := by
  simp only [State.savePush]
  split
  next op ops hop =>
    obtain ⟨ht, o, hv, hr⟩ := h
    have hops : ops = s.stored := hund _ hop ops rfl
    have hzero : op.retryCount = 0 := ht.fresh _ (List.mem_of_getElem? hop)
    obtain ⟨hi, hget⟩ := List.getElem?_eq_some_iff.1 hop
    have hperm : (s.history.queued.map PendingOp.id ++ s.pushes.map (·.op.id)).Perm
        ((s.history.queued ++ [op]).map PendingOp.id ++ (s.pushes.eraseIdx i).map (·.op.id)) := by
      have hcons := ((List.getElem_cons_eraseIdx_perm hi).map (·.op.id)).symm
      rw [hget, List.map_cons] at hcons
      simpa using hcons.append_left (s.history.queued.map PendingOp.id)
    have hnew : op ∉ s.history.queued := by
      intro hmem
      have hids := hperm.nodup_iff.1 ht.ids
      simp only [List.map_append, List.map_cons, List.map_nil, List.append_assoc,
        List.nodup_append, List.singleton_append, List.mem_cons] at hids
      exact hids.2.2 op.id (List.mem_map_of_mem hmem) op.id (.inl rfl) rfl
    constructor
    · constructor
      · exact hperm.nodup_iff.1 ht.ids
      · intro id hid
        exact ht.drawn id (hperm.mem_iff.2 hid)
      · intro push hpush
        exact ht.fresh push (List.mem_of_mem_eraseIdx hpush)
      · simpa [hops, asQueued_eq_self hzero] using ht.stored.append_right [op]
      · exact ht.single
    · refine ⟨_, hv.enqueue (by decide) (x := op) (by rwa [hr.queued]), ?_⟩
      rw [hops]
      exact ⟨by simp [hr.queued], hr.delivered, hr.refusals, hr.sync.append hzero⟩
  next => exact h

/-! ## Steps of a replay before its outcome -/

/-- The outbox while the outcome of the replay is open. -/
structure Sending (s : State) (op : PendingOp) (rest : List PendingOp)
    (o : Outbox.State PendingOp) (pre fresh : List PendingOp) : Prop where
  tidy : Tidy s
  valid : Outbox.Valid maxRetries o
  queued : o.queued = s.history.queued
  delivered : o.delivered = s.history.accepted
  refusals : o.refusals = s.history.apiErrors
  stored : s.stored = pre ++ op :: (rest ++ fresh)
  tried : ∀ e ∈ pre, 0 < e.retryCount
  waiting : o.waiting = entries s.stored
  dropped : o.dropped = s.history.discarded

theorem Inv.sending {s : State} (h : Inv s) {op : PendingOp} {rest : List PendingOp}
    {stage : Stage} (hsync : s.sync = .replaying op rest stage)
    (hopen : (∃ noRetry, stage = .fetching noRetry) ∨ ∃ err, stage = .refreshing err) :
    ∃ o pre fresh, Sending s op rest o pre fresh := by
  obtain ⟨ht, o, hv, hr⟩ := h
  have hat := hr.sync
  rw [hsync] at hat
  obtain ⟨pre, cur, fresh, hs, hpre, -, hstage⟩ := hat
  obtain ⟨noRetry, rfl⟩ | ⟨err, rfl⟩ := hopen
  all_goals
    obtain ⟨rfl, hw, hd⟩ := hstage
    exact ⟨o, pre, fresh, ht, hv, hr.queued, hr.delivered, hr.refusals, hs, hpre, hw, hd⟩

namespace Sending

variable {s : State} {op : PendingOp} {rest : List PendingOp} {o : Outbox.State PendingOp}
  {pre fresh : List PendingOp}

theorem at_op (h : Sending s op rest o pre fresh) :
    o.waiting = entries pre ++ (op.asQueued, op.retryCount) :: entries (rest ++ fresh) := by
  rw [h.waiting, h.stored, entries_append, entries_cons]

theorem at_fetching (h : Sending s op rest o pre fresh) (noRetry : Bool) :
    Inv { s with sync := .replaying op rest (.fetching noRetry) } :=
  ⟨⟨h.tidy.ids, h.tidy.drawn, h.tidy.fresh, h.tidy.stored, h.tidy.single⟩, o, h.valid,
    h.queued, h.delivered, h.refusals,
    pre, op, fresh, h.stored, h.tried, rfl, rfl, h.waiting, h.dropped⟩

theorem at_refreshing (h : Sending s op rest o pre fresh) (err : ApiError) :
    Inv { s with sync := .replaying op rest (.refreshing err) } :=
  ⟨⟨h.tidy.ids, h.tidy.drawn, h.tidy.fresh, h.tidy.stored, h.tidy.single⟩, o, h.valid,
    h.queued, h.delivered, h.refusals,
    pre, op, fresh, h.stored, h.tried, rfl, rfl, h.waiting, h.dropped⟩

/-- The sync ends, and everything stays as it is. -/
theorem stop (h : Sending s op rest o pre fresh) : Inv { s with sync := .idle } :=
  ⟨⟨h.tidy.ids, h.tidy.drawn, h.tidy.fresh, h.tidy.stored, h.tidy.single⟩, o, h.valid,
    h.queued, h.delivered, h.refusals, h.waiting, h.dropped⟩

theorem accept (h : Sending s op rest o pre fresh)
    (ahead : 0 < op.retryCount → ∀ a ∈ s.history.accepted,
      ¬ [op.asQueued, a].Sublist s.history.queued) :
    Inv { s.accept op with sync := .replaying op rest (.removing false none) } := by
  refine ⟨⟨h.tidy.ids, h.tidy.drawn, h.tidy.fresh, h.tidy.stored, h.tidy.single⟩, _,
    h.valid.deliver h.at_op (entries_tried h.tried) ?_, h.queued, ?_, h.refusals,
    pre, op, fresh, h.stored, h.tried, rfl, ?_, ?_, h.dropped⟩
  · rw [h.delivered, h.queued]
    exact ahead
  · simp [State.accept, h.delivered]
  · have hcount := h.valid.counted (op.asQueued, op.retryCount) (by simp [h.at_op])
    rw [h.refusals] at hcount
    exact Nat.le_of_eq hcount.1.symm
  · simp

theorem refuse (h : Sending s op rest o pre fresh) (err : ApiError) :
    Inv { s.refuse op err with sync := settle op rest (.error err) } := by
  by_cases hstatus : err.status = 0
  · rw [State.refuse, if_pos hstatus, settle, if_pos hstatus]
    exact h.stop
  · rw [State.refuse, if_neg hstatus, settle, if_neg hstatus]
    refine ⟨⟨h.tidy.ids, h.tidy.drawn, h.tidy.fresh, h.tidy.stored, h.tidy.single⟩, ?_⟩
    have hcount := (h.valid.counted_of h.at_op).2.1
    rw [h.refusals] at hcount
    have hlower : op.retryCount < (s.history.apiErrors ++ [op.asQueued]).count op.asQueued := by
      omega
    by_cases hlt : op.retryCount + 1 < maxRetries
    · refine ⟨_, h.valid.keep h.at_op (entries_tried h.tried) hlt, h.queued, h.delivered, ?_,
        pre, op, fresh, h.stored, h.tried, rfl, rfl, hlower, ?_⟩
      · simp [h.refusals]
      · rw [if_pos hlt]
        exact ⟨by simp, h.dropped⟩
    · refine ⟨_, h.valid.drop h.at_op (entries_tried h.tried) (Nat.le_of_not_lt hlt), h.queued,
        h.delivered, ?_, pre, op, fresh, h.stored, h.tried, rfl, rfl, hlower, ?_⟩
      · simp [h.refusals]
      · rw [if_neg hlt]
        exact ⟨by simp, by simp [h.dropped]⟩

end Sending

theorem Inv.respond {s : State} (h : Inv s) (status : Nat) (body : Desktop.ResponseBody)
    (hund : Undisturbed s (.respond status body)) : Inv (s.respond status body) := by
  simp only [State.respond]
  split
  next op rest noRetry hsync =>
    obtain ⟨o, pre, fresh, hsend⟩ := h.sending hsync (.inl ⟨noRetry, rfl⟩)
    split
    next hok =>
      obtain ⟨hread, ahead⟩ := hund op (by simp [hsync, Sync.sending]) hok
      have hout := hsend.accept ahead
      by_cases h204 : status = 204
      · rw [if_pos h204]
        exact hout
      · rw [if_neg h204]
        obtain ⟨json, hjson⟩ := Option.isSome_iff_exists.1 (hread.resolve_left h204)
        rw [hjson]
        exact hout
    next =>
      split
      · exact hsend.at_refreshing _
      · exact hsend.refuse _
  next => exact h

theorem Inv.fail {s : State} (h : Inv s) (id : String) (now : Nat)
    (hund : Undisturbed s (.fail id now)) : Inv (s.fail id now) := by
  simp only [State.fail]
  split
  next op rest noRetry hsync =>
    obtain ⟨o, pre, fresh, hsend⟩ := h.sending hsync (.inl ⟨noRetry, rfl⟩)
    have hq : queues s.offlineModeEnabled op.request = false :=
      hund op (by simp [hsync, Sync.sending])
    rw [if_neg (by simp [hq])]
    exact hsend.stop
  next => exact h

theorem Inv.refresh {s : State} (h : Inv s) (outcome : RefreshOutcome)
    (hund : Undisturbed s (.refresh outcome)) : Inv (s.refresh outcome) := by
  simp only [State.refresh]
  split
  next op rest apiErr hsync =>
    obtain ⟨o, pre, fresh, hsend⟩ := h.sending hsync (.inr ⟨apiErr, rfl⟩)
    cases outcome with
    | refreshed => exact hsend.at_fetching true
    | refused => exact hsend.refuse apiErr
    | unreachable => simp [Undisturbed, hsync, Sync.renewing] at hund
  next => exact h

/-! ## Steps of a replay after its outcome -/

/-- A write that leaves the ids as they are. -/
theorem Tidy.store {s : State} (h : Tidy s) {ops : List PendingOp} (sync : Sync)
    (hops : (ops.map PendingOp.asQueued).Sublist s.history.queued) :
    Tidy { s with stored := ops, sync := sync } :=
  ⟨h.ids, h.drawn, h.fresh, hops, h.single⟩

/-- Reads and turns of the loop that change no more than where the sync stands. -/
theorem Inv.turn {s : State} (h : Inv s) (sync : Sync)
    (hat : ∀ o, At s.stored s.history o s.sync → At s.stored s.history o sync) :
    Inv { s with sync := sync } := by
  obtain ⟨ht, o, hv, hr⟩ := h
  exact ⟨ht.store sync ht.stored, o, hv, hr.queued, hr.delivered, hr.refusals, hat o hr.sync⟩

theorem Inv.saveCount {s : State} (h : Inv s) {op : PendingOp} {rest : List PendingOp}
    {loaded : Option (List PendingOp)} (hsync : s.sync = .replaying op rest (.counting loaded)) :
    Inv (s.saveCount op rest s.stored) := by
  obtain ⟨ht, o, hv, hr⟩ := h
  have hat := hr.sync
  rw [hsync] at hat
  obtain ⟨pre, cur, fresh, hs, hpre, -, rfl, hlower, hstage⟩ := hat
  have hcount := incrementRetryCount_split (hs ▸ ht.stored_nodup)
  rw [← hs] at hcount
  simp only [State.saveCount, hcount]
  have hstored : ((pre ++ { cur with retryCount := cur.retryCount + 1 } ::
      (rest ++ fresh)).map PendingOp.asQueued).Sublist s.history.queued := by
    simpa [hs] using ht.stored
  refine ⟨ht.store _ hstored, o, hv, hr.queued, hr.delivered, hr.refusals, ?_⟩
  split at hstage
  next hlt =>
    rw [if_neg (Nat.not_le_of_lt hlt)]
    -- the operation stays, and the loop leaves it behind
    have hpre' : ∀ e ∈ pre ++ [{ cur with retryCount := cur.retryCount + 1 }],
        0 < e.retryCount := by
      intro e he
      rcases List.mem_append.1 he with he | he
      · exact hpre e he
      · rw [List.mem_singleton.1 he]
        exact Nat.succ_pos _
    rw [← List.singleton_append, ← List.append_assoc]
    apply at_next hpre'
    · rw [hstage.1]
      simp
    · exact hstage.2
  next hge =>
    rw [if_pos (Nat.le_of_not_lt hge)]
    exact ⟨pre, _, fresh, rfl, hpre, rfl, hlower, hstage.1, by simpa using hstage.2⟩

theorem Inv.saveRemoval {s : State} (h : Inv s) {op : PendingOp} {rest : List PendingOp}
    {discarded : Bool} {loaded : Option (List PendingOp)}
    (hsync : s.sync = .replaying op rest (.removing discarded loaded)) :
    Inv (s.saveRemoval op rest discarded s.stored) := by
  obtain ⟨ht, o, hv, hr⟩ := h
  have hat := hr.sync
  rw [hsync] at hat
  obtain ⟨pre, cur, fresh, hs, hpre, hcur, -, hw, hd⟩ := hat
  have hid : op.id = cur.id := by simpa using congrArg PendingOp.id hcur.symm
  have hremove := removePendingOp_split (hs ▸ ht.stored_nodup)
  rw [← hs, ← hid] at hremove
  simp only [State.saveRemoval, hremove]
  have hstored : ((pre ++ (rest ++ fresh)).map PendingOp.asQueued).Sublist s.history.queued := by
    apply List.Sublist.trans _ ht.stored
    rw [hs]
    exact ((List.sublist_cons_self _ _).append_left pre).map _
  have htidy := ht.store (.next rest) hstored
  exact ⟨⟨htidy.ids, htidy.drawn, htidy.fresh, htidy.stored, htidy.single⟩, o, hv, hr.queued,
    hr.delivered, hr.refusals, at_next hpre hw hd⟩

/-- No replay queues a copy. -/
theorem Inv.not_pushing {s : State} (h : Inv s) (op : PendingOp) (rest : List PendingOp)
    (push : Push) : s.sync ≠ .replaying op rest (.pushing push) := by
  intro hsync
  obtain ⟨-, o, -, hr⟩ := h
  have hat := hr.sync
  rw [hsync] at hat
  obtain ⟨-, -, -, -, -, -, ⟨⟩⟩ := hat

theorem Inv.storage {s : State} (h : Inv s) (hund : Undisturbed s .storage) :
    Inv s.storage := by
  simp only [State.storage]
  split
  next => exact h
  next hsync =>
    apply h.turn
    intro o hat
    rw [hsync] at hat
    have hnext : At ([] ++ (s.stored ++ [])) s.history o (.next s.stored) :=
      at_next (by simp) (by simpa using hat.1) hat.2
    simpa using hnext
  next op rest stage hsync =>
    have hloaded : ∀ ops ∈ s.sync.loaded, ops = s.stored := hund
    rw [hsync] at hloaded
    split
    next => exact h
    next => exact h
    next copy =>
      exact absurd hsync (h.not_pushing op rest _)
    next copy ops =>
      exact absurd hsync (h.not_pushing op rest _)
    next =>
      split
      next =>
        apply h.turn
        intro o hat
        rwa [hsync] at hat
      next hgone =>
        obtain ⟨ht, o, -, hr⟩ := h
        have hat := hr.sync
        rw [hsync] at hat
        obtain ⟨pre, cur, fresh, hs, -, -, rfl, -⟩ := hat
        rw [hs, incrementRetryCount_split (hs ▸ ht.stored_nodup)] at hgone
        exact absurd rfl hgone
    next ops =>
      rw [hloaded ops rfl]
      exact h.saveCount hsync
    next discarded =>
      apply h.turn
      intro o hat
      rwa [hsync] at hat
    next discarded ops =>
      rw [hloaded ops rfl]
      exact h.saveRemoval hsync

theorem Inv.step {s : State} (h : Inv s) (i : Input) (hfresh : Fresh s i)
    (hund : Undisturbed s i) : Inv (step s i) := by
  cases i with
  | unreachable path options id now => exact h.unreachable path options id now hfresh
  | loadPush i => exact h.loadPush i
  | savePush i => exact h.savePush i hund
  | syncPendingOps =>
    simp only [OfflineQueue.step]
    split
    next hidle =>
      apply h.turn
      intro o hat
      rwa [hidle] at hat
    next => exact h
  | storage => exact h.storage hund
  | respond status body => exact h.respond status body hund
  | fail id now => exact h.fail id now hund
  | refresh outcome => exact h.refresh outcome hund
  | setOfflineModeEnabled value =>
    obtain ⟨ht, o, hv, hr⟩ := h
    exact ⟨⟨ht.ids, ht.drawn, ht.fresh, ht.stored, ht.single⟩, o, hv, hr.queued, hr.delivered,
      hr.refusals, hr.sync⟩

/-! ## The promise -/

@[simp] theorem entries_fst (ops : List PendingOp) :
    (entries ops).map Prod.fst = ops.map PendingOp.asQueued := by
  simp [entries, Function.comp_def]

namespace At

variable {stored : List PendingOp} {h : History} {o : Outbox.State PendingOp} {sync : Sync}

theorem waiting_stored (hat : At stored h o sync) :
    ∀ x ∈ o.waiting.map Prod.fst, x ∈ stored.map PendingOp.asQueued := by
  intro x hx
  cases sync with
  | idle | loading => simpa [hat.1] using hx
  | replaying op rest stage =>
    obtain ⟨pre, cur, fresh, rfl, -, hcur, hstage⟩ := hat
    cases stage with
    | fetching _ | refreshing _ => simpa [hstage.2.1] using hx
    | pushing _ => exact hstage.elim
    | counting _ =>
      obtain ⟨rfl, -, hstage⟩ := hstage
      split at hstage <;>
        simp only [hstage.1, entries_fst, List.map_append, List.map_cons, asQueued_count]
          at hx ⊢ <;>
        grind
    | removing _ _ =>
      simp only [hstage.2.1, entries_fst, List.map_append, List.map_cons] at hx ⊢
      grind

theorem dropped_stored (hat : At stored h o sync) :
    ∀ x ∈ o.dropped, x ∈ h.discarded ∨ x ∈ stored.map PendingOp.asQueued := by
  intro x hx
  cases sync with
  | idle | loading => exact .inl (hat.2 ▸ hx)
  | replaying op rest stage =>
    obtain ⟨pre, cur, fresh, rfl, -, hcur, hstage⟩ := hat
    have hmem : op.asQueued ∈ (pre ++ cur :: (rest ++ fresh)).map PendingOp.asQueued := by
      simp [hcur]
    cases stage with
    | fetching _ | refreshing _ => exact .inl (hstage.2.2 ▸ hx)
    | pushing _ => exact hstage.elim
    | counting _ =>
      obtain ⟨rfl, -, hstage⟩ := hstage
      split at hstage <;> rw [hstage.2] at hx <;> grind
    | removing discarded _ =>
      rw [hstage.2.2] at hx
      split at hx <;> grind

theorem discarded_dropped (hat : At stored h o sync) : ∀ x ∈ h.discarded, x ∈ o.dropped := by
  intro x hx
  cases sync with
  | idle | loading => exact hat.2 ▸ hx
  | replaying op rest stage =>
    obtain ⟨pre, cur, fresh, -, -, -, hstage⟩ := hat
    cases stage with
    | fetching _ | refreshing _ => exact hstage.2.2 ▸ hx
    | pushing _ => exact hstage.elim
    | counting _ =>
      obtain ⟨-, -, hstage⟩ := hstage
      split at hstage
      next => exact hstage.2 ▸ hx
      next => exact hstage.2 ▸ List.mem_append_left _ hx
    | removing discarded _ =>
      rw [hstage.2.2]
      split <;> simp [hx]

theorem counted (hat : At stored h o sync) : ∀ op ∈ stored,
    (op.asQueued, op.retryCount) ∈ o.waiting ∨
      op.retryCount ≤ h.apiErrors.count op.asQueued := by
  intro e he
  have hself : ∀ {ops : List PendingOp}, e ∈ ops → (e.asQueued, e.retryCount) ∈ entries ops :=
    fun hmem => List.mem_map_of_mem hmem
  cases sync with
  | idle | loading => exact .inl (hat.1 ▸ hself he)
  | replaying op rest stage =>
    obtain ⟨pre, cur, fresh, rfl, -, hcur, hstage⟩ := hat
    have hsplit : e = cur ∨ e ∈ pre ++ (rest ++ fresh) := by
      simp only [List.mem_append, List.mem_cons] at he ⊢
      tauto
    cases stage with
    | fetching _ | refreshing _ => exact .inl (hstage.2.1 ▸ hself he)
    | pushing _ => exact hstage.elim
    | counting _ =>
      obtain ⟨rfl, hlower, hstage⟩ := hstage
      rcases hsplit with rfl | hother
      · exact .inr (Nat.le_of_lt hlower)
      · left
        have hmem := hself hother
        split at hstage <;> rw [hstage.1] <;>
          simp only [entries_append, entries_cons] at hmem ⊢ <;>
          grind
    | removing discarded _ =>
      rcases hsplit with rfl | hother
      · exact .inr (hcur ▸ hstage.1)
      · exact .inl (hstage.2.1 ▸ hself hother)

end At

theorem Inv.delivered {s : State} (h : Inv s) : Delivered s := by
  obtain ⟨ht, o, hv, hr⟩ := h
  have hparts := hv.parts
  rw [hr.queued, hr.delivered] at hparts
  constructor
  · rw [← hr.delivered, ← hr.queued]
    exact hv.delivered_sublist
  · rw [← hr.queued]
    exact hv.nodup
  · intro op hop
    have hmem := hparts.mem_iff.1 hop
    simp only [List.mem_append] at hmem
    rcases hmem with (hmem | hmem) | hmem
    · exact .inl hmem
    · exact .inr (hr.sync.dropped_stored op hmem)
    · exact .inr (.inr (hr.sync.waiting_stored op hmem))
  · intro op hop hacc
    have hnodup := hparts.nodup_iff.1 (hr.queued ▸ hv.nodup)
    have hdisj := (List.nodup_append.1 (List.nodup_append.1 hnodup).1).2.2
    exact hdisj op hacc op (hr.sync.discarded_dropped op hop) rfl
  · intro hidle
    have hat := hr.sync
    rw [hidle] at hat
    rwa [hat.1, hat.2, entries_fst] at hparts
  · intro op hop
    rw [← hr.refusals]
    exact hv.dropped op (hr.sync.discarded_dropped op hop)
  · intro op hop
    rcases hr.sync.counted op hop with hw | hle
    · have hcount := (hv.counted _ hw).1
      rw [hr.refusals] at hcount
      exact Nat.le_of_eq hcount.symm
    · exact hle
  · exact ht.single

/-- In a run whose ids are new and whose steps are all undisturbed, every
mutation is delivered once or reported. -/
theorem offlineQueue_delivers (offlineModeEnabled : Bool) (inputs : List Input)
    (h : Runs.Every step (fun s i => Fresh s i ∧ Undisturbed s i) (.started offlineModeEnabled)
      inputs) :
    Runs.Along step Delivered (.started offlineModeEnabled) inputs := by
  have hinv : Runs.Along step Inv (.started offlineModeEnabled) inputs :=
    Runs.along_of_every (fun s i hs hi => hs.step i hi.1 hi.2) (inv_started offlineModeEnabled) h
  exact hinv.mono fun s hs => hs.delivered

/-- A mutation that could not be sent and is queued. -/
def queueRun (path : String) (method : Desktop.Method) (id : String) : List Input :=
  [.unreachable path { method := method, body := some "\x7b\x7d" } id 1,
    .loadPush 0, .savePush 0]

/-- Two mutations are queued and replayed; the server refuses the second once,
and another sync starts when an outage has ended the one before. -/
def replayRun : List Input :=
  queueRun "/api/v1/items" .post "1-a" ++ queueRun "/api/v1/folders" .patch "1-b" ++
    [.syncPendingOps, .storage, .respond 204 ⟨none, none⟩, .storage, .storage,
      .respond 500 ⟨none, some ("internal_error", "")⟩, .storage, .storage,
      .setOfflineModeEnabled false, .syncPendingOps, .storage, .fail "2-c" 2,
      .syncPendingOps, .storage, .respond 200 ⟨some "\x7b\x7d", none⟩, .storage, .storage]

theorem offlineQueue_delivers_replayed :
    Runs.Along step Delivered (.started true) replayRun ∧
      (Runs.run step (.started true) replayRun).history.accepted.map PendingOp.id =
        ["1-a", "1-b"] ∧
      (Runs.run step (.started true) replayRun).stored = [] :=
  ⟨offlineQueue_delivers true replayRun (by decide), by decide,
    by decide⟩

/-- A sync that still finds the server unreachable, while mutations are queued. -/
def outageRun : List Input :=
  queueRun "/api/v1/items" .post "1-a" ++
    [.syncPendingOps, .storage, .fail "2-b" 2, .storage, .storage, .storage, .storage]

/-- The replay has queued a copy of the operation, and the outage counts for it. -/
theorem offlineQueue_not_delivered :
    ¬ ∀ (offlineModeEnabled : Bool) (inputs : List Input),
      Runs.Every step Fresh (.started offlineModeEnabled) inputs →
        Runs.Along step Delivered (.started offlineModeEnabled) inputs := by
  intro h
  have hlast := (h true outageRun (by decide)).last
  exact absurd hlast.single (by decide)

/-- Two mutations that fail together: the second write does not know of the first. -/
example : (Runs.run step (.started true)
    [.unreachable "/api/v1/items" { method := .post } "1-a" 1,
      .unreachable "/api/v1/folders" { method := .post } "1-b" 1,
      .loadPush 0, .loadPush 1, .savePush 0, .savePush 0]).stored.map PendingOp.id = ["1-b"] := by
  decide

/-- An operation that the server refuses is overtaken by the one behind it. -/
example : (Runs.run step (.started true)
    (queueRun "/api/v1/items" .post "1-a" ++ queueRun "/api/v1/items" .patch "1-b" ++
      [.syncPendingOps, .storage, .respond 500 ⟨none, none⟩, .storage, .storage,
        .respond 204 ⟨none, none⟩, .storage, .storage,
        .syncPendingOps, .storage, .respond 204 ⟨none, none⟩])).history.accepted.map
          PendingOp.id = ["1-b", "1-a"] := by
  decide

end OfflineQueue

end IronStock

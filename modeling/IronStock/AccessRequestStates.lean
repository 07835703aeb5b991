import IronStock.AccessRequests
import IronStock.ApprovalGate
import Mathlib.Data.Int.Order.Basic

/-!
# The states of an access request

Whatever the order of the statements, a request is answered once: the `UPDATE`
of each answer asks for a pending row again. Only the check of the approval
gate touches an answered request, and only an approval that is over.
-/
namespace IronStock

open Interleaving

/-! ## What every state promises -/

/-- The approval ends after it was given, 24 h later at most. -/
def AccessRequestRow.Window (r : AccessRequestRow) : Prop :=
  ∃ approvedAt expiresAt, r.respondedAt = some approvedAt ∧ r.expiresAt = some expiresAt ∧
    approvedAt < expiresAt ∧ expiresAt ≤ approvedAt + maxAccessMinutes * minute

structure RequestsSafe (s : ApprovalState) : Prop where
  ids : (s.requests.map fun r => r.id).Nodup
  onePending : ∀ item user, (s.requests.filter fun r =>
    r.isPending ∧ r.itemId = item ∧ r.requesterId = user).length ≤ 1
  window : ∀ r ∈ s.requests, r.status = .approved → r.Window
  active : ∀ db now item user, (hasActiveApproval (s.inDB db) now item user).2 = true ↔
    ∃ r ∈ s.requests, r.itemId = item ∧ r.requesterId = user ∧ r.status = .approved ∧
      ∃ expiresAt, r.expiresAt = some expiresAt ∧ now < expiresAt

/-- Requests that have been answered stay as they are. -/
def StaySettled (s s' : ApprovalState) : Prop :=
  ∀ r ∈ s.requests, r.status ≠ .pending → r ∈ s'.requests

/-- An answered request stays as it is until its approval is over. -/
structure Ages (s s' : ApprovalState) : Prop where
  clock : s.clock ≤ s'.clock
  rows : ∀ r ∈ s.requests, r.status ≠ .pending → r ∈ s'.requests ∨
    r.expire ∈ s'.requests ∧ r.status = .approved ∧ ∃ t, r.expiresAt = some t ∧ t ≤ s'.clock

/-- A request that has been answered is never pending again. -/
def NeverPendingAgain (s s' : ApprovalState) : Prop :=
  ∀ r ∈ s.requests, r.status ≠ .pending → ∀ r' ∈ s'.requests, r'.id = r.id → r'.status ≠ .pending

/-- A request that this move approves is approved by the `UPDATE` of an
`Approve` whose caller is an admin. -/
def ApprovedByAdmin (s : System ApprovalState ApprovalCall ApprovalAnswer)
    (m : Move ApprovalRequest ApprovalMoment) : Prop :=
  ∀ r ∈ (accessRequestHandlers.step s m).shared.requests, r.status = .approved →
    r ∈ s.shared.requests ∨ ∃ i t claims minutes expiresAt deadline,
      m = .advance i t ∧
      s.calls[i]? = some (.inl (.approve claims r.id minutes expiresAt deadline)) ∧
      claims.hasRole .admin = true ∧ r.approvedBy = some claims.subject

/-! ## The table -/

def AllowedMinutes (n : Int) : Prop := 1 ≤ n ∧ n ≤ maxAccessMinutes

theorem allowedMinutes_requested (n : Int) : AllowedMinutes (requestedMinutes n) := by
  simp only [AllowedMinutes, requestedMinutes, maxAccessMinutes]
  constructor <;> split <;> split <;> omega

theorem allowedMinutes_approved (override : Option Int) {n : Int} (h : AllowedMinutes n) :
    AllowedMinutes (approvedMinutes override n) := by
  simp only [AllowedMinutes, approvedMinutes, maxAccessMinutes] at h ⊢
  cases override with
  | none => constructor <;> split <;> omega
  | some n => constructor <;> simp only <;> split <;> split <;> omega

/-- Two requests that `idx_ar_pending_unique` lets stand side by side. -/
def NotBothPending (a b : AccessRequestRow) : Prop :=
  a.isPending → b.isPending → ¬ (a.itemId = b.itemId ∧ a.requesterId = b.requesterId)

structure RequestsOk (s : ApprovalState) : Prop where
  ids : (s.requests.map fun r => r.id).Nodup
  pending : s.requests.Pairwise NotBothPending
  minutes : ∀ r ∈ s.requests, r.isPending → AllowedMinutes r.accessDurationMinutes
  window : ∀ r ∈ s.requests, r.status = .approved → r.Window

namespace RequestsOk

variable {s : ApprovalState}

/-- An update that leaves no row pending. -/
theorem update (h : RequestsOk s) (hit : AccessRequestRow → Bool)
    (f : AccessRequestRow → AccessRequestRow) (hid : ∀ r, (f r).id = r.id)
    (hdone : ∀ r, (f r).isPending = false)
    (hwindow : ∀ r ∈ s.requests, hit r = true → (f r).status = .approved → (f r).Window) :
    RequestsOk { s with requests := Table.updateWhere hit f s.requests } where
  ids := by
    have hsame : (Table.updateWhere hit f s.requests).map (fun r => r.id) =
        s.requests.map fun r => r.id := by
      rw [Table.updateWhere, List.map_map]
      apply List.map_congr_left
      intro r _
      by_cases hr : hit r = true
      · simp [hr, hid]
      · simp [hr]
    exact hsame ▸ h.ids
  pending := by
    refine List.pairwise_map.mpr (h.pending.imp ?_)
    intro a b hab ha hb
    by_cases hitA : hit a = true
    · simp [hitA, hdone] at ha
    · by_cases hitB : hit b = true
      · simp [hitB, hdone] at hb
      · simp only [hitA, hitB] at ha hb ⊢
        exact hab ha hb
  minutes r hr hpending := by
    obtain ⟨r₀, hr₀, rfl⟩ := Table.mem_updateWhere.mp hr
    by_cases hit₀ : hit r₀ = true
    · simp [hit₀, hdone] at hpending
    · rw [if_neg hit₀] at hpending ⊢
      exact h.minutes r₀ hr₀ hpending
  window r hr happroved := by
    obtain ⟨r₀, hr₀, rfl⟩ := Table.mem_updateWhere.mp hr
    by_cases hit₀ : hit r₀ = true
    · rw [if_pos hit₀] at happroved ⊢
      exact hwindow r₀ hr₀ hit₀ happroved
    · rw [if_neg hit₀] at happroved ⊢
      exact h.window r₀ hr₀ happroved

theorem insert (h : RequestsOk s) {row : AccessRequestRow} (hpending : row.status = .pending)
    (hminutes : AllowedMinutes row.accessDurationMinutes)
    (hnew : ∀ r ∈ s.requests, r.id ≠ row.id ∧ NotBothPending r row) :
    RequestsOk { s with requests := s.requests ++ [row] } where
  ids := by
    rw [List.map_append, List.nodup_append]
    refine ⟨h.ids, List.nodup_singleton _, ?_⟩
    intro a ha b hb
    obtain ⟨r, hr, rfl⟩ := List.mem_map.mp ha
    rw [List.map_cons, List.map_nil, List.mem_singleton] at hb
    exact hb ▸ (hnew r hr).1
  pending := by
    refine List.pairwise_append.mpr ⟨h.pending, List.pairwise_singleton _ _, ?_⟩
    intro r hr r' hr'
    rw [List.mem_singleton] at hr'
    exact hr' ▸ (hnew r hr).2
  minutes r hr hp := by
    rcases List.mem_append.mp hr with hr | hr
    · exact h.minutes r hr hp
    · exact List.mem_singleton.mp hr ▸ hminutes
  window r hr happroved := by
    rcases List.mem_append.mp hr with hr | hr
    · exact h.window r hr happroved
    · rw [List.mem_singleton.mp hr, hpending] at happroved
      cases happroved

/-- Two pending requests of one user for one item are one. -/
theorem onePending (h : RequestsOk s) (item user : Uuid) :
    (s.requests.filter fun r =>
      r.isPending ∧ r.itemId = item ∧ r.requesterId = user).length ≤ 1 := by
  have hfiltered := h.pending.filter fun r =>
    decide (r.isPending ∧ r.itemId = item ∧ r.requesterId = user)
  have hall : ∀ r ∈ s.requests.filter fun r =>
      decide (r.isPending ∧ r.itemId = item ∧ r.requesterId = user),
      r.isPending ∧ r.itemId = item ∧ r.requesterId = user := fun r hr => by
    simpa using (List.mem_filter.mp hr).2
  revert hfiltered hall
  cases s.requests.filter fun r =>
      decide (r.isPending ∧ r.itemId = item ∧ r.requesterId = user) with
  | nil => simp
  | cons a rest =>
    cases rest with
    | nil => simp
    | cons b rest =>
      intro hfiltered hall
      obtain ⟨ha, hitemA, huserA⟩ := hall a List.mem_cons_self
      obtain ⟨hb, hitemB, huserB⟩ := hall b (List.mem_cons_of_mem _ List.mem_cons_self)
      have hab := (List.pairwise_cons.mp hfiltered).1 b List.mem_cons_self
      exact absurd ⟨hitemA.trans hitemB.symm, huserA.trans huserB.symm⟩ (hab ha hb)

end RequestsOk

theorem hasActiveApproval_iff (s : ApprovalState) (db : DB) (now : Time) (item user : Uuid) :
    (hasActiveApproval (s.inDB db) now item user).2 = true ↔
      ∃ r ∈ s.requests, r.itemId = item ∧ r.requesterId = user ∧ r.status = .approved ∧
        ∃ expiresAt, r.expiresAt = some expiresAt ∧ now < expiresAt := by
  simp only [hasActiveApproval]
  rw [hasActiveApproval_expire, DB.hasActiveApproval, List.any_eq_true]
  simp only [ApprovalState.inDB, List.mem_map, exists_exists_and_eq_and, AccessRequest.isActive,
    decide_eq_true_eq, Option.any_eq_true]

theorem RequestsOk.safe {s : ApprovalState} (h : RequestsOk s) : RequestsSafe s :=
  ⟨h.ids, h.onePending, h.window, hasActiveApproval_iff s⟩

/-! ## The statements -/

/-- What a statement of a call does to the table. -/
inductive RequestEffect (s : ApprovalState) (call : ApprovalCall) : ApprovalState → Prop
  | silent : RequestEffect s call s
  | inserted {claims : Claims} {itemID reason : String} {minutes : Int} {id : Uuid}
      (hcall : call = .insert claims itemID reason minutes id) (row : AccessRequestRow)
      (hpending : row.status = .pending) (hminutes : row.accessDurationMinutes = minutes)
      (hnew : ∀ r ∈ s.requests, r.id ≠ row.id ∧ NotBothPending r row) :
      RequestEffect s call { s with requests := s.requests ++ [row] }
  | refused (hit : AccessRequestRow → Bool) (f : AccessRequestRow → AccessRequestRow)
      (hhit : ∀ r, hit r = true → r.status = .pending) (hid : ∀ r, (f r).id = r.id)
      (hdone : ∀ r, (f r).status = .denied ∨ (f r).status = .cancelled) :
      RequestEffect s call { s with requests := Table.updateWhere hit f s.requests }
  | approved {claims : Claims} {id : Uuid} {minutes : Int} {expiresAt deadline : Time}
      (hcall : call = .approve claims id minutes expiresAt deadline)
      (htime : s.clock ≤ deadline) :
      RequestEffect s call { s with
        requests := Table.updateWhere (fun r => decide (r.id = id) && r.isPending)
          (·.approve s.clock claims.subject expiresAt minutes) s.requests }
  | expired {item user : Uuid} (hcall : call = .request (.check item user)) :
      RequestEffect s call (s.expire item user)

theorem ApprovalState.le_tick (s : ApprovalState) (elapsed : Nat) :
    s.clock ≤ (s.tick elapsed).clock :=
  Int.le_add_of_nonneg_right (Int.natCast_nonneg elapsed)

section Statements

variable {s s' : ApprovalState}

theorem updatePending_eq {p : AccessRequestRow → Bool} {f : AccessRequestRow → AccessRequestRow}
    (h : s.updatePending p f = some s') :
    s' = { s with requests := Table.updateWhere (fun r => p r && r.isPending) f s.requests } := by
  unfold ApprovalState.updatePending at h
  split at h
  · cases h
    rfl
  · cases h

theorem insertRequest_eq {db : DB} {row : AccessRequestRow} (h : s.insertRequest db row = .ok s') :
    (∀ r ∈ s.requests, r.id ≠ row.id ∧ NotBothPending r row) ∧
      s' = { s with requests := s.requests ++ [row] } := by
  unfold ApprovalState.insertRequest at h
  split at h
  · cases h
  · next hfree =>
    split at h
    · cases h
    · cases h
      refine ⟨fun r hr => ?_, rfl⟩
      have hr := List.all_eq_true.mp (not_not.mp hfree) r hr
      simp only [decide_eq_true_eq] at hr
      exact ⟨hr.1, fun hp _ hkeys => hr.2 ⟨hp, hkeys⟩⟩

theorem isPending_iff {r : AccessRequestRow} : r.isPending = true ↔ r.status = .pending := by
  simp [AccessRequestRow.isPending]

theorem ApprovalCall.exec_effect (m : ApprovalMoment) (s : ApprovalState) (call : ApprovalCall) :
    RequestEffect (s.tick m.elapsed) call (call.exec m s).1 := by
  cases call with
  | request r =>
    cases r with
    | create claims itemID reason minutes id =>
      simp only [ApprovalCall.exec, ApprovalRequest.exec]
      split <;> exact .silent
    | approve claims reqID override =>
      simp only [ApprovalCall.exec, ApprovalRequest.exec]
      split <;> exact .silent
    | deny claims reqID reason =>
      simp only [ApprovalCall.exec, ApprovalRequest.exec]
      split <;> exact .silent
    | cancel claims reqID =>
      simp only [ApprovalCall.exec, ApprovalRequest.exec]
      split
      · exact .silent
      · next s' hcancel =>
        obtain ⟨id, _, hupdate⟩ := Option.bind_eq_some_iff.mp hcancel
        rw [updatePending_eq hupdate]
        exact .refused _ _ (fun r hr => isPending_iff.mp (Bool.and_eq_true _ _ ▸ hr).2)
          (fun _ => rfl) (fun _ => .inr rfl)
    | check item user => exact .expired rfl
  | insert claims itemID reason minutes id =>
    simp only [ApprovalCall.exec]
    split
    · exact .silent
    · split
      · exact .silent
      · next hinsert =>
        obtain ⟨hnew, rfl⟩ := insertRequest_eq hinsert
        exact .inserted rfl _ rfl rfl hnew
  | stamp claims id minutes deadline => exact .silent
  | approve claims id minutes expiresAt deadline =>
    simp only [ApprovalCall.exec]
    split
    · exact .silent
    · next s' happrove =>
      split at happrove
      · next hsent =>
        rw [updatePending_eq happrove]
        exact .approved rfl hsent.1
      · cases happrove
  | deny id reason =>
    simp only [ApprovalCall.exec]
    split
    · exact .silent
    · next hdeny =>
      rw [updatePending_eq hdeny]
      exact .refused _ _ (fun r hr => isPending_iff.mp (Bool.and_eq_true _ _ ▸ hr).2)
        (fun _ => rfl) (fun _ => .inl rfl)
  | select item user => exact .silent

theorem RequestEffect.clock {call : ApprovalCall} (h : RequestEffect s call s') :
    s'.clock = s.clock := by
  cases h <;> rfl

/-- Only the check of the gate touches what has been answered. -/
theorem RequestEffect.staySettled {call : ApprovalCall} (h : RequestEffect s call s')
    (hcall : ∀ item user, call ≠ .request (.check item user)) : StaySettled s s' := by
  intro r hr hstatus
  cases h with
  | silent => exact hr
  | inserted _ _ _ _ _ => exact List.mem_append_left _ hr
  | refused hit f hhit _ _ =>
    exact Table.mem_updateWhere.mpr ⟨r, hr, if_neg fun h => hstatus (hhit r h)⟩
  | approved _ _ =>
    refine Table.mem_updateWhere.mpr ⟨r, hr, if_neg fun h => hstatus ?_⟩
    exact isPending_iff.mp (Bool.and_eq_true _ _ ▸ h).2
  | expired h => exact absurd h (hcall _ _)

theorem RequestEffect.ages {call : ApprovalCall} (h : RequestEffect s call s') : Ages s s' := by
  by_cases hcheck : ∃ item user, call = .request (.check item user)
  · obtain ⟨item, user, rfl⟩ := hcheck
    refine ⟨le_of_eq h.clock.symm, fun r hr hstatus => ?_⟩
    cases h with
    | silent => exact .inl hr
    | refused hit f hhit _ _ =>
      exact .inl (Table.mem_updateWhere.mpr ⟨r, hr, if_neg fun h => hstatus (hhit r h)⟩)
    | inserted h _ _ _ _ | approved h _ => cases h
    | expired h =>
      cases h
      by_cases hstale : s.isStale item user r = true
      · have hcond := hstale
        simp only [ApprovalState.isStale, decide_eq_true_eq, Option.any_eq_true] at hcond
        obtain ⟨_, _, happroved, t, ht, hover⟩ := hcond
        exact .inr ⟨Table.mem_updateWhere.mpr ⟨r, hr, if_pos hstale⟩, happroved, t, ht, hover⟩
      · exact .inl (Table.mem_updateWhere.mpr ⟨r, hr, if_neg hstale⟩)
  · have hstay := h.staySettled fun item user heq => hcheck ⟨item, user, heq⟩
    exact ⟨le_of_eq h.clock.symm, fun r hr hstatus => .inl (hstay r hr hstatus)⟩

/-- Who approves a request. -/
theorem RequestEffect.approver {call : ApprovalCall} (h : RequestEffect s call s')
    {r : AccessRequestRow} (hr : r ∈ s'.requests) (happroved : r.status = .approved) :
    r ∈ s.requests ∨ ∃ claims minutes expiresAt deadline,
      call = .approve claims r.id minutes expiresAt deadline ∧
      r.approvedBy = some claims.subject := by
  cases h with
  | silent => exact .inl hr
  | inserted _ row hpending _ _ =>
    rcases List.mem_append.mp hr with hr | hr
    · exact .inl hr
    · rw [List.mem_singleton.mp hr, hpending] at happroved
      cases happroved
  | refused hit f _ _ hdone =>
    obtain ⟨r₀, hr₀, rfl⟩ := Table.mem_updateWhere.mp hr
    by_cases hit₀ : hit r₀ = true
    · rw [if_pos hit₀] at happroved
      rcases hdone r₀ with h | h <;> rw [h] at happroved <;> cases happroved
    · rw [if_neg hit₀]
      exact .inl hr₀
  | @approved claims id minutes expiresAt deadline hcall _ =>
    obtain ⟨r₀, hr₀, rfl⟩ := Table.mem_updateWhere.mp hr
    split
    · next hit =>
      simp only [Bool.and_eq_true, decide_eq_true_eq] at hit
      exact .inr ⟨claims, minutes, expiresAt, deadline, hit.1.symm ▸ hcall, rfl⟩
    · exact .inl hr₀
  | expired _ =>
    obtain ⟨r₀, hr₀, rfl⟩ := Table.mem_updateWhere.mp hr
    split at happroved
    · cases happroved
    · next hit =>
      rw [if_neg hit]
      exact .inl hr₀

end Statements

/-! ## The calls -/

/-- What a call has checked, and the time it has left. No call checks the gate
unless `gate` holds. -/
def ApprovalCallOk (gate : Prop) (s : ApprovalState) : ApprovalCall ⊕ ApprovalAnswer → Prop
  | .inl (.request (.check _ _)) => gate
  | .inl (.insert _ _ _ minutes _) => AllowedMinutes minutes
  | .inl (.stamp claims _ minutes deadline) =>
    claims.hasRole .admin = true ∧ AllowedMinutes minutes ∧ deadline ≤ s.clock + requestTimeout
  | .inl (.approve claims _ minutes expiresAt deadline) =>
    claims.hasRole .admin = true ∧ AllowedMinutes minutes ∧ ∃ stamped, stamped ≤ s.clock ∧
      expiresAt = stamped + minutes * minute ∧ deadline ≤ stamped + requestTimeout
  | _ => True

theorem ApprovalCallOk.later {gate : Prop} {s s' : ApprovalState} (hclock : s.clock ≤ s'.clock)
    {c : ApprovalCall ⊕ ApprovalAnswer} (hc : ApprovalCallOk gate s c) :
    ApprovalCallOk gate s' c := by
  cases c with
  | inr answer => trivial
  | inl call =>
    cases call with
    | stamp claims id minutes deadline =>
      exact ⟨hc.1, hc.2.1, hc.2.2.trans (Int.add_le_add_right hclock _)⟩
    | approve claims id minutes expiresAt deadline =>
      obtain ⟨hadmin, hminutes, stamped, hstamped, hrest⟩ := hc
      exact ⟨hadmin, hminutes, stamped, hstamped.trans hclock, hrest⟩
    | insert claims itemID reason minutes id => exact hc
    | request r => cases r <;> exact hc
    | _ => trivial

theorem fetchPending_eq_ok {s : ApprovalState} {claims : Claims} {reqID : String}
    {row : AccessRequestRow} (h : fetchPending s claims reqID = .ok row) :
    claims.hasRole .admin = true ∧ row ∈ s.requests ∧ row.isPending = true := by
  simp only [fetchPending, Reply.bind_eq_ok, Reply.require_eq_ok, Reply.orElse_eq_ok] at h
  obtain ⟨_, hadmin, hfetch⟩ := h
  obtain ⟨id, _, hfind⟩ := Option.bind_eq_some_iff.mp hfetch
  have hmatch := List.find?_some hfind
  simp only [decide_eq_true_eq] at hmatch
  exact ⟨hadmin, List.mem_of_find?_eq_some hfind, hmatch.2⟩

/-- The statement was sent in time, so the approval is not over before it begins. -/
theorem window_bounds {now stamped minutes deadline : Int} (hminutes : AllowedMinutes minutes)
    (hstamped : stamped ≤ now) (hdeadline : deadline ≤ stamped + requestTimeout)
    (htime : now ≤ deadline) :
    now < stamped + minutes * minute ∧
      stamped + minutes * minute ≤ now + maxAccessMinutes * minute := by
  simp only [AllowedMinutes, maxAccessMinutes, requestTimeout, minute] at *
  omega

section Calls

variable {gate : Prop} {s : ApprovalState}

theorem RequestsOk.effect {s' : ApprovalState} {call : ApprovalCall} (h : RequestsOk s)
    (hcall : ApprovalCallOk gate s (.inl call)) (heffect : RequestEffect s call s') :
    RequestsOk s' := by
  cases heffect with
  | silent => exact h
  | inserted heq row hpending hminutes hnew =>
    subst heq
    exact h.insert hpending (hminutes.symm ▸ hcall) hnew
  | refused hit f _ hid hdone =>
    have hnot : ∀ r, (f r).isPending = false ∧ (f r).status ≠ .approved := by
      intro r
      rcases hdone r with h | h <;> simp [AccessRequestRow.isPending, h]
    exact h.update hit f hid (fun r => (hnot r).1) fun r _ _ happroved =>
      absurd happroved (hnot r).2
  | approved heq htime =>
    subst heq
    obtain ⟨_, hminutes, stamped, hstamped, hexpires, hdeadline⟩ := hcall
    obtain ⟨hafter, hbefore⟩ := window_bounds hminutes hstamped hdeadline htime
    refine h.update _ _ (fun _ => rfl) (fun _ => rfl) fun r _ _ _ => ?_
    exact ⟨s.clock, _, rfl, rfl, hexpires ▸ hafter, hexpires ▸ hbefore⟩
  | expired _ =>
    exact h.update _ _ (fun _ => rfl) (fun _ => rfl) fun _ _ _ happroved => by cases happroved

theorem ApprovalCall.exec_own (h : RequestsOk s) (m : ApprovalMoment) {call : ApprovalCall}
    (hcall : ApprovalCallOk gate s (.inl call)) :
    ApprovalCallOk gate (call.exec m s).1 (call.exec m s).2 := by
  cases call with
  | request r =>
    cases r with
    | create claims itemID reason minutes id =>
      simp only [ApprovalCall.exec, ApprovalRequest.exec]
      split
      · trivial
      · exact allowedMinutes_requested minutes
    | approve claims reqID override =>
      simp only [ApprovalCall.exec, ApprovalRequest.exec]
      split
      · trivial
      · next row hfetch =>
        obtain ⟨hadmin, hrow, hpending⟩ := fetchPending_eq_ok hfetch
        exact ⟨hadmin, allowedMinutes_approved override (h.minutes row hrow hpending), le_refl _⟩
    | deny claims reqID reason =>
      simp only [ApprovalCall.exec, ApprovalRequest.exec]
      split <;> trivial
    | cancel claims reqID =>
      simp only [ApprovalCall.exec, ApprovalRequest.exec]
      split <;> trivial
    | check item user => trivial
  | insert claims itemID reason minutes id =>
    simp only [ApprovalCall.exec]
    split
    · trivial
    · split <;> trivial
  | stamp claims id minutes deadline =>
    obtain ⟨hadmin, hminutes, hdeadline⟩ := ApprovalCallOk.later (s.le_tick m.elapsed) hcall
    exact ⟨hadmin, hminutes, (s.tick m.elapsed).clock, le_refl _, rfl, hdeadline⟩
  | approve claims id minutes expiresAt deadline =>
    simp only [ApprovalCall.exec]
    split <;> trivial
  | deny id reason =>
    simp only [ApprovalCall.exec]
    split <;> trivial
  | select item user => trivial

theorem ApprovalCall.exec_keeps (h : RequestsOk s) (m : ApprovalMoment) {call : ApprovalCall}
    (hcall : ApprovalCallOk gate s (.inl call)) :
    Program.Keeps RequestsOk (ApprovalCallOk gate) s (call.exec m s) := by
  have heffect := ApprovalCall.exec_effect m s call
  have htick : RequestsOk (s.tick m.elapsed) := ⟨h.ids, h.pending, h.minutes, h.window⟩
  have hlater := ApprovalCallOk.later (s.le_tick m.elapsed) hcall
  refine ⟨htick.effect hlater heffect, call.exec_own h m hcall, fun c hc => ?_⟩
  exact hc.later ((s.le_tick m.elapsed).trans (le_of_eq heffect.clock.symm))

end Calls

/-! ## The runs -/

/-- No request and no call. -/
def approvalStart (now : Time) : System ApprovalState ApprovalCall ApprovalAnswer :=
  ⟨{ clock := now }, []⟩

/-- The move begins a check of the approval gate. -/
def ChecksGate : Move ApprovalRequest ApprovalMoment → Prop
  | .begin (.check _ _) => True
  | _ => False

abbrev ApprovalSystemOk (gate : Prop) (s : System ApprovalState ApprovalCall ApprovalAnswer) :
    Prop :=
  Program.Holds RequestsOk (ApprovalCallOk gate) s

theorem approvalStart_ok (gate : Prop) (now : Time) : ApprovalSystemOk gate (approvalStart now) :=
  ⟨⟨List.nodup_nil, .nil, fun _ hr => (by cases hr), fun _ hr => (by cases hr)⟩,
    fun _ hc => (by cases hc)⟩

section Runs

variable {gate : Prop} {s : System ApprovalState ApprovalCall ApprovalAnswer}

theorem approvalSystem_step (h : ApprovalSystemOk gate s) (m : Move ApprovalRequest ApprovalMoment)
    (hgate : ChecksGate m → gate) : ApprovalSystemOk gate (accessRequestHandlers.step s m) := by
  refine Program.holds_step _ s m h ?_ ?_
  · rintro r rfl
    cases r with
    | check item user => exact hgate trivial
    | _ => trivial
  · intro i t call _ hcall
    exact ApprovalCall.exec_keeps h.shared t (h.calls _ (List.mem_of_getElem? hcall))

theorem approvalSystem_run (h : ApprovalSystemOk gate s)
    (moves : List (Move ApprovalRequest ApprovalMoment))
    (hgate : ∀ m ∈ moves, ChecksGate m → gate) :
    ApprovalSystemOk gate (Runs.run accessRequestHandlers.step s moves) := by
  induction moves generalizing s with
  | nil => exact h
  | cons m moves ih =>
    refine ih (approvalSystem_step h m (hgate m List.mem_cons_self)) fun m' hm' => ?_
    exact hgate m' (List.mem_cons_of_mem _ hm')

theorem Ages.refl (s : ApprovalState) : Ages s s := ⟨le_refl _, fun _ hr _ => .inl hr⟩

theorem Ages.trans {s₁ s₂ s₃ : ApprovalState} (h : Ages s₁ s₂) (h' : Ages s₂ s₃) :
    Ages s₁ s₃ := by
  refine ⟨h.clock.trans h'.clock, fun r hr hstatus => ?_⟩
  rcases h.rows r hr hstatus with hr | ⟨hexpired, happroved, t, ht, hover⟩
  · exact h'.rows r hr hstatus
  · have hdone : r.expire.status ≠ .pending := by simp [AccessRequestRow.expire]
    rcases h'.rows r.expire hexpired hdone with hkept | ⟨_, hagain, _⟩
    · exact .inr ⟨hkept, happroved, t, ht, hover.trans h'.clock⟩
    · cases hagain

theorem approvalSystem_ages (s : System ApprovalState ApprovalCall ApprovalAnswer)
    (m : Move ApprovalRequest ApprovalMoment) :
    Ages s.shared (accessRequestHandlers.step s m).shared := by
  obtain ⟨_, _, h⟩ | ⟨_, t, call, _, _, h⟩ | h := accessRequestHandlers.step_cases s m
  · rw [h]
    exact .refl _
  · rw [h]
    have htick : Ages s.shared (s.shared.tick t.elapsed) :=
      ⟨s.shared.le_tick t.elapsed, fun _ hr _ => .inl hr⟩
    exact htick.trans (ApprovalCall.exec_effect t s.shared call).ages
  · rw [h]
    exact .refl _

theorem approvalSystem_run_ages (s : System ApprovalState ApprovalCall ApprovalAnswer)
    (moves : List (Move ApprovalRequest ApprovalMoment)) :
    Ages s.shared (Runs.run accessRequestHandlers.step s moves).shared := by
  induction moves generalizing s with
  | nil => exact .refl _
  | cons m moves ih => exact (approvalSystem_ages s m).trans (ih _)

/-- Without a check of the gate nothing that has been answered changes. -/
theorem approvalSystem_staySettled (h : ApprovalSystemOk False s)
    (m : Move ApprovalRequest ApprovalMoment) :
    StaySettled s.shared (accessRequestHandlers.step s m).shared := by
  obtain ⟨_, _, hstep⟩ | ⟨_, t, call, _, hcall, hstep⟩ | hstep :=
    accessRequestHandlers.step_cases s m
  · rw [hstep]
    exact fun _ hr _ => hr
  · rw [hstep]
    have hok := h.calls _ (List.mem_of_getElem? hcall)
    refine (ApprovalCall.exec_effect t s.shared call).staySettled ?_
    rintro item user rfl
    exact hok
  · rw [hstep]
    exact fun _ hr _ => hr

theorem approvalSystem_run_staySettled (h : ApprovalSystemOk False s)
    (moves : List (Move ApprovalRequest ApprovalMoment)) (hgate : ∀ m ∈ moves, ¬ ChecksGate m) :
    StaySettled s.shared (Runs.run accessRequestHandlers.step s moves).shared := by
  induction moves generalizing s with
  | nil => exact fun _ hr _ => hr
  | cons m moves ih =>
    intro r hr hstatus
    have hrest := ih (approvalSystem_step h m (hgate m List.mem_cons_self))
      fun m' hm' => hgate m' (List.mem_cons_of_mem _ hm')
    exact hrest r (approvalSystem_staySettled h m r hr hstatus) hstatus

theorem approvedByAdmin_step (h : ApprovalSystemOk gate s)
    (m : Move ApprovalRequest ApprovalMoment) : ApprovedByAdmin s m := by
  intro r hr happroved
  obtain ⟨_, _, hstep⟩ | ⟨i, t, call, hm, hcall, hstep⟩ | hstep :=
    accessRequestHandlers.step_cases s m
  · rw [hstep] at hr
    exact .inl hr
  · rw [hstep] at hr
    have heffect := ApprovalCall.exec_effect t s.shared call
    rcases heffect.approver hr happroved with hold | ⟨claims, minutes, e, deadline, rfl, hby⟩
    · exact .inl hold
    · have hok := h.calls _ (List.mem_of_getElem? hcall)
      exact .inr ⟨i, t, claims, minutes, e, deadline, hm, hcall, hok.1, hby⟩
  · rw [hstep] at hr
    exact .inl hr

theorem Ages.neverPendingAgain {s s' : ApprovalState} (h : Ages s s') (hs' : RequestsOk s') :
    NeverPendingAgain s s' := by
  intro r hr hstatus r' hr' hid
  rcases h.rows r hr hstatus with hkept | ⟨hexpired, _⟩
  · have hsame : r' = r := List.inj_on_of_nodup_map hs'.ids hr' hkept hid
    exact hsame ▸ hstatus
  · have hsame : r' = r.expire := List.inj_on_of_nodup_map hs'.ids hr' hexpired hid
    rw [hsame]
    simp [AccessRequestRow.expire]

end Runs

/-- In every run of `Create`, `Approve`, `Deny` and `Cancel` a request is
answered once, by an admin if it is approved, and then stays as it is; the check
of the gate may only mark an approval that is over. -/
theorem access_request_state_machine (now : Time)
    (moves later : List (Move ApprovalRequest ApprovalMoment)) :
    let reached := Runs.run accessRequestHandlers.step (approvalStart now) moves
    let final := Runs.run accessRequestHandlers.step reached later
    RequestsSafe reached.shared ∧ (∀ m, ApprovedByAdmin reached m) ∧
      NeverPendingAgain reached.shared final.shared ∧ Ages reached.shared final.shared ∧
      ((∀ m ∈ moves ++ later, ¬ ChecksGate m) → StaySettled reached.shared final.shared) := by
  intro reached final
  have hreached : ApprovalSystemOk True reached :=
    approvalSystem_run (approvalStart_ok True now) moves fun _ _ _ => trivial
  have hfinal : ApprovalSystemOk True final :=
    approvalSystem_run hreached later fun _ _ _ => trivial
  have hages : Ages reached.shared final.shared := approvalSystem_run_ages reached later
  refine ⟨hreached.shared.safe, approvedByAdmin_step hreached,
    hages.neverPendingAgain hfinal.shared, hages, fun hnone => ?_⟩
  have hreached' : ApprovalSystemOk False reached :=
    approvalSystem_run (approvalStart_ok False now) moves fun m hm hgate =>
      hnone m (List.mem_append_left _ hm) hgate
  exact approvalSystem_run_staySettled hreached' later fun m hm =>
    hnone m (List.mem_append_right _ hm)

end IronStock

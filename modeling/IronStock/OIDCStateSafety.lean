import IronStock.OIDCStateStores

/-!
# When OIDC states are single-use

A lost reply to the `SET` of `issueOIDCState` leaves a state in two stores, an
open circuit hides the store a state is in, and two callbacks with one state may
take it from each other. In runs without these moves a state is used once, and
its first callback in time is let through.
-/
namespace IronStock

open Interleaving

/-! ## What one run promises -/

/-- The answer accepts the state. -/
def acceptsState (state : String) : OIDCStateCall ⊕ OIDCStateAnswer → Bool
  | .inr (.consumed p entry) => p.state = state ∧ entry.isSome
  | _ => false

/-- Each state is accepted once, within its ten minutes, and a callback goes on
for its provider only; and the first callback in time, at the process that issued
the state, has it accepted unless its call on Redis failed. -/
structure OIDCStatesSafe (s : System OIDCStore OIDCStateCall OIDCStateAnswer) : Prop where
  once : ∀ state, s.calls.countP (acceptsState state) ≤ 1
  inTime : ∀ p entry, .inr (.consumed p (some entry)) ∈ s.calls →
    ∃ t ∈ s.shared.issued, t.state = p.state ∧ t.entry = entry ∧ t.time ≤ p.time ∧
      p.time ≤ t.time + oidcStateTTL
  provider : ∀ p answer entry, .inr (.consumed p answer) ∈ s.calls →
    callbackEntry p answer = .ok entry →
      ∃ t ∈ s.shared.issued, t.state = p.state ∧ t.entry = entry ∧ t.providerID = p.providerID
  available : ∀ p answer, .inr (.consumed p answer) ∈ s.calls → p.answered = true →
    p.first = true → ∀ t, p.issue = some t → t.pod = p.pod → p.time < t.time + oidcStateTTL →
      answer = some t.entry

/-! ## The moves that keep it -/

/-- The state of a call of `issueOIDCState` that has not returned. -/
def drawingState : OIDCStateCall ⊕ OIDCStateAnswer → Option String
  | .inl (.request (.issue _ _ _ state)) => some state
  | .inl (.storeLocal t) => some t.state
  | _ => none

/-- The random bytes of `issueOIDCState` are new ones. -/
def DrawsNewState (s : System OIDCStore OIDCStateCall OIDCStateAnswer) :
    Move OIDCStateRequest TicketMoment → Prop
  | .begin (.issue _ _ _ state) =>
    (∀ t ∈ s.shared.issued, t.state ≠ state) ∧ ∀ c ∈ s.calls, drawingState c ≠ some state
  | _ => True

/-- The reply to a `SET` that took effect is not lost; and Redis is asked at the
first callback with a live state of this process that it holds. -/
def StaysInOneStateStore (useRedis : Bool) (o : RedisOutcome) (s : OIDCStore) :
    OIDCStateCall → Prop
  | .request (.issue pod _ _ _) => useRedis = true → s.isOpen pod = true ∨ o ≠ .failAfter
  | .request (.callback pod _ state) =>
    useRedis = true → s.isOpen pod = true → state ∉ s.presented →
      ∀ t ∈ s.issued, t.pod = pod → t.state = state →
        (∀ k ∈ s.redis, k.state ≠ state) ∨ t.entry.expiresAt ≤ s.clock
  | _ => True

/-- The callback is the first one for a state of its process, and Redis, if it
was asked, has answered. -/
def StatePresentation.IsPromised (p : StatePresentation) (t : DrawnState) : Prop :=
  p.answered = true ∧ p.first = true ∧ p.issue = some t ∧ t.pod = p.pod

/-- No callback takes a live state from the memory while the first callback with
this state is on its way there. -/
def LeavesToFirst (s : System OIDCStore OIDCStateCall OIDCStateAnswer) (i : Nat)
    (m : TicketMoment) : OIDCStateCall → Prop
  | .takeLocal p => ∀ j q t, j ≠ i → s.calls[j]? = some (.inl (.takeLocal q)) →
    q.IsPromised t → q.pod = p.pod → q.state = p.state →
      ∀ e ∈ s.shared.memory, e.pod = p.pod → e.state = p.state →
        e.entry.expiresAt < (s.shared.tick m.elapsed).clock
  | _ => True

def KeepsOneStateStore (useRedis : Bool) (s : System OIDCStore OIDCStateCall OIDCStateAnswer) :
    Move OIDCStateRequest TicketMoment → Prop
  | .begin _ => True
  | .advance i m => ∀ call, s.calls[i]? = some (.inl call) →
    StaysInOneStateStore useRedis m.outcome (s.shared.tick m.elapsed) call ∧
      LeavesToFirst s i m call

/-! ## The calls -/

/-- A state that was issued, with what it was drawn for, not too long ago. -/
def AcceptedState (s : OIDCStore) (p : StatePresentation) (entry : OIDCState) : Prop :=
  ∃ t ∈ s.issued, t.state = p.state ∧ t.entry = entry ∧ t.time ≤ p.time ∧
    p.time ≤ t.time + oidcStateTTL

/-- The first callback in time has its state. -/
def PromiseKept (p : StatePresentation) (answer : Option OIDCState) : Prop :=
  ∀ t, p.IsPromised t → p.time < t.time + oidcStateTTL → answer = some t.entry

def StateCallOk (s : OIDCStore) : OIDCStateCall ⊕ OIDCStateAnswer → Prop
  | .inl (.storeLocal t) => t.time ≤ s.clock
  | .inl (.takeLocal p) =>
    p.state ∈ s.presented ∧ ∀ t, p.issue = some t → t ∈ s.issued ∧ t.state = p.state
  | .inr (.consumed p answer) =>
    (∀ entry, answer = some entry → AcceptedState s p entry) ∧ PromiseKept p answer
  | _ => True

/-- States stay issued and stay presented, and time goes on. -/
structure StatesGrow (s s' : OIDCStore) : Prop where
  clock : s.clock ≤ s'.clock
  issued : s.issued ⊆ s'.issued
  presented : s.presented ⊆ s'.presented

theorem StatesGrow.callOk {s s' : OIDCStore} (h : StatesGrow s s')
    {c : OIDCStateCall ⊕ OIDCStateAnswer} (hc : StateCallOk s c) : StateCallOk s' c := by
  cases c with
  | inl call =>
    cases call with
    | request r => trivial
    | storeLocal t => exact le_trans hc h.clock
    | takeLocal p =>
      refine ⟨h.presented hc.1, fun t ht => ?_⟩
      obtain ⟨hissued, hstate⟩ := hc.2 t ht
      exact ⟨h.issued hissued, hstate⟩
  | inr answer =>
    cases answer with
    | issued state => trivial
    | consumed p answer =>
      refine ⟨fun entry hanswer => ?_, hc.2⟩
      obtain ⟨t, ht, hrest⟩ := hc.1 entry hanswer
      exact ⟨t, h.issued ht, hrest⟩

/-! ## One statement -/

/-- A first callback on its way to the memory will find its state there. -/
def StateCovered (s : OIDCStore) (p : StatePresentation) : Prop :=
  ∀ t, p.IsPromised t → t.entry.expiresAt ≤ s.clock ∨ s.InMemory t

theorem StateCovered.mono {s s' : OIDCStore} {p : StatePresentation} (h : StateCovered s p)
    (hclock : s.clock ≤ s'.clock) (hmemory : s'.memory = s.memory) : StateCovered s' p := by
  intro t ht
  rcases h t ht with hover | ⟨m, hm, hrest⟩
  · exact .inl (hover.trans hclock)
  · exact .inr ⟨m, hmemory ▸ hm, hrest⟩

/-- The invariant of the stores with the assertion of each call. -/
abbrev StateKeeps (useRedis : Bool) (s : OIDCStore)
    (r : OIDCStore × (OIDCStateCall ⊕ OIDCStateAnswer)) : Prop :=
  Program.Keeps (StatesOk useRedis) StateCallOk s r

section Statements

variable {useRedis : Bool} {s s' : OIDCStore}

theorem stateKeeps_of_grow (h : StatesOk useRedis s') (hgrow : StatesGrow s s')
    {c : OIDCStateCall ⊕ OIDCStateAnswer} (hc : StateCallOk s' c) :
    StateKeeps useRedis s (s', c) :=
  ⟨h, hc, fun _ => hgrow.callOk⟩

/-- The state of a first callback. -/
theorem oidcPresentation_issue {pod : Nat} {providerID state : String} {answered : Bool}
    {t : DrawnState} (h : (s.presentation pod providerID state answered).issue = some t) :
    t ∈ s.issued ∧ t.state = state :=
  ⟨List.mem_of_find?_eq_some h, by simpa using List.find?_some h⟩

theorem oidcPresentation_promised {pod : Nat} {providerID state : String} {answered : Bool}
    {t : DrawnState} (h : (s.presentation pod providerID state answered).IsPromised t) :
    answered = true ∧ state ∉ s.presented ∧ t ∈ s.issued ∧ t.state = state ∧ t.pod = pod := by
  obtain ⟨hanswered, hfirst, hissue, hpod⟩ := h
  obtain ⟨ht, hstate⟩ := oidcPresentation_issue hissue
  exact ⟨hanswered, by simpa [OIDCStore.presentation] using hfirst, ht, hstate, hpod⟩

/-- `issueOIDCState` -/
theorem issueState_keeps (h : StatesOk useRedis s) (pod : Nat)
    (providerID pkceVerifier state : String) (o : RedisOutcome)
    (hreply : useRedis = true → s.isOpen pod = true ∨ o ≠ .failAfter) :
    StateKeeps useRedis s
      (OIDCStateRequest.exec useRedis o s (.issue pod providerID pkceVerifier state)) := by
  have hsame : StatesGrow s s := ⟨le_refl _, List.Subset.refl _, List.Subset.refl _⟩
  simp only [OIDCStateRequest.exec]
  by_cases hask : (useRedis && !s.isOpen pod) = true
  · simp only [if_pos hask]
    obtain ⟨huse, hclosed⟩ : useRedis = true ∧ s.isOpen pod = false := by simpa using hask
    have hset := h.setIssue huse (t := ⟨pod, state, providerID, pkceVerifier, s.clock⟩) rfl
    have hissued : s.issued ⊆
        (s.issue ⟨pod, state, providerID, pkceVerifier, s.clock⟩).issued :=
      List.subset_append_left _ _
    cases o with
    | ok | retried =>
      refine stateKeeps_of_grow (hset.observed pod false)
        ⟨hsame.clock, hissued, hsame.presented⟩ ?_
      exact trivial
    | failBefore =>
      exact stateKeeps_of_grow (h.observed pod true) ⟨hsame.clock, hsame.issued, hsame.presented⟩
        (le_refl s.clock)
    | failAfter =>
      rcases hreply huse with hopen | hne
      · rw [hclosed] at hopen
        cases hopen
      · exact absurd rfl hne
  · simp only [if_neg hask]
    exact stateKeeps_of_grow h hsame (le_refl s.clock)

/-- A callback up to its state or the way to the memory. -/
theorem callback_keeps (h : StatesOk useRedis s)
    (hunique : ∀ t₁ ∈ s.issued, ∀ t₂ ∈ s.issued, t₁.state = t₂.state → t₁ = t₂)
    (pod : Nat) (providerID state : String) (o : RedisOutcome) :
    StateKeeps useRedis s
      (OIDCStateRequest.exec useRedis o s (.callback pod providerID state)) := by
  have hpresent := h.present state
  have hmem : state ∈ (s.present state).presented := List.mem_cons_self
  have hdel := hpresent.del hmem
  have hgrow : StatesGrow s (s.present state) :=
    ⟨le_refl _, List.Subset.refl _, List.subset_cons_self _ _⟩
  have hwait : ∀ s' : OIDCStore, StatesGrow (s.present state) s' → ∀ answered,
      StateCallOk s' (.inl (.takeLocal (s.presentation pod providerID state answered))) :=
    fun s' hs' answered => hs'.callOk
      ⟨hmem, fun t ht => @oidcPresentation_issue s pod providerID state answered t ht⟩
  simp only [OIDCStateRequest.exec]
  by_cases hask : (useRedis && !s.isOpen pod) = true
  · simp only [if_pos hask]
    have hafter : ∀ failed, StatesGrow (s.present state)
        (((s.present state).del state).observed pod failed) :=
      fun failed => ⟨le_refl _, List.Subset.refl _, List.Subset.refl _⟩
    have hdeleted : ∀ failed, StatesGrow s (((s.present state).del state).observed pod failed) :=
      fun failed => ⟨hgrow.clock, hgrow.issued, hgrow.presented⟩
    cases o with
    | ok =>
      cases hget : s.get state with
      | none =>
        exact stateKeeps_of_grow (hdel.observed pod false) (hdeleted false)
          (hwait _ (hafter false) _)
      | some entry =>
        obtain ⟨t, ht, hstate, hentry, hpast, hlive⟩ := acceptedState_of_get h hget
        have hanswer : (if entry.expiresAt < s.clock then none else some entry) = some entry :=
          if_neg (not_lt.mpr (hentry ▸ hlive.le))
        refine stateKeeps_of_grow (hdel.observed pod false) (hdeleted false) ⟨?_, ?_⟩
        · intro entry' heq
          rw [hanswer] at heq
          cases heq
          exact ⟨t, ht, hstate, hentry, hpast, hlive.le⟩
        · intro t' hpromised _
          obtain ⟨-, -, ht', hstate', -⟩ := oidcPresentation_promised hpromised
          have hsame : t' = t := hunique t' ht' t ht (hstate'.trans hstate.symm)
          rw [hanswer, hsame, hentry]
    | retried =>
      exact stateKeeps_of_grow (hdel.observed pod false) (hdeleted false)
        (hwait _ (hafter false) _)
    | failBefore =>
      exact stateKeeps_of_grow (hpresent.observed pod true)
        ⟨hgrow.clock, hgrow.issued, hgrow.presented⟩
        (hwait _ ⟨le_refl _, List.Subset.refl _, List.Subset.refl _⟩ _)
    | failAfter =>
      exact stateKeeps_of_grow (hdel.observed pod true) (hdeleted true) (hwait _ (hafter true) _)
  · simp only [if_neg hask]
    exact stateKeeps_of_grow hpresent hgrow
      (hwait _ ⟨le_refl _, List.Subset.refl _, List.Subset.refl _⟩ _)

/-- The way to the memory is open for a first callback that Redis has not helped. -/
theorem callback_covered (h : StatesOk useRedis s)
    (hunique : ∀ t₁ ∈ s.issued, ∀ t₂ ∈ s.issued, t₁.state = t₂.state → t₁ = t₂)
    (pod : Nat) (providerID state : String) (o : RedisOutcome)
    (hopen : useRedis = true → s.isOpen pod = true → state ∉ s.presented →
      ∀ t ∈ s.issued, t.pod = pod → t.state = state →
        (∀ k ∈ s.redis, k.state ≠ state) ∨ t.entry.expiresAt ≤ s.clock)
    {p : StatePresentation}
    (hp : (OIDCStateRequest.exec useRedis o s (.callback pod providerID state)).2 =
      .inl (.takeLocal p)) :
    StateCovered s p := by
  have hcover : ∀ answered, (∀ t ∈ s.issued, t.state = state → t.pod = pod → answered = true →
      state ∉ s.presented → (∀ k ∈ s.redis, k.state = state → t.entry.expiresAt ≤ s.clock)) →
      StateCovered s (s.presentation pod providerID state answered) := by
    intro answered hredis t hpromised
    obtain ⟨hanswered, hnew, ht, rfl, hpod⟩ := oidcPresentation_promised hpromised
    rcases h.kept t ht hnew with hover | ⟨k, hk, hstate⟩ | hheld
    · exact .inl hover.le
    · exact .inl (hredis t ht rfl hpod hanswered hnew k hk hstate)
    · exact .inr hheld
  simp only [OIDCStateRequest.exec] at hp
  by_cases hask : (useRedis && !s.isOpen pod) = true
  · simp only [if_pos hask] at hp
    cases o with
    | ok =>
      cases hget : s.get state with
      | some entry => simp [hget] at hp
      | none =>
        simp only [hget, Sum.inl.injEq, OIDCStateCall.takeLocal.injEq] at hp
        subst hp
        refine hcover _ fun t ht hstate _ _ _ k hk hkstate => ?_
        obtain ⟨t', ht', hstate', hentry', hgone⟩ := h.redis k hk
        have hsame : t' = t := hunique t' ht' t ht (hstate'.trans (hkstate.trans hstate.symm))
        have hexpired := oidcGet_eq_none hget hk hkstate
        rwa [hgone, hsame] at hexpired
    | retried | failBefore | failAfter =>
      simp only [Sum.inl.injEq, OIDCStateCall.takeLocal.injEq] at hp
      subst hp
      exact hcover _ fun t _ _ _ hanswered => absurd hanswered (by decide)
  · simp only [if_neg hask, Sum.inl.injEq, OIDCStateCall.takeLocal.injEq] at hp
    subst hp
    refine hcover _ fun t ht hstate hpod _ hnew k hk hkstate => ?_
    cases huse : useRedis with
    | false =>
      rw [h.noRedis huse] at hk
      cases hk
    | true =>
      have hisOpen : s.isOpen pod = true := by simpa [huse] using hask
      rcases hopen huse hisOpen hnew t ht hpod hstate with hnone | hover
      · exact absurd hkstate (hnone k hk)
      · exact hover

/-- The second half of `consumeOIDCState`. -/
theorem takeLocal_keeps (h : StatesOk useRedis s)
    (hunique : ∀ t₁ ∈ s.issued, ∀ t₂ ∈ s.issued, t₁.state = t₂.state → t₁ = t₂)
    {p : StatePresentation} (hp : StateCallOk s (.inl (.takeLocal p)))
    (hcovered : StateCovered s p) :
    StateKeeps useRedis s ((s.takeLocal p.pod p.state).1,
      .inr (.consumed { p with time := s.clock } (s.takeLocal p.pod p.state).2)) := by
  obtain ⟨hissued, hpresented, hclock, -⟩ := oidcTakeLocal_frame s p.pod p.state
  refine stateKeeps_of_grow (h.take p.pod hp.1) ⟨hclock.ge, ?_, ?_⟩ ⟨?_, ?_⟩
  · rw [hissued]
    exact List.Subset.refl _
  · rw [hpresented]
    exact List.Subset.refl _
  · intro entry hanswer
    obtain ⟨t, ht, hrest⟩ := acceptedState_of_takeLocal h hanswer
    exact ⟨t, hissued ▸ ht, hrest⟩
  · intro t hpromised hlive
    obtain ⟨ht, hstate⟩ := hp.2 t hpromised.2.2.1
    have hpod : t.pod = p.pod := hpromised.2.2.2
    rcases hcovered t hpromised with hover | hheld
    · exact absurd hlive (not_lt.mpr hover)
    · have hfound := oidcTakeLocal_live h ht (fun t' ht' => hunique t' ht' t ht) hlive hheld
      rwa [hpod, hstate] at hfound

theorem stateExec_keeps (h : StatesOk useRedis s)
    (hunique : ∀ t₁ ∈ s.issued, ∀ t₂ ∈ s.issued, t₁.state = t₂.state → t₁ = t₂)
    (m : TicketMoment) {call : OIDCStateCall} (hcall : StateCallOk s (.inl call))
    (hcovered : ∀ p, call = .takeLocal p → StateCovered s p)
    (hone : StaysInOneStateStore useRedis m.outcome (s.tick m.elapsed) call) :
    StateKeeps useRedis s (call.exec useRedis m s) := by
  have htick := h.tick m.elapsed
  have hle := s.le_tick m.elapsed
  have hgrow : StatesGrow s (s.tick m.elapsed) := ⟨hle, List.Subset.refl _, List.Subset.refl _⟩
  have hcall := hgrow.callOk hcall
  suffices hkeeps : StateKeeps useRedis (s.tick m.elapsed) (call.exec useRedis m s) from
    ⟨hkeeps.shared, hkeeps.own, fun c hc => hkeeps.others c (hgrow.callOk hc)⟩
  cases call with
  | request r =>
    cases r with
    | issue pod providerID pkceVerifier state =>
      exact issueState_keeps htick pod providerID pkceVerifier state m.outcome hone
    | callback pod providerID state =>
      exact callback_keeps htick hunique pod providerID state m.outcome
  | storeLocal t =>
    have hissued : StatesGrow (s.tick m.elapsed) (((s.tick m.elapsed).storeLocal t).issue t) :=
      ⟨le_refl _, List.subset_append_left _ _, List.Subset.refl _⟩
    refine stateKeeps_of_grow (htick.localIssue hcall hunique) hissued ?_
    exact trivial
  | takeLocal p =>
    exact takeLocal_keeps htick hunique hcall ((hcovered p rfl).mono hle rfl)

/-- A request leaves the memory to the second half of its call. -/
theorem stateRequest_memory (useRedis : Bool) (o : RedisOutcome) (s : OIDCStore)
    (r : OIDCStateRequest) :
    (r.exec useRedis o s).1.memory = s.memory ∧ (r.exec useRedis o s).1.clock = s.clock := by
  cases r with
  | issue pod providerID pkceVerifier state =>
    simp only [OIDCStateRequest.exec]
    by_cases hask : (useRedis && !s.isOpen pod) = true
    · rw [if_pos hask]
      cases o <;> exact ⟨rfl, rfl⟩
    · rw [if_neg hask]
      exact ⟨rfl, rfl⟩
  | callback pod providerID state =>
    simp only [OIDCStateRequest.exec]
    by_cases hask : (useRedis && !s.isOpen pod) = true
    · rw [if_pos hask]
      cases o with
      | ok => cases s.get state <;> exact ⟨rfl, rfl⟩
      | retried | failBefore | failAfter => exact ⟨rfl, rfl⟩
    · rw [if_neg hask]
      exact ⟨rfl, rfl⟩

/-- A call on its way to the memory is covered by the statement before. -/
theorem stateExec_covered (h : StatesOk useRedis s)
    (hunique : ∀ t₁ ∈ s.issued, ∀ t₂ ∈ s.issued, t₁.state = t₂.state → t₁ = t₂)
    (m : TicketMoment) {call : OIDCStateCall}
    (hone : StaysInOneStateStore useRedis m.outcome (s.tick m.elapsed) call)
    {p : StatePresentation} (hp : (call.exec useRedis m s).2 = .inl (.takeLocal p)) :
    StateCovered (call.exec useRedis m s).1 p := by
  cases call with
  | request r =>
    obtain ⟨hmemory, hclock⟩ := stateRequest_memory useRedis m.outcome (s.tick m.elapsed) r
    cases r with
    | issue pod providerID pkceVerifier state =>
      exfalso
      simp only [OIDCStateCall.exec, OIDCStateRequest.exec] at hp
      by_cases hask : (useRedis && !(s.tick m.elapsed).isOpen pod) = true
      · simp only [if_pos hask] at hp
        cases houtcome : m.outcome <;> simp [houtcome] at hp
      · simp only [if_neg hask] at hp
        cases hp
    | callback pod providerID state =>
      have hcovered := callback_covered (h.tick m.elapsed) hunique pod providerID state m.outcome
        hone hp
      exact hcovered.mono hclock.ge hmemory
  | storeLocal t => cases hp
  | takeLocal q => cases hp

/-- What a statement takes out of the memory is not what another call waits for. -/
theorem stateExec_covers (h : StatesOk useRedis s)
    (hunique : ∀ t₁ ∈ s.issued, ∀ t₂ ∈ s.issued, t₁.state = t₂.state → t₁ = t₂)
    (m : TicketMoment) (call : OIDCStateCall) {q : StatePresentation}
    (hq : StateCallOk s (.inl (.takeLocal q))) (hcovered : StateCovered s q)
    (hleaves : ∀ p t, call = .takeLocal p → q.IsPromised t → q.pod = p.pod →
      q.state = p.state → ∀ e ∈ s.memory, e.pod = p.pod → e.state = p.state →
        e.entry.expiresAt < (s.tick m.elapsed).clock) :
    StateCovered (call.exec useRedis m s).1 q := by
  have htick := h.tick m.elapsed
  have hcovered' : StateCovered (s.tick m.elapsed) q := hcovered.mono (s.le_tick m.elapsed) rfl
  cases call with
  | request r =>
    obtain ⟨hmemory, hclock⟩ := stateRequest_memory useRedis m.outcome (s.tick m.elapsed) r
    exact hcovered'.mono hclock.ge hmemory
  | storeLocal t =>
    intro t' hpromised
    rcases hcovered' t' hpromised with hover | hheld
    · exact .inl hover
    · obtain ⟨ht', -⟩ := hq.2 t' hpromised.2.2.1
      rcases htick.inMemory_storeLocal t ht' (fun t₁ ht₁ => hunique t₁ ht₁ t' ht') hheld with
        hover | hheld
      · exact .inl hover.le
      · exact .inr hheld
  | takeLocal p =>
    intro t hpromised
    obtain ⟨-, -, hclock, -⟩ := oidcTakeLocal_frame (s.tick m.elapsed) p.pod p.state
    show t.entry.expiresAt ≤ ((s.tick m.elapsed).takeLocal p.pod p.state).1.clock ∨ _
    rw [hclock]
    rcases hcovered' t hpromised with hover | hheld
    · exact .inl hover
    obtain ⟨e, he, hpod, hstate⟩ := hheld
    obtain ⟨ht, htstate⟩ := hq.2 t hpromised.2.2.1
    by_cases hsame : e.pod = p.pod ∧ e.state = p.state
    · -- the entry is over, so the other call is promised nothing any more
      have hover := hleaves p t rfl hpromised
        (hpromised.2.2.2.symm.trans (hpod.symm.trans hsame.1))
        (htstate.symm.trans (hstate.symm.trans hsame.2)) e he hsame.1 hsame.2
      obtain ⟨t', ht', -, hstate', hentry⟩ := h.memory e he
      have heq : t' = t := hunique t' ht' t ht (hstate'.trans hstate)
      rw [← hentry, heq] at hover
      exact .inl hover.le
    · refine .inr ?_
      obtain ⟨-, hcase⟩ | ⟨e', -, -, -, hcase⟩ :=
        oidcTakeLocal_cases (s.tick m.elapsed) p.pod p.state
      · show OIDCStore.InMemory ((s.tick m.elapsed).takeLocal p.pod p.state).1 t
        rw [hcase]
        exact ⟨e, he, hpod, hstate⟩
      · show OIDCStore.InMemory ((s.tick m.elapsed).takeLocal p.pod p.state).1 t
        rw [hcase]
        exact ⟨e, Table.mem_deleteWhere.mpr ⟨he, by simpa using hsame⟩, hpod, hstate⟩

end Statements

/-! ## The books -/

/-- What a statement adds to the states issued and the copies there are. -/
inductive StateEffect (s : OIDCStore) (call : OIDCStateCall) (s' : OIDCStore) :
    OIDCStateCall ⊕ OIDCStateAnswer → Prop
  | waits (rest : OIDCStateCall) (hdraw : drawingState (.inl rest) = drawingState (.inl call))
      (hissued : s'.issued = s.issued) (hcopies : ∀ state, s'.copies state ≤ s.copies state) :
      StateEffect s call s' (.inl rest)
  | issues (t : DrawnState) (hdraw : drawingState (.inl call) = some t.state)
      (hissued : s'.issued = s.issued ++ [t])
      (hcopies : ∀ state, s'.copies state ≤ s.copies state + if t.state = state then 1 else 0) :
      StateEffect s call s' (.inr (.issued t.state))
  | consumes (p : StatePresentation) (answer : Option OIDCState)
      (hdraw : drawingState (.inl call) = none) (hissued : s'.issued = s.issued)
      (hcopies : ∀ state, s'.copies state +
        (if p.state = state ∧ answer.isSome then 1 else 0) ≤ s.copies state) :
      StateEffect s call s' (.inr (.consumed p answer))

theorem stateExec_effect (useRedis : Bool) (m : TicketMoment) (s : OIDCStore)
    (call : OIDCStateCall)
    (hone : StaysInOneStateStore useRedis m.outcome (s.tick m.elapsed) call) :
    StateEffect s call (call.exec useRedis m s).1 (call.exec useRedis m s).2 := by
  cases call with
  | request r =>
    cases r with
    | issue pod providerID pkceVerifier state =>
      simp only [OIDCStateCall.exec, OIDCStateRequest.exec]
      by_cases hask : (useRedis && !(s.tick m.elapsed).isOpen pod) = true
      · simp only [if_pos hask]
        obtain ⟨huse, hclosed⟩ : useRedis = true ∧ (s.tick m.elapsed).isOpen pod = false := by
          simpa using hask
        cases houtcome : m.outcome with
        | ok | retried => exact .issues ⟨pod, state, _, _, _⟩ rfl rfl (copies_set _ _)
        | failBefore => exact .waits _ rfl rfl fun _ => Nat.le_refl _
        | failAfter =>
          rcases hone huse with hopen | hne
          · rw [hclosed] at hopen
            cases hopen
          · exact absurd houtcome hne
      · simp only [if_neg hask]
        exact .waits _ rfl rfl fun _ => Nat.le_refl _
    | callback pod providerID state =>
      have hdel := copies_del (s.tick m.elapsed) state
      simp only [OIDCStateCall.exec, OIDCStateRequest.exec]
      by_cases hask : (useRedis && !(s.tick m.elapsed).isOpen pod) = true
      · simp only [if_pos hask]
        cases m.outcome with
        | ok =>
          cases hget : (s.tick m.elapsed).get state with
          | none => exact .waits _ rfl rfl hdel
          | some entry =>
            simp only []
            generalize (if entry.expiresAt < _ then none else some entry) = answer
            refine .consumes _ _ rfl rfl fun state' => ?_
            refine Nat.le_trans (Nat.add_le_add_left ?_ _) (copies_del_of_get hget state')
            show (if state = state' ∧ answer.isSome = true then 1 else 0) ≤ _
            by_cases hsame : state = state'
            · rw [if_pos hsame]
              split <;> omega
            · rw [if_neg fun h => hsame h.1]
              exact Nat.zero_le _
        | retried => exact .waits _ rfl rfl hdel
        | failBefore => exact .waits _ rfl rfl fun _ => Nat.le_refl _
        | failAfter => exact .waits _ rfl rfl hdel
      · simp only [if_neg hask]
        exact .waits _ rfl rfl fun _ => Nat.le_refl _
  | storeLocal t => exact .issues t rfl rfl (copies_storeLocal (s.tick m.elapsed) t)
  | takeLocal p =>
    obtain ⟨hissued, -⟩ := oidcTakeLocal_frame (s.tick m.elapsed) p.pod p.state
    exact .consumes _ _ rfl hissued (copies_takeLocal (s.tick m.elapsed) p.pod p.state)

/-- 1 for an `issueOIDCState` that has drawn the state. -/
def stateDrawWeight (state : String) (c : OIDCStateCall ⊕ OIDCStateAnswer) : Nat :=
  if drawingState c = some state then 1 else 0

/-- 1 for a call that is about to store the state, or has accepted it. -/
def stateCopyWeight (state : String) (c : OIDCStateCall ⊕ OIDCStateAnswer) : Nat :=
  stateDrawWeight state c + if acceptsState state c then 1 else 0

def issuedStateCount (state : String) (s : OIDCStore) : Nat := s.issued.countP (·.state = state)

section Statements

variable {useRedis : Bool} {m : TicketMoment} {s : OIDCStore} {call : OIDCStateCall}

/-- An `issueOIDCState` keeps its state until it returns it. -/
theorem stateExec_draws
    (hone : StaysInOneStateStore useRedis m.outcome (s.tick m.elapsed) call) (state : String) :
    stateDrawWeight state (call.exec useRedis m s).2 +
        issuedStateCount state (call.exec useRedis m s).1 ≤
      stateDrawWeight state (.inl call) + issuedStateCount state s := by
  have heffect := stateExec_effect useRedis m s call hone
  generalize call.exec useRedis m s = r at heffect ⊢
  obtain ⟨s', c⟩ := r
  simp only [issuedStateCount]
  cases heffect with
  | waits rest hdraw hissued _ =>
    exact Nat.le_of_eq (by rw [hissued, stateDrawWeight, stateDrawWeight, hdraw])
  | issues t hdraw hissued _ =>
    rw [hissued, List.countP_append, List.countP_singleton, stateDrawWeight, stateDrawWeight,
      hdraw]
    by_cases hstate : t.state = state
    · simp [hstate, drawingState, Nat.add_comm]
    · simp [hstate, drawingState]
  | consumes p answer _ hissued _ =>
    rw [hissued]
    exact Nat.add_le_add_right (Nat.zero_le _) _

/-- No statement makes a second copy of a state. -/
theorem stateExec_copies
    (hone : StaysInOneStateStore useRedis m.outcome (s.tick m.elapsed) call) (state : String) :
    stateCopyWeight state (call.exec useRedis m s).2 + (call.exec useRedis m s).1.copies state ≤
      stateCopyWeight state (.inl call) + s.copies state := by
  have heffect := stateExec_effect useRedis m s call hone
  generalize call.exec useRedis m s = r at heffect ⊢
  obtain ⟨s', c⟩ := r
  simp only [stateCopyWeight, stateDrawWeight]
  cases heffect with
  | waits rest hdraw _ hcopies =>
    rw [hdraw]
    exact Nat.add_le_add_left (hcopies state) _
  | issues t hdraw _ hcopies =>
    have hle : s'.copies state ≤ _ := hcopies state
    rw [hdraw]
    simp only [drawingState, acceptsState, Option.some.injEq, reduceCtorEq, Bool.false_eq_true,
      if_false]
    omega
  | consumes p answer hdraw _ hcopies =>
    have hle : s'.copies state + _ ≤ _ := hcopies state
    rw [hdraw]
    simp only [drawingState, acceptsState, decide_eq_true_eq, reduceCtorEq, Bool.false_eq_true,
      if_false]
    omega

end Statements

/-! ## The runs -/

/-- Every process has started and no state has been issued. -/
def oidcStart (now : Time) : System OIDCStore OIDCStateCall OIDCStateAnswer :=
  ⟨{ clock := now }, []⟩

structure StatesSystemOk (useRedis : Bool) (s : System OIDCStore OIDCStateCall OIDCStateAnswer) :
    Prop where
  holds : Program.Holds (StatesOk useRedis) StateCallOk s
  covered : ∀ (i : Nat) p, s.calls[i]? = some (.inl (.takeLocal p)) → StateCovered s.shared p
  drawn : ∀ state,
    Program.weight (stateDrawWeight state) s.calls + issuedStateCount state s.shared ≤ 1
  copies : ∀ state, Program.weight (stateCopyWeight state) s.calls + s.shared.copies state ≤ 1

theorem oidcStart_ok (useRedis : Bool) (now : Time) :
    StatesSystemOk useRedis (oidcStart now) := by
  refine ⟨⟨StatesOk.start useRedis now, ?_⟩, ?_, ?_, ?_⟩
  · intro c hc
    cases hc
  · intro i p hp
    cases hp
  · intro state
    exact Nat.zero_le 1
  · intro state
    exact Nat.zero_le 1

/-- A state names one call of `issueOIDCState`. -/
theorem StatesSystemOk.unique {useRedis : Bool}
    {s : System OIDCStore OIDCStateCall OIDCStateAnswer} (h : StatesSystemOk useRedis s) :
    ∀ t₁ ∈ s.shared.issued, ∀ t₂ ∈ s.shared.issued, t₁.state = t₂.state → t₁ = t₂ := by
  intro t₁ ht₁ t₂ ht₂ hstate
  have hdrawn := h.drawn t₂.state
  have hlength : (s.shared.issued.filter (·.state = t₂.state)).length ≤ 1 := by
    rw [← List.countP_eq_length_filter]
    simp only [issuedStateCount] at hdrawn
    omega
  have hmem₁ : t₁ ∈ s.shared.issued.filter (·.state = t₂.state) := by simp [ht₁, hstate]
  have hmem₂ : t₂ ∈ s.shared.issued.filter (·.state = t₂.state) := by simp [ht₂]
  obtain ⟨t, ht⟩ := List.length_eq_one_iff.mp
    (Nat.le_antisymm hlength (List.length_pos_of_mem hmem₁))
  rw [ht, List.mem_singleton] at hmem₁ hmem₂
  rw [hmem₁, hmem₂]

/-- The start of an `issueOIDCState` with a new state. -/
theorem StatesSystemOk.fresh {useRedis : Bool}
    {s : System OIDCStore OIDCStateCall OIDCStateAnswer} (h : StatesSystemOk useRedis s)
    {pod : Nat} {providerID pkceVerifier state : String}
    (hnew : DrawsNewState s (.begin (.issue pod providerID pkceVerifier state))) :
    Program.weight (stateDrawWeight state) s.calls + issuedStateCount state s.shared = 0 ∧
      Program.weight (stateCopyWeight state) s.calls + s.shared.copies state = 0 := by
  have hdraw : ∀ c ∈ s.calls, stateDrawWeight state c = 0 :=
    fun c hc => if_neg (hnew.2 c hc)
  have hissued : issuedStateCount state s.shared = 0 :=
    List.countP_eq_zero.mpr fun t ht => by simpa using hnew.1 t ht
  have hcopy : ∀ c ∈ s.calls, stateCopyWeight state c = 0 := by
    intro c hc
    rw [stateCopyWeight, hdraw c hc, if_neg]
    -- what has been accepted has been issued
    intro haccepts
    match c, hc, haccepts with
    | .inr (.consumed p (some entry)), hc, haccepts =>
      obtain ⟨t, ht, hstate, -⟩ := (h.holds.calls _ hc).1 entry rfl
      have hp : p.state = state := by simpa [acceptsState] using haccepts
      exact hnew.1 t ht (hstate.trans hp)
    | .inr (.consumed p none), _, haccepts => simp [acceptsState] at haccepts
  have hredis : s.shared.redis.countP (·.state = state) = 0 := by
    refine List.countP_eq_zero.mpr fun k hk => ?_
    obtain ⟨t, ht, hstate, -⟩ := h.holds.shared.redis k hk
    simpa [← hstate] using hnew.1 t ht
  have hmemory : s.shared.memory.countP (·.state = state) = 0 := by
    refine List.countP_eq_zero.mpr fun e he => ?_
    obtain ⟨t, ht, -, hstate, -⟩ := h.holds.shared.memory e he
    simpa [← hstate] using hnew.1 t ht
  have hzero : ∀ w : OIDCStateCall ⊕ OIDCStateAnswer → Nat, (∀ c ∈ s.calls, w c = 0) →
      Program.weight w s.calls = 0 := by
    intro w hw
    refine List.sum_eq_zero fun n hn => ?_
    obtain ⟨c, hc, rfl⟩ := List.mem_map.mp hn
    exact hw c hc
  rw [hzero _ hdraw, hzero _ hcopy, hissued, OIDCStore.copies, hredis, hmemory]
  exact ⟨rfl, rfl⟩

theorem StatesSystemOk.begin {useRedis : Bool}
    {s : System OIDCStore OIDCStateCall OIDCStateAnswer} (h : StatesSystemOk useRedis s)
    (r : OIDCStateRequest) (hnew : DrawsNewState s (.begin r)) :
    StatesSystemOk useRedis ((oidcStates useRedis).step s (.begin r)) := by
  have hstep : (oidcStates useRedis).step s (.begin r) =
      { s with calls := s.calls ++ [.inl (.request r)] } := rfl
  have hweights : ∀ state,
      Program.weight (stateDrawWeight state) (s.calls ++ [.inl (.request r)]) +
          issuedStateCount state s.shared ≤ 1 ∧
        Program.weight (stateCopyWeight state) (s.calls ++ [.inl (.request r)]) +
          s.shared.copies state ≤ 1 := by
    intro state
    have hdrawn := h.drawn state
    have hcopies := h.copies state
    rw [Program.weight_append, Program.weight_append]
    by_cases hdraw : drawingState (.inl (.request r)) = some state
    · cases r with
      | callback pod providerID state => cases hdraw
      | issue pod providerID pkceVerifier state' =>
        cases hdraw
        obtain ⟨hfresh, hnone⟩ := h.fresh hnew
        simp only [Program.weight, List.map_cons, List.map_nil, List.sum_cons, List.sum_nil,
          stateDrawWeight, stateCopyWeight, drawingState, acceptsState] at *
        simp
        omega
    · have hzero : stateDrawWeight state (.inl (.request r)) = 0 := if_neg hdraw
      have hzero' : stateCopyWeight state (.inl (.request r)) = 0 := by
        rw [stateCopyWeight, hzero]
        rfl
      simp only [Program.weight, List.map_cons, List.map_nil, List.sum_cons, List.sum_nil, hzero,
        hzero'] at *
      omega
  rw [hstep]
  refine ⟨Program.holds_step (oidcStates useRedis) s (.begin r) h.holds (fun _ _ => trivial)
    (fun i t k hm => by cases hm), ?_, fun state => (hweights state).1,
    fun state => (hweights state).2⟩
  intro i p hp
  rcases List.mem_append.mp (List.mem_of_getElem? hp) with hmem | hmem
  · obtain ⟨j, hj⟩ := List.getElem?_of_mem hmem
    exact h.covered j p hj
  · cases List.mem_singleton.mp hmem

theorem StatesSystemOk.step {useRedis : Bool}
    {s : System OIDCStore OIDCStateCall OIDCStateAnswer} (h : StatesSystemOk useRedis s)
    (m : Move OIDCStateRequest TicketMoment) (hnew : DrawsNewState s m)
    (hone : KeepsOneStateStore useRedis s m) :
    StatesSystemOk useRedis ((oidcStates useRedis).step s m) := by
  obtain ⟨r, rfl, -⟩ | ⟨i, t, call, rfl, hcall, hs⟩ | hs := (oidcStates useRedis).step_cases s m
  · exact h.begin r hnew
  · obtain ⟨hstays, hleaves⟩ := hone call hcall
    have hunique := h.unique
    have hown : StateCallOk s.shared (.inl call) :=
      h.holds.calls _ (List.mem_of_getElem? hcall)
    have hkeeps : StateKeeps useRedis s.shared (call.exec useRedis t s.shared) := by
      refine stateExec_keeps h.holds.shared hunique t hown ?_ hstays
      rintro p rfl
      exact h.covered i p hcall
    refine ⟨?_, ?_, fun state => ?_, fun state => ?_⟩
    · refine Program.holds_step (oidcStates useRedis) s (.advance i t) h.holds
        (fun r hr => by cases hr) ?_
      intro i' t' call' hm hcall'
      cases hm
      rw [hcall] at hcall'
      cases hcall'
      exact hkeeps
    · rw [hs]
      intro j p hp
      rw [System.put_calls, List.getElem?_set] at hp
      rw [System.put_shared]
      split at hp
      · split at hp
        · exact stateExec_covered h.holds.shared hunique t hstays (Option.some.inj hp)
        · cases hp
      · next hne =>
        have hq : StateCallOk s.shared (.inl (.takeLocal p)) :=
          h.holds.calls _ (List.mem_of_getElem? hp)
        refine stateExec_covers h.holds.shared hunique t call hq (h.covered j p hp) ?_
        rintro q t' rfl
        exact hleaves j p t' (Ne.symm hne) hp
    · rw [hs]
      have hdrawn := h.drawn state
      have hdraws := stateExec_draws (s := s.shared) hstays state
      have hset := Program.weight_set (stateDrawWeight state) hcall
        (call.exec useRedis t s.shared).2
      simp only [System.put_calls, System.put_shared, oidcStates]
      omega
    · rw [hs]
      have hcopies := h.copies state
      have hmade := stateExec_copies (s := s.shared) hstays state
      have hset := Program.weight_set (stateCopyWeight state) hcall
        (call.exec useRedis t s.shared).2
      simp only [System.put_calls, System.put_shared, oidcStates]
      omega
  · rw [hs]
    exact h

theorem StatesSystemOk.safe {useRedis : Bool}
    {s : System OIDCStore OIDCStateCall OIDCStateAnswer} (h : StatesSystemOk useRedis s) :
    OIDCStatesSafe s where
  once state := by
    have hcopies := h.copies state
    have hcount : s.calls.countP (acceptsState state) ≤
        Program.weight (stateCopyWeight state) s.calls := by
      rw [← Program.weight_eq_countP]
      exact Program.weight_le_weight (fun _ => Nat.le_add_left _ _) s.calls
    omega
  inTime p entry hmem := (h.holds.calls _ hmem).1 entry rfl
  provider p answer entry hmem hgoes := by
    rw [callbackEntry, PlainError.check_eq_ok, Option.filter_eq_some_iff] at hgoes
    obtain ⟨hanswer, hprovider⟩ := hgoes
    obtain ⟨t, ht, hstate, hentry, -⟩ := (h.holds.calls _ hmem).1 entry hanswer
    refine ⟨t, ht, hstate, hentry, ?_⟩
    have hsame : t.entry.providerID = p.providerID := by simpa [hentry] using hprovider
    exact hsame
  available p answer hmem hanswered hfirst t hissue hpod hlive :=
    (h.holds.calls _ hmem).2 t ⟨hanswered, hfirst, hissue, hpod⟩ hlive

/-- OIDC states are single-use, and the first callback in time is let through, in
every run that keeps each state in one store and leaves it to its first callback. -/
theorem oidc_states_single_use (useRedis : Bool) (now : Time)
    (moves : List (Move OIDCStateRequest TicketMoment))
    (h : Runs.Every (oidcStates useRedis).step
      (fun s m => DrawsNewState s m ∧ KeepsOneStateStore useRedis s m) (oidcStart now) moves) :
    Runs.Along (oidcStates useRedis).step OIDCStatesSafe (oidcStart now) moves := by
  have hok : Runs.Along (oidcStates useRedis).step (StatesSystemOk useRedis) (oidcStart now)
      moves :=
    Runs.along_of_every (fun _ m hs hm => hs.step m hm.1 hm.2) (oidcStart_ok useRedis now) h
  exact hok.mono fun _ hs => hs.safe

/-- A state through Redis. -/
theorem oidc_states_single_use_redis :
    Runs.Along (oidcStates true).step OIDCStatesSafe (oidcStart 0)
      [.begin (.issue 0 "okta" "v" "t"), .advance 0 ⟨0, .ok⟩, .begin (.callback 0 "okta" "t"),
        .advance 1 ⟨0, .ok⟩] := by
  refine oidc_states_single_use true 0 _ ⟨⟨?_, trivial⟩, ⟨trivial, ?_⟩, ⟨trivial, trivial⟩,
    ⟨trivial, ?_⟩, trivial⟩
  · simp [DrawsNewState, oidcStart]
  · intro call hcall
    cases hcall
    exact ⟨fun _ => .inr (by decide), trivial⟩
  · intro call hcall
    cases hcall
    exact ⟨fun _ hopen => absurd hopen (by decide), trivial⟩

/-- The reply to a `SET` is lost, so the state is in both stores. -/
def lostStateReplyRun : List (Move OIDCStateRequest TicketMoment) :=
  [.begin (.issue 0 "okta" "v" "t"), .advance 0 ⟨0, .failAfter⟩, .advance 0 ⟨0, .ok⟩,
    .begin (.callback 0 "okta" "t"), .advance 1 ⟨0, .ok⟩,
    .begin (.callback 0 "okta" "t"), .advance 2 ⟨0, .ok⟩, .advance 2 ⟨0, .ok⟩]

/-- Redis has the state, and five callbacks that fail there open the circuit. -/
def openCircuitRun : List (Move OIDCStateRequest TicketMoment) :=
  [.begin (.issue 0 "okta" "v" "t"), .advance 0 ⟨0, .ok⟩,
    .begin (.callback 0 "okta" "x"), .advance 1 ⟨0, .failBefore⟩,
    .begin (.callback 0 "okta" "x"), .advance 2 ⟨0, .failBefore⟩,
    .begin (.callback 0 "okta" "x"), .advance 3 ⟨0, .failBefore⟩,
    .begin (.callback 0 "okta" "x"), .advance 4 ⟨0, .failBefore⟩,
    .begin (.callback 0 "okta" "x"), .advance 5 ⟨0, .failBefore⟩,
    .begin (.callback 0 "okta" "t"), .advance 6 ⟨0, .ok⟩, .advance 6 ⟨0, .ok⟩]

/-- A state is accepted twice after a lost reply, and rejected at its first
callback when the circuit is open, without a call on Redis. -/
theorem oidc_states_not_single_use :
    (Runs.Every (oidcStates true).step DrawsNewState (oidcStart 0) lostStateReplyRun ∧
      ¬ Runs.Along (oidcStates true).step OIDCStatesSafe (oidcStart 0) lostStateReplyRun) ∧
    Runs.Every (oidcStates true).step DrawsNewState (oidcStart 0) openCircuitRun ∧
      ¬ Runs.Along (oidcStates true).step OIDCStatesSafe (oidcStart 0) openCircuitRun := by
  refine ⟨⟨?_, fun h => ?_⟩, ?_, fun h => ?_⟩
  · simp [lostStateReplyRun, DrawsNewState, oidcStart]
  · have htwice : ((Runs.run (oidcStates true).step (oidcStart 0) lostStateReplyRun).calls.countP
        (acceptsState "t")) = 2 := by decide
    have honce := h.last.once "t"
    omega
  · simp [openCircuitRun, DrawsNewState, oidcStart]
  · have hrejected := h.last.available
      ⟨0, "t", "okta", 0, true, true, some ⟨0, "t", "okta", "v", 0⟩⟩ none
    have hmem : .inr (.consumed
        ⟨0, "t", "okta", 0, true, true, some ⟨0, "t", "okta", "v", 0⟩⟩ none) ∈
        (Runs.run (oidcStates true).step (oidcStart 0) openCircuitRun).calls :=
      List.mem_of_getElem? (i := 6) (by rfl)
    cases hrejected hmem rfl rfl _ rfl rfl (by decide)

end IronStock

import IronStock.TicketStores

/-!
# When websocket tickets are one-time

A ticket is safe as long as it is in one store only and `Consume` looks into
that store. `Issue` breaks the first when the reply to its `SET` is lost, and
`Consume` the second when Redis answers for a ticket that only the memory of
the process holds. Runs without these two moves are safe.
-/
namespace IronStock

open Interleaving

/-! ## What one run promises -/

/-- The answer accepts the ticket. -/
def acceptsTicket (token : String) : TicketCall ⊕ TicketAnswer → Bool
  | .inr (.consumed p answer) => p.token = token ∧ answer.isSome
  | _ => false

/-- Each ticket is accepted once, for its user, within its lifetime; and the
first presentation in time, to the process that issued it, is accepted if the
call on Redis was answered. -/
structure TicketsSafe (s : System TicketState TicketCall TicketAnswer) : Prop where
  once : ∀ token, s.calls.countP (acceptsTicket token) ≤ 1
  owner : ∀ p userID, .inr (.consumed p (some userID)) ∈ s.calls →
    ∃ ticket ∈ s.shared.issued, ticket.token = p.token ∧ ticket.userID = userID ∧
      ticket.time ≤ p.time ∧ p.time ≤ ticket.time + ticketTTL
  available : ∀ p answer, .inr (.consumed p answer) ∈ s.calls → p.answered = true →
    p.first = true → ∀ ticket, p.issue = some ticket → ticket.pod = p.pod →
      p.time < ticket.time + ticketTTL → answer = some ticket.userID

/-! ## The moves that keep it -/

/-- The ticket of an `Issue` that has not returned. -/
def drawing : TicketCall ⊕ TicketAnswer → Option String
  | .inl (.request (.issue _ _ token)) => some token
  | .inl (.storeLocal _ _ token) => some token
  | _ => none

/-- No `Issue` has drawn this ticket. -/
def NewDraw (s : System TicketState TicketCall TicketAnswer) (token : String) : Prop :=
  (∀ ticket ∈ s.shared.issued, ticket.token ≠ token) ∧ ∀ c ∈ s.calls, drawing c ≠ some token

/-- The random bytes of an `Issue` are new ones. -/
def DrawsNew (s : System TicketState TicketCall TicketAnswer) :
    Move TicketRequest TicketMoment → Prop
  | .begin (.issue _ _ token) => NewDraw s token
  | _ => True

/-- `Issue` does not lose the reply to a `SET` that took effect, and `Consume`
is not answered by Redis at the first presentation of a live ticket that is in
the memory of the process. -/
def StaysInOneStore (useRedis : Bool) (o : RedisOutcome) (s : TicketState) : TicketCall → Prop
  | .request (.issue pod _ _) => useRedis = true → s.isOpen pod = true ∨ o ≠ .failAfter
  | .request (.consume pod token) =>
    useRedis = true → s.isOpen pod = false → o = .ok → token ∉ s.presented →
      ∀ e ∈ s.tickets, e.pod = pod → e.token = token → e.expiresAt ≤ s.clock
  | _ => True

def KeepsOneStore (useRedis : Bool) (s : System TicketState TicketCall TicketAnswer) :
    Move TicketRequest TicketMoment → Prop
  | .begin _ => True
  | .advance i m => ∀ call, s.calls[i]? = some (.inl call) →
    StaysInOneStore useRedis m.outcome (s.shared.tick m.elapsed) call

/-! ## The calls -/

/-- The ticket an answer accepted was issued to that user, not too long ago. -/
def AcceptedOk (s : TicketState) (p : Presentation) (userID : String) : Prop :=
  ∃ t ∈ s.issued, t.token = p.token ∧ t.userID = userID ∧ t.time ≤ p.time ∧
    p.time ≤ t.time + ticketTTL

/-- The first presentation in time has been accepted. -/
def AvailableOk (p : Presentation) (answer : Option String) : Prop :=
  p.answered = true → p.first = true → ∀ t, p.issue = some t → t.pod = p.pod →
    p.time < t.time + ticketTTL → answer = some t.userID

def TicketCallOk (s : TicketState) : TicketCall ⊕ TicketAnswer → Prop
  | .inl (.takeLocal p) => p.answered = false ∧ p.token ∈ s.presented
  | .inr (.consumed p answer) =>
    (∀ userID, answer = some userID → AcceptedOk s p userID) ∧ AvailableOk p answer
  | _ => True

/-- Tickets stay issued and stay presented. -/
structure TicketsGrow (s s' : TicketState) : Prop where
  issued : s.issued ⊆ s'.issued
  presented : s.presented ⊆ s'.presented

theorem TicketsGrow.callOk {s s' : TicketState} (h : TicketsGrow s s')
    {c : TicketCall ⊕ TicketAnswer} (hc : TicketCallOk s c) : TicketCallOk s' c := by
  cases c with
  | inl call =>
    cases call with
    | takeLocal p => exact ⟨hc.1, h.presented hc.2⟩
    | _ => trivial
  | inr answer =>
    cases answer with
    | consumed p answer =>
      refine ⟨fun userID hanswer => ?_, hc.2⟩
      obtain ⟨t, ht, hrest⟩ := hc.1 userID hanswer
      exact ⟨t, h.issued ht, hrest⟩
    | _ => trivial

@[simp] theorem accept_issued (s : TicketState) (token : String) (answer : Option String) :
    (s.accept token answer).issued = s.issued := by
  unfold TicketState.accept
  split <;> rfl

@[simp] theorem accept_presented (s : TicketState) (token : String) (answer : Option String) :
    (s.accept token answer).presented = s.presented := by
  unfold TicketState.accept
  split <;> rfl

/-- The state a ticket is taken out of, and the state it has been taken out of. -/
structure Taken (s s' : TicketState) (token userID : String) : Prop where
  issued : ∃ t ∈ s.issued, t.token = token ∧ t.userID = userID ∧ t.time ≤ s.clock ∧
    s.clock ≤ t.time + ticketTTL
  redis : ∀ k ∈ s'.redis, k.token ≠ token
  tickets : ∀ e ∈ s'.tickets, e.token ≠ token
  accepted : token ∉ s.accepted

section Stores

variable {useRedis : Bool} {s : TicketState} {token : String}

theorem get_eq_some {userID : String} (h : s.get token = some userID) :
    ∃ k ∈ s.redis, k.token = token ∧ s.clock < k.expiresAt ∧ k.userID = userID := by
  rw [TicketState.get, Option.map_eq_some_iff] at h
  obtain ⟨k, hfind, huser⟩ := h
  have hmatch := List.find?_some hfind
  simp only [decide_eq_true_eq] at hmatch
  exact ⟨k, List.mem_of_find?_eq_some hfind, hmatch.1, hmatch.2, huser⟩

theorem get_eq_none (h : s.get token = none) {k : RedisKey} (hk : k ∈ s.redis)
    (htoken : k.token = token) : k.expiresAt ≤ s.clock := by
  rw [TicketState.get, Option.map_eq_none_iff, List.find?_eq_none] at h
  by_contra hlive
  exact h k hk (by simpa [htoken] using hlive)

/-- A value that Redis returned is a ticket that is nowhere else. -/
theorem taken_of_get (h : TicketsOk useRedis s) {userID : String}
    (hget : s.get token = some userID) : Taken s (s.del token) token userID := by
  obtain ⟨k, hk, rfl, hlive, rfl⟩ := get_eq_some hget
  obtain ⟨t, ht, htoken, huser, hexpires⟩ := h.redis k hk
  constructor
  · exact ⟨t, ht, htoken, huser, h.clock t ht, le_of_lt (hexpires ▸ hlive)⟩
  · intro k' hk'
    simpa using (Table.mem_deleteWhere.mp hk').2
  · intro e he
    exact (h.oneStore k hk e he).symm
  · intro hmem
    exact (h.accepted _ hmem).2.1 k hk rfl

theorem takeLocal_ok (h : TicketsOk useRedis s) (pod : Nat) (hpresented : token ∈ s.presented) :
    TicketsOk useRedis (s.takeLocal pod token).1 := by
  unfold TicketState.takeLocal
  split
  · exact h
  · refine h.dropLocal _ fun e _ hgone => .inl ?_
    simp only [decide_eq_true_eq] at hgone
    exact hgone.2 ▸ hpresented

theorem takeLocal_frame (s : TicketState) (pod : Nat) (token : String) :
    (s.takeLocal pod token).1.issued = s.issued ∧
      (s.takeLocal pod token).1.presented = s.presented ∧
      (s.takeLocal pod token).1.accepted = s.accepted := by
  unfold TicketState.takeLocal
  split <;> exact ⟨rfl, rfl, rfl⟩

theorem taken_of_takeLocal (h : TicketsOk useRedis s) {pod : Nat} {userID : String}
    (htake : (s.takeLocal pod token).2 = some userID) :
    Taken s (s.takeLocal pod token).1 token userID := by
  unfold TicketState.takeLocal at htake ⊢
  split at htake
  · cases htake
  · next e hfind =>
    have he := List.mem_of_find?_eq_some hfind
    have hmatch := List.find?_some hfind
    simp only [decide_eq_true_eq] at hmatch
    obtain ⟨rfl, rfl⟩ := hmatch
    obtain ⟨t, ⟨ht, htoken, huser, hexpires⟩, hpod⟩ := h.tickets e he
    simp only at htake
    split at htake
    · cases htake
    · next hlive =>
      cases htake
      constructor
      · exact ⟨t, ht, htoken, huser, h.clock t ht, hexpires ▸ not_lt.mp hlive⟩
      · exact fun k hk => h.oneStore k hk e he
      · intro e' he'
        obtain ⟨he', hkept⟩ := Table.mem_deleteWhere.mp he'
        intro heq
        -- another process has no entry for a ticket of this one
        obtain ⟨t', ⟨ht', htoken', _⟩, hpod'⟩ := h.tickets e' he'
        have hsame : t' = t := h.eq_of_token ht' ht (by rw [htoken', htoken, heq])
        have hpods : e'.pod = e.pod := by rw [← hpod', ← hpod, hsame]
        simp [heq, hpods] at hkept
      · intro hmem
        exact (h.accepted _ hmem).2.2 e he rfl

/-- A live entry of the memory is accepted. -/
theorem takeLocal_live (h : TicketsOk useRedis s) {t : IssuedTicket} (ht : t ∈ s.issued)
    (hlive : s.clock < t.time + ticketTTL)
    (hstored : ∃ e ∈ s.tickets, e.pod = t.pod ∧ e.token = t.token) :
    (s.takeLocal t.pod t.token).2 = some t.userID := by
  obtain ⟨e₀, he₀, hpod₀, htoken₀⟩ := hstored
  unfold TicketState.takeLocal
  split
  · next hnone =>
    have hnot := List.find?_eq_none.mp hnone e₀ he₀
    simp [hpod₀, htoken₀] at hnot
  · next e hfind =>
    have he := List.mem_of_find?_eq_some hfind
    have hmatch := List.find?_some hfind
    simp only [decide_eq_true_eq] at hmatch
    obtain ⟨t', ⟨ht', htoken', huser', hexpires'⟩, _⟩ := h.tickets e he
    have hsame : t' = t := h.eq_of_token ht' ht (htoken'.trans hmatch.2)
    subst hsame
    rw [hexpires']
    simp only [if_neg (not_lt.mpr (le_of_lt hlive)), huser']

theorem cleanup_ok (h : TicketsOk useRedis s) (pod : Nat) : TicketsOk useRedis (s.cleanup pod) := by
  refine h.dropLocal _ fun e _ hgone => .inr ?_
  simp only [decide_eq_true_eq] at hgone
  exact hgone.2

end Stores

/-! ## One statement -/

/-- The invariant of the state with the assertion of each call. -/
abbrev TicketKeeps (useRedis : Bool) (s : TicketState)
    (r : TicketState × (TicketCall ⊕ TicketAnswer)) : Prop :=
  Program.Keeps (TicketsOk useRedis) TicketCallOk s r

section Statements

variable {useRedis : Bool} {s s' : TicketState}

/-- A statement whose call has no assertion of its own. -/
theorem keeps_of_grow (h : TicketsOk useRedis s') (hgrow : TicketsGrow s s')
    {c : TicketCall ⊕ TicketAnswer} (hc : TicketCallOk s' c) : TicketKeeps useRedis s (s', c) :=
  ⟨h, hc, fun _ => hgrow.callOk⟩

/-- `Consume` ends: what it accepts it has taken out of the stores. -/
theorem consumed_keeps (s₀ : TicketState) (h : TicketsOk useRedis s') (hgrow : TicketsGrow s s')
    (hissued : s'.issued = s₀.issued) (haccepted : s'.accepted = s₀.accepted) {p : Presentation}
    (htime : p.time = s₀.clock) {answer : Option String}
    (htaken : ∀ userID, answer = some userID → Taken s₀ s' p.token userID)
    (havailable : AvailableOk p answer) : TicketKeeps useRedis s (consumed s' p answer) := by
  refine ⟨h.accept ?_, ⟨?_, havailable⟩, fun c => ?_⟩
  · intro hsome
    obtain ⟨userID, hanswer⟩ := Option.isSome_iff_exists.mp hsome
    have htake := htaken userID hanswer
    obtain ⟨t, ht, htoken, _⟩ := htake.issued
    exact ⟨⟨t, hissued ▸ ht, htoken⟩, htake.redis, htake.tickets, haccepted ▸ htake.accepted⟩
  · intro userID hanswer
    obtain ⟨t, ht, htoken, huser, hafter, hbefore⟩ := (htaken userID hanswer).issued
    refine ⟨t, ?_, htoken, huser, htime ▸ hafter, htime ▸ hbefore⟩
    show t ∈ (s'.accept p.token answer).issued
    rw [accept_issued, hissued]
    exact ht
  · refine (TicketsGrow.mk ?_ ?_).callOk
    · show s.issued ⊆ (s'.accept p.token answer).issued
      rw [accept_issued]
      exact hgrow.issued
    · show s.presented ⊆ (s'.accept p.token answer).presented
      rw [accept_presented]
      exact hgrow.presented

/-- A presentation whose call on Redis was not answered promises nothing. -/
theorem availableOk_of_unanswered {p : Presentation} (h : p.answered = false)
    (answer : Option String) : AvailableOk p answer :=
  fun htrue => absurd htrue (by simp [h])

/-- The ticket of a first presentation. -/
theorem presentation_issue {pod : Nat} {token : String} {answered : Bool} {t : IssuedTicket}
    (h : (s.presentation pod token answered).issue = some t) : t ∈ s.issued ∧ t.token = token :=
  ⟨List.mem_of_find?_eq_some h, by simpa using List.find?_some h⟩

theorem presentation_first {pod : Nat} {token : String} {answered : Bool}
    (h : (s.presentation pod token answered).first = true) : token ∉ s.presented := by
  simpa [TicketState.presentation] using h

/-- Redis answers at the first try. -/
theorem availableOk_of_get (h : TicketsOk useRedis s) {pod : Nat} {token : String}
    (hmemory : token ∉ s.presented →
      ∀ e ∈ s.tickets, e.pod = pod → e.token = token → e.expiresAt ≤ s.clock) :
    AvailableOk (s.presentation pod token true) (s.get token) := by
  intro _ hfirst t hissue hpod htime
  obtain ⟨ht, rfl⟩ := presentation_issue hissue
  have hunseen := presentation_first hfirst
  change s.clock < t.time + ticketTTL at htime
  cases hget : s.get t.token with
  | some userID =>
    obtain ⟨t', ht', htoken, huser, _⟩ := (taken_of_get h hget).issued
    rw [← huser, h.eq_of_token ht' ht htoken]
  | none =>
    exfalso
    rcases h.kept t ht hunseen with hover | ⟨k, hk, htoken⟩ | ⟨e, he, hpod', htoken⟩
    · exact absurd htime (not_lt.mpr hover.le)
    · obtain ⟨t', ht', htoken', _, hexpires⟩ := h.redis k hk
      have hsame : t' = t := h.eq_of_token ht' ht (htoken'.trans htoken)
      have hover := get_eq_none hget hk htoken
      rw [hexpires, hsame] at hover
      exact absurd htime (not_lt.mpr hover)
    · obtain ⟨t', ⟨ht', htoken', _, hexpires⟩, _⟩ := h.tickets e he
      have hsame : t' = t := h.eq_of_token ht' ht (htoken'.trans htoken)
      have hover := hmemory hunseen e he (hpod'.trans hpod) htoken
      rw [hexpires, hsame] at hover
      exact absurd htime (not_lt.mpr hover)

/-- Without Redis the memory answers. -/
theorem availableOk_of_takeLocal (h : TicketsOk useRedis s) (huse : useRedis = false)
    (pod : Nat) (token : String) :
    AvailableOk (s.presentation pod token true) ((s.present token).takeLocal pod token).2 := by
  intro _ hfirst t hissue hpod htime
  obtain ⟨ht, rfl⟩ := presentation_issue hissue
  change t.pod = pod at hpod
  change s.clock < t.time + ticketTTL at htime
  subst hpod
  refine takeLocal_live (h.present t.token) ht htime ?_
  rcases h.kept t ht (presentation_first hfirst) with hover | ⟨k, hk, _⟩ | hlocal
  · exact absurd htime (not_lt.mpr hover.le)
  · rw [h.noRedis huse] at hk
    cases hk
  · exact hlocal

/-- `Issue` -/
theorem issue_keeps (h : TicketsOk useRedis s) (pod : Nat) (userID token : String)
    (o : RedisOutcome) (hnew : ∀ t ∈ s.issued, t.token ≠ token)
    (hreply : useRedis = true → s.isOpen pod = true ∨ o ≠ .failAfter) :
    TicketKeeps useRedis s (TicketRequest.exec useRedis o s (.issue pod userID token)) := by
  have hissued : s.issued ⊆ (s.issue pod token userID).issued := List.subset_append_left _ _
  have hsame : TicketsGrow s s := ⟨List.Subset.refl _, List.Subset.refl _⟩
  simp only [TicketRequest.exec, TicketState.setEX]
  by_cases huse : useRedis = true
  · rw [if_pos huse]
    by_cases hopen : s.isOpen pod = true
    · simp only [if_pos hopen]
      exact keeps_of_grow h hsame trivial
    · have hset := h.setIssue huse hnew pod userID
      simp only [if_neg hopen]
      cases o with
      | ok | retried =>
        exact keeps_of_grow (hset.observed pod false) ⟨hissued, hsame.presented⟩ trivial
      | failBefore =>
        refine keeps_of_grow (h.observed pod true) ⟨hsame.issued, hsame.presented⟩ ?_
        exact trivial
      | failAfter => exact absurd rfl ((hreply huse).resolve_left hopen)
  · rw [if_neg huse]
    exact keeps_of_grow (h.localIssue hnew pod userID) ⟨hissued, hsame.presented⟩ trivial

/-- `Consume` up to its answer or the fall through. -/
theorem consume_keeps (h : TicketsOk useRedis s) (pod : Nat) (token : String) (o : RedisOutcome)
    (hmemory : useRedis = true → s.isOpen pod = false → o = .ok → token ∉ s.presented →
      ∀ e ∈ s.tickets, e.pod = pod → e.token = token → e.expiresAt ≤ s.clock) :
    TicketKeeps useRedis s (TicketRequest.exec useRedis o s (.consume pod token)) := by
  have hpresent := h.present token
  have hmem : token ∈ (s.present token).presented := List.mem_cons_self
  have hgrow : TicketsGrow s (s.present token) :=
    ⟨List.Subset.refl _, List.subset_cons_self _ _⟩
  have hdel := hpresent.del hmem
  simp only [TicketRequest.exec, TicketState.getDel]
  by_cases huse : useRedis = true
  · rw [if_pos huse]
    by_cases hopen : (s.present token).isOpen pod = true
    · have hopen' : s.isOpen pod = true := hopen
      simp only [if_pos hopen, hopen']
      exact keeps_of_grow hpresent hgrow ⟨rfl, hmem⟩
    · have hopen' : s.isOpen pod = false := Bool.not_eq_true _ ▸ hopen
      simp only [if_neg hopen, hopen']
      have hafter : TicketsGrow s (((s.present token).del token).observed pod false) :=
        ⟨hgrow.issued, hgrow.presented⟩
      cases o with
      | ok =>
        have havailable := availableOk_of_get h (hmemory huse hopen' rfl)
        have hget : (s.present token).get token = s.get token := rfl
        simp only [hget]
        cases hvalue : s.get token with
        | some userID =>
          rw [hvalue] at havailable
          have htaken := taken_of_get hpresent hvalue
          refine consumed_keeps s (hdel.observed pod false) hafter rfl rfl rfl ?_ havailable
          intro _ heq
          cases heq
          exact ⟨htaken.issued, htaken.redis, htaken.tickets, htaken.accepted⟩
        | none =>
          rw [hvalue] at havailable
          exact consumed_keeps s (hdel.observed pod false) hafter rfl rfl rfl
            (fun _ heq => by cases heq) havailable
      | retried =>
        exact consumed_keeps s (hdel.observed pod false) hafter rfl rfl rfl
          (fun _ heq => by cases heq) (availableOk_of_unanswered rfl _)
      | failBefore =>
        exact keeps_of_grow (hpresent.observed pod true) ⟨hgrow.issued, hgrow.presented⟩ ⟨rfl, hmem⟩
      | failAfter =>
        exact keeps_of_grow (hdel.observed pod true) ⟨hgrow.issued, hgrow.presented⟩ ⟨rfl, hmem⟩
  · rw [if_neg huse]
    obtain ⟨hissued, hpresented, haccepted⟩ := takeLocal_frame (s.present token) pod token
    refine consumed_keeps (s.present token) (takeLocal_ok hpresent pod hmem) ?_ hissued
      haccepted rfl (fun _ htake => taken_of_takeLocal hpresent htake)
      (availableOk_of_takeLocal h (Bool.not_eq_true _ ▸ huse) pod token)
    exact ⟨hissued ▸ hgrow.issued, hpresented ▸ hgrow.presented⟩

/-- The second half of `Consume`. -/
theorem fallback_keeps (h : TicketsOk useRedis s) {p : Presentation}
    (hp : TicketCallOk s (.inl (.takeLocal p))) :
    TicketKeeps useRedis s (consumed (s.takeLocal p.pod p.token).1 { p with time := s.clock }
      (s.takeLocal p.pod p.token).2) := by
  obtain ⟨hissued, hpresented, haccepted⟩ := takeLocal_frame s p.pod p.token
  refine consumed_keeps s (takeLocal_ok h p.pod hp.2) ?_ hissued haccepted rfl
    (fun _ htake => taken_of_takeLocal h htake) ?_
  · exact ⟨hissued ▸ List.Subset.refl _, hpresented ▸ List.Subset.refl _⟩
  · exact fun htrue => absurd htrue (by simp [hp.1])

theorem exec_keeps (h : TicketsOk useRedis s) (m : TicketMoment) {call : TicketCall}
    (hcall : TicketCallOk s (.inl call))
    (hnew : ∀ token, drawing (.inl call) = some token → ∀ t ∈ s.issued, t.token ≠ token)
    (hone : StaysInOneStore useRedis m.outcome (s.tick m.elapsed) call) :
    TicketKeeps useRedis s (call.exec useRedis m s) := by
  have htick := h.tick m.elapsed
  have hgrow : TicketsGrow s (s.tick m.elapsed) := ⟨List.Subset.refl _, List.Subset.refl _⟩
  suffices hkeeps : TicketKeeps useRedis (s.tick m.elapsed) (call.exec useRedis m s) from
    ⟨hkeeps.shared, hkeeps.own, fun c hc => hkeeps.others c (hgrow.callOk hc)⟩
  cases call with
  | request r =>
    cases r with
    | issue pod userID token =>
      exact issue_keeps htick pod userID token m.outcome (hnew token rfl) hone
    | consume pod token => exact consume_keeps htick pod token m.outcome hone
    | cleanup pod =>
      have hcleanup : TicketsGrow (s.tick m.elapsed) ((s.tick m.elapsed).cleanup pod) :=
        ⟨List.Subset.refl _, List.Subset.refl _⟩
      exact keeps_of_grow (cleanup_ok htick pod) hcleanup trivial
  | storeLocal pod userID token =>
    have hissue : TicketsGrow (s.tick m.elapsed)
        (((s.tick m.elapsed).storeLocal pod token userID).issue pod token userID) :=
      ⟨List.subset_append_left _ _, List.Subset.refl _⟩
    exact keeps_of_grow (htick.localIssue (hnew token rfl) pod userID) hissue trivial
  | takeLocal p => exact fallback_keeps htick (hgrow.callOk hcall)

end Statements

/-! ## The books -/

/-- What a statement of a call adds to the tickets issued and accepted. -/
inductive TicketEffect (s : TicketState) (call : TicketCall) (s' : TicketState) :
    TicketCall ⊕ TicketAnswer → Prop
  | waits (rest : TicketCall) (hdraw : drawing (.inl rest) = drawing (.inl call))
      (hissued : s'.issued = s.issued) (haccepted : s'.accepted = s.accepted) :
      TicketEffect s call s' (.inl rest)
  | issues (t : IssuedTicket) (hdraw : drawing (.inl call) = some t.token)
      (hissued : s'.issued = s.issued ++ [t]) (haccepted : s'.accepted = s.accepted) :
      TicketEffect s call s' (.inr (.issued t.token))
  | consumes (p : Presentation) (answer : Option String) (hissued : s'.issued = s.issued)
      (haccepted : s'.accepted = if answer.isSome then p.token :: s.accepted else s.accepted) :
      TicketEffect s call s' (.inr (.consumed p answer))
  | cleans (hissued : s'.issued = s.issued) (haccepted : s'.accepted = s.accepted) :
      TicketEffect s call s' (.inr .cleaned)

/-- `Consume` enters what it accepts, and nothing else. -/
theorem consumed_effect (s : TicketState) {s' : TicketState} (call : TicketCall)
    (hissued : s'.issued = s.issued) (haccepted : s'.accepted = s.accepted) (p : Presentation)
    (answer : Option String) :
    TicketEffect s call (consumed s' p answer).1 (consumed s' p answer).2 := by
  refine .consumes p answer ((accept_issued s' p.token answer).trans hissued) ?_
  show (s'.accept p.token answer).accepted = _
  rw [TicketState.accept, ← haccepted]
  split <;> rfl

theorem exec_effect (useRedis : Bool) (m : TicketMoment) (s : TicketState) (call : TicketCall) :
    TicketEffect s call (call.exec useRedis m s).1 (call.exec useRedis m s).2 := by
  cases call with
  | request r =>
    cases r with
    | issue pod userID token =>
      have hissue : ∀ s' : TicketState, s'.issued = s.issued → s'.accepted = s.accepted →
          TicketEffect s (.request (.issue pod userID token)) (s'.issue pod token userID)
            (.inr (.issued token)) := by
        intro s' hissued haccepted
        refine .issues ⟨pod, token, userID, s'.clock⟩ rfl ?_ haccepted
        rw [← hissued]
        rfl
      simp only [TicketCall.exec, TicketRequest.exec, TicketState.setEX]
      by_cases huse : useRedis = true
      · rw [if_pos huse]
        by_cases hopen : (s.tick m.elapsed).isOpen pod = true
        · simp only [if_pos hopen]
          exact .waits _ rfl rfl rfl
        · simp only [if_neg hopen]
          cases m.outcome with
          | ok | retried => exact hissue _ rfl rfl
          | failBefore | failAfter => exact .waits _ rfl rfl rfl
      · rw [if_neg huse]
        exact hissue _ rfl rfl
    | consume pod token =>
      have hconsume := @consumed_effect s
        ((((s.tick m.elapsed).present token).del token).observed pod false)
        (.request (.consume pod token))
      simp only [TicketCall.exec, TicketRequest.exec, TicketState.getDel]
      by_cases huse : useRedis = true
      · rw [if_pos huse]
        by_cases hopen : ((s.tick m.elapsed).present token).isOpen pod = true
        · simp only [if_pos hopen]
          exact .waits _ rfl rfl rfl
        · simp only [if_neg hopen]
          cases m.outcome with
          | ok =>
            cases ((s.tick m.elapsed).present token).get token with
            | some userID | none => exact hconsume rfl rfl _ _
          | retried => exact hconsume rfl rfl _ _
          | failBefore | failAfter => exact .waits _ rfl rfl rfl
      · rw [if_neg huse]
        obtain ⟨hissued, _, haccepted⟩ :=
          takeLocal_frame ((s.tick m.elapsed).present token) pod token
        exact consumed_effect s _ hissued haccepted _ _
    | cleanup pod => exact .cleans rfl rfl
  | storeLocal pod userID token =>
    exact .issues ⟨pod, token, userID, (s.tick m.elapsed).clock⟩ rfl rfl rfl
  | takeLocal p =>
    obtain ⟨hissued, _, haccepted⟩ := takeLocal_frame (s.tick m.elapsed) p.pod p.token
    exact consumed_effect s _ hissued haccepted _ _

/-- 1 for an answer that accepts the ticket. -/
def acceptWeight (token : String) (c : TicketCall ⊕ TicketAnswer) : Nat :=
  if acceptsTicket token c then 1 else 0

/-- 1 for an `Issue` that has drawn the ticket. -/
def drawWeight (token : String) (c : TicketCall ⊕ TicketAnswer) : Nat :=
  if drawing c = some token then 1 else 0

def issuedCount (token : String) (s : TicketState) : Nat := s.issued.countP (·.token = token)

/-- Every accepting answer is in the books. -/
theorem exec_accepts (useRedis : Bool) (m : TicketMoment) (s : TicketState) (call : TicketCall)
    (token : String) :
    acceptWeight token (call.exec useRedis m s).2 + s.accepted.count token =
      acceptWeight token (.inl call) + (call.exec useRedis m s).1.accepted.count token := by
  have hnone : ∀ call, acceptWeight token (.inl call) = 0 := fun _ => rfl
  rw [hnone]
  have heffect := exec_effect useRedis m s call
  generalize call.exec useRedis m s = r at heffect ⊢
  obtain ⟨s', c⟩ := r
  cases heffect with
  | waits rest _ _ haccepted => rw [haccepted, hnone]
  | issues t _ _ haccepted => rw [haccepted]; rfl
  | cleans _ haccepted => rw [haccepted]; rfl
  | consumes p answer _ haccepted =>
    rw [haccepted]
    cases answer with
    | none => simp [acceptWeight, acceptsTicket]
    | some userID =>
      by_cases htoken : p.token = token
      · simp [acceptWeight, acceptsTicket, htoken, Nat.add_comm]
      · simp [acceptWeight, acceptsTicket, htoken]

/-- An `Issue` keeps its ticket until it returns it. -/
theorem exec_draws (useRedis : Bool) (m : TicketMoment) (s : TicketState) (call : TicketCall)
    (token : String) :
    drawWeight token (call.exec useRedis m s).2 +
        issuedCount token (call.exec useRedis m s).1 ≤
      drawWeight token (.inl call) + issuedCount token s := by
  have heffect := exec_effect useRedis m s call
  generalize call.exec useRedis m s = r at heffect ⊢
  obtain ⟨s', c⟩ := r
  simp only [issuedCount]
  cases heffect with
  | waits rest hdraw hissued _ =>
    exact Nat.le_of_eq (by rw [hissued, drawWeight, drawWeight, hdraw])
  | issues t hdraw hissued _ =>
    rw [hissued, List.countP_append, List.countP_singleton, drawWeight, drawWeight, hdraw]
    by_cases htoken : t.token = token
    · simp [htoken, drawing, Nat.add_comm]
    · simp [htoken, drawing]
  | consumes p answer hissued _ =>
    rw [hissued]
    exact Nat.add_le_add_right (Nat.zero_le _) _
  | cleans hissued _ =>
    rw [hissued]
    exact Nat.add_le_add_right (Nat.zero_le _) _

/-! ## The runs -/

/-- Every process has started and nothing has been issued. -/
def ticketStart (now : Time) : System TicketState TicketCall TicketAnswer :=
  ⟨{ clock := now }, []⟩

structure TicketSystemOk (useRedis : Bool) (s : System TicketState TicketCall TicketAnswer) :
    Prop where
  holds : Program.Holds (TicketsOk useRedis) TicketCallOk s
  drawn : ∀ token, Program.weight (drawWeight token) s.calls + issuedCount token s.shared ≤ 1
  paid : ∀ token, Program.weight (acceptWeight token) s.calls ≤ s.shared.accepted.count token

theorem ticketStart_ok (useRedis : Bool) (now : Time) :
    TicketSystemOk useRedis (ticketStart now) := by
  refine ⟨⟨?_, ?_⟩, ?_, ?_⟩
  · constructor <;> simp [ticketStart]
  · intro c hc
    cases hc
  · intro token
    exact Nat.zero_le 1
  · intro token
    exact Nat.zero_le _

theorem countP_drawing (token : String) (calls : List (TicketCall ⊕ TicketAnswer)) :
    Program.weight (drawWeight token) calls = calls.countP (drawing · = some token) := by
  rw [← Program.weight_eq_countP]
  congr 1
  funext c
  simp [drawWeight]

theorem TicketSystemOk.step {useRedis : Bool} {s : System TicketState TicketCall TicketAnswer}
    (h : TicketSystemOk useRedis s) (m : Move TicketRequest TicketMoment) (hnew : DrawsNew s m)
    (hone : KeepsOneStore useRedis s m) :
    TicketSystemOk useRedis ((ticketStore useRedis).step s m) := by
  refine ⟨?_, fun token => ?_, fun token => ?_⟩
  · refine Program.holds_step _ s m h.holds (fun r _ => trivial) ?_
    intro i t call hm hcall
    subst hm
    refine exec_keeps h.holds.shared t (h.holds.calls _ (List.mem_of_getElem? hcall)) ?_
      (hone call hcall)
    -- the ticket of this call leaves no room for an issued one
    intro token hdraw ticket hticket htoken
    have hdrawn := h.drawn token
    have hown := Program.le_weight (drawWeight token) hcall
    have hissued : 0 < issuedCount token s.shared :=
      List.countP_pos_iff.mpr ⟨ticket, hticket, by simpa using htoken⟩
    simp only [drawWeight, hdraw, if_true] at hown
    omega
  · have hdrawn := h.drawn token
    obtain ⟨r, hm, hs⟩ | ⟨i, t, call, hm, hcall, hs⟩ | hs := (ticketStore useRedis).step_cases s m
    · rw [hs, Program.weight_append]
      subst hm
      have hfresh : drawWeight token (.inl (.request r)) = 1 →
          Program.weight (drawWeight token) s.calls + issuedCount token s.shared = 0 := by
        intro hdraw
        cases r with
        | issue pod userID token' =>
          have heq : token' = token := by
            by_contra hne
            simp [drawWeight, drawing, hne] at hdraw
          subst heq
          have hcalls : s.calls.countP (drawing · = some token') = 0 :=
            List.countP_eq_zero.mpr fun c hc => by simpa using hnew.2 c hc
          have hissued : issuedCount token' s.shared = 0 :=
            List.countP_eq_zero.mpr fun ticket ht => by simpa using hnew.1 ticket ht
          rw [countP_drawing, hcalls, hissued]
        | _ => cases hdraw
      have hone : drawWeight token (.inl (.request r)) ≤ 1 := by
        unfold drawWeight
        split <;> omega
      simp only [Program.weight, List.map_cons, List.map_nil, List.sum_cons, List.sum_nil] at *
      change _ + (drawWeight token (.inl (.request r)) + 0) + _ ≤ 1
      omega
    · rw [hs]
      have hdraws := exec_draws useRedis t s.shared call token
      have hset := Program.weight_set (drawWeight token) hcall
        (call.exec useRedis t s.shared).2
      simp only [System.put_calls, System.put_shared, ticketStore]
      omega
    · rw [hs]
      exact hdrawn
  · refine Program.weight_le_step _ (acceptWeight token) (fun x => x.accepted.count token) s m
      (h.paid token) (fun r _ => rfl) ?_
    intro i t call _ _
    exact Nat.le_of_eq (exec_accepts useRedis t s.shared call token)

theorem TicketSystemOk.safe {useRedis : Bool} {s : System TicketState TicketCall TicketAnswer}
    (h : TicketSystemOk useRedis s) : TicketsSafe s where
  once token := by
    have hcount : s.calls.countP (acceptsTicket token) ≤ s.shared.accepted.count token := by
      rw [← Program.weight_eq_countP]
      exact h.paid token
    exact Nat.le_trans hcount (List.nodup_iff_count_le_one.mp h.holds.shared.once token)
  owner p userID hmem := (h.holds.calls _ hmem).1 userID rfl
  available p answer hmem := (h.holds.calls _ hmem).2

/-- Websocket tickets are one-time, and a fresh one is accepted, in every run in
which each ticket stays in the one store that `Consume` asks. -/
theorem tickets_safe_while_in_one_store (useRedis : Bool) (now : Time)
    (moves : List (Move TicketRequest TicketMoment))
    (h : Runs.Every (ticketStore useRedis).step
      (fun s m => DrawsNew s m ∧ KeepsOneStore useRedis s m) (ticketStart now) moves) :
    Runs.Along (ticketStore useRedis).step TicketsSafe (ticketStart now) moves := by
  have hok : Runs.Along (ticketStore useRedis).step (TicketSystemOk useRedis) (ticketStart now)
      moves :=
    Runs.along_of_every (fun _ m hs hm => hs.step m hm.1 hm.2) (ticketStart_ok useRedis now) h
  exact hok.mono fun _ hs => hs.safe

/-- A ticket through Redis. -/
theorem tickets_safe_through_redis :
    Runs.Along (ticketStore true).step TicketsSafe (ticketStart 0)
      [.begin (.issue 0 "ada" "t"), .advance 0 ⟨0, .ok⟩, .begin (.consume 0 "t"),
        .advance 1 ⟨0, .ok⟩] := by
  refine tickets_safe_while_in_one_store true 0 _ ⟨⟨?_, trivial⟩, ⟨trivial, ?_⟩,
    ⟨trivial, trivial⟩, ⟨trivial, ?_⟩, trivial⟩
  · simp [DrawsNew, NewDraw, ticketStart]
  · intro call hcall
    cases hcall
    exact fun _ => .inr (by decide)
  · intro call hcall
    cases hcall
    intro _ _ _ _ e he
    cases he

/-- The reply to a `SET` is lost, so the ticket is in both stores. -/
def lostReplyRun : List (Move TicketRequest TicketMoment) :=
  [.begin (.issue 0 "ada" "t"), .advance 0 ⟨0, .failAfter⟩, .advance 0 ⟨0, .ok⟩,
    .begin (.consume 0 "t"), .advance 1 ⟨0, .ok⟩,
    .begin (.consume 0 "t"), .advance 2 ⟨0, .failBefore⟩, .advance 2 ⟨0, .ok⟩]

/-- Redis is away for `Issue` and back for `Consume`. -/
def outageRun : List (Move TicketRequest TicketMoment) :=
  [.begin (.issue 0 "ada" "t"), .advance 0 ⟨0, .failBefore⟩, .advance 0 ⟨0, .ok⟩,
    .begin (.consume 0 "t"), .advance 1 ⟨0, .ok⟩]

/-- A ticket is accepted twice after a lost reply, and rejected at its first
presentation after an outage. -/
theorem tickets_not_safe :
    (Runs.Every (ticketStore true).step DrawsNew (ticketStart 0) lostReplyRun ∧
      ¬ Runs.Along (ticketStore true).step TicketsSafe (ticketStart 0) lostReplyRun) ∧
    Runs.Every (ticketStore true).step DrawsNew (ticketStart 0) outageRun ∧
      ¬ Runs.Along (ticketStore true).step TicketsSafe (ticketStart 0) outageRun := by
  refine ⟨⟨?_, fun h => ?_⟩, ?_, fun h => ?_⟩
  · simp [lostReplyRun, DrawsNew, NewDraw, ticketStart]
  · have htwice : ((Runs.run (ticketStore true).step (ticketStart 0) lostReplyRun).calls.countP
        (acceptsTicket "t")) = 2 := by decide
    have honce := h.last.once "t"
    omega
  · simp [outageRun, DrawsNew, NewDraw, ticketStart]
  · have hrejected := h.last.available ⟨0, "t", 0, true, true, some ⟨0, "t", "ada", 0⟩⟩ none
    have hmem : .inr (.consumed ⟨0, "t", 0, true, true, some ⟨0, "t", "ada", 0⟩⟩ none) ∈
        (Runs.run (ticketStore true).step (ticketStart 0) outageRun).calls :=
      .tail _ (.head _)
    cases hrejected hmem rfl rfl _ rfl rfl (by decide)

end IronStock

import IronStock.ExtensionTokens

/-!
# When the browser extension presents each refresh token once

A snapshot that the storage still holds is from after the last refresh. A slow 401
breaks this: its request presents a token that another one has presented before.
-/
namespace IronStock

namespace Extension

/-! ## Snapshots -/

/-- What is known of the snapshot of a request that waits for its answer. -/
structure Snapshot (c : Client) (i : Nat) (token : String) : Prop where
  issued : token ∈ c.issued
  saving : ∀ config, .saving config ∈ c.stages → config.refreshToken ≠ token
  current : refreshedSince i c.log = true → c.storage.refreshToken ≠ some token

structure RequestsOk (c : Client) : Prop where
  snapshot : ∀ (i : Nat) config, c.requests[i]?.map Request.stage = some (.fetching config) →
    config.refreshToken ≠ "" → Snapshot c i config.refreshToken
  unsent : ∀ i, c.requests.length ≤ i ∨ c.requests[i]?.map Request.stage = some .configuring →
    c.log.any (Event.isRequestOf i) = false

theorem RequestsOk.mono {c c' : Client} (h : RequestsOk c) (hrequests : c'.requests = c.requests)
    (hsnapshot : ∀ i token, Snapshot c i token → Snapshot c' i token)
    (hlog : ∀ i, c'.log.any (Event.isRequestOf i) = c.log.any (Event.isRequestOf i)) :
    RequestsOk c' := by
  constructor
  · intro i config hfetching hne
    rw [hrequests] at hfetching
    exact hsnapshot i _ (h.snapshot i config hfetching hne)
  · intro i hi
    rw [hrequests] at hi
    rw [hlog]
    exact h.unsent i hi

theorem getElem?_setStage {c : Client} {i j : Nat} {stage stage' : Stage}
    (h : (c.setStage i stage).requests[j]?.map Request.stage = some stage') :
    (i = j ∧ j < c.requests.length ∧ stage' = stage) ∨
      (i ≠ j ∧ c.requests[j]?.map Request.stage = some stage') := by
  rw [Client.setStage, List.getElem?_modify] at h
  cases hr : c.requests[j]? with
  | none =>
    rw [hr] at h
    cases h
  | some r =>
    rw [hr] at h
    have hlt := (List.getElem?_eq_some_iff.mp hr).1
    simp only [Option.map_eq_map, Option.map_some, Option.some.injEq] at h
    by_cases hij : i = j
    · rw [if_pos hij] at h
      exact .inl ⟨hij, hlt, h.symm⟩
    · rw [if_neg hij] at h
      exact .inr ⟨hij, congrArg some h⟩

/-- A request that has got its answer. -/
def Stage.answered : Stage → Bool
  | .configuring | .fetching _ => false
  | _ => true

theorem RequestsOk.setStage {c : Client} (h : RequestsOk c) (i : Nat) (stage : Stage)
    (hstage : stage.answered = true) : RequestsOk (c.setStage i stage) := by
  constructor
  · intro j config hj hne
    rcases getElem?_setStage hj with ⟨-, -, rfl⟩ | ⟨-, hold⟩
    · cases hstage
    · exact ⟨(h.snapshot j config hold hne).issued, (h.snapshot j config hold hne).saving,
        (h.snapshot j config hold hne).current⟩
  · intro j hj
    rcases hj with hj | hj
    · rw [Client.setStage, List.length_modify] at hj
      exact h.unsent j (.inl hj)
    · rcases getElem?_setStage hj with ⟨-, -, rfl⟩ | ⟨-, hold⟩
      · cases hstage
      · exact h.unsent j (.inr hold)

theorem refreshedSince_request {i j : Nat} (h : i ≠ j) (token : Option String) (log : List Event) :
    refreshedSince i (.request j token :: log) = refreshedSince i log := if_neg h

/-- A request that goes on and is sent; others do not notice. -/
theorem RequestsOk.sent {c : Client} (h : RequestsOk c) {i : Nat} (hi : i < c.requests.length)
    (stage : Stage) (hconfiguring : stage ≠ .configuring)
    (hsnapshot : ∀ config, stage = .fetching config → config.refreshToken ≠ "" →
      config.refreshToken ∈ c.issued ∧
        ∀ new, .saving new ∈ c.stages → new.refreshToken ≠ config.refreshToken)
    (token : Option String) :
    RequestsOk ((c.setStage i stage).logged (.request i token)) := by
  constructor
  · intro j config hj hne
    rcases getElem?_setStage hj with ⟨rfl, -, hstage⟩ | ⟨hij, hold⟩
    · obtain ⟨hissued, hsaving⟩ := hsnapshot config hstage.symm hne
      refine ⟨hissued, hsaving, fun hrefreshed => ?_⟩
      have hnever : refreshedSince i (.request i token :: c.log) = false := if_pos rfl
      rw [Client.logged] at hrefreshed
      exact absurd (hnever.symm.trans hrefreshed) Bool.false_ne_true
    · have hsnap := h.snapshot j config hold hne
      refine ⟨hsnap.issued, hsnap.saving, fun hrefreshed => hsnap.current ?_⟩
      exact (refreshedSince_request (Ne.symm hij) token c.log).symm.trans hrefreshed
  · intro j hj
    have hother : i ≠ j ∧ c.log.any (Event.isRequestOf j) = false := by
      rcases hj with hj | hj
      · rw [Client.logged, Client.setStage, List.length_modify] at hj
        exact ⟨by omega, h.unsent j (.inl hj)⟩
      · rcases getElem?_setStage hj with ⟨-, -, hstage⟩ | ⟨hij, hold⟩
        · exact absurd hstage.symm hconfiguring
        · exact ⟨hij, h.unsent j (.inr hold)⟩
    rw [Client.logged, List.any_cons, Client.setStage, hother.2, Bool.or_false]
    exact decide_eq_false (Ne.symm hother.1)

theorem RequestsOk.awaitRefresh {c : Client} (h : RequestsOk c) (i : Nat) (config : Config) :
    RequestsOk (c.awaitRefresh i config) := by
  unfold Client.awaitRefresh
  split
  · next k _ =>
    refine h.mono rfl (fun j token hs => ⟨hs.issued, fun new hnew => hs.saving new ?_, hs.current⟩)
      fun _ => rfl
    exact (quiet_join c k i).stages ▸ hnew
  · refine h.mono rfl (fun j token hs => ⟨hs.issued, fun new hnew => hs.saving new ?_, hs.current⟩)
      fun _ => rfl
    have hmem : RefreshStage.saving new ∈ c.stages ++ [.fetching] := by
      rwa [Client.stages, List.map_append] at hnew
    rcases List.mem_append.mp hmem with hmem | hmem
    · exact hmem
    · cases List.mem_singleton.mp hmem

theorem RequestsOk.respond {c : Client} (h : RequestsOk c) (i : Nat) (answer : Answer) :
    RequestsOk (c.respond i answer) := by
  unfold Client.respond
  split
  · cases answer with
    | failure message => exact h.setStage i _ rfl
    | response status =>
      dsimp only
      split
      · exact (h.setStage i _ rfl).awaitRefresh i _
      · exact h.setStage i _ rfl
  · cases answer with
    | failure message => exact h.setStage i _ rfl
    | response status => exact h.setStage i _ rfl
  · exact h

theorem RequestsOk.configured {c : Client} {jobs : List Job} (h : RequestsOk c)
    (ht : TokensOk c jobs) (i : Nat) : RequestsOk (c.configured i) := by
  unfold Client.configured
  split
  · next method path body hr =>
    have hi := (List.getElem?_eq_some_iff.mp hr).1
    dsimp only
    split
    · exact h.setStage i _ rfl
    · refine h.sent hi (.fetching c.storage.getConfig) nofun (fun config hconfig hne => ?_) _
      cases hconfig
      have hstored : c.storage.refreshToken = some c.storage.getConfig.refreshToken := by
        cases htoken : c.storage.refreshToken with
        | none => simp [Storage.getConfig, htoken] at hne
        | some token => simp [Storage.getConfig, htoken]
      exact ⟨ht.storedIssued _ hstored, fun new hnew hsame =>
        (ht.saving new hnew).2.2 (hsame ▸ hstored)⟩
  · exact h

theorem RequestsOk.resume {c : Client} (h : RequestsOk c) (i : Nat)
    (result : Except String Config) : RequestsOk (c.resume i result) := by
  unfold Client.resume
  split
  · next config hwaiting =>
    have hi : i < c.requests.length := by
      obtain ⟨r, hr, -⟩ := Option.map_eq_some_iff.mp hwaiting
      exact (List.getElem?_eq_some_iff.mp hr).1
    cases result with
    | error message =>
      exact (h.setStage i (.done (.threw message)) rfl).mono rfl
        (fun j token hs => ⟨hs.issued, hs.saving, hs.current⟩) fun _ => rfl
    | ok config => exact h.sent hi .refetching nofun nofun _
  · exact h

theorem RequestsOk.setRefresh {c : Client} (h : RequestsOk c) (k : Nat) (stage : RefreshStage)
    (hstage : ∀ new, stage ≠ .saving new) : RequestsOk (c.setRefresh k stage) := by
  refine h.mono rfl (fun j token hs => ⟨hs.issued, fun new hnew => ?_, hs.current⟩) fun _ => rfl
  rcases mem_stages_setRefresh hnew with hnew | hnew
  · exact absurd hnew.symm (hstage new)
  · exact hs.saving new hnew

/-- A token that has just been handed out is no snapshot's. -/
theorem RequestsOk.refreshBody {c : Client} (h : RequestsOk c) (k : Nat)
    {tokens : Except String Tokens} (ht : c.Orderly (.refreshBody k tokens)) :
    RequestsOk (c.refreshBody k tokens).1 := by
  obtain ⟨accessToken, refreshToken, rfl, hfresh⟩ := pair_of_orderly ht
  unfold Client.refreshBody
  split
  · next config waiters hreading =>
    refine h.mono rfl (fun j token hs => ⟨List.mem_cons_of_mem _ hs.issued, fun new hnew => ?_,
      hs.current⟩) fun _ => rfl
    rcases mem_stages_setRefresh hnew with hnew | hnew
    · cases hnew
      rw [refreshToken_renewed config accessToken hfresh.1]
      rintro rfl
      exact hfresh.2 hs.issued
    · exact hs.saving new hnew
  · exact h

theorem RequestsOk.refreshSaved {c : Client} (h : RequestsOk c) (k : Nat) :
    RequestsOk (c.refreshSaved k).1 := by
  unfold Client.refreshSaved
  split
  · next new hsaving =>
    have hmem := List.mem_of_getElem? (stage_getElem? hsaving)
    refine h.mono rfl (fun j token hs => ⟨hs.issued, fun other hother => ?_, fun _ hstored => ?_⟩)
      fun _ => rfl
    · rcases mem_stages_setRefresh hother with hother | hother
      · cases hother
      · exact hs.saving other hother
    · exact hs.saving new hmem (Option.some.inj hstored)
  · exact h

theorem RequestsOk.task {c : Client} (h : RequestsOk c) (htokens : TokensOk c []) {t : Task}
    (ht : c.Orderly t) : RequestsOk (runTask t c).1 := by
  cases t with
  | apiRequest method path body =>
    constructor
    · intro i config hfetching hne
      rw [runTask, List.getElem?_append] at hfetching
      split at hfetching
      · have hs := h.snapshot i config hfetching hne
        exact ⟨hs.issued, hs.saving, hs.current⟩
      · cases hget : [Request.mk method path body .configuring][i - c.requests.length]? with
        | none =>
          rw [hget] at hfetching
          cases hfetching
        | some r =>
          rw [hget, List.mem_singleton.mp (List.mem_of_getElem? hget)] at hfetching
          cases hfetching
    · intro i hi
      rcases hi with hi | hi
      · rw [runTask, List.length_append] at hi
        exact h.unsent i (.inl (by omega))
      · rw [runTask, List.getElem?_append] at hi
        split at hi
        · exact h.unsent i (.inr hi)
        · next hge => exact h.unsent i (.inl (Nat.le_of_not_lt hge))
  | configured i => exact h.configured htokens i
  | respond i answer => exact h.respond i answer
  | body i json =>
    change RequestsOk (c.body i json)
    unfold Client.body
    split
    · cases json with
      | error message => exact h.setStage i _ rfl
      | ok text =>
        dsimp only
        split
        · exact h.setStage i _ rfl
        · exact h.setStage i _ rfl
    · exact h
  | refreshRespond k answer =>
    change RequestsOk (c.refreshRespond k answer).1
    unfold Client.refreshRespond
    split
    · cases answer with
      | failure message => exact ht.elim
      | response status =>
        dsimp only
        split
        · exact h.setRefresh k _ nofun
        · exact h.setRefresh k _ nofun
    · exact h
  | refreshCleared k =>
    change RequestsOk (c.refreshCleared k).1
    unfold Client.refreshCleared
    split
    · exact (h.setRefresh k .ended nofun).mono rfl
        (fun j token hs => ⟨hs.issued, hs.saving, fun _ => nofun⟩) fun _ => rfl
    · exact h
  | refreshBody k tokens => exact h.refreshBody k ht
  | refreshSaved k => exact h.refreshSaved k
  | login serverUrl accessToken refreshToken =>
    refine h.mono rfl (fun j token hs => ⟨List.mem_cons_of_mem _ hs.issued, hs.saving,
      fun _ hstored => ?_⟩) fun _ => rfl
    have hsame : refreshToken = token := Option.some.inj hstored
    have hissued := hs.issued
    rw [← hsame] at hissued
    exact ht.2 hissued
  | clearConfig =>
    exact h.mono rfl (fun j token hs => ⟨hs.issued, hs.saving, fun _ => nofun⟩) fun _ => rfl

theorem RequestsOk.job {c : Client} (h : RequestsOk c) (j : Job) : RequestsOk (runJob j c).1 := by
  cases j with
  | finalized k result =>
    exact h.mono rfl (fun j token hs => ⟨hs.issued, hs.saving, hs.current⟩) fun _ => rfl
  | settled k result => exact h
  | resume i result => exact h.resume i result

/-! ## The log -/

theorem LogOk.cons {log : List Event} (h : LogOk log) {e : Event} (he : EventOk log e) :
    LogOk (e :: log) := by
  intro newer e' older hlog
  cases newer with
  | nil =>
    obtain ⟨rfl, rfl⟩ := List.cons.inj hlog
    exact he
  | cons e'' newer => exact h newer e' older (List.cons.inj hlog).2

/-- A request begins a refresh with the stored token, so none has completed since it
was sent. -/
theorem LogOk.respond {c : Client} (h : LogOk c.log) (hrequests : RequestsOk c) (i : Nat)
    (answer : Answer) (hcurrent : c.Orderly (.respond i answer)) :
    LogOk (c.respond i answer).log := by
  unfold Client.respond
  split
  · next config hfetching =>
    cases answer with
    | failure message => exact h
    | response status =>
      dsimp only
      split
      · next hretry =>
        unfold Client.awaitRefresh
        split
        · exact h
        · next hnone =>
          have hstored := hcurrent hretry.1 hnone config (snapshot?_of_fetching hfetching) hretry.2
          have hsnapshot := hrequests.snapshot i config hfetching hretry.2
          refine h.cons (Bool.eq_false_iff.mpr fun hsince => ?_)
          exact hsnapshot.current hsince hstored
      · exact h
  · cases answer with
    | failure message => exact h
    | response status => exact h
  · exact h

theorem LogOk.task {c : Client} (h : LogOk c.log) (hrequests : RequestsOk c) {t : Task}
    (ht : c.Orderly t) : LogOk (runTask t c).1.log := by
  cases t with
  | apiRequest method path body => exact h
  | configured i =>
    change LogOk (c.configured i).log
    unfold Client.configured
    split
    · next method path body hr =>
      dsimp only
      split
      · exact h
      · have hunsent := hrequests.unsent i (.inr (by rw [hr]; rfl))
        refine h.cons fun hany => ?_
        rw [hunsent] at hany
        cases hany
    · exact h
  | respond i answer => exact h.respond hrequests i answer ht
  | body i json =>
    change LogOk (c.body i json).log
    unfold Client.body
    split
    · cases json with
      | error message => exact h
      | ok text =>
        dsimp only
        split
        · exact h
        · exact h
    · exact h
  | refreshRespond k answer =>
    change LogOk (c.refreshRespond k answer).1.log
    unfold Client.refreshRespond
    split
    · cases answer with
      | failure message => exact h.cons trivial
      | response status =>
        dsimp only
        split
        · exact h
        · exact h
    · exact h
  | refreshCleared k =>
    change LogOk (c.refreshCleared k).1.log
    unfold Client.refreshCleared
    split
    · exact h.cons trivial
    · exact h
  | refreshBody k tokens =>
    change LogOk (c.refreshBody k tokens).1.log
    unfold Client.refreshBody
    split
    · cases tokens with
      | error message => exact h.cons trivial
      | ok tokens => exact h.cons trivial
    · exact h
  | refreshSaved k =>
    change LogOk (c.refreshSaved k).1.log
    unfold Client.refreshSaved
    split
    · exact h.cons trivial
    · exact h
  | login serverUrl accessToken refreshToken => exact h.cons trivial
  | clearConfig => exact h.cons trivial

theorem TokensOk.lastEnded {c : Client} {i : Nat} {result : Except String Config} {js : List Job}
    (h : TokensOk c (.resume i result :: js)) : LastEnded c.log result := by
  obtain ⟨result', hchain, hlast⟩ := h.chain
  cases hchain with
  | resumes hjs =>
    obtain ⟨i', hi'⟩ := hjs _ List.mem_cons_self
    rw [(Job.resume.inj hi').2]
    exact hlast (List.cons_ne_nil _ _)

theorem LogOk.job {c : Client} {j : Job} {js : List Job} (h : LogOk c.log)
    (htokens : TokensOk c (j :: js)) : LogOk (runJob j c).1.log := by
  cases j with
  | finalized k result => exact h
  | settled k result => exact h
  | resume i result =>
    have hlast := htokens.lastEnded
    change LogOk (c.resume i result).log
    unfold Client.resume
    split
    · cases result with
      | error message => exact h.cons hlast
      | ok config => exact h.cons fun _ => hlast
    · exact h

/-! ## The extension as a whole -/

/-- The invariant of the extension between two steps of the loop. -/
structure ClientOk (c : Client) (jobs : List Job) : Prop where
  tokens : TokensOk c jobs
  requests : RequestsOk c
  log : LogOk c.log

theorem clientOk_started (storage : Storage) : ClientOk (.started storage) [] where
  tokens :=
    { slot := SingleFlight.guarded_of_not_mem List.not_mem_nil
      chain := ⟨.error "", .resumes nofun, fun hne => absurd rfl hne⟩
      idle := fun hne => absurd rfl hne
      nodup := List.nodup_nil
      sentIssued := nofun
      storedIssued := fun t ht => by
        have hstored : storage.refreshToken = some t := ht
        have hissued : (Client.started storage).issued = storage.refreshToken.toList :=
          List.append_nil _
        rw [hissued, hstored]
        exact List.mem_cons_self
      stored := nofun
      saving := nofun }
  requests :=
    { snapshot := fun i config hfetching => nomatch hfetching
      unsent := fun i _ => rfl }
  log := by
    intro newer e older hlog
    cases newer with
    | nil =>
      obtain ⟨rfl, rfl⟩ := List.cons.inj hlog
      trivial
    | cons e' newer => cases newer <;> cases (List.cons.inj hlog).2

def loggedIn : Storage := ⟨some "https://ironstock", some "a0", some "r0"⟩

/-- Two requests get 401 while one refresh is under way. -/
def sharedRefreshRun : List (EventLoop.Move Task) :=
  [.task (.apiRequest "GET" "/items" none), .task (.apiRequest "GET" "/folders" none),
    .task (.configured 0), .task (.configured 1), .task (.respond 0 (.response 401)),
    .task (.respond 1 (.response 401)), .task (.refreshRespond 0 (.response 200)),
    .task (.refreshBody 0 (.ok ⟨some "a1", some "r1"⟩)), .task (.refreshSaved 0),
    .job, .job, .job, .job]

/-- The second request gets its 401 when the refresh of the first one is over. -/
def slowAnswerRun : List (EventLoop.Move Task) :=
  [.task (.apiRequest "GET" "/items" none), .task (.apiRequest "GET" "/folders" none),
    .task (.configured 0), .task (.configured 1), .task (.respond 0 (.response 401)),
    .task (.refreshRespond 0 (.response 200)),
    .task (.refreshBody 0 (.ok ⟨some "a1", some "r1"⟩)), .task (.refreshSaved 0),
    .job, .job, .job, .task (.respond 1 (.response 401)),
    .task (.refreshRespond 1 (.response 401)), .task (.refreshCleared 1), .job, .job, .job]

end Extension

end IronStock

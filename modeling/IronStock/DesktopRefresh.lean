import IronStock.DesktopTokens

/-!
# The desktop client presents each refresh token once

A call is sent again at most once, by the jobs that follow a refresh that succeeded,
and no task comes in between.
-/
namespace IronStock

namespace Desktop

/-! ## Calls -/

structure CallsOk (c : Client) : Prop where
  known : ∀ i, c.calls.length ≤ i → c.requests i = 0
  bound : ∀ (i : Nat) call, c.calls[i]? = some call →
    c.requests i ≤ 2 ∧ (call.options.noRetry = false → c.requests i ≤ 1)
  flags : ∀ (i : Nat) call err, c.calls[i]? = some call → call.stage = .refreshing err →
    call.options.noRetry = false ∧ call.options.unauthenticated = false

/-- No call has changed, and no request has been sent. -/
structure Silent (c c' : Client) : Prop where
  calls : c'.calls = c.calls
  log : c'.log = c.log ∨ ∃ e, e.isRequest = false ∧ c'.log = e :: c.log

theorem isRequestOf_eq_false {e : Event} (h : e.isRequest = false) (i : Nat) :
    e.isRequestOf i = false := by
  cases e with
  | request j path options token => cases h
  | _ => rfl

theorem silent_refreshOnce (c : Client) (i : Nat) : Silent c (c.refreshOnce i).1 := by
  unfold Client.refreshOnce
  split
  · exact ⟨rfl, .inl rfl⟩
  · exact ⟨rfl, .inr ⟨_, rfl, rfl⟩⟩

theorem silent_ensureRefresh (c : Client) (i : Nat) : Silent c (c.ensureRefresh i).1 := by
  unfold Client.ensureRefresh
  split
  · exact ⟨rfl, .inl rfl⟩
  · exact silent_refreshOnce c i

theorem silent_refreshRespond (c : Client) (k : Nat) (answer : Answer) :
    Silent c (c.refreshRespond k answer).1 := by
  unfold Client.refreshRespond
  split
  · cases answer with
    | failure => exact ⟨rfl, .inl rfl⟩
    | response status => exact ⟨rfl, .inl rfl⟩
  · exact ⟨rfl, .inl rfl⟩

theorem silent_refreshBody (c : Client) (k : Nat) (body : RefreshBody) :
    Silent c (c.refreshBody k body).1 := by
  unfold Client.refreshBody
  split
  · split
    · split
      · exact ⟨rfl, .inr ⟨_, rfl, rfl⟩⟩
      · exact ⟨rfl, .inl rfl⟩
    · exact ⟨rfl, .inl rfl⟩
  · exact ⟨rfl, .inl rfl⟩

theorem CallsOk.silent {c c' : Client} (h : CallsOk c) (hs : Silent c c') : CallsOk c' := by
  have hrequests : ∀ i, c'.requests i = c.requests i := by
    intro i
    unfold Client.requests
    rcases hs.log with hlog | ⟨e, he, hlog⟩
    · rw [hlog]
    · rw [hlog, List.countP_cons_of_neg]
      rw [isRequestOf_eq_false he]
      exact Bool.false_ne_true
  constructor
  · simpa only [hs.calls, hrequests] using h.known
  · simpa only [hs.calls, hrequests] using h.bound
  · simpa only [hs.calls] using h.flags

theorem CallsOk.setStage {c : Client} (h : CallsOk c) (i : Nat) (stage : Stage)
    (hstage : ∀ call err, c.calls[i]? = some call → stage = .refreshing err →
      call.options.noRetry = false ∧ call.options.unauthenticated = false) :
    CallsOk (c.setStage i stage) := by
  have hget : ∀ (j : Nat) call, (c.setStage i stage).calls[j]? = some call →
      ∃ old, c.calls[j]? = some old ∧ call.options = old.options ∧
        (call.stage = old.stage ∨ i = j ∧ call.stage = stage) := by
    intro j call hcall
    rw [Client.setStage, List.getElem?_modify] at hcall
    cases hold : c.calls[j]? with
    | none =>
      rw [hold] at hcall
      cases hcall
    | some old =>
      rw [hold] at hcall
      by_cases hij : i = j
      · simp only [Option.map_eq_map, Option.map_some, if_pos hij] at hcall
        rw [← Option.some.inj hcall]
        exact ⟨old, rfl, rfl, .inr ⟨hij, rfl⟩⟩
      · simp only [Option.map_eq_map, Option.map_some, if_neg hij] at hcall
        rw [← Option.some.inj hcall]
        exact ⟨old, rfl, rfl, .inl rfl⟩
  constructor
  · intro j hj
    rw [Client.setStage, List.length_modify] at hj
    exact h.known j hj
  · intro j call hcall
    obtain ⟨old, hold, hoptions, -⟩ := hget j call hcall
    rw [hoptions]
    exact h.bound j old hold
  · intro j call err hcall herr
    obtain ⟨old, hold, hoptions, hsame | ⟨rfl, hnew⟩⟩ := hget j call hcall
    · rw [hoptions]
      exact h.flags j old err hold (hsame ▸ herr)
    · rw [hoptions]
      exact hstage old err hold (hnew ▸ herr)

theorem requests_apiFetch_le (c : Client) (i : Nat) (path : String) (options : RequestOptions)
    (j : Nat) :
    (c.apiFetch i path options).requests j ≤ c.requests j + if j = i then 1 else 0 := by
  unfold Client.apiFetch
  split
  · exact Nat.le_add_right _ _
  · rw [Client.requests, List.countP_cons]
    simp [Event.isRequestOf, Client.requests]

/-- A call is sent again only when it may not be retried any more. -/
theorem CallsOk.apiFetch {c : Client} (h : CallsOk c) {i : Nat} (hi : i < c.calls.length)
    {options : RequestOptions} (hone : c.requests i ≤ 1)
    (hnone : options.noRetry = false → c.requests i = 0) (path : String) :
    CallsOk (c.apiFetch i path options) := by
  have hle := requests_apiFetch_le c i path options
  obtain ⟨stage, hstage, hcalls⟩ : ∃ stage : Stage, (∀ err, stage ≠ .refreshing err) ∧
      (c.apiFetch i path options).calls = c.calls.set i ⟨path, options, stage⟩ := by
    unfold Client.apiFetch
    split
    · refine ⟨_, fun err h => ?_, rfl⟩
      cases h
    · refine ⟨_, fun err h => ?_, rfl⟩
      cases h
  constructor
  · intro j hj
    rw [hcalls, List.length_set] at hj
    have hlej := hle j
    rw [if_neg (by omega), h.known j hj] at hlej
    exact Nat.le_zero.mp hlej
  · intro j call hcall
    rw [hcalls, List.getElem?_set] at hcall
    have hlej := hle j
    by_cases hij : i = j
    · rw [if_pos hij, if_pos hi] at hcall
      cases hcall
      rw [if_pos hij.symm, ← hij] at hlej
      rw [← hij]
      refine ⟨by omega, fun hretry => ?_⟩
      rw [hnone hretry] at hlej
      exact hlej
    · rw [if_neg hij] at hcall
      rw [if_neg (Ne.symm hij)] at hlej
      obtain ⟨htwo, hfirst⟩ := h.bound j call hcall
      exact ⟨Nat.le_trans hlej htwo, fun hretry => Nat.le_trans hlej (hfirst hretry)⟩
  · intro j call err hcall herr
    rw [hcalls, List.getElem?_set] at hcall
    by_cases hij : i = j
    · rw [if_pos hij, if_pos hi] at hcall
      cases hcall
      exact absurd herr (hstage err)
    · rw [if_neg hij] at hcall
      exact h.flags j call err hcall herr

theorem CallsOk.addCall {c : Client} (h : CallsOk c) (path : String) (options : RequestOptions) :
    CallsOk { c with calls := c.calls ++ [⟨path, options, .fetching⟩] } := by
  have hget : ∀ (i : Nat) call,
      (c.calls ++ [Call.mk path options .fetching])[i]? = some call →
      c.calls[i]? = some call ∨ c.calls.length ≤ i ∧ call = ⟨path, options, .fetching⟩ := by
    intro i call hcall
    rw [List.getElem?_append] at hcall
    split at hcall
    · exact .inl hcall
    · next hge =>
      exact .inr ⟨Nat.le_of_not_lt hge, List.mem_singleton.mp (List.mem_of_getElem? hcall)⟩
  constructor
  · intro i hi
    rw [List.length_append] at hi
    exact h.known i (by omega)
  · intro i call hcall
    rcases hget i call hcall with hold | ⟨hi, -⟩
    · exact h.bound i call hold
    · have hzero : c.requests i = 0 := h.known i hi
      change c.requests i ≤ 2 ∧ (_ → c.requests i ≤ 1)
      rw [hzero]
      exact ⟨by omega, fun _ => by omega⟩
  · intro i call err hcall herr
    rcases hget i call hcall with hold | ⟨-, rfl⟩
    · exact h.flags i call err hold herr
    · cases herr

theorem CallsOk.ensureRefresh {c : Client} (h : CallsOk c) (i : Nat) :
    CallsOk (c.ensureRefresh i).1 :=
  h.silent (silent_ensureRefresh c i)

theorem log_respond (c : Client) (i : Nat) (answer : Answer) :
    (c.respond i answer).log = c.log := by
  unfold Client.respond
  split
  · cases answer with
    | failure => dsimp only; split <;> rfl
    | response status => dsimp only; split <;> rfl
  · rfl

/-- A call waits for a refresh only if it may be retried. -/
theorem CallsOk.task {c : Client} (h : CallsOk c) (t : Task) : CallsOk (runTask t c).1 := by
  have hstage := fun i stage (hne : ∀ err, stage ≠ .refreshing err) =>
    h.setStage i stage fun _ err _ herr => absurd herr (hne err)
  cases t with
  | apiFetch path options =>
    have hzero := h.known c.calls.length (Nat.le_refl _)
    have hadd := h.addCall path options
    refine hadd.apiFetch ?_ ?_ (fun _ => hzero) path
    · simp
    · exact Nat.le_trans (Nat.le_of_eq hzero) (Nat.zero_le 1)
  | respond i answer =>
    change CallsOk (c.respond i answer)
    unfold Client.respond
    split
    · cases answer with
      | failure =>
        dsimp only
        split
        · exact hstage i _ fun err h => by cases h
        · exact hstage i _ fun err h => by cases h
      | response status =>
        dsimp only
        split
        · exact hstage i _ fun err h => by cases h
        · exact hstage i _ fun err h => by cases h
    · exact h
  | body i body =>
    change CallsOk (c.body i body).1
    unfold Client.body
    split
    · next path options status hcall =>
      split
      · split
        · exact hstage i _ fun err h => by cases h
        · exact hstage i _ fun err h => by cases h
      · dsimp only
        split
        · next hretry =>
          refine CallsOk.ensureRefresh (h.setStage i _ fun call err hcall' _ => ?_) i
          rw [hcall] at hcall'
          cases hcall'
          exact ⟨hretry.1, hretry.2.1⟩
        · exact hstage i _ fun err h => by cases h
    · exact h
  | refreshRespond k answer => exact h.silent (silent_refreshRespond c k answer)
  | refreshBody k body => exact h.silent (silent_refreshBody c k body)
  | setSession accessToken refreshToken => exact h.silent ⟨rfl, .inr ⟨_, rfl, rfl⟩⟩
  | clear => exact h.silent ⟨rfl, .inr ⟨_, rfl, rfl⟩⟩
  | setBaseUrl url => exact h.silent ⟨rfl, .inl rfl⟩
  | setOfflineModeEnabled value => exact h.silent ⟨rfl, .inl rfl⟩

theorem CallsOk.resume {c : Client} (h : CallsOk c) (i : Nat) (failed : Option String) :
    CallsOk (c.resume i failed) := by
  unfold Client.resume
  split
  · next path options err hcall =>
    cases failed with
    | some reason => exact h.setStage i _ fun _ err _ herr => by cases herr
    | none =>
      have hretry := (h.flags i _ err hcall rfl).1
      have hi := (List.getElem?_eq_some_iff.mp hcall).1
      exact h.apiFetch hi ((h.bound i _ hcall).2 hretry) (fun hfalse => Bool.noConfusion hfalse)
        path
  · exact h

theorem CallsOk.job {c : Client} (h : CallsOk c) (j : Job) : CallsOk (runJob j c).1 := by
  cases j with
  | caught k failed =>
    cases failed with
    | none => exact h
    | some reason => exact h.silent ⟨rfl, .inr ⟨_, rfl, rfl⟩⟩
  | finalized k failed => exact h.silent ⟨rfl, .inl rfl⟩
  | settled k failed => exact h
  | resume i failed => exact h.resume i failed

/-! ## Retries -/

theorem lastRefreshedOrNewer_of_latest {log : List Event} {t : String}
    (h : log.findSome? Event.accessToken = some t) : LastRefreshedOrNewer log t := by
  obtain ⟨newer, e, older, rfl, he, hnewer⟩ := List.findSome?_eq_some_iff.mp h
  refine ⟨newer, e, older, rfl, he, fun e' he' => ?_⟩
  cases e' with
  | refreshed accessToken refreshToken => cases hnewer _ he'
  | _ => rfl

theorem RetriesFresh.cons {log : List Event} (h : RetriesFresh log) {e : Event}
    (he : ∀ i path options token, e = .request i path options token →
      log.any (Event.isRequestOf i) = true → ∃ t, token = some t ∧ LastRefreshedOrNewer log t) :
    RetriesFresh (e :: log) := by
  intro newer i path options token older hlog hany
  cases newer with
  | nil =>
    obtain ⟨rfl, rfl⟩ := List.cons.inj hlog
    exact he i path options token rfl hany
  | cons e' newer => exact h newer i path options token older (List.cons.inj hlog).2 hany

theorem RetriesFresh.silent {c c' : Client} (h : RetriesFresh c.log) (hs : Silent c c') :
    RetriesFresh c'.log := by
  rcases hs.log with hlog | ⟨e, he, hlog⟩
  · rwa [hlog]
  · rw [hlog]
    refine h.cons fun i path options token hreq _ => ?_
    rw [hreq] at he
    cases he

theorem RetriesFresh.apiFetch {c : Client} (h : RetriesFresh c.log) (i : Nat) (path : String)
    (options : RequestOptions)
    (hi : c.log.any (Event.isRequestOf i) = true →
      options.unauthenticated = false ∧ HasLatest c) :
    RetriesFresh (c.apiFetch i path options).log := by
  unfold Client.apiFetch
  split
  · exact h
  · refine h.cons fun j path' options' token hreq hany => ?_
    obtain ⟨rfl, rfl, rfl, rfl⟩ := Event.request.inj hreq
    obtain ⟨hauth, t, hne, haccess, hlatest⟩ := hi hany
    refine ⟨t, ?_, lastRefreshedOrNewer_of_latest hlatest⟩
    rw [hauth, haccess]
    simp [present, hne]

theorem RetriesFresh.task {c : Client} (h : RetriesFresh c.log) (hcalls : CallsOk c) (t : Task) :
    RetriesFresh (runTask t c).1.log := by
  cases t with
  | apiFetch path options =>
    refine RetriesFresh.apiFetch
      (c := { c with calls := c.calls ++ [⟨path, options, .fetching⟩] }) h _ path options
      fun hany => ?_
    have hzero := hcalls.known c.calls.length (Nat.le_refl _)
    rw [Client.requests, List.countP_eq_zero] at hzero
    obtain ⟨e, he, hreq⟩ := List.any_eq_true.mp hany
    exact absurd hreq (hzero e he)
  | respond i answer =>
    change RetriesFresh (c.respond i answer).log
    rwa [log_respond]
  | body i body =>
    change RetriesFresh (c.body i body).1.log
    unfold Client.body
    split
    · split
      · split
        · exact h
        · exact h
      · dsimp only
        split
        · exact RetriesFresh.silent (c := c.setStage i _) h (silent_ensureRefresh _ i)
        · exact h
    · exact h
  | refreshRespond k answer => exact h.silent (silent_refreshRespond c k answer)
  | refreshBody k body => exact h.silent (silent_refreshBody c k body)
  | setSession accessToken refreshToken => exact h.silent (c := c) ⟨rfl, .inr ⟨_, rfl, rfl⟩⟩
  | clear => exact h.silent (c := c) ⟨rfl, .inr ⟨_, rfl, rfl⟩⟩
  | setBaseUrl url => exact h
  | setOfflineModeEnabled value => exact h

theorem TokensOk.hasLatest {c : Client} {i : Nat} {js : List Job}
    (h : TokensOk c (.resume i none :: js)) : HasLatest c := by
  obtain ⟨failed, hchain, hlatest⟩ := h.chain
  refine hlatest (List.cons_ne_nil _ _) ?_
  cases hchain with
  | resumes hjs =>
    obtain ⟨i', hi'⟩ := hjs _ List.mem_cons_self
    exact (Job.resume.inj hi').2.symm

theorem RetriesFresh.job {c : Client} {j : Job} {js : List Job} (h : RetriesFresh c.log)
    (htokens : TokensOk c (j :: js)) (hcalls : CallsOk c) : RetriesFresh (runJob j c).1.log := by
  cases j with
  | caught k failed =>
    cases failed with
    | none => exact h
    | some reason => exact h.silent (c := c) ⟨rfl, .inr ⟨_, rfl, rfl⟩⟩
  | finalized k failed => exact h
  | settled k failed => exact h
  | resume i failed =>
    change RetriesFresh (c.resume i failed).log
    unfold Client.resume
    split
    · next path options err hcall =>
      cases failed with
      | some reason => exact h
      | none =>
        refine h.apiFetch i path _ fun _ => ⟨?_, htokens.hasLatest⟩
        exact (hcalls.flags i _ err hcall rfl).2
    · exact h

/-! ## The client as a whole -/

/-- The invariant of the client between two steps of the loop. -/
structure ClientOk (c : Client) (jobs : List Job) : Prop where
  tokens : TokensOk c jobs
  calls : CallsOk c
  retries : RetriesFresh c.log

theorem clientOk_started (baseUrl : String) (refreshToken : Option String) :
    ClientOk (.started baseUrl refreshToken) [] where
  tokens :=
    { inflight := nofun
      chain := ⟨none, .resumes nofun, fun hne => absurd rfl hne⟩
      ended := fun hne => absurd rfl hne
      nodup := List.nodup_nil
      sentIssued := nofun
      storedIssued := fun t ht => by
        have hstored : refreshToken = some t := ht
        rw [hstored]
        exact List.mem_cons_self
      stored := nofun
      failed := nofun }
  calls :=
    { known := fun _ _ => rfl
      bound := fun i call hcall => absurd (List.mem_of_getElem? hcall) List.not_mem_nil
      flags := fun i call err hcall => absurd (List.mem_of_getElem? hcall) List.not_mem_nil }
  retries := by
    intro newer i path options token older hlog
    cases newer with
    | nil => cases hlog
    | cons e newer =>
      have htail := (List.cons.inj hlog).2
      cases newer <;> cases htail

theorem ClientOk.presentsOnce {c : Client} {jobs : List Job} (h : ClientOk c jobs) :
    c.PresentsOnce where
  once := h.tokens.nodup
  single := by
    have hone := h.tokens.inflight.count_le_one
    rw [Client.flights, List.count, List.countP_map] at hone
    refine Nat.le_trans (Nat.le_of_eq (List.countP_congr fun r _ => ?_)) hone
    simp
  twice := by
    intro i
    rcases Nat.lt_or_ge i c.calls.length with hi | hi
    · exact (h.calls.bound i _ (List.getElem?_eq_getElem hi)).1
    · rw [h.calls.known i hi]
      omega
  cleared := fun hfail => ⟨(h.tokens.failed hfail).1, (h.tokens.failed hfail).2.1⟩
  retries := h.retries

/-- Whatever the server answers and whatever is lost on the way, the client presents
each refresh token once, and clears its tokens when a refresh has failed. -/
theorem desktop_presents_once (baseUrl : String) (refreshToken : Option String)
    (ms : List (EventLoop.Move Task))
    (hfresh : Runs.Every program.step (EventLoop.Admits Client.Fresh)
      ⟨.started baseUrl refreshToken, []⟩ ms) :
    Runs.Along program.step (fun c => c.state.PresentsOnce)
      ⟨.started baseUrl refreshToken, []⟩ ms := by
  have halong := program.along_of_keeps (I := ClientOk) (C := Client.Fresh)
    (fun c t h ht => ⟨h.tokens.task ht, h.calls.task t, h.retries.task h.calls t⟩)
    (fun c j js h => ⟨h.tokens.job, h.calls.job j, h.retries.job h.tokens h.calls⟩)
    (c := ⟨.started baseUrl refreshToken, []⟩) (clientOk_started baseUrl refreshToken) hfresh
  exact halong.mono fun c h => h.presentsOnce

/-- Two calls get 401: the first one refreshes and is sent again, the second one comes
late and its refresh fails. -/
def lateAnswerRun : List (EventLoop.Move Task) :=
  [.task (.setSession "a0" "r0"), .task (.apiFetch "/items" {}), .task (.apiFetch "/tags" {}),
    .task (.respond 0 (.response 401)),
    .task (.body 0 ⟨none, some ("invalid_token", "Token süresi dolmuş.")⟩),
    .task (.refreshRespond 0 (.response 200)), .task (.refreshBody 0 ⟨some ("a1", "r1"), none⟩),
    .job, .job, .job, .job,
    .task (.respond 1 (.response 401)),
    .task (.body 1 ⟨none, some ("invalid_token", "Token süresi dolmuş.")⟩),
    .task (.refreshRespond 1 .failure), .job, .job, .job, .job]

theorem desktop_presents_once_late :
    Runs.Along program.step (fun c => c.state.PresentsOnce)
      ⟨.started "https://ironstock" none, []⟩ lateAnswerRun ∧
    (Runs.run program.step ⟨.started "https://ironstock" none, []⟩ lateAnswerRun).state.log =
      [.refreshFailed "refresh_failed", .refresh "r1",
        .request 0 "/items" { noRetry := true } (some "a1"), .refreshed "a1" "r1",
        .refresh "r0", .request 1 "/tags" {} (some "a0"), .request 0 "/items" {} (some "a0"),
        .login "a0" "r0", .started none] :=
  ⟨desktop_presents_once "https://ironstock" none lateAnswerRun (by decide),
    by decide⟩

end Desktop

end IronStock

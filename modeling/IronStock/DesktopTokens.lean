import IronStock.DesktopClient
import IronStock.Lib.SingleFlight

/-!
# The tokens of the desktop client

A refresh token that has been presented stays in the storage only while the promise
of its refresh is pending, and meanwhile every call joins that promise.
-/
namespace IronStock

namespace Desktop

/-! ## What a log tells -/

def Event.sentToken : Event → Option String
  | .refresh token => some token
  | _ => none

/-- The refresh tokens that an event brings. -/
def Event.issued : Event → List String
  | .started token => token.toList
  | .refreshed _ token | .login _ token => [token]
  | _ => []

/-- The access token that an event brings. -/
def Event.accessToken : Event → Option String
  | .refreshed token _ | .login token _ => some token
  | _ => none

def Event.isRefreshed : Event → Bool
  | .refreshed _ _ => true
  | _ => false

def Event.isRequestOf (i : Nat) : Event → Bool
  | .request j _ _ _ => i = j
  | _ => false

def Event.isRequest : Event → Bool
  | .request _ _ _ _ => true
  | _ => false

/-- A refresh has failed, and nobody has logged in since. -/
def failedSinceLogin : List Event → Bool
  | [] => false
  | .refreshFailed _ :: _ => true
  | .login _ _ :: _ => false
  | _ :: log => failedSinceLogin log

/-- The token came from the last refresh that succeeded, or later. -/
def LastRefreshedOrNewer (log : List Event) (token : String) : Prop :=
  ∃ newer e older, log = newer ++ e :: older ∧ e.accessToken = some token ∧
    ∀ e' ∈ newer, e'.isRefreshed = false

/-- Every request after the first of its call carries a token that is not older than
the last refresh. -/
def RetriesFresh (log : List Event) : Prop :=
  ∀ newer i path options token older, log = newer ++ .request i path options token :: older →
    older.any (Event.isRequestOf i) = true → ∃ t, token = some t ∧ LastRefreshedOrNewer older t

def Refresh.inFlight (r : Refresh) : Bool := r.stage ≠ .ended

namespace Client

variable (c : Client)

def sent : List String := c.log.filterMap Event.sentToken

def issued : List String := c.log.flatMap Event.issued

/-- Which refreshes are under way. -/
def flights : List Bool := c.refreshes.map Refresh.inFlight

def requests (i : Nat) : Nat := c.log.countP (Event.isRequestOf i)

def latestAccess : Option String := c.log.findSome? Event.accessToken

/-- The server hands out a pair that it has not handed out before. -/
def FreshPair (accessToken refreshToken : String) : Prop :=
  accessToken ≠ "" ∧ refreshToken ∉ c.issued

def Fresh : Task → Prop
  | .setSession accessToken refreshToken => c.FreshPair accessToken refreshToken
  | .refreshBody _ body => ∀ pair ∈ body.tokens, c.FreshPair pair.1 pair.2
  | _ => True

instance (accessToken refreshToken : String) : Decidable (c.FreshPair accessToken refreshToken) :=
  inferInstanceAs (Decidable (_ ∧ _))

instance : (t : Task) → Decidable (c.Fresh t)
  | .setSession _ _ => inferInstanceAs (Decidable (c.FreshPair _ _))
  | .refreshBody _ ⟨some (accessToken, refreshToken), _⟩ =>
    decidable_of_iff (c.FreshPair accessToken refreshToken) (by simp [Fresh])
  | .refreshBody _ ⟨none, _⟩ => .isTrue nofun
  | .apiFetch _ _ | .respond _ _ | .body _ _ | .refreshRespond _ _ | .clear | .setBaseUrl _
  | .setOfflineModeEnabled _ => .isTrue trivial

/-- What the client owes the server. -/
structure PresentsOnce : Prop where
  once : c.sent.Nodup
  single : c.refreshes.countP Refresh.inFlight ≤ 1
  twice : ∀ i, c.requests i ≤ 2
  cleared : failedSinceLogin c.log = true → c.accessToken = none ∧ c.refreshToken = none
  retries : RetriesFresh c.log

end Client

/-! ## Tokens -/

/-- The jobs that one refresh leaves behind, one after another. -/
inductive Chain (failed : Option String) : List Job → Prop
  | caught (k : Nat) : Chain failed [.caught k failed]
  | finalized (k : Nat) : Chain failed [.finalized k failed]
  | settled (k : Nat) : Chain failed [.settled k failed]
  | resumes {jobs : List Job} (h : ∀ j ∈ jobs, ∃ i, j = .resume i failed) : Chain failed jobs

/-- The stored access token is the newest one. -/
def HasLatest (c : Client) : Prop :=
  ∃ t, t ≠ "" ∧ c.accessToken = some t ∧ c.latestAccess = some t

/-- A refresh is under way, or its failure has not been handled. -/
def Busy (c : Client) (jobs : List Job) : Prop :=
  true ∈ c.flights ∨ ∃ k reason, jobs = [.caught k (some reason)]

structure TokensOk (c : Client) (jobs : List Job) : Prop where
  inflight : SingleFlight.Guarded c.inflightRefresh c.flights
  chain : ∃ failed, Chain failed jobs ∧ (jobs ≠ [] → failed = none → HasLatest c)
  ended : jobs ≠ [] → true ∉ c.flights
  nodup : c.sent.Nodup
  sentIssued : ∀ t ∈ c.sent, t ∈ c.issued
  storedIssued : ∀ t, c.refreshToken = some t → t ∈ c.issued
  stored : ∀ t, c.refreshToken = some t → t ∈ c.sent → Busy c jobs
  failed : failedSinceLogin c.log = true →
    c.accessToken = none ∧ c.refreshToken = none ∧ true ∉ c.flights

/-- Only calls have changed, and requests have been sent. -/
structure Quiet (c c' : Client) : Prop where
  accessToken : c'.accessToken = c.accessToken
  refreshToken : c'.refreshToken = c.refreshToken
  inflightRefresh : c'.inflightRefresh = c.inflightRefresh
  flights : c'.flights = c.flights
  log : c'.log = c.log ∨ ∃ i path options token, c'.log = .request i path options token :: c.log

theorem TokensOk.quiet {c c' : Client} {jobs : List Job} (h : TokensOk c jobs)
    (hq : Quiet c c') : TokensOk c' jobs := by
  obtain ⟨haccess, hrefresh, hinflight, hflights, hlog⟩ := hq
  obtain ⟨hsent, hissued, hlatest, hfailed⟩ : c'.sent = c.sent ∧ c'.issued = c.issued ∧
      c'.latestAccess = c.latestAccess ∧ failedSinceLogin c'.log = failedSinceLogin c.log := by
    unfold Client.sent Client.issued Client.latestAccess
    rcases hlog with hlog | ⟨i, path, options, token, hlog⟩
    · rw [hlog]
      exact ⟨rfl, rfl, rfl, rfl⟩
    · rw [hlog]
      exact ⟨rfl, rfl, rfl, rfl⟩
  obtain ⟨hflight, hchain, hended, hnodup, hsub, hstoredIssued, hstored, hfail⟩ := h
  unfold HasLatest at hchain
  unfold Busy at hstored
  constructor
  · rwa [hflights, hinflight]
  · unfold HasLatest
    rwa [haccess, hlatest]
  · rwa [hflights]
  · rwa [hsent]
  · rwa [hsent, hissued]
  · rwa [hrefresh, hissued]
  · unfold Busy
    rwa [hrefresh, hsent, hflights]
  · rwa [hfailed, haccess, hrefresh, hflights]

theorem quiet_setStage (c : Client) (i : Nat) (stage : Stage) : Quiet c (c.setStage i stage) :=
  ⟨rfl, rfl, rfl, rfl, .inl rfl⟩

theorem quiet_apiFetch (c : Client) (calls : List Call) (i : Nat) (path : String)
    (options : RequestOptions) :
    Quiet c (Client.apiFetch { c with calls := calls } i path options) := by
  unfold Client.apiFetch
  split
  · exact ⟨rfl, rfl, rfl, rfl, .inl rfl⟩
  · exact ⟨rfl, rfl, rfl, rfl, .inr ⟨_, _, _, _, rfl⟩⟩

theorem quiet_refl (c : Client) : Quiet c c := ⟨rfl, rfl, rfl, rfl, .inl rfl⟩

theorem quiet_respond (c : Client) (i : Nat) (answer : Answer) : Quiet c (c.respond i answer) := by
  unfold Client.respond
  split
  · cases answer with
    | failure => dsimp only; split <;> exact quiet_setStage c i _
    | response status => dsimp only; split <;> exact quiet_setStage c i _
  · exact quiet_refl c

theorem quiet_resume (c : Client) (i : Nat) (failed : Option String) :
    Quiet c (c.resume i failed) := by
  unfold Client.resume
  split
  · cases failed with
    | none => exact quiet_apiFetch c c.calls i _ _
    | some reason => exact quiet_setStage c i _
  · exact quiet_refl c

/-! ### Refreshes -/

/-- A call that joins the refresh under way. -/
theorem quiet_join (c : Client) (k i : Nat) :
    Quiet c { c with
      refreshes := c.refreshes.modify k fun r => { r with waiters := r.waiters ++ [i] } } :=
  ⟨rfl, rfl, rfl, SingleFlight.map_modify_of_eq fun _ _ => rfl, .inl rfl⟩

theorem present_eq_some {token : Option String} {t : String} (h : present token = some t) :
    token = some t := (Option.filter_eq_some_iff.mp h).1

/-- A refresh that begins presents a token that has not been presented. -/
theorem TokensOk.refreshOnce {c : Client} (h : TokensOk c []) (hnone : c.inflightRefresh = none)
    (i : Nat) : TokensOk (c.refreshOnce i).1 (c.refreshOnce i).2 := by
  have hidle : true ∉ c.flights := by
    have hguard := h.inflight
    rw [hnone] at hguard
    exact hguard.not_mem_of_none
  unfold Client.refreshOnce
  cases htoken : present c.refreshToken with
  | none =>
    have hended : true ∉ (c.refreshes ++ [Refresh.mk .ended [i]]).map Refresh.inFlight := by
      rw [List.map_append, List.mem_append]
      rintro (hmem | hmem)
      · exact hidle hmem
      · have hnever : true = false := List.mem_singleton.mp hmem
        cases hnever
    exact
      { inflight := SingleFlight.guarded_of_not_mem hended
        chain := ⟨some "unauthorized", .caught _, fun _ hnone => nomatch hnone⟩
        ended := fun _ => hended
        nodup := h.nodup
        sentIssued := h.sentIssued
        storedIssued := h.storedIssued
        stored := fun _ _ _ => .inr ⟨_, _, rfl⟩
        failed := fun hfail => ⟨(h.failed hfail).1, (h.failed hfail).2.1, hended⟩ }
  | some token =>
    have hstored := present_eq_some htoken
    have hfresh : token ∉ c.sent := by
      intro hsent
      rcases h.stored token hstored hsent with hflight | ⟨k, reason, hjobs⟩
      · exact hidle hflight
      · cases hjobs
    have hflights : (c.refreshes ++ [Refresh.mk .fetching [i]]).map Refresh.inFlight =
        c.flights ++ [true] := List.map_append
    refine
      { inflight := ?_
        chain := ⟨none, .resumes nofun, fun hne => absurd rfl hne⟩
        ended := fun hne => absurd rfl hne
        nodup := List.nodup_cons.mpr ⟨hfresh, h.nodup⟩
        sentIssued := List.forall_mem_cons.mpr ⟨h.storedIssued token hstored, h.sentIssued⟩
        storedIssued := h.storedIssued
        stored := fun _ _ _ => .inl ?_
        failed := fun hfail => ?_ }
    · have hlength : c.flights.length = c.refreshes.length := List.length_map _
      rw [Client.flights, hflights, ← hlength]
      exact SingleFlight.guarded_append hidle true
    · rw [Client.flights, hflights]
      exact List.mem_append_right _ List.mem_cons_self
    · rw [(h.failed hfail).2.1] at hstored
      cases hstored

theorem TokensOk.ensureRefresh {c : Client} (h : TokensOk c []) (i : Nat) :
    TokensOk (c.ensureRefresh i).1 (c.ensureRefresh i).2 := by
  unfold Client.ensureRefresh
  split
  · exact h.quiet (quiet_join c _ i)
  · next hnone => exact h.refreshOnce hnone i

/-- A refresh that fails keeps its token until the failure is handled. -/
theorem TokensOk.endFailed {c : Client} (h : TokensOk c []) {k : Nat}
    (hk : c.flights[k]? = some true) (reason : String) :
    TokensOk (c.endRefresh k (some reason)).1 (c.endRefresh k (some reason)).2 := by
  have hended : true ∉ (c.endRefresh k (some reason)).1.flights := by
    rw [Client.flights, Client.endRefresh, SingleFlight.flags_end fun _ => rfl]
    exact h.inflight.not_mem_set hk
  exact
    { inflight := SingleFlight.guarded_of_not_mem hended
      chain := ⟨some reason, .caught k, fun _ hnone => nomatch hnone⟩
      ended := fun _ => hended
      nodup := h.nodup
      sentIssued := h.sentIssued
      storedIssued := h.storedIssued
      stored := fun _ _ _ => .inr ⟨_, _, rfl⟩
      failed := fun hfail => ⟨(h.failed hfail).1, (h.failed hfail).2.1, hended⟩ }

/-- A fresh pair takes the place of the one that was presented. -/
theorem TokensOk.endRefreshed {c : Client} (h : TokensOk c []) {k : Nat}
    (hk : c.flights[k]? = some true) {accessToken refreshToken : String}
    (hfresh : c.FreshPair accessToken refreshToken) :
    TokensOk
      { c with
        accessToken := some accessToken
        refreshToken := some refreshToken
        refreshes := c.refreshes.modify k fun r => { r with stage := .ended }
        log := .refreshed accessToken refreshToken :: c.log } [.caught k none] := by
  have hended : true ∉
      (c.refreshes.modify k fun r => { r with stage := .ended }).map Refresh.inFlight := by
    rw [SingleFlight.flags_end fun _ => rfl]
    exact h.inflight.not_mem_set hk
  exact
    { inflight := SingleFlight.guarded_of_not_mem hended
      chain := ⟨none, .caught k, fun _ _ => ⟨accessToken, hfresh.1, rfl, rfl⟩⟩
      ended := fun _ => hended
      nodup := h.nodup
      sentIssued := fun t ht => List.mem_cons_of_mem _ (h.sentIssued t ht)
      storedIssued := fun t ht => Option.some.inj ht ▸ List.mem_cons_self
      stored := fun t ht hsent =>
        absurd (h.sentIssued t hsent) (Option.some.inj ht ▸ hfresh.2)
      failed := fun hfail => absurd (List.mem_of_getElem? hk) (h.failed hfail).2.2 }

/-! ### Every task and every job -/

theorem flights_of_refresh {c : Client} {k : Nat} {r : Refresh} (h : c.refreshes[k]? = some r)
    (hr : r.stage ≠ .ended) : c.flights[k]? = some true := by
  rw [Client.flights, List.getElem?_map, h, Option.map_some, Refresh.inFlight, decide_eq_true hr]

theorem TokensOk.body {c : Client} (h : TokensOk c []) (i : Nat) (body : ResponseBody) :
    TokensOk (c.body i body).1 (c.body i body).2 := by
  have hstage := fun stage => h.quiet (quiet_setStage c i stage)
  unfold Client.body
  split
  · split
    · split
      · exact hstage _
      · exact hstage _
    · dsimp only
      split
      · exact (hstage _).ensureRefresh i
      · exact hstage _
  · exact h

theorem TokensOk.refreshRespond {c : Client} (h : TokensOk c []) (k : Nat) (answer : Answer) :
    TokensOk (c.refreshRespond k answer).1 (c.refreshRespond k answer).2 := by
  unfold Client.refreshRespond
  split
  · next waiters hr =>
    cases answer with
    | failure => exact h.endFailed (flights_of_refresh hr nofun) _
    | response status =>
      refine h.quiet ⟨rfl, rfl, rfl, SingleFlight.map_modify_of_eq fun r hr' => ?_, .inl rfl⟩
      rw [hr] at hr'
      cases hr'
      rfl
  · exact h

theorem TokensOk.refreshBody {c : Client} (h : TokensOk c []) (k : Nat) (body : RefreshBody)
    (hfresh : ∀ pair ∈ body.tokens, c.FreshPair pair.1 pair.2) :
    TokensOk (c.refreshBody k body).1 (c.refreshBody k body).2 := by
  unfold Client.refreshBody
  split
  · next status waiters hr =>
    have hk := flights_of_refresh hr nofun
    split
    · split
      · next accessToken refreshToken htokens =>
        exact h.endRefreshed hk (hfresh (accessToken, refreshToken) htokens)
      · exact h.endFailed hk _
    · exact h.endFailed hk _
  · exact h

theorem TokensOk.task {c : Client} (h : TokensOk c []) {t : Task} (ht : c.Fresh t) :
    TokensOk (runTask t c).1 (runTask t c).2 := by
  cases t with
  | apiFetch path options => exact h.quiet (quiet_apiFetch c _ _ path options)
  | respond i answer => exact h.quiet (quiet_respond c i answer)
  | body i body => exact h.body i body
  | refreshRespond k answer => exact h.refreshRespond k answer
  | refreshBody k body => exact h.refreshBody k body ht
  | setSession accessToken refreshToken =>
    exact
      { inflight := h.inflight
        chain := ⟨none, .resumes nofun, fun hne => absurd rfl hne⟩
        ended := fun hne => absurd rfl hne
        nodup := h.nodup
        sentIssued := fun t hmem => List.mem_cons_of_mem _ (h.sentIssued t hmem)
        storedIssued := fun t hmem => Option.some.inj hmem ▸ List.mem_cons_self
        stored := fun t hmem hsent =>
          absurd (h.sentIssued t hsent) (Option.some.inj hmem ▸ ht.2)
        failed := nofun }
  | clear =>
    exact
      { inflight := h.inflight
        chain := ⟨none, .resumes nofun, fun hne => absurd rfl hne⟩
        ended := fun hne => absurd rfl hne
        nodup := h.nodup
        sentIssued := h.sentIssued
        storedIssued := nofun
        stored := nofun
        failed := fun hfail => ⟨rfl, rfl, (h.failed hfail).2.2⟩ }
  | setBaseUrl url => exact h.quiet ⟨rfl, rfl, rfl, rfl, .inl rfl⟩
  | setOfflineModeEnabled value => exact h.quiet ⟨rfl, rfl, rfl, rfl, .inl rfl⟩

/-- Between jobs only the promise under way may go. -/
theorem TokensOk.next {c : Client} {j : Job} {js jobs : List Job} (h : TokensOk c (j :: js))
    (hj : ∀ k reason, j ≠ .caught k (some reason)) {failed : Option String}
    (hchain : Chain failed jobs) (hlatest : failed = none → HasLatest c) (inflight : Option Nat) :
    TokensOk { c with inflightRefresh := inflight } jobs := by
  have hended := h.ended (List.cons_ne_nil j js)
  exact
    { inflight := SingleFlight.guarded_of_not_mem hended
      chain := ⟨failed, hchain, fun _ => hlatest⟩
      ended := fun _ => hended
      nodup := h.nodup
      sentIssued := h.sentIssued
      storedIssued := h.storedIssued
      stored := fun t ht hsent => by
        rcases h.stored t ht hsent with hflight | ⟨k, reason, hjobs⟩
        · exact absurd hflight hended
        · cases hjobs
          exact absurd rfl (hj k reason)
      failed := h.failed }

theorem TokensOk.job {c : Client} {j : Job} {js : List Job} (h : TokensOk c (j :: js)) :
    TokensOk (runJob j c).1 (js ++ (runJob j c).2) := by
  obtain ⟨failed, hchain, hall⟩ := h.chain
  have hlatest := hall (List.cons_ne_nil j js)
  clear hall
  cases hchain with
  | caught k =>
    cases failed with
    | none => exact h.next nofun (.finalized k) hlatest c.inflightRefresh
    | some reason =>
      have hended := h.ended (List.cons_ne_nil _ _)
      exact
        { inflight := SingleFlight.guarded_of_not_mem hended
          chain := ⟨some reason, .finalized k, fun _ hnone => nomatch hnone⟩
          ended := fun _ => hended
          nodup := h.nodup
          sentIssued := h.sentIssued
          storedIssued := nofun
          stored := nofun
          failed := fun _ => ⟨rfl, rfl, hended⟩ }
  | finalized k => exact h.next nofun (.settled k) hlatest none
  | settled k =>
    refine h.next nofun (.resumes fun j hj => ?_) hlatest c.inflightRefresh
    obtain ⟨i, -, hi⟩ := List.mem_map.mp hj
    exact ⟨i, hi.symm⟩
  | resumes hjs =>
    obtain ⟨i, rfl⟩ := hjs j List.mem_cons_self
    have hrest : Chain failed (js ++ []) := by
      rw [List.append_nil]
      exact .resumes fun j hj => hjs j (List.mem_cons_of_mem _ hj)
    exact (h.next nofun hrest hlatest c.inflightRefresh).quiet (quiet_resume c i failed)

end Desktop

end IronStock

import IronStock.ExtensionClient
import IronStock.Lib.SingleFlight

/-!
# The tokens of the browser extension

A request that gets 401 while no refresh is under way presents the refresh token of
its snapshot, however old that is. Where such a snapshot is still what the storage
holds, and each refresh is answered, a token is presented once.
-/
namespace IronStock

namespace Extension

/-! ## What a log tells -/

def Event.sentToken : Event → Option String
  | .refresh _ token => some token
  | _ => none

/-- The refresh tokens that an event brings. -/
def Event.issued : Event → List String
  | .started token | .granted token => token.toList
  | .login _ token => [token]
  | _ => []

/-- The access token of a refresh that has completed. -/
def Event.refreshedAccess : Event → Option (Option String)
  | .refreshed token => some token
  | _ => none

def Event.isRequestOf (i : Nat) : Event → Bool
  | .request j _ => i = j
  | _ => false

/-- A refresh has completed since the request was sent. -/
def refreshedSince (i : Nat) : List Event → Bool
  | [] => false
  | .refreshed _ :: _ => true
  | .request j _ :: log => if i = j then false else refreshedSince i log
  | _ :: log => refreshedSince i log

/-- The last refresh that ended has failed. -/
def lastRefreshFailed : List Event → Bool
  | [] => false
  | .refreshFailed :: _ => true
  | .refreshed _ :: _ => false
  | _ :: log => lastRefreshFailed log

/-- What a request may do after a log: it begins a refresh only if none has completed
since it was sent, it is sent again with the token of the refresh that completed
last, and it gives up only when a refresh has failed. -/
def EventOk (log : List Event) : Event → Prop
  | .refresh i _ => refreshedSince i log = false
  | .request i token =>
    log.any (Event.isRequestOf i) = true → log.findSome? Event.refreshedAccess = some token
  | .gaveUp _ => lastRefreshFailed log = true
  | _ => True

def LogOk (log : List Event) : Prop :=
  ∀ newer e older, log = newer ++ e :: older → EventOk older e

def RefreshStage.busy (stage : RefreshStage) : Bool := stage ≠ .ended

namespace Client

variable (c : Client)

def sent : List String := c.log.filterMap Event.sentToken

def issued : List String := c.log.flatMap Event.issued

def stages : List RefreshStage := c.refreshes.map Refresh.stage

/-- Which refreshes are under way. -/
def flights : List Bool := c.stages.map RefreshStage.busy

/-- The server hands out a refresh token that it has not handed out before. -/
def FreshToken (refreshToken : String) : Prop :=
  refreshToken ≠ "" ∧ refreshToken ∉ c.issued

/-- The snapshot of a request that waits for its answer. -/
def snapshot? (i : Nat) : Option Config :=
  match c.requests[i]?.map Request.stage with
  | some (.fetching config) => some config
  | _ => none

/-- A 401 that finds no refresh under way reaches a request whose snapshot the storage
still holds, and a refresh is answered, by an error status or by a fresh pair. -/
def Orderly : Task → Prop
  | .login _ _ refreshToken => c.FreshToken refreshToken
  | .respond i (.response status) =>
    status = 401 → c.refreshPromise = none → ∀ config ∈ c.snapshot? i,
      config.refreshToken ≠ "" → c.storage.refreshToken = some config.refreshToken
  | .refreshRespond _ (.failure _) => False
  | .refreshBody _ (.ok ⟨some _, some refreshToken⟩) => c.FreshToken refreshToken
  | .refreshBody _ _ => False
  | _ => True

instance (refreshToken : String) : Decidable (c.FreshToken refreshToken) :=
  inferInstanceAs (Decidable (_ ∧ _))

instance : (t : Task) → Decidable (c.Orderly t)
  | .login _ _ _ => inferInstanceAs (Decidable (c.FreshToken _))
  | .respond i (.response status) =>
    inferInstanceAs (Decidable (status = 401 → c.refreshPromise = none →
      ∀ config ∈ c.snapshot? i,
        config.refreshToken ≠ "" → c.storage.refreshToken = some config.refreshToken))
  | .refreshRespond _ (.failure _) => .isFalse id
  | .refreshBody _ (.ok ⟨some _, some _⟩) => inferInstanceAs (Decidable (c.FreshToken _))
  | .refreshBody _ (.error _) | .refreshBody _ (.ok ⟨none, _⟩)
  | .refreshBody _ (.ok ⟨some _, none⟩) => .isFalse id
  | .respond _ (.failure _) | .refreshRespond _ (.response _) | .apiRequest _ _ _
  | .configured _ | .body _ _ | .refreshCleared _ | .refreshSaved _ | .clearConfig =>
    .isTrue trivial

/-- What the extension owes the server and its requests. -/
structure PresentsOnce : Prop where
  once : c.sent.Nodup
  requests : LogOk c.log

end Client

/-! ## Refreshes -/

/-- The jobs that one refresh leaves behind, one after another. -/
inductive Chain (result : Except String Config) : List Job → Prop
  | finalized (k : Nat) : Chain result [.finalized k result]
  | settled (k : Nat) : Chain result [.settled k result]
  | resumes {jobs : List Job} (h : ∀ j ∈ jobs, ∃ i, j = .resume i result) : Chain result jobs

/-- How the last refresh ended. -/
def LastEnded (log : List Event) : Except String Config → Prop
  | .ok config => log.findSome? Event.refreshedAccess = some config.accessToken
  | .error _ => lastRefreshFailed log = true

structure TokensOk (c : Client) (jobs : List Job) : Prop where
  slot : SingleFlight.Guarded c.refreshPromise c.flights
  chain : ∃ result, Chain result jobs ∧ (jobs ≠ [] → LastEnded c.log result)
  idle : jobs ≠ [] → true ∉ c.flights
  nodup : c.sent.Nodup
  sentIssued : ∀ t ∈ c.sent, t ∈ c.issued
  storedIssued : ∀ t, c.storage.refreshToken = some t → t ∈ c.issued
  stored : ∀ t, c.storage.refreshToken = some t → t ∈ c.sent → true ∈ c.flights
  saving : ∀ config, .saving config ∈ c.stages →
    config.refreshToken ∈ c.issued ∧ config.refreshToken ∉ c.sent ∧
      c.storage.refreshToken ≠ some config.refreshToken

/-- Only requests have changed. -/
structure Quiet (c c' : Client) : Prop where
  storage : c'.storage = c.storage
  refreshPromise : c'.refreshPromise = c.refreshPromise
  stages : c'.stages = c.stages
  log : c'.log = c.log ∨ (∃ i token, c'.log = .request i token :: c.log) ∨
    ∃ i, c'.log = .gaveUp i :: c.log

theorem lastEnded_cons {log : List Event} {e : Event}
    (he : (∃ i token, e = .request i token) ∨ ∃ i, e = .gaveUp i)
    (result : Except String Config) : LastEnded (e :: log) result ↔ LastEnded log result := by
  obtain ⟨i, token, rfl⟩ | ⟨i, rfl⟩ := he <;> cases result <;> exact Iff.rfl

theorem TokensOk.quiet {c c' : Client} {jobs : List Job} (h : TokensOk c jobs)
    (hq : Quiet c c') : TokensOk c' jobs := by
  obtain ⟨hstorage, hpromise, hstages, hlog⟩ := hq
  obtain ⟨hsent, hissued, hended⟩ : c'.sent = c.sent ∧ c'.issued = c.issued ∧
      ∀ result, LastEnded c'.log result ↔ LastEnded c.log result := by
    unfold Client.sent Client.issued
    obtain hlog | ⟨i, token, hlog⟩ | ⟨i, hlog⟩ := hlog
    · rw [hlog]
      exact ⟨rfl, rfl, fun _ => Iff.rfl⟩
    · rw [hlog]
      exact ⟨rfl, rfl, lastEnded_cons (.inl ⟨i, token, rfl⟩)⟩
    · rw [hlog]
      exact ⟨rfl, rfl, lastEnded_cons (.inr ⟨i, rfl⟩)⟩
  have hflights : c'.flights = c.flights := by rw [Client.flights, hstages, Client.flights]
  obtain ⟨hslot, ⟨result, hchain, hlast⟩, hidle, hnodup, hsub, hstoredIssued, hstored, hsaving⟩ := h
  constructor
  · rwa [hpromise, hflights]
  · exact ⟨result, hchain, fun hne => (hended result).mpr (hlast hne)⟩
  · rwa [hflights]
  · rwa [hsent]
  · rwa [hsent, hissued]
  · rwa [hstorage, hissued]
  · rwa [hstorage, hsent, hflights]
  · rwa [hstages, hissued, hsent, hstorage]

theorem quiet_refl (c : Client) : Quiet c c := ⟨rfl, rfl, rfl, .inl rfl⟩

theorem quiet_setStage (c : Client) (i : Nat) (stage : Stage) : Quiet c (c.setStage i stage) :=
  ⟨rfl, rfl, rfl, .inl rfl⟩

theorem quiet_configured (c : Client) (i : Nat) : Quiet c (c.configured i) := by
  unfold Client.configured
  split
  · dsimp only
    split
    · exact quiet_setStage c i _
    · exact ⟨rfl, rfl, rfl, .inr (.inl ⟨_, _, rfl⟩)⟩
  · exact quiet_refl c

theorem quiet_body (c : Client) (i : Nat) (json : Except String String) :
    Quiet c (c.body i json) := by
  unfold Client.body
  split
  · cases json with
    | error message => exact quiet_setStage c i _
    | ok text =>
      dsimp only
      split
      · exact quiet_setStage c i _
      · exact quiet_setStage c i _
  · exact quiet_refl c

theorem quiet_resume (c : Client) (i : Nat) (result : Except String Config) :
    Quiet c (c.resume i result) := by
  unfold Client.resume
  split
  · cases result with
    | error message => exact ⟨rfl, rfl, rfl, .inr (.inr ⟨i, rfl⟩)⟩
    | ok config => exact ⟨rfl, rfl, rfl, .inr (.inl ⟨i, _, rfl⟩)⟩
  · exact quiet_refl c

/-- A request that joins the refresh under way. -/
theorem quiet_join (c : Client) (k i : Nat) :
    Quiet c { c with
      refreshes := c.refreshes.modify k fun r => { r with waiters := r.waiters ++ [i] } } :=
  ⟨rfl, rfl, SingleFlight.map_modify_of_eq fun _ _ => rfl, .inl rfl⟩

/-- A refresh that begins with the stored token presents one that has not been
presented. -/
theorem TokensOk.awaitRefresh {c : Client} (h : TokensOk c []) (i : Nat) {config : Config}
    (hcurrent : c.refreshPromise = none → c.storage.refreshToken = some config.refreshToken) :
    TokensOk (c.awaitRefresh i config) [] := by
  unfold Client.awaitRefresh
  split
  case h_1 k hpromise => exact h.quiet (quiet_join c k i)
  case h_2 hpromise =>
    have hstored := hcurrent hpromise
    have hidle : true ∉ c.flights := by
      have hguard := h.slot
      rw [hpromise] at hguard
      exact hguard.not_mem_of_none
    have hfresh : config.refreshToken ∉ c.sent := fun hsent => hidle (h.stored _ hstored hsent)
    have hstages : (c.refreshes ++ [Refresh.mk config .fetching [i]]).map Refresh.stage =
        c.stages ++ [.fetching] := List.map_append
    have hflights : ((c.refreshes ++ [Refresh.mk config .fetching [i]]).map Refresh.stage).map
        RefreshStage.busy = c.flights ++ [true] := by
      rw [hstages, List.map_append]
      rfl
    have hbusy : ∀ new, RefreshStage.saving new ∉ c.stages := by
      intro new hmem
      exact hidle (List.mem_map.mpr ⟨_, hmem, rfl⟩)
    refine
      { slot := ?_
        chain := ⟨.error "", .resumes nofun, fun hne => absurd rfl hne⟩
        idle := fun hne => absurd rfl hne
        nodup := List.nodup_cons.mpr ⟨hfresh, h.nodup⟩
        sentIssued := List.forall_mem_cons.mpr ⟨h.storedIssued _ hstored, h.sentIssued⟩
        storedIssued := h.storedIssued
        stored := fun _ _ _ => ?_
        saving := fun new hnew => ?_ }
    · have hlength : c.flights.length = c.refreshes.length := by
        rw [Client.flights, Client.stages, List.length_map, List.length_map]
      rw [Client.flights, Client.stages, hflights, ← hlength]
      exact SingleFlight.guarded_append hidle true
    · rw [Client.flights, Client.stages, hflights]
      exact List.mem_append_right _ List.mem_cons_self
    · rw [Client.stages, hstages, List.mem_append] at hnew
      rcases hnew with hnew | hnew
      · exact absurd hnew (hbusy new)
      · cases List.mem_singleton.mp hnew

theorem snapshot?_of_fetching {c : Client} {i : Nat} {config : Config}
    (h : c.requests[i]?.map Request.stage = some (.fetching config)) :
    config ∈ c.snapshot? i := by
  rw [Client.snapshot?, h]
  rfl

theorem TokensOk.respond {c : Client} (h : TokensOk c []) (i : Nat) (answer : Answer)
    (hcurrent : c.Orderly (.respond i answer)) : TokensOk (c.respond i answer) [] := by
  have hstage := fun stage => h.quiet (quiet_setStage c i stage)
  unfold Client.respond
  split
  · next config hfetching =>
    cases answer with
    | failure message => exact hstage _
    | response status =>
      dsimp only
      split
      · next hretry =>
        refine (hstage _).awaitRefresh i fun hnone => ?_
        exact hcurrent hretry.1 hnone config (snapshot?_of_fetching hfetching) hretry.2
      · exact hstage _
  · cases answer with
    | failure message => exact hstage _
    | response status => exact hstage _
  · exact h

theorem stages_setRefresh (c : Client) (k : Nat) (stage : RefreshStage) :
    (c.setRefresh k stage).stages = c.stages.modify k fun _ => stage := by
  apply List.ext_getElem?
  intro j
  rw [Client.stages, Client.stages, Client.setRefresh, List.getElem?_map, List.getElem?_modify,
    List.getElem?_modify, List.getElem?_map]
  cases c.refreshes[j]? with
  | none => rfl
  | some r =>
    simp only [Option.map_eq_map, Option.map_some]
    split <;> rfl

theorem stage_getElem? {c : Client} {k : Nat} {stage : RefreshStage}
    (h : c.refreshes[k]?.map Refresh.stage = some stage) : c.stages[k]? = some stage := by
  rw [Client.stages, List.getElem?_map, h]

theorem flight_getElem? {c : Client} {k : Nat} {stage : RefreshStage}
    (h : c.stages[k]? = some stage) (hbusy : stage ≠ .ended) : c.flights[k]? = some true := by
  rw [Client.flights, List.getElem?_map, h, Option.map_some, RefreshStage.busy,
    decide_eq_true hbusy]

theorem mem_stages_setRefresh {c : Client} {k : Nat} {stage stage' : RefreshStage}
    (h : stage' ∈ (c.setRefresh k stage).stages) : stage' = stage ∨ stage' ∈ c.stages := by
  rw [stages_setRefresh] at h
  obtain ⟨j, hj⟩ := List.getElem?_of_mem h
  rw [List.getElem?_modify] at hj
  cases hold : c.stages[j]? with
  | none =>
    rw [hold] at hj
    cases hj
  | some old =>
    rw [hold] at hj
    simp only [Option.map_eq_map, Option.map_some, Option.some.injEq] at hj
    split at hj
    · exact .inl hj.symm
    · exact .inr (hj ▸ List.mem_of_getElem? hold)

/-- A refresh under way stays under way. -/
theorem flights_setRefresh {c : Client} {k : Nat} {old stage : RefreshStage}
    (hold : c.stages[k]? = some old) (hbusy : stage.busy = old.busy) :
    (c.setRefresh k stage).flights = c.flights := by
  rw [Client.flights, stages_setRefresh]
  refine SingleFlight.map_modify_of_eq fun p hp => ?_
  rw [hold] at hp
  rw [← Option.some.inj hp, hbusy]

theorem flights_setRefresh_ended (c : Client) (k : Nat) :
    (c.setRefresh k .ended).flights = c.flights.set k false := by
  rw [Client.flights, stages_setRefresh, SingleFlight.flags_end fun _ => rfl]
  rfl

theorem TokensOk.refreshRespond {c : Client} (h : TokensOk c []) (k : Nat) {answer : Answer}
    (ha : c.Orderly (.refreshRespond k answer)) :
    TokensOk (c.refreshRespond k answer).1 (c.refreshRespond k answer).2 := by
  have hnext : ∀ stage : RefreshStage, c.stages[k]? = some .fetching → stage.busy = true →
      (∀ new, stage ≠ .saving new) → TokensOk (c.setRefresh k stage) [] := by
    intro stage hold hbusy hsaving
    have hflights := flights_setRefresh hold hbusy
    obtain ⟨hslot, hchain, hidle, hnodup, hsub, hstoredIssued, hstored, hsave⟩ := h
    constructor
    · rw [hflights]
      exact hslot
    · exact hchain
    · rwa [hflights]
    · exact hnodup
    · exact hsub
    · exact hstoredIssued
    · rw [hflights]
      exact hstored
    · intro new hnew
      rcases mem_stages_setRefresh hnew with hnew | hnew
      · exact absurd hnew.symm (hsaving new)
      · exact hsave new hnew
  unfold Client.refreshRespond
  split
  · next hfetching =>
    have hold := stage_getElem? hfetching
    cases answer with
    | failure message => exact ha.elim
    | response status =>
      dsimp only
      split
      · exact hnext _ hold rfl nofun
      · exact hnext _ hold rfl nofun
  · exact h

/-- With the only refresh under way ended, no new configuration waits to be saved. -/
theorem not_saving_of_idle {c : Client} (h : true ∉ c.flights) (config : Config) :
    RefreshStage.saving config ∉ c.stages :=
  fun hmem => h (List.mem_map.mpr ⟨_, hmem, rfl⟩)

theorem TokensOk.refreshCleared {c : Client} (h : TokensOk c []) (k : Nat) :
    TokensOk (c.refreshCleared k).1 (c.refreshCleared k).2 := by
  unfold Client.refreshCleared
  split
  · next hclearing =>
    have hk := flight_getElem? (stage_getElem? hclearing) nofun
    have hidle : true ∉ (c.setRefresh k .ended).flights := by
      rw [flights_setRefresh_ended]
      exact h.slot.not_mem_set hk
    exact
      { slot := SingleFlight.guarded_of_not_mem hidle
        chain := ⟨.error _, .finalized k, fun _ => rfl⟩
        idle := fun _ => hidle
        nodup := h.nodup
        sentIssued := h.sentIssued
        storedIssued := nofun
        stored := nofun
        saving := fun new hnew => absurd hnew (not_saving_of_idle hidle new) }
  · exact h

/-- An orderly answer is a fresh pair. -/
theorem pair_of_orderly {c : Client} {k : Nat} {tokens : Except String Tokens}
    (h : c.Orderly (.refreshBody k tokens)) :
    ∃ accessToken refreshToken, tokens = .ok ⟨some accessToken, some refreshToken⟩ ∧
      c.FreshToken refreshToken := by
  match tokens, h with
  | .ok ⟨some accessToken, some refreshToken⟩, h => exact ⟨accessToken, refreshToken, rfl, h⟩

theorem refreshToken_renewed (config : Config) (accessToken : String) {refreshToken : String}
    (h : refreshToken ≠ "") :
    (config.renewed ⟨some accessToken, some refreshToken⟩).refreshToken = refreshToken := by
  have hpresent : (some refreshToken).filter (· ≠ "") = some refreshToken :=
    Option.filter_some_pos (decide_eq_true h)
  simp only [Config.renewed, hpresent, Option.getD_some]

/-- The pair of an answer is not presented before it is saved. -/
theorem TokensOk.refreshBody {c : Client} (h : TokensOk c []) (k : Nat)
    {tokens : Except String Tokens} (ht : c.Orderly (.refreshBody k tokens)) :
    TokensOk (c.refreshBody k tokens).1 (c.refreshBody k tokens).2 := by
  obtain ⟨accessToken, refreshToken, rfl, hfresh⟩ := pair_of_orderly ht
  unfold Client.refreshBody
  split
  · next config waiters hreading =>
    have hold : c.stages[k]? = some .reading := stage_getElem? (by rw [hreading]; rfl)
    have hnew := refreshToken_renewed config accessToken hfresh.1
    have hflights : (c.setRefresh k (.saving (config.renewed
        ⟨some accessToken, some refreshToken⟩))).flights = c.flights := flights_setRefresh hold rfl
    exact
      { slot := by
          have hslot := h.slot
          rwa [← hflights] at hslot
        chain := ⟨.error "", .resumes nofun, fun hne => absurd rfl hne⟩
        idle := fun hne => absurd rfl hne
        nodup := h.nodup
        sentIssued := fun t ht => List.mem_cons_of_mem _ (h.sentIssued t ht)
        storedIssued := fun t ht => List.mem_cons_of_mem _ (h.storedIssued t ht)
        stored := fun t ht hsent => by
          have hmem := h.stored t ht hsent
          rwa [← hflights] at hmem
        saving := fun new hmem => by
          rcases mem_stages_setRefresh hmem with hmem | hmem
          · cases hmem
            rw [hnew]
            exact ⟨List.mem_cons_self, fun hsent => hfresh.2 (h.sentIssued _ hsent),
              fun hstored => hfresh.2 (h.storedIssued _ hstored)⟩
          · obtain ⟨hissued, hsent, hstored⟩ := h.saving new hmem
            exact ⟨List.mem_cons_of_mem _ hissued, hsent, hstored⟩ }
  · exact h

theorem TokensOk.refreshSaved {c : Client} (h : TokensOk c []) (k : Nat) :
    TokensOk (c.refreshSaved k).1 (c.refreshSaved k).2 := by
  unfold Client.refreshSaved
  split
  · next new hsaving =>
    have hold := stage_getElem? hsaving
    have hk := flight_getElem? hold nofun
    have hidle : true ∉ (c.setRefresh k .ended).flights := by
      rw [flights_setRefresh_ended]
      exact h.slot.not_mem_set hk
    obtain ⟨hissued, hsent, -⟩ := h.saving new (List.mem_of_getElem? hold)
    exact
      { slot := SingleFlight.guarded_of_not_mem hidle
        chain := ⟨.ok new, .finalized k, fun _ => rfl⟩
        idle := fun _ => hidle
        nodup := h.nodup
        sentIssued := h.sentIssued
        storedIssued := fun t ht => Option.some.inj ht ▸ hissued
        stored := fun t ht hmem => absurd hmem (Option.some.inj ht ▸ hsent)
        saving := fun new hnew => absurd hnew (not_saving_of_idle hidle new) }
  · exact h

theorem TokensOk.task {c : Client} (h : TokensOk c []) {t : Task} (ht : c.Orderly t) :
    TokensOk (runTask t c).1 (runTask t c).2 := by
  cases t with
  | apiRequest method path body => exact h.quiet ⟨rfl, rfl, rfl, .inl rfl⟩
  | configured i => exact h.quiet (quiet_configured c i)
  | respond i answer => exact h.respond i answer ht
  | body i json => exact h.quiet (quiet_body c i json)
  | refreshRespond k answer => exact h.refreshRespond k ht
  | refreshCleared k => exact h.refreshCleared k
  | refreshBody k tokens => exact h.refreshBody k ht
  | refreshSaved k => exact h.refreshSaved k
  | login serverUrl accessToken refreshToken =>
    exact
      { slot := h.slot
        chain := ⟨.error "", .resumes nofun, fun hne => absurd rfl hne⟩
        idle := fun hne => absurd rfl hne
        nodup := h.nodup
        sentIssued := fun t hmem => List.mem_cons_of_mem _ (h.sentIssued t hmem)
        storedIssued := fun t hmem => Option.some.inj hmem ▸ List.mem_cons_self
        stored := fun t hmem hsent =>
          absurd (h.sentIssued t hsent) (Option.some.inj hmem ▸ ht.2)
        saving := fun new hnew => by
          obtain ⟨hissued, hsent, -⟩ := h.saving new hnew
          refine ⟨List.mem_cons_of_mem _ hissued, hsent, fun hstored => ?_⟩
          have hsame : refreshToken = new.refreshToken := Option.some.inj hstored
          rw [← hsame] at hissued
          exact ht.2 hissued }
  | clearConfig =>
    exact
      { slot := h.slot
        chain := ⟨.error "", .resumes nofun, fun hne => absurd rfl hne⟩
        idle := fun hne => absurd rfl hne
        nodup := h.nodup
        sentIssued := h.sentIssued
        storedIssued := nofun
        stored := nofun
        saving := fun new hnew => ⟨(h.saving new hnew).1, (h.saving new hnew).2.1, nofun⟩ }

/-- Between jobs only the promise under way may go. -/
theorem TokensOk.next {c : Client} {j : Job} {js jobs : List Job} (h : TokensOk c (j :: js))
    {result : Except String Config} (hchain : Chain result jobs)
    (hlast : LastEnded c.log result) (promise : Option Nat) :
    TokensOk { c with refreshPromise := promise } jobs := by
  have hidle := h.idle (List.cons_ne_nil j js)
  exact
    { slot := SingleFlight.guarded_of_not_mem hidle
      chain := ⟨result, hchain, fun _ => hlast⟩
      idle := fun _ => hidle
      nodup := h.nodup
      sentIssued := h.sentIssued
      storedIssued := h.storedIssued
      stored := h.stored
      saving := h.saving }

theorem TokensOk.job {c : Client} {j : Job} {js : List Job} (h : TokensOk c (j :: js)) :
    TokensOk (runJob j c).1 (js ++ (runJob j c).2) := by
  obtain ⟨result, hchain, hall⟩ := h.chain
  have hlast := hall (List.cons_ne_nil j js)
  clear hall
  cases hchain with
  | finalized k => exact h.next (.settled k) hlast none
  | settled k =>
    refine h.next (.resumes fun j hj => ?_) hlast c.refreshPromise
    obtain ⟨i, -, hi⟩ := List.mem_map.mp hj
    exact ⟨i, hi.symm⟩
  | resumes hjs =>
    obtain ⟨i, rfl⟩ := hjs j List.mem_cons_self
    have hrest : Chain result (js ++ []) := by
      rw [List.append_nil]
      exact .resumes fun j hj => hjs j (List.mem_cons_of_mem _ hj)
    exact (h.next hrest hlast c.refreshPromise).quiet (quiet_resume c i result)

end Extension

end IronStock

import Mathlib.Algebra.Group.Nat.Defs
import IronStock.Lib.Runs

/-!
# The WebSocket client

`web/src/api/ws.ts` in its browser. What the browser keeps for the client (the requests
under way, the sockets, the timeouts and the intervals) is part of the state, and its
events come in any order. What the page does with a message is left out.
-/
namespace IronStock.WsClient

/-! ## The browser -/

inductive Status
  | connecting
  | connected
  | reconnecting
  | offline
deriving DecidableEq

/-- `WsStatusDetail` -/
structure Detail where
  status : Status
  errorReason : Option String
  attempt : Nat
  nextRetryIn : Option Nat
deriving DecidableEq

inductive ReadyState
  | connecting
  | open
  | closing
  | closed
deriving DecidableEq

structure Socket where
  ticket : String
  state : ReadyState

/-- What becomes of a request for a ticket. -/
inductive TicketAnswer
  | noSession
  | status (code : Nat)
  | failed (message : String)
  | ok (ticket : String)

/-- The fields of `WsClient`, and what the browser keeps for it. A timeout is kept with its
delay, an interval with the seconds its callback has left. -/
structure Page where
  socket : Option Nat
  attempt : Nat
  retryTimer : Option Nat
  retryCountdown : Option Nat
  destroyed : Bool
  statusListeners : List Nat
  detail : Detail
  told : List (Nat × Detail)
  fetching : Nat
  sockets : List Socket
  timeouts : List (Nat × Nat)
  intervals : List (Nat × Nat)
  nextTimer : Nat

inductive Event
  /-- a request for a ticket ends; `new WebSocket` may throw -/
  | answered (answer : TicketAnswer) (refused : Option String)
  | opened (socket : Nat)
  | closed (socket : Nat) (code : Nat) (reason : String)
  | ticked (interval : Nat)
  | fired (timeout : Nat)
  | subscribed (listener : Nat)
  | unsubscribed (listener : Nat)
  | destroy

/-! ## Texts -/

/-- `s.includes(part)` -/
def includes (s part : String) : Bool := s.toList.tails.any fun t => part.toList.isPrefixOf t

/-- The message of the error `fetchWsTicket` throws. -/
def TicketAnswer.message : TicketAnswer → String
  | .noSession => "Oturum yok — ticket alınamadı"
  | .status code => "Ticket endpoint hatası: " ++ toString code
  | .failed message => message
  | .ok _ => ""

def ticketReason (msg : String) : String :=
  if includes msg "401" || includes msg "Oturum" then
    "Oturum geçersiz — ticket alınamadı (401)"
  else if includes msg "404" then "Ticket endpoint bulunamadı (404)"
  else if includes msg "500" then "Sunucu hatası — ticket alınamadı (500)"
  else "Ağ hatası — ticket alınamadı: " ++ msg

def closeReason (code : Nat) (reason : String) : String :=
  if reason ≠ "" then "Bağlantı kapandı: " ++ reason ++ " (kod: " ++ toString code ++ ")"
  else if code = 1006 then "Bağlantı anormal şekilde kapandı (ağ sorunu olabilir)"
  else if code = 4001 then "Kimlik doğrulama hatası — ticket geçersiz veya süresi doldu"
  else if code = 4003 then "Yetkisiz — oturumu yenileyin"
  else "Bağlantı kapandı (kod: " ++ toString code ++ ")"

/-! ## The client -/

def backoffDelay (attempt : Nat) : Nat := min (1000 * 2 ^ attempt) 30000

/-- `Math.round(delay / 1000)` -/
def seconds (delay : Nat) : Nat := (delay + 500) / 1000

namespace Page

def setDetail (p : Page) (d : Detail) : Page :=
  { p with detail := d, told := p.told ++ p.statusListeners.map (·, d) }

def clearCountdown (p : Page) : Page :=
  match p.retryCountdown with
  | none => p
  | some id => { p with
      intervals := p.intervals.filter fun e => e.1 ≠ id
      retryCountdown := none }

/-- The status of an attempt under way. -/
def shown (attempt : Nat) : Status := if attempt = 0 then .connecting else .reconnecting

/-- `connect`, up to its first `await`. -/
def connect (p : Page) : Page :=
  if p.destroyed then p
  else
    let p := p.clearCountdown
    let p := p.setDetail
      { p.detail with status := shown p.attempt, nextRetryIn := none, attempt := p.attempt }
    { p with fetching := p.fetching + 1 }

def scheduleReconnect (p : Page) (reason : String) : Page :=
  if p.destroyed then p
  else
    let delay := backoffDelay p.attempt
    let p := { p with attempt := p.attempt + 1 }
    let p := p.setDetail ⟨.reconnecting, some reason, p.attempt, some (seconds delay)⟩
    { p with
      retryCountdown := some p.nextTimer
      intervals := p.intervals ++ [(p.nextTimer, seconds delay)]
      retryTimer := some (p.nextTimer + 1)
      timeouts := p.timeouts ++ [(p.nextTimer + 1, delay)]
      nextTimer := p.nextTimer + 2 }

/-- `connect`, after the request. -/
def answered (p : Page) (answer : TicketAnswer) (refused : Option String) : Page :=
  if p.fetching = 0 then p
  else
    let p := { p with fetching := p.fetching - 1 }
    match answer, refused with
    | .ok ticket, none =>
      if p.destroyed then p
      else { p with
        socket := some p.sockets.length
        sockets := p.sockets ++ [⟨ticket, .connecting⟩] }
    | .ok _, some message =>
      if p.destroyed then p else p.scheduleReconnect ("WebSocket açılamadı: " ++ message)
    | failure, _ => p.scheduleReconnect (ticketReason failure.message)

def setState (p : Page) (i : Nat) (s : Socket) (state : ReadyState) : Page :=
  { p with sockets := p.sockets.set i { s with state := state } }

/-- `onopen` of a socket that was connecting. -/
def opened (p : Page) (i : Nat) : Page :=
  match p.sockets[i]? with
  | some s =>
    if s.state = .connecting then
      ({ p.setState i s .open with attempt := 0 }.clearCountdown).setDetail
        ⟨.connected, none, 0, none⟩
    else p
  | none => p

/-- `onclose` of a socket that was not closed. -/
def closed (p : Page) (i code : Nat) (reason : String) : Page :=
  match p.sockets[i]? with
  | some s =>
    if s.state = .closed then p
    else
      let p := p.setState i s .closed
      if p.destroyed then p else p.scheduleReconnect (closeReason code reason)
  | none => p

/-- The callback of the countdown. -/
def ticked (p : Page) (id : Nat) : Page :=
  match p.intervals.find? fun e : Nat × Nat => e.1 = id with
  | none => p
  | some e =>
    let remaining := e.2 - 1
    let p := { p with
      intervals := p.intervals.map fun e : Nat × Nat => if e.1 = id then (id, remaining) else e }
    if remaining = 0 then p.clearCountdown
    else p.setDetail { p.detail with nextRetryIn := some remaining }

/-- The callback of a timeout, which is gone by then. -/
def fired (p : Page) (id : Nat) : Page :=
  if p.timeouts.any fun e => e.1 = id then
    { p with timeouts := p.timeouts.filter fun e => e.1 ≠ id }.connect
  else p

/-- `clearTimeout(this.retryTimer)`, if there is one. -/
def clearRetryTimer (p : Page) : Page :=
  match p.retryTimer with
  | none => p
  | some id => { p with timeouts := p.timeouts.filter fun e => e.1 ≠ id }

/-- `this.socket?.close()`; the `onclose` comes later. -/
def closeSocket (p : Page) : Page :=
  match p.socket with
  | none => p
  | some i =>
    match p.sockets[i]? with
    | some s => if s.state = .closed then p else p.setState i s .closing
    | none => p

def destroy (p : Page) : Page :=
  let p := { p with destroyed := true }.clearCountdown.clearRetryTimer.closeSocket
  let p := p.setDetail { p.detail with status := .offline, nextRetryIn := none }
  { p with statusListeners := [] }

/-- `constructor` -/
def start : Page :=
  connect {
    socket := none, attempt := 0, retryTimer := none, retryCountdown := none, destroyed := false
    statusListeners := [], detail := ⟨.connecting, none, 0, none⟩, told := [], fetching := 0
    sockets := [], timeouts := [], intervals := [], nextTimer := 0 }

def step (p : Page) : Event → Page
  | .answered answer refused => p.answered answer refused
  | .opened i => p.opened i
  | .closed i code reason => p.closed i code reason
  | .ticked id => p.ticked id
  | .fired id => p.fired id
  | .subscribed l => { p with
      statusListeners := if l ∈ p.statusListeners then p.statusListeners
        else p.statusListeners ++ [l] }
  | .unsubscribed l => { p with statusListeners := p.statusListeners.filter (· ≠ l) }
  | .destroy => p.destroy

end Page

/-! ## Invariant -/

inductive Outcome
  | opened
  | lost

/-- The attempts that have failed since a connection last stood, or from the start. -/
def failures : List Outcome → Nat
  | [] => 0
  | .opened :: _ => 0
  | .lost :: earlier => failures earlier + 1

/-- What an event says about the connection. -/
def Page.outcome (p : Page) : Event → Option Outcome
  | .answered (.ok _) none => none
  | .answered _ _ => if p.fetching = 0 ∨ p.destroyed then none else some .lost
  | .opened i => if (p.sockets[i]?.map Socket.state) = some .connecting then some .opened else none
  | .closed i _ _ =>
    match p.sockets[i]? with
    | some s => if s.state = .closed ∨ p.destroyed then none else some .lost
    | none => none
  | _ => none

/-- A page with what has become of its connections, the last one first. -/
structure Watched where
  page : Page
  history : List Outcome

def Watched.step (w : Watched) (e : Event) : Watched :=
  ⟨w.page.step e, (w.page.outcome e).toList ++ w.history⟩

/-- No socket but this one is not closed yet. -/
def Alone (sockets : List Socket) (i : Option Nat) : Prop :=
  ∀ j s, sockets[j]? = some s → some j ≠ i → s.state = .closed

/-- The countdown of a retry, if it still runs. -/
def Counting (p : Page) : Prop :=
  (p.intervals = [] ∧ p.retryCountdown = none) ∨
    ∃ id n, p.intervals = [(id, n)] ∧ p.retryCountdown = some id ∧ 1 ≤ n ∧ n ≤ 30 ∧
      p.detail.nextRetryIn = some n

/-- What the client is at: one thing at a time. -/
inductive Doing (p : Page) : Prop
  | ticket (fetching : p.fetching = 1) (sockets : Alone p.sockets none)
      (timeouts : p.timeouts = []) (intervals : p.intervals = [] ∧ p.retryCountdown = none)
      (status : p.detail.status = Page.shown p.attempt)
  | connection (i : Nat) (s : Socket) (fetching : p.fetching = 0) (socket : p.socket = some i)
      (this : p.sockets[i]? = some s) (sockets : Alone p.sockets (some i))
      (timeouts : p.timeouts = []) (intervals : p.intervals = [] ∧ p.retryCountdown = none)
      (status : (s.state = .connecting ∧ p.detail.status = Page.shown p.attempt) ∨
        (s.state = .open ∧ p.detail.status = .connected))
  | retry (id : Nat) (fetching : p.fetching = 0) (sockets : Alone p.sockets none)
      (timer : p.retryTimer = some id) (attempt : 0 < p.attempt)
      (timeouts : p.timeouts = [(id, backoffDelay (p.attempt - 1))]) (counting : Counting p)
      (status : p.detail.status = .reconnecting)

/-- After `destroy`. -/
structure Ended (p : Page) : Prop where
  destroyed : p.destroyed = true
  timeouts : p.timeouts = []
  intervals : p.intervals = []
  countdown : p.retryCountdown = none
  sockets : ∀ s ∈ p.sockets, s.state = .closing ∨ s.state = .closed
  status : p.detail.status = .offline

def Ok (p : Page) : Prop := (p.destroyed = false ∧ Doing p) ∨ Ended p

section Invariant

variable {p : Page}

namespace Page

theorem clearCountdown_eq (h : Counting p) :
    p.clearCountdown = { p with intervals := [], retryCountdown := none } := by
  obtain ⟨hintervals, hcountdown⟩ | ⟨id, n, hintervals, hcountdown, _⟩ := h
  · rw [clearCountdown, hcountdown]
    dsimp only
    rw [← hintervals, ← hcountdown]
  · rw [clearCountdown, hcountdown]
    dsimp only
    rw [hintervals]
    simp

theorem seconds_backoffDelay (n : Nat) :
    1 ≤ seconds (backoffDelay n) ∧ seconds (backoffDelay n) ≤ 30 := by
  have hpow : 1 ≤ 2 ^ n := Nat.one_le_two_pow
  rw [seconds, backoffDelay]
  omega

/-- A request is sent when nothing else is under way. -/
theorem doing_connect (hdestroyed : p.destroyed = false) (hfetching : p.fetching = 0)
    (hsockets : Alone p.sockets none) (htimeouts : p.timeouts = []) (hcounting : Counting p) :
    p.connect.destroyed = false ∧ Doing p.connect := by
  have hclear := clearCountdown_eq hcounting
  rw [connect, hdestroyed, if_neg Bool.false_ne_true]
  dsimp only
  rw [hclear]
  refine ⟨hdestroyed, .ticket ?_ hsockets htimeouts ⟨rfl, rfl⟩ rfl⟩
  show p.fetching + 1 = 1
  omega

/-- So is a retry scheduled. -/
theorem doing_scheduleReconnect (hdestroyed : p.destroyed = false) (hfetching : p.fetching = 0)
    (hsockets : Alone p.sockets none) (htimeouts : p.timeouts = [])
    (hintervals : p.intervals = []) (reason : String) :
    (p.scheduleReconnect reason).destroyed = false ∧ Doing (p.scheduleReconnect reason) := by
  obtain ⟨hone, hthirty⟩ := seconds_backoffDelay p.attempt
  have hlive : ¬ p.destroyed = true := by rw [hdestroyed]; exact Bool.false_ne_true
  rw [scheduleReconnect, if_neg hlive]
  refine ⟨hdestroyed, .retry (p.nextTimer + 1) hfetching hsockets rfl (Nat.succ_pos _) ?_ ?_ rfl⟩
  · show p.timeouts ++ [(p.nextTimer + 1, backoffDelay p.attempt)] = _
    rw [htimeouts]
    rfl
  · refine Or.inr ⟨p.nextTimer, seconds (backoffDelay p.attempt), ?_, rfl, hone, hthirty, rfl⟩
    show p.intervals ++ [(p.nextTimer, seconds (backoffDelay p.attempt))] = _
    rw [hintervals]
    rfl

end Page

theorem Alone.set {sockets : List Socket} {i : Nat} (h : Alone sockets (some i)) (s : Socket)
    (state : ReadyState) : Alone (sockets.set i { s with state := state }) (some i) := by
  intro j t ht hne
  have hij : i ≠ j := fun heq => hne (congrArg some heq.symm)
  rw [List.getElem?_set_ne hij] at ht
  exact h j t ht hne

theorem Alone.set_closed {sockets : List Socket} {i : Nat} (h : Alone sockets (some i))
    (s : Socket) : Alone (sockets.set i { s with state := .closed }) none := by
  intro j t ht _
  by_cases hij : i = j
  · subst hij
    rw [List.getElem?_set] at ht
    simp only [if_true] at ht
    split at ht
    · rw [← Option.some.inj ht]
    · cases ht
  · rw [List.getElem?_set_ne hij] at ht
    exact h j t ht fun heq => hij (Option.some.inj heq).symm

theorem Alone.append {sockets : List Socket} (h : Alone sockets none) (s : Socket) :
    Alone (sockets ++ [s]) (some sockets.length) := by
  intro j t ht hne
  obtain hlt | hle := Nat.lt_or_ge j sockets.length
  · rw [List.getElem?_append_left hlt] at ht
    exact h j t ht (Option.some_ne_none j)
  · obtain heq | hgt := Nat.eq_or_lt_of_le hle
    · exact absurd (congrArg some heq.symm) hne
    · rw [List.getElem?_eq_none (by rw [List.length_append, List.length_singleton]; omega)] at ht
      cases ht

theorem Doing.alone (h : Doing p) : ∃ i, Alone p.sockets i ∧ (i = none ∨ i = p.socket) := by
  cases h with
  | ticket fetching sockets => exact ⟨none, sockets, Or.inl rfl⟩
  | connection i s fetching socket this sockets => exact ⟨some i, sockets, Or.inr socket.symm⟩
  | retry id fetching sockets => exact ⟨none, sockets, Or.inl rfl⟩

theorem Doing.counting (h : Doing p) : Counting p := by
  cases h with
  | ticket fetching sockets timeouts intervals => exact Or.inl intervals
  | connection i s fetching socket this sockets timeouts intervals => exact Or.inl intervals
  | retry id fetching sockets timer attempt timeouts counting => exact counting

theorem ok_start : Ok Page.start :=
  Or.inl (Page.doing_connect rfl rfl (fun j s hs _ => by cases hs) rfl (Or.inl ⟨rfl, rfl⟩))

theorem Ended.setState {i : Nat} {s : Socket} {state : ReadyState} (h : Ended p)
    (hstate : state = .closing ∨ state = .closed) : Ended (p.setState i s state) where
  destroyed := h.destroyed
  timeouts := h.timeouts
  intervals := h.intervals
  countdown := h.countdown
  sockets t ht := by
    obtain ht | rfl := List.mem_or_eq_of_mem_set ht
    · exact h.sockets t ht
    · exact hstate
  status := h.status

theorem ok_answered (h : Ok p) (answer : TicketAnswer) (refused : Option String) :
    Ok (p.answered answer refused) := by
  rw [Page.answered]
  split
  · exact h
  · next hfetching =>
    obtain ⟨hdestroyed, hdoing⟩ | hended := h
    · cases hdoing with
      | ticket fetching sockets timeouts intervals status =>
        have hidle : p.fetching - 1 = 0 := by rw [fetching]
        have hlive : ¬ p.destroyed = true := by rw [hdestroyed]; exact Bool.false_ne_true
        have hretry : ∀ reason,
            Ok (Page.scheduleReconnect { p with fetching := p.fetching - 1 } reason) := by
          intro reason
          exact Or.inl (@Page.doing_scheduleReconnect { p with fetching := p.fetching - 1 }
            hdestroyed hidle sockets timeouts intervals.1 reason)
        dsimp only
        split
        · next ticket =>
          rw [if_neg hlive]
          refine Or.inl ⟨hdestroyed, .connection p.sockets.length ⟨ticket, .connecting⟩ hidle rfl
            ?_ (sockets.append _) timeouts intervals (Or.inl ⟨rfl, status⟩)⟩
          show (p.sockets ++ [_])[p.sockets.length]? = _
          rw [List.getElem?_concat_length]
        · next message =>
          rw [if_neg hlive]
          exact hretry _
        · exact hretry _
      | connection i s fetching => exact absurd fetching hfetching
      | retry id fetching => exact absurd fetching hfetching
    · have hstay : Ok { p with fetching := p.fetching - 1 } :=
        Or.inr ⟨hended.destroyed, hended.timeouts, hended.intervals, hended.countdown,
          hended.sockets, hended.status⟩
      have hdestroyed : p.destroyed = true := hended.destroyed
      dsimp only
      split
      · rw [if_pos hdestroyed]
        exact hstay
      · rw [if_pos hdestroyed]
        exact hstay
      · rw [Page.scheduleReconnect, if_pos hdestroyed]
        exact hstay

/-- A socket that is not closed is the connection. -/
theorem Doing.of_live {i : Nat} {s : Socket} (h : Doing p) (hs : p.sockets[i]? = some s)
    (hlive : s.state ≠ .closed) :
    p.fetching = 0 ∧ p.socket = some i ∧ Alone p.sockets (some i) ∧ p.timeouts = [] ∧
      p.intervals = [] ∧ p.retryCountdown = none := by
  cases h with
  | ticket fetching sockets => exact absurd (sockets i s hs (Option.some_ne_none i)) hlive
  | connection j t fetching socket this sockets timeouts intervals =>
    by_cases hij : j = i
    · subst hij
      exact ⟨fetching, socket, sockets, timeouts, intervals⟩
    · exact absurd (sockets i s hs fun heq => hij (Option.some.inj heq).symm) hlive
  | retry id fetching sockets => exact absurd (sockets i s hs (Option.some_ne_none i)) hlive

theorem ok_opened (h : Ok p) (i : Nat) : Ok (p.opened i) := by
  rw [Page.opened]
  split
  · next s hs =>
    split
    · next hconnecting =>
      obtain ⟨hdestroyed, hdoing⟩ | hended := h
      · have hlive : s.state ≠ .closed := by rw [hconnecting]; exact ReadyState.noConfusion
        obtain ⟨hfetching, hsocket, hsockets, htimeouts, hintervals⟩ := hdoing.of_live hs hlive
        have hlt := (List.getElem?_eq_some_iff.mp hs).1
        have hcounting : Counting { p.setState i s .open with attempt := 0 } := Or.inl hintervals
        rw [Page.clearCountdown_eq hcounting]
        refine Or.inl ⟨hdestroyed, .connection i { s with state := .open } hfetching hsocket ?_
          (hsockets.set s .open) htimeouts ⟨rfl, rfl⟩ (Or.inr ⟨rfl, rfl⟩)⟩
        show (p.sockets.set i { s with state := .open })[i]? = _
        rw [List.getElem?_set_self hlt]
      · have hstate := hended.sockets s (List.mem_of_getElem? hs)
        rw [hconnecting] at hstate
        obtain hstate | hstate := hstate
        · cases hstate
        · cases hstate
    · exact h
  · exact h

theorem ok_closed (h : Ok p) (i code : Nat) (reason : String) : Ok (p.closed i code reason) := by
  rw [Page.closed]
  split
  · next s hs =>
    split
    · exact h
    · next hlive =>
      dsimp only
      obtain ⟨hdestroyed, hdoing⟩ | hended := h
      · have hsame : (p.setState i s .closed).destroyed = false := hdestroyed
        obtain ⟨hfetching, _, hsockets, htimeouts, hintervals, _⟩ := hdoing.of_live hs hlive
        rw [hsame, if_neg Bool.false_ne_true]
        exact Or.inl (Page.doing_scheduleReconnect hsame hfetching (hsockets.set_closed s)
          htimeouts hintervals _)
      · have hsame : (p.setState i s .closed).destroyed = true := hended.destroyed
        rw [hsame, if_pos rfl]
        exact Or.inr (hended.setState (Or.inr rfl))
  · exact h

theorem ok_ticked (h : Ok p) (id : Nat) : Ok (p.ticked id) := by
  rw [Page.ticked]
  split
  · exact h
  · next e he =>
    have hmem := List.mem_of_find?_eq_some he
    have hid : e.1 = id := by simpa using List.find?_some he
    obtain ⟨hdestroyed, hdoing⟩ | hended := h
    · cases hdoing with
      | ticket fetching sockets timeouts intervals => rw [intervals.1] at hmem; cases hmem
      | connection i s fetching socket this sockets timeouts intervals =>
        rw [intervals.1] at hmem
        cases hmem
      | retry timer fetching sockets htimer attempt timeouts counting status =>
        obtain ⟨hnone, _⟩ | ⟨c, n, hintervals, hcountdown, hone, hthirty, hshown⟩ := counting
        · rw [hnone] at hmem
          cases hmem
        · rw [hintervals, List.mem_singleton] at hmem
          subst hmem
          subst hid
          have hleft : (p.intervals.map fun e => if e.1 = c then (c, n - 1) else e) =
              [(c, n - 1)] := by
            rw [hintervals]
            simp
          dsimp only
          rw [hleft]
          split
          · next hzero =>
            -- the callback clears its own interval
            rw [Page.clearCountdown, hcountdown]
            refine Or.inl ⟨hdestroyed, .retry timer fetching sockets htimer attempt timeouts
              (Or.inl ⟨?_, rfl⟩) status⟩
            simp
          · next hmore =>
            have hpos : 1 ≤ n - 1 := by omega
            have hle : n - 1 ≤ 30 := by omega
            exact Or.inl ⟨hdestroyed, .retry timer fetching sockets htimer attempt timeouts
              (Or.inr ⟨c, n - 1, rfl, hcountdown, hpos, hle, rfl⟩) status⟩
    · rw [hended.intervals] at hmem
      cases hmem

theorem ok_fired (h : Ok p) (id : Nat) : Ok (p.fired id) := by
  rw [Page.fired]
  split
  · next hany =>
    obtain ⟨e, hmem, hid⟩ := List.any_eq_true.mp hany
    obtain ⟨hdestroyed, hdoing⟩ | hended := h
    · cases hdoing with
      | ticket fetching sockets timeouts => rw [timeouts] at hmem; cases hmem
      | connection i s fetching socket this sockets timeouts => rw [timeouts] at hmem; cases hmem
      | retry timer fetching sockets htimer attempt timeouts counting status =>
        rw [timeouts, List.mem_singleton] at hmem
        subst hmem
        have hgone : (p.timeouts.filter fun e => e.1 ≠ id) = [] := by
          rw [timeouts]
          simpa using hid
        have hcounting : Counting { p with timeouts := p.timeouts.filter fun e => e.1 ≠ id } :=
          counting
        exact Or.inl (Page.doing_connect hdestroyed fetching sockets hgone hcounting)
    · rw [hended.timeouts] at hmem
      cases hmem
  · exact h

namespace Page

theorem clearRetryTimer_eq
    (h : p.timeouts = [] ∨ ∃ id delay, p.retryTimer = some id ∧ p.timeouts = [(id, delay)]) :
    p.clearRetryTimer = { p with timeouts := [] } := by
  rw [clearRetryTimer]
  obtain htimeouts | ⟨id, delay, htimer, htimeouts⟩ := h
  · split
    · rw [← htimeouts]
    · rw [htimeouts, List.filter_nil]
  · rw [htimer]
    dsimp only
    rw [htimeouts]
    simp

/-- Afterwards no socket can open any more. -/
theorem closeSocket_eq (h : ∀ j s, p.sockets[j]? = some s → some j ≠ p.socket →
      s.state = .closing ∨ s.state = .closed) :
    ∃ sockets, p.closeSocket = { p with sockets := sockets } ∧
      ∀ s ∈ sockets, s.state = .closing ∨ s.state = .closed := by
  have hall : ∀ i, p.socket = i → (∀ j s, p.sockets[j]? = some s → some j = i →
      s.state = .closing ∨ s.state = .closed) →
      ∀ s ∈ p.sockets, s.state = .closing ∨ s.state = .closed := by
    intro i hi hthis s hs
    obtain ⟨j, hj⟩ := List.mem_iff_getElem?.mp hs
    by_cases hsame : some j = i
    · exact hthis j s hj hsame
    · exact h j s hj (hi ▸ hsame)
  rw [closeSocket]
  split
  · next hnone =>
    exact ⟨p.sockets, rfl, hall none hnone fun j _ _ hj => absurd hj (Option.some_ne_none j)⟩
  · next i hi =>
    split
    · next s hs =>
      split
      · next hclosed =>
        refine ⟨p.sockets, rfl, hall (some i) hi fun j t ht hj => ?_⟩
        rw [Option.some.inj hj, hs] at ht
        rw [← Option.some.inj ht]
        exact Or.inr hclosed
      · refine ⟨_, rfl, fun t ht => ?_⟩
        obtain ⟨j, hj⟩ := List.mem_iff_getElem?.mp ht
        by_cases hsame : i = j
        · subst hsame
          rw [List.getElem?_set_self (List.getElem?_eq_some_iff.mp hs).1] at hj
          rw [← Option.some.inj hj]
          exact Or.inl rfl
        · rw [List.getElem?_set_ne hsame] at hj
          refine h j t hj fun heq => ?_
          rw [hi] at heq
          exact hsame (Option.some.inj heq).symm
    · next hnone =>
      refine ⟨p.sockets, rfl, hall (some i) hi fun j t ht hj => ?_⟩
      rw [Option.some.inj hj, hnone] at ht
      cases ht

end Page

/-- Nothing of the client is left but a request that may still end and a socket that may
still close. -/
theorem ended_destroy (h : Ok p) : Ended p.destroy := by
  have hcounting : Counting { p with destroyed := true } := by
    obtain ⟨_, hdoing⟩ | hended := h
    · exact hdoing.counting
    · exact Or.inl ⟨hended.intervals, hended.countdown⟩
  have htimeouts : p.timeouts = [] ∨
      ∃ id delay, p.retryTimer = some id ∧ p.timeouts = [(id, delay)] := by
    obtain ⟨_, hdoing⟩ | hended := h
    · cases hdoing with
      | ticket fetching sockets timeouts => exact Or.inl timeouts
      | connection i s fetching socket this sockets timeouts => exact Or.inl timeouts
      | retry id fetching sockets timer attempt timeouts => exact Or.inr ⟨id, _, timer, timeouts⟩
    · exact Or.inl hended.timeouts
  have hsockets : ∀ j s, p.sockets[j]? = some s → some j ≠ p.socket →
      s.state = .closing ∨ s.state = .closed := by
    intro j s hs hne
    obtain ⟨_, hdoing⟩ | hended := h
    · obtain ⟨i, halone, rfl | rfl⟩ := hdoing.alone
      · exact Or.inr (halone j s hs (Option.some_ne_none j))
      · exact Or.inr (halone j s hs hne)
    · exact hended.sockets s (List.mem_of_getElem? hs)
  rw [Page.destroy, Page.clearCountdown_eq hcounting]
  rw [Page.clearRetryTimer_eq (p := { p with
    destroyed := true, intervals := [], retryCountdown := none }) htimeouts]
  obtain ⟨sockets, hclose, hstates⟩ := Page.closeSocket_eq (p := { p with
    destroyed := true, intervals := [], retryCountdown := none, timeouts := [] }) hsockets
  rw [hclose]
  exact ⟨rfl, rfl, rfl, rfl, hstates, rfl⟩

theorem Ok.listeners (h : Ok p) (ls : List Nat) : Ok { p with statusListeners := ls } := by
  obtain ⟨hdestroyed, hdoing⟩ | hended := h
  · refine Or.inl ⟨hdestroyed, ?_⟩
    cases hdoing with
    | ticket fetching sockets timeouts intervals status =>
      exact .ticket fetching sockets timeouts intervals status
    | connection i s fetching socket this sockets timeouts intervals status =>
      exact .connection i s fetching socket this sockets timeouts intervals status
    | retry id fetching sockets timer attempt timeouts counting status =>
      exact .retry id fetching sockets timer attempt timeouts counting status
  · exact Or.inr ⟨hended.destroyed, hended.timeouts, hended.intervals, hended.countdown,
      hended.sockets, hended.status⟩

theorem Ok.step (h : Ok p) (e : Event) : Ok (p.step e) := by
  cases e with
  | answered answer refused => exact ok_answered h answer refused
  | opened i => exact ok_opened h i
  | closed i code reason => exact ok_closed h i code reason
  | ticked id => exact ok_ticked h id
  | fired id => exact ok_fired h id
  | subscribed l => exact h.listeners _
  | unsubscribed l => exact h.listeners _
  | destroy => exact Or.inr (ended_destroy h)

/-! ## Attempts -/

/-- The attempts the client counts, and those it shows. -/
structure Counted (w : Watched) : Prop where
  attempt : w.page.attempt = failures w.history
  shown : w.page.detail.attempt = w.page.attempt

theorem Page.clearCountdown_frame (p : Page) :
    p.clearCountdown.attempt = p.attempt ∧ p.clearCountdown.detail = p.detail := by
  rw [clearCountdown]
  split
  · exact ⟨rfl, rfl⟩
  · exact ⟨rfl, rfl⟩

theorem Page.connect_attempt (p : Page) (h : p.detail.attempt = p.attempt) :
    p.connect.attempt = p.attempt ∧ p.connect.detail.attempt = p.attempt := by
  obtain ⟨hattempt, hdetail⟩ := p.clearCountdown_frame
  rw [connect]
  split
  · exact ⟨rfl, h⟩
  · exact ⟨hattempt, hattempt⟩

theorem Page.scheduleReconnect_attempt (p : Page) (reason : String)
    (h : p.destroyed = false) :
    (p.scheduleReconnect reason).attempt = p.attempt + 1 ∧
      (p.scheduleReconnect reason).detail.attempt = p.attempt + 1 := by
  rw [scheduleReconnect, h, if_neg Bool.false_ne_true]
  exact ⟨rfl, rfl⟩

/-- What becomes of the counted attempts. -/
structure Counts (p p' : Page) (o : Option Outcome) : Prop where
  attempt : p'.attempt = match o with
    | none => p.attempt
    | some .opened => 0
    | some .lost => p.attempt + 1
  shown : p'.detail.attempt = p'.attempt

theorem counts_lost (hdestroyed : p.destroyed = false) (reason : String) :
    Counts p (p.scheduleReconnect reason) (some .lost) := by
  obtain ⟨hattempt, hdetail⟩ := p.scheduleReconnect_attempt reason hdestroyed
  exact ⟨hattempt, hdetail.trans hattempt.symm⟩

theorem counts_answered (h : p.detail.attempt = p.attempt) (answer : TicketAnswer)
    (refused : Option String) :
    Counts p (p.answered answer refused) (p.outcome (.answered answer refused)) := by
  have hsame : Counts p p none := ⟨rfl, h⟩
  have hwaiting : Counts p { p with fetching := p.fetching - 1 } none := ⟨rfl, h⟩
  rw [Page.answered]
  by_cases hfetching : p.fetching = 0
  · rw [if_pos hfetching]
    cases answer <;> cases refused <;> simpa [Page.outcome, hfetching] using hsame
  · rw [if_neg hfetching]
    cases hdestroyed : p.destroyed with
    | true =>
      cases answer <;> cases refused <;>
        simpa [Page.outcome, hdestroyed, Page.scheduleReconnect] using hwaiting
    | false =>
      have hlost : ∀ reason, Counts p (Page.scheduleReconnect
          { p with fetching := p.fetching - 1 } reason) (some .lost) := by
        intro reason
        have hcounts := @counts_lost { p with fetching := p.fetching - 1 } hdestroyed reason
        exact ⟨hcounts.attempt, hcounts.shown⟩
      cases answer with
      | ok ticket =>
        cases refused with
        | none =>
          rw [Page.outcome]
          dsimp only
          rw [if_neg Bool.false_ne_true]
          exact ⟨rfl, h⟩
        | some message => simpa [Page.outcome, hfetching, hdestroyed] using hlost _
      | noSession => simpa [Page.outcome, hfetching, hdestroyed] using hlost _
      | status code => simpa [Page.outcome, hfetching, hdestroyed] using hlost _
      | failed message => simpa [Page.outcome, hfetching, hdestroyed] using hlost _

theorem counts_opened (h : p.detail.attempt = p.attempt) (i : Nat) :
    Counts p (p.opened i) (p.outcome (.opened i)) := by
  rw [Page.opened, Page.outcome]
  cases hs : p.sockets[i]? with
  | none => exact ⟨rfl, h⟩
  | some s =>
    dsimp only [Option.map_some]
    by_cases hstate : s.state = .connecting
    · rw [if_pos hstate, if_pos (congrArg some hstate)]
      obtain ⟨hattempt, _⟩ := Page.clearCountdown_frame
        { p.setState i s .open with attempt := 0 }
      exact ⟨hattempt, hattempt.symm⟩
    · rw [if_neg hstate, if_neg fun heq => hstate (Option.some.inj heq)]
      exact ⟨rfl, h⟩

theorem counts_closed (h : p.detail.attempt = p.attempt) (i code : Nat) (reason : String) :
    Counts p (p.closed i code reason) (p.outcome (.closed i code reason)) := by
  rw [Page.closed, Page.outcome]
  cases hs : p.sockets[i]? with
  | none => exact ⟨rfl, h⟩
  | some s =>
    dsimp only
    by_cases hstate : s.state = .closed
    · rw [if_pos hstate, if_pos (Or.inl hstate)]
      exact ⟨rfl, h⟩
    · rw [if_neg hstate]
      have hsame : (p.setState i s .closed).destroyed = p.destroyed := rfl
      rw [hsame]
      cases hdestroyed : p.destroyed with
      | true =>
        rw [if_pos rfl, if_pos (Or.inr rfl)]
        exact ⟨rfl, h⟩
      | false =>
        have hnot : ¬ (s.state = .closed ∨ false = true) := by simpa using hstate
        rw [if_neg Bool.false_ne_true, if_neg hnot]
        have hcounts := @counts_lost (p.setState i s .closed) (hsame.trans hdestroyed)
          (closeReason code reason)
        exact ⟨hcounts.attempt, hcounts.shown⟩

theorem counts_ticked (h : p.detail.attempt = p.attempt) (id : Nat) :
    Counts p (p.ticked id) none := by
  rw [Page.ticked]
  split
  · exact ⟨rfl, h⟩
  · next e _ =>
    dsimp only
    split
    · obtain ⟨hattempt, hdetail⟩ := Page.clearCountdown_frame { p with
        intervals := p.intervals.map fun e' => if e'.1 = id then (id, e.2 - 1) else e' }
      refine ⟨hattempt, ?_⟩
      rw [hattempt, hdetail]
      exact h
    · exact ⟨rfl, h⟩

theorem counts_fired (h : p.detail.attempt = p.attempt) (id : Nat) :
    Counts p (p.fired id) none := by
  rw [Page.fired]
  split
  · obtain ⟨hattempt, hdetail⟩ := Page.connect_attempt
      { p with timeouts := p.timeouts.filter fun e => e.1 ≠ id } h
    exact ⟨hattempt, hdetail.trans hattempt.symm⟩
  · exact ⟨rfl, h⟩

theorem Page.closeSocket_frame (p : Page) :
    p.closeSocket.attempt = p.attempt ∧ p.closeSocket.detail = p.detail := by
  rw [closeSocket]
  split
  · exact ⟨rfl, rfl⟩
  · split
    · split <;> exact ⟨rfl, rfl⟩
    · exact ⟨rfl, rfl⟩

theorem Page.clearRetryTimer_frame (p : Page) :
    p.clearRetryTimer.attempt = p.attempt ∧ p.clearRetryTimer.detail = p.detail := by
  rw [clearRetryTimer]
  split
  · exact ⟨rfl, rfl⟩
  · exact ⟨rfl, rfl⟩

theorem counts_destroy (h : p.detail.attempt = p.attempt) : Counts p p.destroy none := by
  obtain ⟨hattempt₁, hdetail₁⟩ := Page.clearCountdown_frame { p with destroyed := true }
  obtain ⟨hattempt₂, hdetail₂⟩ :=
    Page.clearRetryTimer_frame { p with destroyed := true }.clearCountdown
  obtain ⟨hattempt₃, hdetail₃⟩ := Page.closeSocket_frame
    { p with destroyed := true }.clearCountdown.clearRetryTimer
  have hattempt : p.destroy.attempt = p.attempt :=
    hattempt₃.trans (hattempt₂.trans hattempt₁)
  refine ⟨hattempt, ?_⟩
  rw [hattempt, ← h]
  show (Page.closeSocket _).detail.attempt = _
  rw [hdetail₃, hdetail₂, hdetail₁]

theorem counts_step (h : p.detail.attempt = p.attempt) (e : Event) :
    Counts p (p.step e) (p.outcome e) := by
  cases e with
  | answered answer refused => exact counts_answered h answer refused
  | opened i => exact counts_opened h i
  | closed i code reason => exact counts_closed h i code reason
  | ticked id => exact counts_ticked h id
  | fired id => exact counts_fired h id
  | subscribed l => exact ⟨rfl, h⟩
  | unsubscribed l => exact ⟨rfl, h⟩
  | destroy => exact counts_destroy h

theorem Counted.step {w : Watched} (h : Counted w) (e : Event) : Counted (w.step e) := by
  obtain ⟨hattempt, hshown⟩ := counts_step h.shown e
  refine ⟨?_, hshown⟩
  rw [Watched.step]
  dsimp only
  rw [hattempt]
  cases w.page.outcome e with
  | none => exact h.attempt
  | some o =>
    cases o with
    | opened => rfl
    | lost => exact congrArg (· + 1) h.attempt

/-! ## Runs -/

/-- One thing at a time, and nothing after `destroy`. -/
structure OneAtATime (p : Page) : Prop where
  one : p.destroyed = false →
    p.fetching + p.sockets.countP (fun s => s.state ≠ .closed) + p.timeouts.length = 1
  ended : p.destroyed = true → p.timeouts = [] ∧ p.intervals = [] ∧
    (∀ s ∈ p.sockets, s.state = .closing ∨ s.state = .closed) ∧ p.detail.status = .offline
  countdown : p.intervals.length ≤ p.timeouts.length ∧
    ∀ e ∈ p.intervals, 1 ≤ e.2 ∧ e.2 ≤ 30 ∧ p.detail.nextRetryIn = some e.2
  connected : p.destroyed = false →
    (p.detail.status = .connected ↔ ∃ s ∈ p.sockets, s.state = .open)

theorem Alone.closed {sockets : List Socket} (h : Alone sockets none) :
    ∀ s ∈ sockets, s.state = .closed := by
  intro s hs
  obtain ⟨j, hj⟩ := List.mem_iff_getElem?.mp hs
  exact h j s hj (Option.some_ne_none j)

theorem Alone.countP_none {sockets : List Socket} (h : Alone sockets none) :
    sockets.countP (fun s => s.state ≠ .closed) = 0 := by
  rw [List.countP_eq_zero]
  intro s hs
  simp [h.closed s hs]

theorem Alone.countP_some {sockets : List Socket} {i : Nat} {s : Socket}
    (h : Alone sockets (some i)) (hs : sockets[i]? = some s) (hstate : s.state ≠ .closed) :
    sockets.countP (fun s => s.state ≠ .closed) = 1 := by
  induction sockets generalizing i with
  | nil => cases hs
  | cons t rest ih =>
    cases i with
    | zero =>
      obtain rfl := Option.some.inj hs
      have hrest : Alone rest none := by
        intro j u hu _
        exact h (j + 1) u hu fun heq => absurd (Option.some.inj heq) (Nat.succ_ne_zero j)
      rw [List.countP_cons, hrest.countP_none]
      simp [hstate]
    | succ i =>
      have hhead : t.state = .closed :=
        h 0 t rfl fun heq => absurd (Option.some.inj heq).symm (Nat.succ_ne_zero i)
      have hrest : Alone rest (some i) := by
        intro j u hu hne
        refine h (j + 1) u hu fun heq => hne ?_
        rw [Nat.succ.inj (Option.some.inj heq)]
      rw [List.countP_cons, ih hrest hs]
      simp [hhead]

theorem Page.shown_ne_connected (n : Nat) : shown n ≠ .connected := by
  rw [shown]
  split
  · exact Status.noConfusion
  · exact Status.noConfusion

theorem Ok.oneAtATime (h : Ok p) : OneAtATime p := by
  obtain ⟨hdestroyed, hdoing⟩ | hended := h
  · have hlive : p.destroyed ≠ true := by rw [hdestroyed]; exact Bool.false_ne_true
    have hnone : Alone p.sockets none → ¬ ∃ s ∈ p.sockets, s.state = .open := by
      rintro halone ⟨s, hs, hopen⟩
      rw [halone.closed s hs] at hopen
      cases hopen
    cases hdoing with
    | ticket fetching sockets timeouts intervals status =>
      refine ⟨fun _ => ?_, fun hd => absurd hd hlive, ?_, fun _ => ?_⟩
      · rw [fetching, sockets.countP_none, timeouts]
        rfl
      · rw [intervals.1]
        exact ⟨Nat.zero_le _, fun e he => absurd he List.not_mem_nil⟩
      · rw [status]
        exact iff_of_false (Page.shown_ne_connected _) (hnone sockets)
    | connection i s fetching socket this sockets timeouts intervals status =>
      have hstate : s.state ≠ .closed := by
        obtain ⟨hstate, _⟩ | ⟨hstate, _⟩ := status
        · rw [hstate]
          exact ReadyState.noConfusion
        · rw [hstate]
          exact ReadyState.noConfusion
      refine ⟨fun _ => ?_, fun hd => absurd hd hlive, ?_, fun _ => ?_⟩
      · rw [fetching, sockets.countP_some this hstate, timeouts]
        rfl
      · rw [intervals.1]
        exact ⟨Nat.zero_le _, fun e he => absurd he List.not_mem_nil⟩
      · obtain ⟨hconnecting, hstatus⟩ | ⟨hopen, hstatus⟩ := status
        · rw [hstatus]
          refine iff_of_false (Page.shown_ne_connected _) ?_
          rintro ⟨t, ht, hopen⟩
          obtain ⟨j, hj⟩ := List.mem_iff_getElem?.mp ht
          by_cases hij : j = i
          · rw [hij, this] at hj
            rw [← Option.some.inj hj, hconnecting] at hopen
            cases hopen
          · rw [sockets j t hj fun heq => hij (Option.some.inj heq)] at hopen
            cases hopen
        · exact iff_of_true hstatus ⟨s, List.mem_of_getElem? this, hopen⟩
    | retry id fetching sockets timer attempt timeouts counting status =>
      refine ⟨fun _ => ?_, fun hd => absurd hd hlive, ?_, fun _ => ?_⟩
      · rw [fetching, sockets.countP_none, timeouts]
        rfl
      · rw [timeouts]
        obtain ⟨hnone, _⟩ | ⟨c, n, hintervals, _, hone, hthirty, hshown⟩ := counting
        · rw [hnone]
          exact ⟨Nat.zero_le _, fun e he => absurd he List.not_mem_nil⟩
        · rw [hintervals]
          refine ⟨Nat.le_refl 1, fun e he => ?_⟩
          rw [List.mem_singleton.mp he]
          exact ⟨hone, hthirty, hshown⟩
      · rw [status]
        exact iff_of_false Status.noConfusion (hnone sockets)
  · refine ⟨fun hd => ?_, fun _ => ⟨hended.timeouts, hended.intervals, hended.sockets,
      hended.status⟩, ?_, fun hd => ?_⟩
    · rw [hended.destroyed] at hd
      cases hd
    · rw [hended.intervals]
      exact ⟨Nat.zero_le _, fun e he => absurd he List.not_mem_nil⟩
    · rw [hended.destroyed] at hd
      cases hd

/-- The attempt that is shown counts the failures since the last connection, and the next
one follows after the delay for that many. -/
theorem retries_along_runs (es : List Event) :
    Runs.Along Watched.step (fun w => w.page.detail.attempt = failures w.history ∧
      ∀ t ∈ w.page.timeouts, 1 ≤ failures w.history ∧
        t.2 = min (1000 * 2 ^ (failures w.history - 1)) 30000) ⟨Page.start, []⟩ es := by
  have hstep : ∀ w e, Ok w.page ∧ Counted w → Ok (w.step e).page ∧ Counted (w.step e) :=
    fun w e h => ⟨h.1.step e, h.2.step e⟩
  have hstart : Ok Page.start ∧ Counted ⟨Page.start, []⟩ := ⟨ok_start, rfl, rfl⟩
  have halong : Runs.Along Watched.step (fun w => Ok w.page ∧ Counted w) ⟨Page.start, []⟩ es :=
    Runs.along_invariant hstep hstart es
  refine halong.mono fun w h => ⟨h.2.shown.trans h.2.attempt, fun t ht => ?_⟩
  rw [← h.2.attempt]
  obtain ⟨_, hdoing⟩ | hended := h.1
  · cases hdoing with
    | ticket fetching sockets timeouts => rw [timeouts] at ht; cases ht
    | connection i s fetching socket this sockets timeouts => rw [timeouts] at ht; cases ht
    | retry id fetching sockets timer attempt timeouts =>
      rw [timeouts, List.mem_singleton] at ht
      rw [ht]
      exact ⟨attempt, rfl⟩
  · rw [hended.timeouts] at ht
    cases ht

end Invariant

end IronStock.WsClient

import IronStock.Http
import IronStock.Lib.EventLoop

/-!
# The desktop client

`apiFetch` with the shared refresh of `ensureRefresh`, as a program of the event
loop: each task or job runs a call from one `await` to the next. The log is what
the server and the user get to see.
-/
namespace IronStock

namespace Desktop

/-! ## Calls -/

inductive Method
  | get | post | put | patch | delete
deriving DecidableEq

structure RequestOptions where
  method : Method := .get
  /-- the body as JSON -/
  body : Option String := none
  unauthenticated : Bool := false
  query : List (String × String) := []
  noRetry : Bool := false
deriving DecidableEq

inductive Outcome
  | returned (json : Option String)
  | error (err : ApiError)
  | offlineQueued
  /-- any other exception -/
  | thrown
deriving DecidableEq

/-- Where a call stands. -/
inductive Stage
  /-- `await rawFetch` -/
  | fetching
  /-- `await res.json()`, here or in `parseError` -/
  | reading (status : Nat)
  /-- `await ensureRefresh()` -/
  | refreshing (err : ApiError)
  | done (outcome : Outcome)
deriving DecidableEq

structure Call where
  path : String
  options : RequestOptions
  stage : Stage
deriving DecidableEq

inductive RefreshStage
  /-- `await rawFetch` -/
  | fetching
  /-- `await res.json()` -/
  | reading (status : Nat)
  | ended
deriving DecidableEq

/-- The promise of a `refreshOnce`, with the calls that wait for it. -/
structure Refresh where
  stage : RefreshStage
  waiters : List Nat
deriving DecidableEq

/-- The newest event comes first in a log. -/
inductive Event
  | started (refreshToken : Option String)
  | request (call : Nat) (path : String) (options : RequestOptions) (token : Option String)
  | refresh (refreshToken : String)
  | refreshed (accessToken refreshToken : String)
  /-- `auth:logout` after a failed refresh -/
  | refreshFailed (reason : String)
  | login (accessToken refreshToken : String)
  | logout
deriving DecidableEq

/-! ## The client -/

structure Client where
  baseUrl : String
  offlineModeEnabled : Bool
  accessToken : Option String
  refreshToken : Option String
  inflightRefresh : Option Nat
  refreshes : List Refresh
  calls : List Call
  log : List Event
deriving DecidableEq

/-- An application that has just started: the refresh token has been kept. -/
def Client.started (baseUrl : String) (refreshToken : Option String) : Client where
  baseUrl := baseUrl
  offlineModeEnabled := false
  accessToken := none
  refreshToken := refreshToken
  inflightRefresh := none
  refreshes := []
  calls := []
  log := [.started refreshToken]

/-- What a fetch comes to. -/
inductive Answer
  | response (status : Nat)
  | failure
deriving DecidableEq

/-- A body as far as it is JSON, and as far as it is an error of the server. -/
structure ResponseBody where
  json : Option String
  error : Option (String × String)
deriving DecidableEq

/-- The body of a refresh: a pair of tokens, or an error of the server. -/
structure RefreshBody where
  tokens : Option (String × String)
  error : Option (String × String)
deriving DecidableEq

inductive Task
  | apiFetch (path : String) (options : RequestOptions)
  | respond (call : Nat) (answer : Answer)
  | body (call : Nat) (body : ResponseBody)
  | refreshRespond (refresh : Nat) (answer : Answer)
  | refreshBody (refresh : Nat) (body : RefreshBody)
  | setSession (accessToken refreshToken : String)
  | clear
  | setBaseUrl (url : String)
  | setOfflineModeEnabled (value : Bool)
deriving DecidableEq

/-- Reactions to a refresh that has ended, with the reason if it has failed. -/
inductive Job
  /-- the handler of `catch` -/
  | caught (refresh : Nat) (failed : Option String)
  /-- the handler of `finally` -/
  | finalized (refresh : Nat) (failed : Option String)
  /-- the promise is settled, and the calls that wait for it go on -/
  | settled (refresh : Nat) (failed : Option String)
  | resume (call : Nat) (failed : Option String)
deriving DecidableEq

/-- The text of a token that is there: empty is absent. -/
def present (token : Option String) : Option String := token.filter (· ≠ "")

def isOk (status : Nat) : Bool := 200 ≤ status ∧ status < 300

def isAccessTokenExpired (err : ApiError) : Bool :=
  err.status = 401 ∧ (err.code = "invalid_token" ∨ err.code = "unauthorized")

def parseError (status : Nat) (error : Option (String × String)) : ApiError :=
  match error with
  | some (code, message) => ⟨status, code, message⟩
  | none => ⟨status, "unknown_error", "HTTP " ++ toString status⟩

namespace Client

variable (c : Client)

def setStage (i : Nat) (stage : Stage) : Client :=
  { c with calls := c.calls.modify i fun call => { call with stage := stage } }

def clearAllTokens : Client := { c with accessToken := none, refreshToken := none }

/-- `apiFetch` of the call `i` up to its first `await`. -/
def apiFetch (i : Nat) (path : String) (options : RequestOptions) : Client :=
  if c.baseUrl = "" then
    { c with calls := c.calls.set i ⟨path, options,
        .done (.error ⟨0, "network_error", "Sunucu adresi ayarlanmamış."⟩)⟩ }
  else
    { c with
      calls := c.calls.set i ⟨path, options, .fetching⟩
      log := .request i path options
        (if options.unauthenticated then none else present c.accessToken) :: c.log }

/-- `refreshOnce` up to its first `await`, for a first call that waits. -/
def refreshOnce (i : Nat) : Client × List Job :=
  match present c.refreshToken with
  | none =>
    ({ c with
        inflightRefresh := some c.refreshes.length
        refreshes := c.refreshes ++ [⟨.ended, [i]⟩] },
      [.caught c.refreshes.length (some "unauthorized")])
  | some token =>
    ({ c with
        inflightRefresh := some c.refreshes.length
        refreshes := c.refreshes ++ [⟨.fetching, [i]⟩]
        log := .refresh token :: c.log },
      [])

def ensureRefresh (i : Nat) : Client × List Job :=
  match c.inflightRefresh with
  | some k =>
    ({ c with refreshes := c.refreshes.modify k fun r => { r with waiters := r.waiters ++ [i] } },
      [])
  | none => c.refreshOnce i

/-- A refresh has ended; its promise is settled by the jobs. -/
def endRefresh (k : Nat) (failed : Option String) : Client × List Job :=
  ({ c with refreshes := c.refreshes.modify k fun r => { r with stage := .ended } },
    [.caught k failed])

/-- `apiFetch` after `await rawFetch`. -/
def respond (i : Nat) (answer : Answer) : Client :=
  match c.calls[i]? with
  | some ⟨_, options, .fetching⟩ =>
    match answer with
    | .failure =>
      if c.offlineModeEnabled ∧ options.method ≠ .get ∧ options.unauthenticated = false then
        c.setStage i (.done .offlineQueued)
      else c.setStage i (.done (.error ⟨0, "network_error", "Sunucuya ulaşılamadı."⟩))
    | .response status =>
      if status = 204 then c.setStage i (.done (.returned none))
      else c.setStage i (.reading status)
  | _ => c

/-- `apiFetch` after the body has been read. -/
def body (i : Nat) (body : ResponseBody) : Client × List Job :=
  match c.calls[i]? with
  | some ⟨_, options, .reading status⟩ =>
    if isOk status then
      match body.json with
      | some json => (c.setStage i (.done (.returned (some json))), [])
      | none => (c.setStage i (.done .thrown), [])
    else
      let apiErr := parseError status body.error
      if options.noRetry = false ∧ options.unauthenticated = false ∧
          isAccessTokenExpired apiErr then
        (c.setStage i (.refreshing apiErr)).ensureRefresh i
      else (c.setStage i (.done (.error apiErr)), [])
  | _ => (c, [])

/-- `refreshOnce` after `await rawFetch`. -/
def refreshRespond (k : Nat) (answer : Answer) : Client × List Job :=
  match c.refreshes[k]? with
  | some ⟨.fetching, _⟩ =>
    match answer with
    | .failure => c.endRefresh k (some "refresh_failed")
    | .response status =>
      ({ c with refreshes := c.refreshes.modify k fun r => { r with stage := .reading status } },
        [])
  | _ => (c, [])

/-- `refreshOnce` after the body has been read. -/
def refreshBody (k : Nat) (body : RefreshBody) : Client × List Job :=
  match c.refreshes[k]? with
  | some ⟨.reading status, _⟩ =>
    if isOk status then
      match body.tokens with
      | some (accessToken, refreshToken) =>
        endRefresh
          { c with
            accessToken := some accessToken
            refreshToken := some refreshToken
            log := .refreshed accessToken refreshToken :: c.log } k none
      | none => c.endRefresh k (some "refresh_failed")
    else c.endRefresh k (some (parseError status body.error).code)
  | _ => (c, [])

/-- The listener of `auth:logout` clears the tokens too. -/
def caught (failed : Option String) : Client :=
  match failed with
  | none => c
  | some reason => { c.clearAllTokens with log := .refreshFailed reason :: c.log }

/-- `apiFetch` after `await ensureRefresh()`. -/
def resume (i : Nat) (failed : Option String) : Client :=
  match c.calls[i]? with
  | some ⟨path, options, .refreshing err⟩ =>
    match failed with
    | some _ => c.setStage i (.done (.error err))
    | none => c.apiFetch i path { options with noRetry := true }
  | _ => c

end Client

def runTask (t : Task) (c : Client) : Client × List Job :=
  match t with
  | .apiFetch path options =>
    (Client.apiFetch { c with calls := c.calls ++ [⟨path, options, .fetching⟩] } c.calls.length
      path options, [])
  | .respond i answer => (c.respond i answer, [])
  | .body i body => c.body i body
  | .refreshRespond k answer => c.refreshRespond k answer
  | .refreshBody k body => c.refreshBody k body
  | .setSession accessToken refreshToken =>
    ({ c with
        accessToken := some accessToken
        refreshToken := some refreshToken
        log := .login accessToken refreshToken :: c.log }, [])
  | .clear => ({ c.clearAllTokens with log := .logout :: c.log }, [])
  | .setBaseUrl url => ({ c with baseUrl := url }, [])
  | .setOfflineModeEnabled value => ({ c with offlineModeEnabled := value }, [])

def runJob (j : Job) (c : Client) : Client × List Job :=
  match j with
  | .caught k failed => (c.caught failed, [.finalized k failed])
  | .finalized k failed => ({ c with inflightRefresh := none }, [.settled k failed])
  | .settled k failed =>
    (c, ((c.refreshes[k]?.map Refresh.waiters).getD []).map fun i => .resume i failed)
  | .resume i failed => (c.resume i failed, [])

def program : EventLoop.Program Client Job Task := ⟨runTask, runJob⟩

end Desktop

end IronStock

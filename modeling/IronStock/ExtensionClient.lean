import IronStock.Lib.EventLoop

/-!
# The browser extension

`apiRequest` with the shared refresh of `refreshTokens`, as a program of the event
loop. A request reads its configuration once, before its fetch, and hands this
snapshot to the refresh.
-/
namespace IronStock

namespace Extension

/-! ## Configuration -/

/-- What `chrome.storage.local` holds under the keys of the extension. -/
structure Storage where
  serverUrl : Option String
  accessToken : Option String
  refreshToken : Option String
deriving DecidableEq

/-- An access token may be missing where the server left it out. -/
structure Config where
  serverUrl : String
  accessToken : Option String
  refreshToken : String
deriving DecidableEq

def Storage.empty : Storage := ⟨none, none, none⟩

def Storage.getConfig (s : Storage) : Config where
  serverUrl := s.serverUrl.getD ""
  accessToken := some (s.accessToken.getD "")
  refreshToken := s.refreshToken.getD ""

/-- A key whose value is undefined is left as it is. -/
def Storage.saveConfig (s : Storage) (config : Config) : Storage where
  serverUrl := some config.serverUrl
  accessToken := config.accessToken <|> s.accessToken
  refreshToken := some config.refreshToken

/-- The body of an answer to a refresh. -/
structure Tokens where
  accessToken : Option String
  refreshToken : Option String
deriving DecidableEq

/-- The configuration after a refresh; a missing refresh token is the old one. -/
def Config.renewed (config : Config) (tokens : Tokens) : Config where
  serverUrl := config.serverUrl
  accessToken := tokens.accessToken
  refreshToken := (tokens.refreshToken.filter (· ≠ "")).getD config.refreshToken

/-! ## Requests and refreshes -/

inductive Outcome
  | returned (json : String)
  | threw (message : String)
deriving DecidableEq

/-- Where a request stands. -/
inductive Stage
  /-- `await getConfig()` -/
  | configuring
  /-- `await fetch` -/
  | fetching (config : Config)
  /-- `await _refreshPromise` -/
  | waiting (config : Config)
  /-- `await fetch` with the new token -/
  | refetching
  /-- `resp.json()` or `await resp.text()` -/
  | reading (status : Nat)
  | done (outcome : Outcome)
deriving DecidableEq

structure Request where
  method : String
  path : String
  body : Option String
  stage : Stage
deriving DecidableEq

inductive RefreshStage
  /-- `await fetch` -/
  | fetching
  /-- `await clearConfig()` -/
  | clearing
  /-- `await refreshResp.json()` -/
  | reading
  /-- `await saveConfig(newConfig)` -/
  | saving (newConfig : Config)
  | ended
deriving DecidableEq

/-- The promise of a `refreshTokens`, with the requests that wait for it. -/
structure Refresh where
  config : Config
  stage : RefreshStage
  waiters : List Nat
deriving DecidableEq

/-- The newest event comes first in a log. -/
inductive Event
  | started (refreshToken : Option String)
  | request (request : Nat) (accessToken : Option String)
  /-- a request begins a refresh -/
  | refresh (request : Nat) (refreshToken : String)
  /-- the server hands out a refresh token -/
  | granted (refreshToken : Option String)
  /-- a refresh has completed -/
  | refreshed (accessToken : Option String)
  | refreshFailed
  /-- a request ends with the failure of a refresh -/
  | gaveUp (request : Nat)
  | login (accessToken refreshToken : String)
  | cleared
deriving DecidableEq

/-! ## The client -/

structure Client where
  storage : Storage
  refreshPromise : Option Nat
  refreshes : List Refresh
  requests : List Request
  log : List Event
deriving DecidableEq

def Client.started (storage : Storage) : Client where
  storage := storage
  refreshPromise := none
  refreshes := []
  requests := []
  log := [.started storage.refreshToken]

inductive Answer
  | response (status : Nat)
  | failure (message : String)
deriving DecidableEq

inductive Task
  | apiRequest (method path : String) (body : Option String)
  | configured (request : Nat)
  | respond (request : Nat) (answer : Answer)
  | body (request : Nat) (json : Except String String)
  | refreshRespond (refresh : Nat) (answer : Answer)
  | refreshCleared (refresh : Nat)
  | refreshBody (refresh : Nat) (tokens : Except String Tokens)
  | refreshSaved (refresh : Nat)
  | login (serverUrl accessToken refreshToken : String)
  | clearConfig

/-- Reactions to a refresh that has ended with its configuration or an error. -/
inductive Job
  /-- the handler of `finally` -/
  | finalized (refresh : Nat) (result : Except String Config)
  /-- the promise is settled, and the requests that wait for it go on -/
  | settled (refresh : Nat) (result : Except String Config)
  | resume (request : Nat) (result : Except String Config)

def isOk (status : Nat) : Bool := 200 ≤ status ∧ status < 300

namespace Client

variable (c : Client)

def setStage (i : Nat) (stage : Stage) : Client :=
  { c with requests := c.requests.modify i fun r => { r with stage := stage } }

def setRefresh (k : Nat) (stage : RefreshStage) : Client :=
  { c with refreshes := c.refreshes.modify k fun r => { r with stage := stage } }

def logged (e : Event) : Client := { c with log := e :: c.log }

/-- `apiRequest` after `await getConfig()`. -/
def configured (i : Nat) : Client :=
  match c.requests[i]? with
  | some ⟨_, _, _, .configuring⟩ =>
    let config := c.storage.getConfig
    if config.serverUrl = "" ∨ config.accessToken = some "" then
      c.setStage i (.done (.threw "IronStock yapılandırılmamış"))
    else (c.setStage i (.fetching config)).logged (.request i config.accessToken)
  | _ => c

/-- A request that got 401 waits for the refresh under way, or begins one. -/
def awaitRefresh (i : Nat) (config : Config) : Client :=
  match c.refreshPromise with
  | some k =>
    { c with refreshes := c.refreshes.modify k fun r => { r with waiters := r.waiters ++ [i] } }
  | none =>
    { c with
      refreshPromise := some c.refreshes.length
      refreshes := c.refreshes ++ [⟨config, .fetching, [i]⟩]
      log := .refresh i config.refreshToken :: c.log }

/-- `apiRequest` after `await fetch`. -/
def respond (i : Nat) (answer : Answer) : Client :=
  match c.requests[i]?.map Request.stage with
  | some (.fetching config) =>
    match answer with
    | .failure message => c.setStage i (.done (.threw message))
    | .response status =>
      if status = 401 ∧ config.refreshToken ≠ "" then
        (c.setStage i (.waiting config)).awaitRefresh i config
      else c.setStage i (.reading status)
  | some .refetching =>
    match answer with
    | .failure message => c.setStage i (.done (.threw message))
    | .response status => c.setStage i (.reading status)
  | _ => c

/-- `apiRequest` after the body has been read. -/
def body (i : Nat) (json : Except String String) : Client :=
  match c.requests[i]?.map Request.stage with
  | some (.reading status) =>
    match json with
    | .error message => c.setStage i (.done (.threw message))
    | .ok text =>
      if isOk status then c.setStage i (.done (.returned text))
      else c.setStage i
        (.done (.threw ("API hatası (" ++ toString status ++ "): " ++ text)))
  | _ => c

/-- A refresh ends with an error. -/
def failRefresh (k : Nat) (message : String) : Client × List Job :=
  ((c.setRefresh k .ended).logged .refreshFailed, [.finalized k (.error message)])

/-- `refreshTokens` after `await fetch`. -/
def refreshRespond (k : Nat) (answer : Answer) : Client × List Job :=
  match c.refreshes[k]?.map Refresh.stage with
  | some .fetching =>
    match answer with
    | .failure message => c.failRefresh k message
    | .response status =>
      if isOk status then (c.setRefresh k .reading, []) else (c.setRefresh k .clearing, [])
  | _ => (c, [])

/-- `refreshTokens` after `await clearConfig()`. -/
def refreshCleared (k : Nat) : Client × List Job :=
  match c.refreshes[k]?.map Refresh.stage with
  | some .clearing =>
    failRefresh { c with storage := .empty } k "Oturum süresi doldu — yeniden giriş yapın"
  | _ => (c, [])

/-- `refreshTokens` after the body has been read. -/
def refreshBody (k : Nat) (tokens : Except String Tokens) : Client × List Job :=
  match c.refreshes[k]? with
  | some ⟨config, .reading, _⟩ =>
    match tokens with
    | .error message => c.failRefresh k message
    | .ok tokens =>
      ((c.setRefresh k (.saving (config.renewed tokens))).logged (.granted tokens.refreshToken), [])
  | _ => (c, [])

/-- `refreshTokens` after `await saveConfig(newConfig)`. -/
def refreshSaved (k : Nat) : Client × List Job :=
  match c.refreshes[k]?.map Refresh.stage with
  | some (.saving newConfig) =>
    ((setRefresh { c with storage := c.storage.saveConfig newConfig } k .ended).logged
      (.refreshed newConfig.accessToken), [.finalized k (.ok newConfig)])
  | _ => (c, [])

/-- `apiRequest` after `await _refreshPromise`. -/
def resume (i : Nat) (result : Except String Config) : Client :=
  match c.requests[i]?.map Request.stage with
  | some (.waiting _) =>
    match result with
    | .error message => (c.setStage i (.done (.threw message))).logged (.gaveUp i)
    | .ok newConfig => (c.setStage i .refetching).logged (.request i newConfig.accessToken)
  | _ => c

end Client

def runTask (t : Task) (c : Client) : Client × List Job :=
  match t with
  | .apiRequest method path body =>
    ({ c with requests := c.requests ++ [⟨method, path, body, .configuring⟩] }, [])
  | .configured i => (c.configured i, [])
  | .respond i answer => (c.respond i answer, [])
  | .body i json => (c.body i json, [])
  | .refreshRespond k answer => c.refreshRespond k answer
  | .refreshCleared k => c.refreshCleared k
  | .refreshBody k tokens => c.refreshBody k tokens
  | .refreshSaved k => c.refreshSaved k
  | .login serverUrl accessToken refreshToken =>
    (Client.logged
      { c with storage := c.storage.saveConfig ⟨serverUrl, some accessToken, refreshToken⟩ }
      (.login accessToken refreshToken), [])
  | .clearConfig => (Client.logged { c with storage := .empty } .cleared, [])

def runJob (j : Job) (c : Client) : Client × List Job :=
  match j with
  | .finalized k result => ({ c with refreshPromise := none }, [.settled k result])
  | .settled k result =>
    (c, ((c.refreshes[k]?.map Refresh.waiters).getD []).map fun i => .resume i result)
  | .resume i result => (c.resume i result, [])

def program : EventLoop.Program Client Job Task := ⟨runTask, runJob⟩

end Extension

end IronStock

import IronStock.BootstrapSetup
import IronStock.SSOHandlers

/-!
# Accounts for external identities

`findOrProvisionSSOUser`, statement by statement, and the session after it, as
`LDAPLogin` and `OIDCCallback` run them once the user has been authenticated. The
rows of an open transaction are seen by the unique constraints only: an INSERT
that meets them waits for the transaction to end. Any statement may fail, and of
a commit the answer may get lost.
-/
namespace IronStock

open Interleaving

/-! ## The tables -/

/-- What a login goes on with after the user has been authenticated, and what is
drawn for it. -/
structure SSORequest where
  provider : SSOProvider
  externalID : String
  email : String
  sso : SSODraw
  ctx : LoginContext
  login : LoginDraw

/-- The rows of an open transaction. -/
structure SSOTransaction where
  user : User
  role : Option UserRole
  identity : Option SSOIdentity
deriving DecidableEq

/-- An account that has been made, with the identity it was made for. -/
structure SSOAccount where
  provider : SSOProvider
  externalID : String
  userID : Uuid

/-- `UNIQUE (provider_id, external_id)`. -/
def SSOIdentity.key (row : SSOIdentity) : Uuid × String := (row.providerId, row.externalID)

def SSORequest.key (req : SSORequest) : Uuid × String := (req.provider.id, req.externalID)

def SSOAccount.key (a : SSOAccount) : Uuid × String := (a.provider.id, a.externalID)

/-- The tables with their keys. -/
structure SSOTables where
  db : DB
  identities : List SSOIdentity
  users_nodup : (db.users.map User.id).Nodup
  identities_nodup : (identities.map SSOIdentity.key).Nodup

/-- The tables, the rows that are not committed, and a log of the accounts made,
which nothing reads. -/
structure SSOStore where
  db : DB
  identities : List SSOIdentity
  pending : List SSOTransaction
  created : List SSOAccount

def SSOTables.store (tables : SSOTables) : SSOStore := ⟨tables.db, tables.identities, [], []⟩

namespace SSOStore

def identity? (s : SSOStore) (req : SSORequest) : Option SSOIdentity :=
  s.identities.find? (·.isFor req.provider.id req.externalID)

/-- The UPDATE of `last_login_at` and the cached address. -/
def touch (s : SSOStore) (now : Time) (req : SSORequest) : SSOStore :=
  let touched (row : SSOIdentity) : SSOIdentity :=
    { row with lastLoginAt := some now, externalEmail := some req.email }
  { s with
    identities :=
      Table.updateWhere (·.isFor req.provider.id req.externalID) touched s.identities }

def rollback (s : SSOStore) (tx : SSOTransaction) : SSOStore :=
  { s with pending := s.pending.erase tx }

/-- One more row of an open transaction. -/
def replace (s : SSOStore) (tx tx' : SSOTransaction) : SSOStore :=
  { s with pending := s.pending.erase tx ++ [tx'] }

def commit (s : SSOStore) (req : SSORequest) (tx : SSOTransaction) : SSOStore where
  db :=
    let db := { s.db with users := s.db.users ++ [tx.user] }
    match tx.role with
    | some row => db.addUserRole row
    | none => db
  identities := s.identities ++ tx.identity.toList
  pending := s.pending.erase tx
  created := s.created ++ [⟨req.provider, req.externalID, tx.user.id⟩]

/-- The session, in a transaction of its own. -/
def openSession (svc : Service) (s : SSOStore) (now : Time) (req : SSORequest) (userID : Uuid) :
    SSOStore :=
  { s with db := (issueSessionForSSO svc s.db now req.ctx req.login userID).1 }

end SSOStore

/-- Another transaction has the id, the name or the address of the row. -/
def SSOTransaction.blocks (user : User) (tx : SSOTransaction) : Bool :=
  tx.user.id = user.id ∨ tx.user.username = user.username ∨ tx.user.email = user.email

/-- The role the provider gives to its accounts, if its name is one. -/
def SSOProvider.grants (p : SSOProvider) (userID : Uuid) : Option UserRole :=
  (Role.ofName p.defaultRole).map fun role => ⟨userID, role⟩

def SSORequest.link (req : SSORequest) (userID : Uuid) (now : Time) : SSOIdentity :=
  ⟨userID, req.provider.id, req.externalID, some req.email, some now⟩

/-! ## The calls -/

/-- What is left of a login. -/
inductive SSOCall
  | lookup (req : SSORequest)
  | touch (req : SSORequest) (userID : Uuid)
  | probe (req : SSORequest)
  | begin (req : SSORequest) (user : User)
  | insertUser (req : SSORequest) (user : User)
  | insertRole (req : SSORequest) (tx : SSOTransaction)
  | insertIdentity (req : SSORequest) (tx : SSOTransaction)
  | commit (req : SSORequest) (tx : SSOTransaction)
  | session (req : SSORequest) (userID : Uuid)

/-- What `findOrProvisionSSOUser` returned to a login that is over. -/
structure SSOAnswer where
  req : SSORequest
  account : Except String Uuid

/-- `cause` is what the driver says of a statement that fails. -/
structure SSOEvent where
  now : Time
  fate : StatementFate
  cause : String

abbrev SSOResult := SSOStore × (SSOCall ⊕ SSOAnswer)
abbrev SSOSystem := System SSOStore SSOCall SSOAnswer

def SSOStore.fail (s : SSOStore) (req : SSORequest) (e : String) : SSOResult :=
  (s, .inr ⟨req, .error e⟩)

/-- A column of the INSERT of a new account that the table does not have. -/
def missingSSOColumn (columns : SqlTable × String → Bool) : Option (SqlTable × String) :=
  (SqlTable.users.named ssoUserColumns).find? (columns · = false)

/-- The INSERT of a new account into a table with these columns. -/
def insertSSOUserInto (columns : SqlTable × String → Bool) (db : DB) (user : User) :
    Except String DB :=
  match missingSSOColumn columns with
  | some column =>
    .error ("ERROR: column \"" ++ column.2 ++
      "\" of relation \"users\" does not exist (SQLSTATE 42703)")
  | none => (insertUser db user).mapError (·.sqlState)

theorem insertSSOUserInto_schema : insertSSOUserInto schema = insertSSOUser := rfl

/-- The next statement of a login, on tables with these columns. -/
def SSOCall.exec (svc : Service) (columns : SqlTable × String → Bool) (e : SSOEvent)
    (s : SSOStore) : SSOCall → SSOResult
  | .lookup req =>
    if e.fate = .runs then
      match s.identity? req with
      | some row => (s, .inl (.touch req row.userId))
      | none =>
        if req.provider.autoProvision = false then
          s.fail req "user not found and auto-provision is disabled for this provider"
        else if req.email = "" then
          s.fail req
            "email required for auto-provisioning (provider did not return email attribute)"
        else (s, .inl (.probe req))
    else s.fail req ("sso identity lookup: " ++ e.cause)
  | .touch req userID =>
    -- the error of the UPDATE is not looked at
    (if e.fate = .fails then s else s.touch e.now req, .inl (.session req userID))
  | .probe req =>
    if e.fate = .runs then (s, .inl (.begin req (ssoUser svc s.db req.sso req.email)))
    else s.fail req e.cause
  | .begin req user =>
    if e.fate = .runs then (s, .inl (.insertUser req user)) else s.fail req e.cause
  | .insertUser req user =>
    if e.fate = .runs then
      match insertSSOUserInto columns s.db user with
      | .error cause => s.fail req ("auto-provision user: " ++ cause)
      | .ok _ =>
        -- the statement waits for the transaction that has the row
        if s.pending.any (·.blocks user) then (s, .inl (.insertUser req user))
        else
          ({ s with pending := s.pending ++ [⟨user, none, none⟩] },
            .inl (.insertRole req ⟨user, none, none⟩))
    else s.fail req ("auto-provision user: " ++ e.cause)
  | .insertRole req tx =>
    if req.provider.defaultRole = "" then (s, .inl (.insertIdentity req tx))
    else if e.fate = .runs then
      let tx' := { tx with role := req.provider.grants tx.user.id }
      (s.replace tx tx', .inl (.insertIdentity req tx'))
    else (s.rollback tx).fail req ("auto-provision role: " ++ e.cause)
  | .insertIdentity req tx =>
    if e.fate = .runs then
      if (s.identity? req).isSome then
        (s.rollback tx).fail req ("auto-provision identity: " ++ PgError.uniqueViolation.sqlState)
      -- the statement waits for the transaction that has the row
      else if s.pending.any (fun other => other.identity.any (·.key = req.key)) then
        (s, .inl (.insertIdentity req tx))
      else
        let tx' := { tx with identity := some (req.link tx.user.id e.now) }
        (s.replace tx tx', .inl (.commit req tx'))
    else (s.rollback tx).fail req ("auto-provision identity: " ++ e.cause)
  | .commit req tx =>
    match e.fate with
    | .runs => (s.commit req tx, .inl (.session req tx.user.id))
    | .fails => (s.rollback tx).fail req e.cause
    | .unanswered => (s.commit req tx).fail req e.cause
  | .session req userID =>
    (if e.fate = .fails then s else s.openSession svc e.now req userID,
      .inr ⟨req, .ok userID⟩)

/-- The logins of every process. -/
def ssoLogins (svc : Service) (columns : SqlTable × String → Bool) :
    Program SSOStore SSORequest SSOCall SSOAnswer SSOEvent where
  enter := .lookup
  exec e s call := call.exec svc columns e s

@[simp] theorem ssoLogins_exec (svc : Service) (columns : SqlTable × String → Bool) (e : SSOEvent)
    (s : SSOStore) (call : SSOCall) :
    (ssoLogins svc columns).exec e s call = call.exec svc columns e s := rfl

section Alone

variable {δ : Type} (svc : Service) (s : DoorState δ) (now : Time) (req : SSORequest)

/-- A login that runs alone gets what `findOrProvisionSSOUser` returns. -/
theorem ssoLogins_alone :
    let r := findOrProvisionSSOUser svc s now req.sso req.provider req.externalID req.email
    let alone := (ssoLogins svc schema).alone ⟨now, .runs, ""⟩ 4 ⟨s.db, s.identities, [], []⟩
      (.lookup req)
    alone.2 = .inr ⟨req, r.2⟩ ∧ alone.1.identities = r.1.identities := by
  have hlookup : (⟨s.db, s.identities, [], []⟩ : SSOStore).identity? req =
      s.identity? req.provider req.externalID := rfl
  simp only [findOrProvisionSSOUser]
  cases hrow : s.identity? req.provider req.externalID with
  | some row =>
    simp [Program.alone, ssoLogins, SSOCall.exec, hlookup, hrow, SSOStore.openSession,
      SSOStore.touch]
  | none =>
    by_cases hauto : req.provider.autoProvision = false
    · simp [Program.alone, ssoLogins, SSOCall.exec, SSOStore.fail, hlookup, hrow, hauto]
    · by_cases hemail : req.email = ""
      · simp [Program.alone, ssoLogins, SSOCall.exec, SSOStore.fail, hlookup, hrow, hauto, hemail]
      · simp only [Program.alone, ssoLogins, SSOCall.exec, hlookup, hrow, hauto, hemail, if_true,
          if_false, insertSSOUserInto_schema]
        exact ⟨rfl, rfl⟩

end Alone

end IronStock

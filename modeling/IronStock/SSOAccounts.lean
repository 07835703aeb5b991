import IronStock.SSOProvisioning
import Mathlib.Data.List.Nodup

/-!
# One account for each external identity

The keys of the committed and of the pending rows never meet, and every pending
row belongs to one login. So a login that makes an account makes the first one
for its identity, whatever the others do in between.
-/
namespace IronStock

open Interleaving

/-! ## What one run promises -/

/-- The account a login has found or made for its identity. -/
def accountFound : SSOCall ⊕ SSOAnswer → Option ((Uuid × String) × Uuid)
  | .inl (.session req userID) => some (req.key, userID)
  | .inr ⟨req, .ok userID⟩ => some (req.key, userID)
  | _ => none

/-- All logins with an identity get the same account. The accounts made are the
new rows of `users`, one for an identity at the most, each with its link and the
role its provider gives. -/
structure OneAccountPerIdentity (tables : SSOTables) (s : SSOSystem) : Prop where
  same : ∀ c ∈ s.calls, ∀ c' ∈ s.calls, ∀ key userID userID',
    accountFound c = some (key, userID) → accountFound c' = some (key, userID') →
      userID = userID'
  once : ∀ key, s.shared.created.countP (·.key = key) ≤ 1
  accounts : s.shared.db.users.map User.id =
    tables.db.users.map User.id ++ s.shared.created.map SSOAccount.userID
  complete : ∀ a ∈ s.shared.created,
    (∃ row ∈ s.shared.identities, row.key = a.key ∧ row.userId = a.userID) ∧
      ∀ row, a.provider.grants a.userID = some row → row ∈ s.shared.db.userRoles

/-- A statement after which its login has no account leaves the tables as they
were, and an identity gets linked to an account only as this account is made. -/
structure LinksNewAccounts (P : Program SSOStore SSORequest SSOCall SSOAnswer SSOEvent)
    (s : SSOSystem) (m : Move SSORequest SSOEvent) : Prop where
  failing : ∀ i e, m = .advance i e →
    (∀ c, (P.step s m).calls[i]? = some c → accountFound c = none) →
      (P.step s m).shared.db = s.shared.db ∧ (P.step s m).shared.identities = s.shared.identities
  links : ∀ row ∈ (P.step s m).shared.identities,
    (∃ row' ∈ s.shared.identities, row'.key = row.key ∧ row'.userId = row.userId) ∨
      row.userId ∉ s.shared.db.users.map User.id

/-- If the INSERT can succeed, no answer to a commit gets lost. -/
def AnswersCommits (columns : SqlTable × String → Bool) (s : SSOSystem) :
    Move SSORequest SSOEvent → Prop
  | .begin _ => True
  | .advance i e => missingSSOColumn columns = none →
    ∀ req tx, s.calls[i]? = some (.inl (.commit req tx)) → e.fate ≠ .unanswered

/-! ## The tables -/

@[simp] theorem isFor_iff {req : SSORequest} {row : SSOIdentity} :
    row.isFor req.provider.id req.externalID = true ↔ row.key = req.key := by
  simp [SSOIdentity.isFor, SSOIdentity.key, SSORequest.key]

/-- The identity is linked to the account. -/
def SSOStore.Linked (s : SSOStore) (key : Uuid × String) (userID : Uuid) : Prop :=
  ∃ row ∈ s.identities, row.key = key ∧ row.userId = userID

/-- Links stay. -/
def SSOStore.Keeps (s s' : SSOStore) : Prop :=
  ∀ key userID, s.Linked key userID → s'.Linked key userID

/-- No key is committed or pending twice, and nothing but the accounts made is new. -/
structure SSOStoreOk (columns : SqlTable × String → Bool) (tables : SSOTables) (s : SSOStore) :
    Prop where
  users_nodup : (s.db.users.map User.id ++ s.pending.map (·.user.id)).Nodup
  identities_nodup :
    (s.identities.map SSOIdentity.key ++
      s.pending.filterMap (·.identity.map SSOIdentity.key)).Nodup
  users : s.db.users.map User.id = tables.db.users.map User.id ++ s.created.map SSOAccount.userID
  identities : s.identities.map SSOIdentity.key =
    tables.identities.map SSOIdentity.key ++ s.created.map SSOAccount.key
  complete : ∀ a ∈ s.created, s.Linked a.key a.userID ∧
    ∀ row, a.provider.grants a.userID = some row → row ∈ s.db.userRoles
  known : ∀ tx ∈ s.pending, missingSSOColumn columns = none

/-- What a login relies on. -/
def SSOCallOk (s : SSOStore) : SSOCall ⊕ SSOAnswer → Prop
  | .inl (.touch req userID) => s.Linked req.key userID
  | .inl (.session req userID) => s.Linked req.key userID
  | .inr ⟨req, .ok userID⟩ => s.Linked req.key userID
  | .inl (.insertRole _ tx) => tx.identity = none
  | .inl (.insertIdentity req tx) =>
    tx.identity = none ∧ ∀ row, req.provider.grants tx.user.id = some row → tx.role = some row
  | .inl (.commit req tx) =>
    (∃ row, tx.identity = some row ∧ row.key = req.key ∧ row.userId = tx.user.id) ∧
      ∀ row, req.provider.grants tx.user.id = some row → tx.role = some row
  | _ => True

/-- The transaction of a login. -/
def heldTransaction : SSOCall ⊕ SSOAnswer → Option SSOTransaction
  | .inl (.insertRole _ tx) | .inl (.insertIdentity _ tx) | .inl (.commit _ tx) => some tx
  | _ => none

theorem SSOCallOk.mono {s s' : SSOStore} (h : s.Keeps s') {c : SSOCall ⊕ SSOAnswer}
    (hc : SSOCallOk s c) : SSOCallOk s' c := by
  match c, hc with
  | .inl (.touch req userID), hc => exact h req.key userID hc
  | .inl (.session req userID), hc => exact h req.key userID hc
  | .inr ⟨req, .ok userID⟩, hc => exact h req.key userID hc
  | .inl (.insertRole _ _), hc => exact hc
  | .inl (.insertIdentity _ _), hc => exact hc
  | .inl (.commit _ _), hc => exact hc
  | .inl (.lookup _), _ | .inl (.probe _), _ | .inl (.begin _ _), _ | .inl (.insertUser _ _), _ =>
    trivial
  | .inr ⟨_, .error _⟩, _ => trivial

/-- The account found is the one the identity is linked to. -/
theorem SSOCallOk.linked {s : SSOStore} {c : SSOCall ⊕ SSOAnswer} (hc : SSOCallOk s c)
    {key : Uuid × String} {userID : Uuid} (h : accountFound c = some (key, userID)) :
    s.Linked key userID := by
  cases c with
  | inl call =>
    cases call with
    | session req userID' =>
      cases h
      exact hc
    | lookup | touch | probe | begin | insertUser | insertRole | insertIdentity | commit => cases h
  | inr answer =>
    obtain ⟨req, account⟩ := answer
    cases account with
    | error e => cases h
    | ok userID' =>
      cases h
      exact hc

/-! ## One statement -/

/-- What a statement can do. -/
inductive SSOEffect (svc : Service) (columns : SqlTable × String → Bool) (e : SSOEvent)
    (s : SSOStore) : SSOCall → SSOStore → SSOCall ⊕ SSOAnswer → Prop
  | waits (call call' : SSOCall)
      (hheld : heldTransaction (.inl call') = heldTransaction (.inl call))
      (hok : SSOCallOk s (.inl call) → SSOCallOk s (.inl call')) :
      SSOEffect svc columns e s call s (.inl call')
  | fails (call : SSOCall) (req : SSORequest) (cause : String)
      (hheld : heldTransaction (.inl call) = none) :
      SSOEffect svc columns e s call s (.inr ⟨req, .error cause⟩)
  | touches (req : SSORequest) (userID : Uuid) :
      SSOEffect svc columns e s (.touch req userID) (s.touch e.now req)
        (.inl (.session req userID))
  | opens (req : SSORequest) (user : User) (hknown : missingSSOColumn columns = none)
      (hcommitted : user.id ∉ s.db.users.map User.id)
      (hpending : user.id ∉ s.pending.map (·.user.id)) :
      SSOEffect svc columns e s (.insertUser req user)
        { s with pending := s.pending ++ [⟨user, none, none⟩] }
        (.inl (.insertRole req ⟨user, none, none⟩))
  | grants (req : SSORequest) (tx : SSOTransaction) :
      SSOEffect svc columns e s (.insertRole req tx)
        (s.replace tx { tx with role := req.provider.grants tx.user.id })
        (.inl (.insertIdentity req { tx with role := req.provider.grants tx.user.id }))
  | links (req : SSORequest) (tx : SSOTransaction)
      (hcommitted : req.key ∉ s.identities.map SSOIdentity.key)
      (hpending : req.key ∉ s.pending.filterMap (·.identity.map SSOIdentity.key)) :
      SSOEffect svc columns e s (.insertIdentity req tx)
        (s.replace tx { tx with identity := some (req.link tx.user.id e.now) })
        (.inl (.commit req { tx with identity := some (req.link tx.user.id e.now) }))
  | rollsBack (call : SSOCall) (req : SSORequest) (tx : SSOTransaction) (cause : String)
      (hheld : heldTransaction (.inl call) = some tx) :
      SSOEffect svc columns e s call (s.rollback tx) (.inr ⟨req, .error cause⟩)
  | commits (req : SSORequest) (tx : SSOTransaction) (hfate : e.fate = .runs) :
      SSOEffect svc columns e s (.commit req tx) (s.commit req tx)
        (.inl (.session req tx.user.id))
  | losesReply (req : SSORequest) (tx : SSOTransaction) (cause : String)
      (hfate : e.fate = .unanswered) :
      SSOEffect svc columns e s (.commit req tx) (s.commit req tx) (.inr ⟨req, .error cause⟩)
  | ends (req : SSORequest) (userID : Uuid) (s' : SSOStore)
      (hs' : s' = s ∨ s' = s.openSession svc e.now req userID) :
      SSOEffect svc columns e s (.session req userID) s' (.inr ⟨req, .ok userID⟩)

theorem insertSSOUserInto_eq_ok {columns : SqlTable × String → Bool} {db db' : DB} {user : User}
    (h : insertSSOUserInto columns db user = .ok db') :
    missingSSOColumn columns = none ∧ user.id ∉ db.users.map User.id := by
  unfold insertSSOUserInto at h
  split at h
  · cases h
  · next hknown =>
    refine ⟨hknown, ?_⟩
    cases hinsert : insertUser db user with
    | error e =>
      rw [hinsert] at h
      cases h
    | ok db'' =>
      intro hmem
      obtain ⟨r, hr, hid⟩ := List.mem_map.mp hmem
      exact (insertUser_eq_ok hinsert).1 r hr hid

theorem ssoExec_effect (svc : Service) (columns : SqlTable × String → Bool) (e : SSOEvent)
    (s : SSOStore) (call : SSOCall) :
    SSOEffect svc columns e s call (call.exec svc columns e s).1 (call.exec svc columns e s).2 := by
  cases call with
  | lookup req =>
    simp only [SSOCall.exec]
    split
    · cases hrow : s.identity? req with
      | some row =>
        refine .waits _ _ rfl fun _ => ?_
        exact ⟨row, List.mem_of_find?_eq_some hrow, isFor_iff.mp (List.find?_some hrow), rfl⟩
      | none =>
        by_cases hauto : req.provider.autoProvision = false
        · simp only [hauto, if_true]
          exact .fails _ req _ rfl
        · by_cases hemail : req.email = ""
          · simp only [hauto, hemail, if_true]
            exact .fails _ req _ rfl
          · simp only [hauto, hemail, if_false]
            exact .waits _ _ rfl fun _ => trivial
    · exact .fails _ req _ rfl
  | touch req userID =>
    simp only [SSOCall.exec]
    split
    · exact .waits _ _ rfl id
    · exact .touches req userID
  | probe req =>
    simp only [SSOCall.exec]
    split
    · exact .waits _ _ rfl fun _ => trivial
    · exact .fails _ req _ rfl
  | begin req user =>
    simp only [SSOCall.exec]
    split
    · exact .waits _ _ rfl fun _ => trivial
    · exact .fails _ req _ rfl
  | insertUser req user =>
    simp only [SSOCall.exec]
    split
    · cases hinsert : insertSSOUserInto columns s.db user with
      | error cause => exact .fails _ req _ rfl
      | ok db =>
        by_cases hblocked : s.pending.any (·.blocks user) = true
        · simp only [hblocked, if_true]
          exact .waits _ _ rfl fun _ => trivial
        · simp only [if_neg hblocked]
          obtain ⟨hknown, hnew⟩ := insertSSOUserInto_eq_ok hinsert
          refine .opens req user hknown hnew fun hmem => hblocked ?_
          obtain ⟨tx, htx, hid⟩ := List.mem_map.mp hmem
          exact List.any_eq_true.mpr ⟨tx, htx, by simp [SSOTransaction.blocks, hid]⟩
    · exact .fails _ req _ rfl
  | insertRole req tx =>
    simp only [SSOCall.exec]
    split
    · next hrole =>
      refine .waits _ _ rfl fun hnone => ⟨hnone, fun row hrow => ?_⟩
      simp [SSOProvider.grants, hrole, Role.ofName] at hrow
    · split
      · exact .grants req tx
      · exact .rollsBack _ req tx _ rfl
  | insertIdentity req tx =>
    simp only [SSOCall.exec]
    split
    · by_cases htaken : (s.identity? req).isSome = true
      · simp only [htaken, if_true]
        exact .rollsBack _ req tx _ rfl
      · simp only [if_neg htaken]
        by_cases hblocked :
            s.pending.any (fun other => other.identity.any (·.key = req.key)) = true
        · simp only [hblocked, if_true]
          exact .waits _ _ rfl id
        · simp only [if_neg hblocked]
          refine .links req tx (fun hmem => htaken ?_) fun hmem => hblocked ?_
          · obtain ⟨row, hrow, hkey⟩ := List.mem_map.mp hmem
            exact List.find?_isSome.mpr ⟨row, hrow, isFor_iff.mpr hkey⟩
          · obtain ⟨other, hother, hkey⟩ := List.mem_filterMap.mp hmem
            obtain ⟨row, hrow, hkey⟩ := Option.map_eq_some_iff.mp hkey
            exact List.any_eq_true.mpr ⟨other, hother, by simp [hrow, hkey]⟩
    · exact .rollsBack _ req tx _ rfl
  | commit req tx =>
    simp only [SSOCall.exec]
    cases hfate : e.fate with
    | runs => exact .commits req tx hfate
    | fails => exact .rollsBack _ req tx _ rfl
    | unanswered => exact .losesReply req tx _ hfate
  | session req userID =>
    simp only [SSOCall.exec]
    refine .ends req userID _ ?_
    split
    · exact .inl rfl
    · exact .inr rfl

/-! ## What it keeps -/

theorem issueSession_tables {svc : Service} {db db' : DB} {now : Time} {ctx : LoginContext}
    {draw : LoginDraw} {userID : Uuid} {action : String}
    (h : issueSession svc db now ctx draw userID action = .ok db') :
    db'.users = db.users ∧ db'.userRoles = db.userRoles := by
  obtain ⟨db₁, hcreate, hdb'⟩ := Reply.bind_eq_ok.mp h
  rw [Reply.orElse_eq_ok, Reply.toOption_eq_some] at hcreate
  obtain ⟨-, -, -, rfl⟩ := createSession_eq_ok.mp hcreate
  cases hdb'
  exact ⟨rfl, rfl⟩

/-- A session leaves the keys of the accounts and their roles. -/
theorem openSession_frame (svc : Service) (s : SSOStore) (now : Time) (req : SSORequest)
    (userID : Uuid) :
    (s.openSession svc now req userID).db.users.map User.id = s.db.users.map User.id ∧
      (s.openSession svc now req userID).db.userRoles = s.db.userRoles := by
  simp only [SSOStore.openSession, issueSessionForSSO]
  split
  · exact ⟨rfl, rfl⟩
  · split
    · exact ⟨rfl, rfl⟩
    · split
      · exact ⟨rfl, rfl⟩
      · next db' hissue =>
        obtain ⟨husers, hroles⟩ := issueSession_tables hissue
        rw [husers, hroles]
        exact ⟨Table.map_updateWhere (f := User.loginSucceeded) (fun _ => rfl) s.db.users, rfl⟩

theorem touch_keys (s : SSOStore) (now : Time) (req : SSORequest) :
    (s.touch now req).identities.map SSOIdentity.key = s.identities.map SSOIdentity.key :=
  Table.map_updateWhere
    (f := fun row => { row with lastLoginAt := some now, externalEmail := some req.email })
    (fun _ => rfl) s.identities

theorem touch_keeps (s : SSOStore) (now : Time) (req : SSORequest) :
    s.Keeps (s.touch now req) := by
  rintro key userID ⟨row, hrow, hkey, huser⟩
  refine ⟨_, Table.mem_updateWhere.mpr ⟨row, hrow, rfl⟩, ?_⟩
  split
  · exact ⟨hkey, huser⟩
  · exact ⟨hkey, huser⟩

theorem commit_users (s : SSOStore) (req : SSORequest) (tx : SSOTransaction) :
    (s.commit req tx).db.users = s.db.users ++ [tx.user] := by
  unfold SSOStore.commit
  cases tx.role <;> rfl

theorem commit_userRoles (s : SSOStore) (req : SSORequest) (tx : SSOTransaction) {row : UserRole} :
    row ∈ (s.commit req tx).db.userRoles ↔ row ∈ s.db.userRoles ∨ tx.role = some row := by
  unfold SSOStore.commit
  cases hrole : tx.role with
  | none => simp
  | some row' =>
    simp only [DB.addUserRole, Table.insertOrIgnore, Option.some.injEq]
    split
    · next hmem =>
      have hmem' : row' ∈ s.db.userRoles := by simpa using hmem
      exact ⟨.inl, fun h => h.elim id fun heq => heq ▸ hmem'⟩
    · simp [eq_comm]

namespace SSOStoreOk

variable {columns : SqlTable × String → Bool} {tables : SSOTables} {s : SSOStore}
  {tx tx' : SSOTransaction}

theorem start (columns : SqlTable × String → Bool) (tables : SSOTables) :
    SSOStoreOk columns tables tables.store where
  users_nodup := by simpa [SSOTables.store] using tables.users_nodup
  identities_nodup := by simpa [SSOTables.store] using tables.identities_nodup
  users := (List.append_nil _).symm
  identities := (List.append_nil _).symm
  complete a ha := by cases ha
  known tx htx := by cases htx

theorem rollback (h : SSOStoreOk columns tables s) (tx : SSOTransaction) :
    SSOStoreOk columns tables (s.rollback tx) where
  users_nodup :=
    h.users_nodup.sublist ((List.Sublist.refl _).append (List.erase_sublist.map _))
  identities_nodup :=
    h.identities_nodup.sublist ((List.Sublist.refl _).append (List.erase_sublist.filterMap _))
  users := h.users
  identities := h.identities
  complete := h.complete
  known tx' htx' := h.known tx' (List.mem_of_mem_erase htx')

/-- One more row of an open transaction, whose identity is not changed or new. -/
theorem replace (h : SSOStoreOk columns tables s) (htx : tx ∈ s.pending)
    (huser : tx'.user = tx.user)
    (hidentity : tx'.identity = tx.identity ∨ tx.identity = none ∧
      ∃ row, tx'.identity = some row ∧ row.key ∉ s.identities.map SSOIdentity.key ∧
        row.key ∉ s.pending.filterMap (·.identity.map SSOIdentity.key)) :
    SSOStoreOk columns tables (s.replace tx tx') where
  users_nodup := by
    have hout : s.pending.Perm (tx :: s.pending.erase tx) := List.perm_cons_erase htx
    have hin : (s.replace tx tx').pending.Perm (tx' :: s.pending.erase tx) :=
      List.perm_append_singleton tx' _
    have hsame : ((s.replace tx tx').pending.map (·.user.id)).Perm
        (s.pending.map (·.user.id)) := by
      refine (hin.map _).trans (List.Perm.trans ?_ (hout.map _).symm)
      simp [huser]
    exact (hsame.append_left _).nodup_iff.mpr h.users_nodup
  identities_nodup := by
    have hout : s.pending.Perm (tx :: s.pending.erase tx) := List.perm_cons_erase htx
    have hin : (s.replace tx tx').pending.Perm (tx' :: s.pending.erase tx) :=
      List.perm_append_singleton tx' _
    have hold := hout.filterMap (·.identity.map SSOIdentity.key)
    have hnew := hin.filterMap (·.identity.map SSOIdentity.key)
    rcases hidentity with hsame | ⟨hnone, row, hrow, hcommitted, hpending⟩
    · have heq : (tx' :: s.pending.erase tx).filterMap (·.identity.map SSOIdentity.key) =
          (tx :: s.pending.erase tx).filterMap (·.identity.map SSOIdentity.key) := by
        simp only [List.filterMap_cons, hsame]
      have hkeys := hnew.trans (heq ▸ hold.symm)
      exact (hkeys.append_left _).nodup_iff.mpr h.identities_nodup
    · have hrest : (s.pending.filterMap (·.identity.map SSOIdentity.key)).Perm
          ((s.pending.erase tx).filterMap (·.identity.map SSOIdentity.key)) := by
        simpa [hnone] using hold
      have hkeys : ((s.replace tx tx').pending.filterMap (·.identity.map SSOIdentity.key)).Perm
          (row.key :: s.pending.filterMap (·.identity.map SSOIdentity.key)) := by
        refine hnew.trans ?_
        simpa [hrow] using hrest.symm.cons row.key
      refine ((hkeys.append_left _).trans List.perm_middle).nodup_iff.mpr
        (List.nodup_cons.mpr ⟨fun hmem => ?_, h.identities_nodup⟩)
      exact (List.mem_append.mp hmem).elim hcommitted hpending
  users := h.users
  identities := h.identities
  complete := h.complete
  known tx₁ _ := h.known tx htx

theorem opens (h : SSOStoreOk columns tables s) {user : User}
    (hknown : missingSSOColumn columns = none)
    (hcommitted : user.id ∉ s.db.users.map User.id)
    (hpending : user.id ∉ s.pending.map (·.user.id)) :
    SSOStoreOk columns tables { s with pending := s.pending ++ [⟨user, none, none⟩] } where
  users_nodup := by
    simp only [List.map_append, List.map_cons, List.map_nil]
    rw [← List.append_assoc]
    refine (List.perm_append_singleton user.id _).nodup_iff.mpr
      (List.nodup_cons.mpr ⟨fun hmem => ?_, h.users_nodup⟩)
    exact (List.mem_append.mp hmem).elim hcommitted hpending
  identities_nodup := by simpa using h.identities_nodup
  users := h.users
  identities := h.identities
  complete := h.complete
  known _ _ := hknown

theorem touch (h : SSOStoreOk columns tables s) (now : Time) (req : SSORequest) :
    SSOStoreOk columns tables (s.touch now req) where
  users_nodup := h.users_nodup
  identities_nodup := by
    rw [touch_keys]
    exact h.identities_nodup
  users := h.users
  identities := (touch_keys s now req).trans h.identities
  complete a ha := ⟨touch_keeps s now req _ _ (h.complete a ha).1, (h.complete a ha).2⟩
  known := h.known

theorem openSession (h : SSOStoreOk columns tables s) (svc : Service) (now : Time)
    (req : SSORequest) (userID : Uuid) :
    SSOStoreOk columns tables (s.openSession svc now req userID) := by
  obtain ⟨husers, hroles⟩ := openSession_frame svc s now req userID
  constructor
  · rw [husers]
    exact h.users_nodup
  · exact h.identities_nodup
  · exact husers.trans h.users
  · exact h.identities
  · intro a ha
    rw [hroles]
    exact h.complete a ha
  · exact h.known

/-- The commit of a complete transaction. -/
theorem commit (h : SSOStoreOk columns tables s) (htx : tx ∈ s.pending) {req : SSORequest}
    {link : SSOIdentity} (hlink : tx.identity = some link) (hkey : link.key = req.key)
    (huser : link.userId = tx.user.id)
    (hrole : ∀ row, req.provider.grants tx.user.id = some row → tx.role = some row) :
    SSOStoreOk columns tables (s.commit req tx) := by
  have hout : s.pending.Perm (tx :: s.pending.erase tx) := List.perm_cons_erase htx
  have hidentities : (s.commit req tx).identities = s.identities ++ [link] := by
    rw [SSOStore.commit, hlink]
    rfl
  constructor
  · have hids : (s.db.users.map User.id ++ s.pending.map (·.user.id)).Perm
        ((s.db.users.map User.id ++ [tx.user.id]) ++ (s.pending.erase tx).map (·.user.id)) := by
      rw [List.append_assoc]
      exact (hout.map _).append_left _
    rw [commit_users, List.map_append]
    exact hids.nodup_iff.mp h.users_nodup
  · have hkeys : (s.identities.map SSOIdentity.key ++
          s.pending.filterMap (·.identity.map SSOIdentity.key)).Perm
        ((s.identities.map SSOIdentity.key ++ [link.key]) ++
          (s.pending.erase tx).filterMap (·.identity.map SSOIdentity.key)) := by
      rw [List.append_assoc]
      refine List.Perm.append_left _ ?_
      simpa [hlink] using hout.filterMap (·.identity.map SSOIdentity.key)
    rw [hidentities, List.map_append]
    exact hkeys.nodup_iff.mp h.identities_nodup
  · rw [commit_users, List.map_append, h.users]
    simp [SSOStore.commit]
  · rw [hidentities, List.map_append, h.identities]
    simp [SSOStore.commit, SSOAccount.key, hkey, SSORequest.key]
  · intro a ha
    rcases List.mem_append.mp ha with ha | ha
    · obtain ⟨⟨row, hrow, hrest⟩, hgranted⟩ := h.complete a ha
      refine ⟨⟨row, hidentities ▸ List.mem_append_left _ hrow, hrest⟩, fun row' hrow' => ?_⟩
      exact (commit_userRoles s req tx).mpr (.inl (hgranted row' hrow'))
    · rw [List.mem_singleton.mp ha]
      refine ⟨⟨link, hidentities ▸ List.mem_append_right _ (List.mem_singleton_self _), hkey,
        huser⟩, fun row hrow => ?_⟩
      exact (commit_userRoles s req tx).mpr (.inr (hrole row hrow))
  · exact fun tx' htx' => h.known tx' (List.mem_of_mem_erase htx')

end SSOStoreOk

theorem commit_keeps (s : SSOStore) (req : SSORequest) (tx : SSOTransaction) :
    s.Keeps (s.commit req tx) := by
  rintro key userID ⟨row, hrow, hrest⟩
  exact ⟨row, List.mem_append_left _ hrow, hrest⟩

section Effect

variable {svc : Service} {columns : SqlTable × String → Bool} {e : SSOEvent} {tables : SSOTables}
  {s s' : SSOStore} {call : SSOCall} {c : SSOCall ⊕ SSOAnswer}

/-- The invariant, the assertion of the call, and the links. -/
theorem SSOEffect.keeps (heffect : SSOEffect svc columns e s call s' c)
    (h : SSOStoreOk columns tables s) (hcall : SSOCallOk s (.inl call))
    (hheld : ∀ tx, heldTransaction (.inl call) = some tx → tx ∈ s.pending) :
    SSOStoreOk columns tables s' ∧ SSOCallOk s' c ∧ s.Keeps s' := by
  have hsame : s.Keeps s := fun _ _ hlinked => hlinked
  cases heffect with
  | waits call call' _ hok => exact ⟨h, hok hcall, hsame⟩
  | fails call req cause _ => exact ⟨h, trivial, hsame⟩
  | touches req userID =>
    have hkeeps := touch_keeps s e.now req
    exact ⟨h.touch e.now req, hkeeps _ _ hcall, hkeeps⟩
  | opens req user hknown hcommitted hpending =>
    exact ⟨h.opens hknown hcommitted hpending, rfl, hsame⟩
  | grants req tx =>
    exact ⟨h.replace (hheld tx rfl) rfl (.inl rfl), ⟨hcall, fun _ hrow => hrow⟩, hsame⟩
  | links req tx hcommitted hpending =>
    refine ⟨h.replace (hheld tx rfl) rfl (.inr ⟨hcall.1, _, rfl, hcommitted, hpending⟩), ?_, hsame⟩
    exact ⟨⟨_, rfl, rfl, rfl⟩, hcall.2⟩
  | rollsBack call req tx cause _ => exact ⟨h.rollback tx, trivial, hsame⟩
  | commits req tx _ =>
    obtain ⟨⟨link, hlink, hkey, huser⟩, hrole⟩ := hcall
    refine ⟨h.commit (hheld tx rfl) hlink hkey huser hrole, ?_, commit_keeps s req tx⟩
    refine ⟨link, List.mem_append_right _ ?_, hkey, huser⟩
    rw [hlink]
    exact List.mem_singleton_self link
  | losesReply req tx cause _ =>
    obtain ⟨⟨link, hlink, hkey, huser⟩, hrole⟩ := hcall
    exact ⟨h.commit (hheld tx rfl) hlink hkey huser hrole, trivial, commit_keeps s req tx⟩
  | ends req userID s' hs' =>
    rcases hs' with rfl | rfl
    · exact ⟨h, hcall, hsame⟩
    · exact ⟨h.openSession svc e.now req userID, hcall, hsame⟩

/-- A statement gives out and takes back the transaction of its own login. -/
theorem SSOEffect.held (heffect : SSOEffect svc columns e s call s' c)
    {rest : List SSOTransaction}
    (h : s.pending.Perm ((heldTransaction (.inl call)).toList ++ rest)) :
    s'.pending.Perm ((heldTransaction c).toList ++ rest) := by
  have herase : ∀ tx, s.pending.Perm ([tx] ++ rest) → (s.pending.erase tx).Perm rest := by
    intro tx hpending
    simpa using hpending.erase tx
  cases heffect with
  | waits call call' hheld _ => rwa [hheld]
  | fails call req cause hheld => rwa [hheld] at h
  | touches req userID => exact h
  | opens req user _ _ _ =>
    exact (List.perm_append_singleton _ _).trans (h.cons _)
  | grants req tx => exact (List.perm_append_singleton _ _).trans ((herase tx h).cons _)
  | links req tx _ _ => exact (List.perm_append_singleton _ _).trans ((herase tx h).cons _)
  | rollsBack call req tx cause hheld =>
    rw [hheld] at h
    exact herase tx h
  | commits req tx _ => exact herase tx h
  | losesReply req tx cause _ => exact herase tx h
  | ends req userID s' hs' =>
    rcases hs' with rfl | rfl
    · exact h
    · exact h

/-- Nothing is written before the account is found or made. -/
theorem SSOEffect.tables_of_failing (heffect : SSOEffect svc columns e s call s' c)
    (hanswered : ∀ req tx, call = .commit req tx → e.fate ≠ .unanswered)
    (hnone : accountFound c = none) : s'.db = s.db ∧ s'.identities = s.identities := by
  cases heffect with
  | waits | fails | opens | grants | links | rollsBack => exact ⟨rfl, rfl⟩
  | touches req userID => cases hnone
  | commits req tx _ => cases hnone
  | losesReply req tx cause hfate => exact absurd hfate (hanswered req tx rfl)
  | ends req userID s' _ => cases hnone

/-- A link that is new comes with the account. -/
theorem SSOEffect.links_new (heffect : SSOEffect svc columns e s call s' c)
    (h : SSOStoreOk columns tables s) (hcall : SSOCallOk s (.inl call))
    (hheld : ∀ tx, heldTransaction (.inl call) = some tx → tx ∈ s.pending) :
    ∀ row ∈ s'.identities, (∃ row' ∈ s.identities, row'.key = row.key ∧ row'.userId = row.userId) ∨
      row.userId ∉ s.db.users.map User.id := by
  have hsame : ∀ row ∈ s.identities,
      (∃ row' ∈ s.identities, row'.key = row.key ∧ row'.userId = row.userId) ∨
        row.userId ∉ s.db.users.map User.id := fun row hrow => .inl ⟨row, hrow, rfl, rfl⟩
  have hcommit : ∀ req tx, call = .commit req tx → ∀ row ∈ (s.commit req tx).identities,
      (∃ row' ∈ s.identities, row'.key = row.key ∧ row'.userId = row.userId) ∨
        row.userId ∉ s.db.users.map User.id := by
    rintro req tx rfl row hrow
    obtain ⟨⟨link, hlink, -, huser⟩, -⟩ := hcall
    rcases List.mem_append.mp hrow with hrow | hrow
    · exact hsame row hrow
    · rw [hlink, Option.toList_some, List.mem_singleton] at hrow
      rw [hrow, huser]
      refine .inr fun hmem => ?_
      exact (List.nodup_append.mp h.users_nodup).2.2 _ hmem _
        (List.mem_map_of_mem (hheld tx rfl)) rfl
  cases heffect with
  | waits | fails | opens | grants | links | rollsBack => exact hsame
  | touches req userID =>
    intro row hrow
    obtain ⟨row', hrow', rfl⟩ := Table.mem_updateWhere.mp hrow
    refine .inl ⟨row', hrow', ?_⟩
    split
    · exact ⟨rfl, rfl⟩
    · exact ⟨rfl, rfl⟩
  | commits req tx _ => exact hcommit req tx rfl
  | losesReply req tx cause _ => exact hcommit req tx rfl
  | ends req userID s' hs' =>
    rcases hs' with rfl | rfl
    · exact hsame
    · exact hsame

end Effect

/-! ## The runs -/

/-- Nobody has come to log in. -/
def ssoStart (tables : SSOTables) : SSOSystem := ⟨tables.store, []⟩

structure SSOSystemOk (columns : SqlTable × String → Bool) (tables : SSOTables) (s : SSOSystem) :
    Prop where
  holds : Program.Holds (SSOStoreOk columns tables) SSOCallOk s
  held : s.shared.pending.Perm (s.calls.filterMap heldTransaction)

section Runs

variable {svc : Service} {columns : SqlTable × String → Bool} {tables : SSOTables} {s : SSOSystem}

theorem ssoStart_ok : SSOSystemOk columns tables (ssoStart tables) where
  holds := ⟨SSOStoreOk.start columns tables, fun c hc => by cases hc⟩
  held := List.Perm.refl _

/-- The transaction of a login is open. -/
theorem SSOSystemOk.mem_pending (h : SSOSystemOk columns tables s) {i : Nat} {call : SSOCall}
    (hcall : s.calls[i]? = some (.inl call)) {tx : SSOTransaction}
    (htx : heldTransaction (.inl call) = some tx) : tx ∈ s.shared.pending :=
  h.held.mem_iff.mpr (List.mem_filterMap.mpr ⟨_, List.mem_of_getElem? hcall, htx⟩)

theorem SSOSystemOk.step (h : SSOSystemOk columns tables s) (m : Move SSORequest SSOEvent) :
    SSOSystemOk columns tables ((ssoLogins svc columns).step s m) where
  holds := by
    refine Program.holds_step _ s m h.holds (fun _ _ => trivial) fun i e call _ hcall => ?_
    obtain ⟨hstore, hown, hkeeps⟩ := (ssoExec_effect svc columns e s.shared call).keeps
      h.holds.shared (h.holds.calls _ (List.mem_of_getElem? hcall))
      (fun tx htx => h.mem_pending hcall htx)
    rw [ssoLogins_exec]
    exact ⟨hstore, hown, fun c hc => hc.mono hkeeps⟩
  held := by
    refine Program.held_step _ heldTransaction SSOStore.pending s m h.held (fun _ => rfl) ?_
    intro i e call _ _ rest hrest
    rw [ssoLogins_exec]
    exact (ssoExec_effect svc columns e s.shared call).held hrest

theorem SSOSystemOk.safe (h : SSOSystemOk columns tables s) : OneAccountPerIdentity tables s where
  same c hc c' hc' key userID userID' hfound hfound' := by
    obtain ⟨row, hrow, hkey, rfl⟩ := (h.holds.calls c hc).linked hfound
    obtain ⟨row', hrow', hkey', rfl⟩ := (h.holds.calls c' hc').linked hfound'
    have hnodup := (List.nodup_append.mp h.holds.shared.identities_nodup).1
    rw [List.inj_on_of_nodup_map hnodup hrow hrow' (hkey.trans hkey'.symm)]
  once key := by
    have hnodup := (List.nodup_append.mp h.holds.shared.identities_nodup).1
    rw [h.holds.shared.identities] at hnodup
    have hcreated := (List.nodup_append.mp hnodup).2.1
    have hcount := List.nodup_iff_count_le_one.mp hcreated key
    rw [List.count, List.countP_map] at hcount
    refine Nat.le_trans (Nat.le_of_eq (List.countP_congr fun a _ => ?_)) hcount
    simp
  accounts := h.holds.shared.users
  complete := h.holds.shared.complete

theorem SSOSystemOk.links (h : SSOSystemOk columns tables s) (m : Move SSORequest SSOEvent)
    (hanswers : AnswersCommits columns s m) :
    LinksNewAccounts (ssoLogins svc columns) s m := by
  obtain ⟨r, rfl, hs⟩ | ⟨i, e, call, rfl, hcall, hs⟩ | hs := (ssoLogins svc columns).step_cases s m
  · constructor
    · intro i e hm
      cases hm
    · rw [hs]
      exact fun row hrow => .inl ⟨row, hrow, rfl, rfl⟩
  · have heffect := ssoExec_effect svc columns e s.shared call
    have hown := h.holds.calls _ (List.mem_of_getElem? hcall)
    constructor
    · intro i' e' hm hnone
      cases hm
      rw [hs] at hnone ⊢
      refine heffect.tables_of_failing ?_ (hnone _ ?_)
      · rintro req tx rfl
        exact hanswers (h.holds.shared.known tx (h.mem_pending hcall rfl)) req tx hcall
      · obtain ⟨hi, -⟩ := List.getElem?_eq_some_iff.mp hcall
        rw [System.put_calls, List.getElem?_set_self hi]
        rfl
    · rw [hs]
      exact heffect.links_new h.holds.shared hown fun tx htx => h.mem_pending hcall htx
  · constructor
    · intro i e _ _
      rw [hs]
      exact ⟨rfl, rfl⟩
    · rw [hs]
      exact fun row hrow => .inl ⟨row, hrow, rfl, rfl⟩

/-- External identities map to one account each, on tables with or without the
columns the INSERT of an account names, while no answer to a commit is lost. -/
theorem sso_accounts_of_answers (moves : List (Move SSORequest SSOEvent))
    (h : Runs.Every (ssoLogins svc columns).step (AnswersCommits columns) (ssoStart tables) moves) :
    Runs.Along (ssoLogins svc columns).step (OneAccountPerIdentity tables) (ssoStart tables)
        moves ∧
      Runs.Every (ssoLogins svc columns).step (LinksNewAccounts (ssoLogins svc columns))
        (ssoStart tables) moves := by
  have hok : Runs.Along (ssoLogins svc columns).step (SSOSystemOk columns tables)
      (ssoStart tables) moves :=
    Runs.along_invariant (fun _ m hs => hs.step m) ssoStart_ok moves
  exact ⟨hok.mono fun _ hs => hs.safe, Runs.every_of_along (fun _ m hs hm => hs.links m hm) hok h⟩

/-- No migration has made all the columns. -/
theorem missingSSOColumn_schema : missingSSOColumn schema = some (.users, "display_name") := by
  decide

/-- External identities map to one account each, on the tables of the migrations. -/
theorem sso_identity_has_one_account (svc : Service) (tables : SSOTables)
    (moves : List (Move SSORequest SSOEvent)) :
    Runs.Along (ssoLogins svc schema).step (OneAccountPerIdentity tables) (ssoStart tables) moves ∧
      Runs.Every (ssoLogins svc schema).step (LinksNewAccounts (ssoLogins svc schema))
        (ssoStart tables) moves := by
  refine sso_accounts_of_answers moves ?_
  refine Runs.every_of_invariant (J := fun _ => True) (fun _ _ _ => trivial) ?_ trivial moves
  intro s m _
  cases m with
  | begin req => trivial
  | advance i e =>
    intro hknown
    rw [missingSSOColumn_schema] at hknown
    cases hknown

end Runs

end IronStock

import IronStock.GroupShareLevels
import IronStock.Lib.Autocommit

/-!
# Shares when the database fails

Share sends one statement and ShareGroup one for the group and one for each
member, none of them in a transaction. Each may be refused, may never reach the
server, or may take effect and lose its answer.
-/
namespace IronStock.Sharing

open Autocommit

/-- The state with the column `granted_at` of both tables, by their keys. -/
structure ShareTables where
  db : DB
  grantedAt : Uuid → Uuid → Option Time
  groupGrantedAt : Uuid → Uuid → Option Time

/-- `item_shares` and `item_group_shares` are the same. -/
structure SameTables (s s' : ShareTables) : Prop where
  shares : s'.db.itemShares = s.db.itemShares
  groupShares : s'.db.itemGroupShares = s.db.itemGroupShares
  grantedAt : s'.grantedAt = s.grantedAt
  groupGrantedAt : s'.groupGrantedAt = s.groupGrantedAt

theorem SameTables.refl (s : ShareTables) : SameTables s s := ⟨rfl, rfl, rfl, rfl⟩

def stamp (column : Uuid → Uuid → Option Time) (a b : Uuid) (t : Time) : Uuid → Uuid → Option Time :=
  fun a' b' => if a' = a ∧ b' = b then some t else column a' b'

/-- How the database behaves during a request: the two queries before the
writes, each statement, the time `now()` is in it, and the entry at the end. -/
structure Conduct where
  answersPermission : Bool
  answersGroup : Bool
  delivery : Nat → Delivery
  clock : Nat → Time
  audits : Bool

/-- The times of the tables are of transactions before the request. -/
structure Conduct.Ahead (c : Conduct) (s : ShareTables) : Prop where
  shares : ∀ i a b t, s.grantedAt a b = some t → t < c.clock i
  groupShares : ∀ i a b t, s.groupGrantedAt a b = some t → t < c.clock i

section
variable (c : Conduct)

/-- The upsert into `item_shares`. -/
def memberStatement (row : Except PgError ItemShare) : Statement ShareTables := fun i s =>
  match row with
  | .error _ => none
  | .ok r =>
    if shareReferencesOk s.db r then
      some { s with
        db := s.db.putShare r, grantedAt := stamp s.grantedAt r.itemId r.userId (c.clock i) }
    else none

/-- The upsert into `item_group_shares`. -/
def groupStatement (row : Except PgError ItemGroupShare) : Statement ShareTables := fun i s =>
  match row with
  | .error _ => none
  | .ok g =>
    if g.referencesExist s.db then
      some { s with
        db := s.db.putGroupShare g
        groupGrantedAt := stamp s.groupGrantedAt g.itemId g.groupId (c.clock i) }
    else none

/-- The query for the caller's permission, which an admin skips. -/
def checkPermission (db : DB) (now : Time) (claims : Claims) (itemID : String) : Reply Unit :=
  .unlessAdmin claims
    (if c.answersPermission then
      requireItemWrite db now claims itemID "Yetki sorgulanamadı."
        "Bu item'ı paylaşmak için yazma yetkisi gerekli."
    else .error (internalError "Yetki sorgulanamadı."))

/-- The entry in the audit log, whose failure is passed over. -/
def writeAudit (s : ShareTables) (e : AuditEntry) : ShareTables :=
  if c.audits then { s with db := s.db.audit e } else s

/-! ## The handlers -/

def checkShare (db : DB) (now : Time) (claims : Claims) (itemID : String) (req : ShareItemRequest) :
    Reply Unit := do
  .require (itemID ≠ "") (badRequest "item id zorunlu.")
  validateShareItem claims req
  checkPermission c db now claims itemID

/-- The upsert of a share and what follows it. -/
def shareGiven (s : ShareTables) (claims : Claims) (itemID : String) (req : ShareItemRequest) :
    ShareTables × Reply Unit :=
  match (c.delivery 0).exec (memberStatement c (req.row itemID claims.subject) 0 s) s with
  | (s', false) => (s', .error (internalError "Paylaşım kaydedilemedi."))
  | (s', true) => (writeAudit c s' ⟨claims.subject.text, "item.shared", "item", itemID⟩, .ok ())

/-- `ItemHandlers.Share`. -/
def share (s : ShareTables) (now : Time) (claims : Claims) (itemID : String)
    (req : ShareItemRequest) : ShareTables × Reply Unit :=
  match checkShare c s.db now claims itemID req with
  | .error e => (s, .error e)
  | .ok () => shareGiven c s claims itemID req

def checkShareGroup (db : DB) (now : Time) (claims : Claims) (itemID : String)
    (req : ShareGroupRequest) : Reply Unit := do
  .require (itemID ≠ "") (badRequest "item id zorunlu.")
  .require (req.groupID ≠ "") (badRequest "group_id zorunlu.")
  .require (req.permission = "read" ∨ req.permission = "write")
    (badRequest "permission 'read' veya 'write' olmalı.")
  .require (windowOrdered req.validFrom req.validUntil)
    (badRequest "valid_from valid_until'dan önce olmalı.")
  checkPermission c db now claims itemID
  .require (c.answersGroup = true ∧ ((castUuid req.groupID).bind db.group?).isSome = true)
    (badRequest "Grup bulunamadı.")
  validateMembers req.members

/-- The row of the group that the request asks for. -/
def groupRow (itemID : String) (claims : Claims) (req : ShareGroupRequest) :
    Except PgError ItemGroupShare :=
  groupShareRow itemID req.groupID req.permission claims.subject req.validFrom req.validUntil

def memberStatements (itemID : String) (claims : Claims) (req : ShareGroupRequest) :
    List (Statement ShareTables) :=
  req.members.map fun m => memberStatement c (req.row itemID claims.subject m)

/-- The loop over the members and what follows it. -/
def shareMembersGiven (s₁ : ShareTables) (claims : Claims) (itemID : String)
    (req : ShareGroupRequest) : ShareTables × Reply Unit :=
  match run c.delivery 1 (memberStatements c itemID claims req) s₁ with
  | (s₂, false) => (s₂, .error (internalError "Üye DEK wraps kaydedilemedi."))
  | (s₂, true) =>
    (writeAudit c s₂ ⟨claims.subject.text, "item.group_shared", "item", itemID⟩, .ok ())

/-- The upsert of the group's share and what follows it. -/
def shareGroupGiven (s : ShareTables) (claims : Claims) (itemID : String)
    (req : ShareGroupRequest) : ShareTables × Reply Unit :=
  match (c.delivery 0).exec (groupStatement c (groupRow itemID claims req) 0 s) s with
  | (s₁, false) => (s₁, .error (internalError "Grup paylaşımı kaydedilemedi."))
  | (s₁, true) => shareMembersGiven c s₁ claims itemID req

/-- `ItemHandlers.ShareGroup`. -/
def shareGroup (s : ShareTables) (now : Time) (claims : Claims) (itemID : String)
    (req : ShareGroupRequest) : ShareTables × Reply Unit :=
  match checkShareGroup c s.db now claims itemID req with
  | .error e => (s, .error e)
  | .ok () => shareGroupGiven c s claims itemID req
end

/-! ## The law -/

/-- The user has a share of the item that is as the request asks. -/
def Delivered (db : DB) (itemID userID permission : String) (dekWrapped wrapNonce : Bytes)
    (validFrom validUntil : Option Time) : Prop :=
  ∃ r ∈ db.itemShares, castUuid itemID = some r.itemId ∧ castUuid userID = some r.userId ∧
    Grant.ofText permission = some r.permission ∧ r.revokedAt = none ∧
    r.window.validFrom = validFrom ∧ r.window.validUntil = validUntil ∧
    r.e2eDekWrapped = dekWrapped ∧ r.wrapNonce.bytes = wrapNonce

/-- After an error the tables are as before, and after success they have what
was asked for. -/
structure AllOrNothing (s : ShareTables) (r : ShareTables × Reply Unit) (delivered : DB → Prop) :
    Prop where
  error : ∀ e, r.2 = .error e → SameTables s r.1
  ok : r.2 = .ok () → delivered r.1.db

theorem allOrNothing_ok_iff {s s' : ShareTables} {delivered : DB → Prop} :
    AllOrNothing s (s', .ok ()) delivered ↔ delivered s'.db := by
  constructor
  · exact fun h => h.ok rfl
  · refine fun h => ⟨fun e he => ?_, fun _ => h⟩
    cases he

theorem allOrNothing_error_iff {s s' : ShareTables} {e : ApiError} {delivered : DB → Prop} :
    AllOrNothing s (s', .error e) delivered ↔ SameTables s s' := by
  constructor
  · exact fun h => h.error e rfl
  · refine fun h => ⟨fun _ _ => h, fun hok => ?_⟩
    cases hok

/-- An error before any write. -/
theorem AllOrNothing.of_error (s : ShareTables) (e : ApiError) (delivered : DB → Prop) :
    AllOrNothing s (s, .error e) delivered :=
  allOrNothing_error_iff.mpr (.refl s)

/-! ## Requests without a fault -/

/-- Every query and statement is answered. -/
structure Conduct.Faultless (c : Conduct) : Prop where
  permission : c.answersPermission = true
  group : c.answersGroup = true
  delivery : ∀ i, c.delivery i = .answered
  audits : c.audits = true

theorem exec_answered (w : Option ShareTables) (s : ShareTables) :
    Delivery.answered.exec w s = match w with
      | some s' => (s', true)
      | none => (s, false) := by
  cases w <;> rfl

theorem run_answered {c : Conduct} (hc : c.Faultless) (n : Nat)
    (rows : List (Except PgError ItemShare)) (s : ShareTables) :
    (run c.delivery n (rows.map (memberStatement c)) s).1.db = (shareMembers s.db rows).1 ∧
      (run c.delivery n (rows.map (memberStatement c)) s).2 = (shareMembers s.db rows).2.isOk := by
  induction rows generalizing n s with
  | nil => exact ⟨rfl, rfl⟩
  | cons row rows ih =>
    rw [List.map_cons, run, hc.delivery, exec_answered]
    cases row with
    | error e => exact ⟨rfl, rfl⟩
    | ok r =>
      by_cases hrefs : shareReferencesOk s.db r = true
      · simp only [memberStatement, hrefs, if_true, shareMembers, upsertShare]
        exact ih _ _
      · simp only [memberStatement, hrefs, shareMembers, upsertShare]
        exact ⟨rfl, rfl⟩

theorem shareMembers_error {db : DB} {rows : List (Except PgError ItemShare)} {e : ApiError}
    (h : (shareMembers db rows).2 = .error e) :
    e = internalError "Üye DEK wraps kaydedilemedi." := by
  induction rows generalizing db with
  | nil => cases h
  | cons row rows ih =>
    rw [shareMembers] at h
    split at h
    · exact (Except.error.inj h).symm
    · exact ih h

theorem checkPermission_faultless {c : Conduct} (hc : c.Faultless) (db : DB) (now : Time)
    (claims : Claims) (itemID : String) :
    checkPermission c db now claims itemID =
      .unlessAdmin claims
        (requireItemWrite db now claims itemID "Yetki sorgulanamadı."
          "Bu item'ı paylaşmak için yazma yetkisi gerekli.") := by
  rw [checkPermission, hc.permission, if_pos rfl]

/-- A group share without a fault is the one of the whole model. -/
theorem shareGroup_faultless {c : Conduct} (hc : c.Faultless) (s : ShareTables) (now : Time)
    (claims : Claims) (itemID : String) (req : ShareGroupRequest) :
    (shareGroup c s now claims itemID req).1.db = (IronStock.shareGroup s.db now claims itemID req).1 ∧
      (shareGroup c s now claims itemID req).2 =
        (IronStock.shareGroup s.db now claims itemID req).2 := by
  have hcheck : checkShareGroup c s.db now claims itemID req =
      IronStock.checkShareGroup s.db now claims itemID req := by
    simp only [checkShareGroup, IronStock.checkShareGroup, checkPermission_faultless hc, hc.group,
      true_and]
  unfold shareGroup IronStock.shareGroup
  rw [hcheck]
  cases IronStock.checkShareGroup s.db now claims itemID req with
  | error e => exact ⟨rfl, rfl⟩
  | ok u =>
    simp only [shareGroupGiven, hc.delivery, exec_answered, upsertGroupShare_eq, groupStatement,
      groupRow]
    cases groupShareRow itemID req.groupID req.permission claims.subject req.validFrom
        req.validUntil with
    | error e => exact ⟨rfl, rfl⟩
    | ok g =>
      by_cases hrefs : g.referencesExist s.db = true
      · simp only [hrefs, if_true, shareMembersGiven]
        have hrows : memberStatements c itemID claims req =
            (req.members.map (req.row itemID claims.subject)).map (memberStatement c) := by
          rw [memberStatements, List.map_map]
          rfl
        obtain ⟨hdb, hok⟩ := run_answered hc 1 (req.members.map (req.row itemID claims.subject))
          { s with
            db := s.db.putGroupShare g
            groupGrantedAt := stamp s.groupGrantedAt g.itemId g.groupId (c.clock 0) }
        rw [← hrows] at hdb hok
        change _ = (shareMembers (s.db.putGroupShare g) _).1 at hdb
        change _ = (shareMembers (s.db.putGroupShare g) _).2.isOk at hok
        have herror := @shareMembers_error (s.db.putGroupShare g)
          (req.members.map (req.row itemID claims.subject))
        revert hdb hok herror
        generalize run c.delivery 1 (memberStatements c itemID claims req) _ = outcome
        generalize shareMembers (s.db.putGroupShare g) _ = expected
        obtain ⟨s₂, answered⟩ := outcome
        obtain ⟨db₂, reply⟩ := expected
        intro hdb hok herror
        cases reply with
        | error e =>
          obtain rfl : answered = false := hok
          rw [herror rfl]
          exact ⟨hdb, rfl⟩
        | ok u =>
          obtain rfl : answered = true := hok
          obtain rfl : s₂.db = db₂ := hdb
          simp only [writeAudit, hc.audits, if_true, and_self]
      · simp only [hrefs]
        exact ⟨rfl, rfl⟩

theorem share_faultless {c : Conduct} (hc : c.Faultless) (s : ShareTables) (now : Time)
    (claims : Claims) (itemID : String) (req : ShareItemRequest) :
    (share c s now claims itemID req).2.map (fun _ => (share c s now claims itemID req).1.db) =
      IronStock.share s.db now claims itemID req := by
  have hcheck : checkShare c s.db now claims itemID req = (do
      .require (itemID ≠ "") (badRequest "item id zorunlu.")
      validateShareItem claims req
      .unlessAdmin claims
        (requireItemWrite s.db now claims itemID "Yetki sorgulanamadı."
          "Bu item'ı paylaşmak için yazma yetkisi gerekli.")) := by
    rw [checkShare, checkPermission_faultless hc]
  unfold share IronStock.share
  rw [hcheck]
  cases Reply.require (itemID ≠ "") (badRequest "item id zorunlu.") with
  | error e => rfl
  | ok u =>
    cases validateShareItem claims req with
    | error e => rfl
    | ok u =>
      cases Reply.unlessAdmin claims
          (requireItemWrite s.db now claims itemID "Yetki sorgulanamadı."
            "Bu item'ı paylaşmak için yazma yetkisi gerekli.") with
      | error e => rfl
      | ok u =>
        simp only [bind, Except.bind, shareGiven, hc.delivery, exec_answered, memberStatement]
        cases req.row itemID claims.subject with
        | error e => rfl
        | ok r =>
          by_cases hrefs : shareReferencesOk s.db r = true
          · simp only [hrefs, if_true, statement, upsertShare, writeAudit, hc.audits]
            rfl
          · simp only [hrefs, statement, upsertShare]
            rfl

/-! ## Rows of one request -/

theorem shareRow_eq_ok {itemID userID permission : String} {dekWrapped wrapNonce : Bytes}
    {grantedBy : Uuid} {validFrom validUntil : Option Time} {r : ItemShare} :
    shareRow itemID userID dekWrapped wrapNonce permission grantedBy validFrom validUntil = .ok r →
      castUuid itemID = some r.itemId ∧ castUuid userID = some r.userId ∧
        Grant.ofText permission = some r.permission ∧ r.revokedAt = none ∧
        r.window.validFrom = validFrom ∧ r.window.validUntil = validUntil ∧
        r.e2eDekWrapped = dekWrapped ∧ r.wrapNonce.bytes = wrapNonce ∧ r.grantedBy = grantedBy := by
  intro h
  unfold shareRow at h
  split at h
  · next item user hitem huser =>
    split at h
    · next nonce p win hnonce hp hwin =>
      cases h
      have hbytes : nonce.bytes = wrapNonce := by
        rw [Nonce.ofBytes] at hnonce
        split at hnonce <;> cases hnonce
        rfl
      have hbounds : win.validFrom = validFrom ∧ win.validUntil = validUntil := by
        unfold Window.ofBounds at hwin
        split at hwin
        · split at hwin <;> cases hwin
          exact ⟨rfl, rfl⟩
        · cases hwin
          exact ⟨rfl, rfl⟩
        · cases hwin
          exact ⟨rfl, rfl⟩
      exact ⟨hitem, huser, hp, rfl, hbounds.1, hbounds.2, rfl, hbytes, rfl⟩
    · cases h
  · cases h

theorem ItemShare.isFor_iff {r : ItemShare} {a b : Uuid} :
    r.isFor a b = true ↔ r.itemId = a ∧ r.userId = b := by
  simp [IronStock.ItemShare.isFor]

theorem mem_putShare_iff {db : DB} {r x : ItemShare} :
    x ∈ (db.putShare r).itemShares ↔
      x = r ∨ x ∈ db.itemShares ∧ x.isFor r.itemId r.userId = false :=
  Table.mem_upsert_const

/-- A row whose key is not written stays. -/
theorem mem_putShares_of_mem {rows : List ItemShare} {db : DB} {x : ItemShare}
    (hx : x ∈ db.itemShares) (hother : ∀ r ∈ rows, x.isFor r.itemId r.userId = false) :
    x ∈ (rows.foldl DB.putShare db).itemShares := by
  induction rows generalizing db with
  | nil => exact hx
  | cons r rows ih =>
    rw [List.forall_mem_cons] at hother
    exact ih (mem_putShare_iff.mpr (.inr ⟨hx, hother.1⟩)) hother.2

/-- A row that is written is there when no other of its key is. -/
theorem mem_putShares {rows : List ItemShare} {db : DB} {x : ItemShare} (hx : x ∈ rows)
    (hsame : ∀ r ∈ rows, x.isFor r.itemId r.userId = true → r = x) :
    x ∈ (rows.foldl DB.putShare db).itemShares := by
  induction rows generalizing db with
  | nil => exact absurd hx List.not_mem_nil
  | cons r rows ih =>
    rw [List.forall_mem_cons] at hsame
    by_cases hmem : x ∈ rows
    · exact ih hmem hsame.2
    · obtain rfl : x = r := (List.mem_cons.mp hx).resolve_right hmem
      rw [List.foldl_cons]
      refine mem_putShares_of_mem (mem_putShare_iff.mpr (.inl rfl)) fun r hr => ?_
      by_contra hkey
      rw [Bool.not_eq_false] at hkey
      rw [hsame.2 r hr hkey] at hr
      exact hmem hr

/-- Of a key that is written one row is left. -/
theorem putShares_eq {rows : List ItemShare} {db : DB} {a b : Uuid}
    (hkey : (∃ r ∈ rows, r.isFor a b = true) ∨
      ∀ x ∈ db.itemShares, ∀ y ∈ db.itemShares, x.isFor a b = true → y.isFor a b = true → x = y) :
    ∀ x ∈ (rows.foldl DB.putShare db).itemShares, ∀ y ∈ (rows.foldl DB.putShare db).itemShares,
      x.isFor a b = true → y.isFor a b = true → x = y := by
  induction rows generalizing db with
  | nil => exact hkey.resolve_left (by simp)
  | cons r rows ih =>
    apply ih
    by_cases hr : r.isFor a b = true
    · refine .inr fun x hx y hy hxk hyk => ?_
      have hone : ∀ z ∈ (db.putShare r).itemShares, z.isFor a b = true → z = r := by
        intro z hz hzk
        refine (mem_putShare_iff.mp hz).resolve_right fun hold => ?_
        rw [ItemShare.isFor_iff] at hr hzk
        have hself := hold.2
        rw [hr.1, hr.2, ← Bool.not_eq_true, ItemShare.isFor_iff] at hself
        exact hself hzk
      rw [hone x hx hxk, hone y hy hyk]
    · obtain ⟨r', hr', hk⟩ | hold := hkey
      · refine .inl ⟨r', (List.mem_cons.mp hr').resolve_left ?_, hk⟩
        rintro rfl
        exact hr hk
      · refine .inr fun x hx y hy hxk hyk => ?_
        have hout : ∀ z ∈ (db.putShare r).itemShares, z.isFor a b = true → z ∈ db.itemShares := by
          intro z hz hzk
          obtain rfl | hold := mem_putShare_iff.mp hz
          · exact absurd hzk hr
          · exact hold.1
        exact hold x (hout x hx hxk) y (hout y hy hyk) hxk hyk

/-! ## The loop -/

theorem hasShare_iff {db : DB} {a b : Uuid} :
    db.hasShare a b = true ↔ ∃ x ∈ db.itemShares, x.isFor a b = true := by
  simp [DB.hasShare, ItemShare.isFor_iff]

/-- A row that the database takes does not change which others of the same item
and granter it takes. -/
theorem shareReferencesOk_putShare {db : DB} {r r' : ItemShare} (hr : shareReferencesOk db r = true)
    (hitem : r'.itemId = r.itemId) (hby : r'.grantedBy = r.grantedBy) :
    shareReferencesOk (db.putShare r) r' = shareReferencesOk db r' := by
  by_cases huser : r'.userId = r.userId
  · have hafter : (db.putShare r).hasShare r'.itemId r'.userId = true :=
      hasShare_iff.mpr ⟨r, mem_putShare_iff.mpr (.inl rfl),
        ItemShare.isFor_iff.mpr ⟨hitem.symm, huser.symm⟩⟩
    have hsame : shareReferencesOk db r' = shareReferencesOk db r := by
      simp only [shareReferencesOk, ItemShare.referencesExist, hitem, huser, hby]
    have hgranter : (db.user? r.grantedBy).isSome = true := by
      unfold shareReferencesOk at hr
      split at hr
      · exact hr
      · simp only [ItemShare.referencesExist, Bool.and_eq_true] at hr
        exact hr.2
    rw [hsame, hr, shareReferencesOk, if_pos hafter, hby]
    exact hgranter
  · have hsame : (db.putShare r).hasShare r'.itemId r'.userId = db.hasShare r'.itemId r'.userId := by
      rw [Bool.eq_iff_iff, hasShare_iff, hasShare_iff]
      constructor
      · rintro ⟨x, hx, hk⟩
        obtain rfl | hold := mem_putShare_iff.mp hx
        · exact absurd (ItemShare.isFor_iff.mp hk).2.symm huser
        · exact ⟨x, hold.1, hk⟩
      · rintro ⟨x, hx, hk⟩
        refine ⟨x, mem_putShare_iff.mpr (.inr ⟨hx, ?_⟩), hk⟩
        rw [← Bool.not_eq_true, ItemShare.isFor_iff]
        exact fun hkey => huser ((ItemShare.isFor_iff.mp hk).2.symm.trans hkey.2)
    rw [shareReferencesOk, shareReferencesOk, hsame]
    rfl

/-- The database takes the row of every member. -/
def TakesMembers (db : DB) (itemID : String) (grantedBy : Uuid) (req : ShareGroupRequest)
    (members : List ShareGroupMemberDEK) : Prop :=
  ∀ m ∈ members, ∃ r, req.row itemID grantedBy m = .ok r ∧ shareReferencesOk db r = true

section
variable {c : Conduct} {itemID : String} {grantedBy : Uuid} {req : ShareGroupRequest}

theorem takesMembers_putShare {db : DB} {r : ItemShare} {m : ShareGroupMemberDEK}
    (hrow : req.row itemID grantedBy m = .ok r) (hr : shareReferencesOk db r = true)
    (members : List ShareGroupMemberDEK) :
    TakesMembers (db.putShare r) itemID grantedBy req members ↔
      TakesMembers db itemID grantedBy req members := by
  have hsame : ∀ m' r', req.row itemID grantedBy m' = .ok r' →
      shareReferencesOk (db.putShare r) r' = shareReferencesOk db r' := by
    intro m' r' hrow'
    have hx := shareRow_eq_ok hrow
    have hx' := shareRow_eq_ok hrow'
    refine shareReferencesOk_putShare hr ?_ (hx'.2.2.2.2.2.2.2.2.trans hx.2.2.2.2.2.2.2.2.symm)
    exact Option.some.inj (hx'.1.symm.trans hx.1)
  constructor
  · intro h m' hm'
    obtain ⟨r', hrow', hr'⟩ := h m' hm'
    exact ⟨r', hrow', (hsame m' r' hrow') ▸ hr'⟩
  · intro h m' hm'
    obtain ⟨r', hrow', hr'⟩ := h m' hm'
    exact ⟨r', hrow', (hsame m' r' hrow').symm ▸ hr'⟩

/-- The statements of the members have their effects exactly where the database
takes every row, and then write these rows. -/
theorem effects_members (members : List ShareGroupMemberDEK) (n : Nat) (s : ShareTables) :
    ((effects n (members.map fun m => memberStatement c (req.row itemID grantedBy m)) s).isSome =
        true ↔ TakesMembers s.db itemID grantedBy req members) ∧
      ∀ s', effects n (members.map fun m => memberStatement c (req.row itemID grantedBy m)) s =
          some s' →
        ∃ rows, List.Forall₂ (fun m r => req.row itemID grantedBy m = .ok r) members rows ∧
          s'.db = rows.foldl DB.putShare s.db := by
  induction members generalizing n s with
  | nil =>
    refine ⟨by simp [effects, TakesMembers], ?_⟩
    intro s' hs'
    cases hs'
    exact ⟨[], .nil, rfl⟩
  | cons m members ih =>
    have hcons : TakesMembers s.db itemID grantedBy req (m :: members) ↔
        (∃ r, req.row itemID grantedBy m = .ok r ∧ shareReferencesOk s.db r = true) ∧
          TakesMembers s.db itemID grantedBy req members := List.forall_mem_cons
    rw [List.map_cons, effects, hcons]
    cases hrow : req.row itemID grantedBy m with
    | error e => simp [memberStatement]
    | ok r =>
      by_cases hr : shareReferencesOk s.db r = true
      · simp only [memberStatement, hr, if_true, Option.bind_some]
        obtain ⟨hsome, hrows⟩ := ih (n + 1) { s with
          db := s.db.putShare r, grantedAt := stamp s.grantedAt r.itemId r.userId (c.clock n) }
        refine ⟨?_, ?_⟩
        · rw [hsome, takesMembers_putShare hrow hr]
          simp [hr]
        · intro s' hs'
          obtain ⟨rows, hforall, hdb⟩ := hrows s' hs'
          exact ⟨r :: rows, .cons hrow hforall, hdb⟩
      · simp [memberStatement, hr]

theorem memberStatement_keeps {row : Except PgError ItemShare} {n : Nat} {s s' : ShareTables}
    (h : memberStatement c row n s = some s') : s'.groupGrantedAt = s.groupGrantedAt := by
  unfold memberStatement at h
  split at h
  · cases h
  · split at h <;> cases h
    rfl
end

theorem groupStatement_eq_some {c : Conduct} {row : Except PgError ItemGroupShare} {n : Nat}
    {s s' : ShareTables} (h : groupStatement c row n s = some s') :
    ∃ g, row = .ok g ∧ s'.db = s.db.putGroupShare g ∧
      s'.groupGrantedAt = stamp s.groupGrantedAt g.itemId g.groupId (c.clock n) := by
  unfold groupStatement at h
  split at h
  · cases h
  · next g =>
    split at h <;> cases h
    exact ⟨g, rfl, rfl, rfl⟩

/-- A column that got the time of a statement is not as before. -/
theorem stamp_ne {column : Uuid → Uuid → Option Time} {a b : Uuid} {t : Time}
    (hahead : ∀ t', column a b = some t' → t' < t) : stamp column a b t ≠ column := by
  intro heq
  have hat := congrFun (congrFun heq a) b
  rw [stamp, if_pos ⟨rfl, rfl⟩] at hat
  exact lt_irrefl t (hahead t hat.symm)

/-! ## When all or nothing happens -/

/-- Nobody is listed with two wraps. -/
def WrapsAgree (req : ShareGroupRequest) : Prop :=
  ∀ m ∈ req.members, ∀ m' ∈ req.members, castUuid m.userID = castUuid m'.userID →
    m.dekWrapped = m'.dekWrapped ∧ m.wrapNonce = m'.wrapNonce

def MembersDelivered (itemID : String) (req : ShareGroupRequest) (db : DB) : Prop :=
  ∀ m ∈ req.members, Delivered db itemID m.userID req.permission m.dekWrapped m.wrapNonce
    req.validFrom req.validUntil

theorem delivered_of_row {db : DB} {itemID userID permission : String}
    {dekWrapped wrapNonce : Bytes} {grantedBy : Uuid} {validFrom validUntil : Option Time}
    {r : ItemShare} (hr : r ∈ db.itemShares)
    (hrow : shareRow itemID userID dekWrapped wrapNonce permission grantedBy validFrom validUntil =
      .ok r) :
    Delivered db itemID userID permission dekWrapped wrapNonce validFrom validUntil := by
  obtain ⟨h₁, h₂, h₃, h₄, h₅, h₆, h₇, h₈, -⟩ := shareRow_eq_ok hrow
  exact ⟨r, hr, h₁, h₂, h₃, h₄, h₅, h₆, h₇, h₈⟩

/-- The rows of the loop are those of all members, unless one is written over another. -/
theorem membersDelivered_iff {itemID : String} {grantedBy : Uuid} {req : ShareGroupRequest}
    {rows : List ItemShare} {db : DB}
    (hrows : List.Forall₂ (fun m r => req.row itemID grantedBy m = .ok r) req.members rows) :
    MembersDelivered itemID req (rows.foldl DB.putShare db) ↔ WrapsAgree req := by
  constructor
  · intro hdelivered m hm m' hm' huser
    obtain ⟨r, hr, hrow⟩ := Table.exists_right_of_mem hrows hm
    obtain ⟨hritem, hruser, -⟩ := shareRow_eq_ok hrow
    obtain ⟨x, hx, hxitem, hxuser, -, -, -, -, hxdek, hxnonce⟩ := hdelivered m hm
    obtain ⟨y, hy, hyitem, hyuser, -, -, -, -, hydek, hynonce⟩ := hdelivered m' hm'
    have hkey : ∀ z : ItemShare, castUuid itemID = some z.itemId → castUuid m.userID = some z.userId →
        z.isFor r.itemId r.userId = true := by
      intro z hzitem hzuser
      rw [ItemShare.isFor_iff]
      exact ⟨Option.some.inj (hzitem.symm.trans hritem), Option.some.inj (hzuser.symm.trans hruser)⟩
    have hxy : x = y := putShares_eq (.inl ⟨r, hr, hkey r hritem hruser⟩) x hx y hy
      (hkey x hxitem hxuser) (hkey y hyitem (huser.trans hyuser))
    rw [← hxdek, ← hydek, ← hxnonce, ← hynonce, hxy]
    exact ⟨rfl, rfl⟩
  · intro hagree m hm
    obtain ⟨r, hr, hrow⟩ := Table.exists_right_of_mem hrows hm
    refine delivered_of_row (mem_putShares hr fun r' hr' hsame => ?_) hrow
    obtain ⟨m', hm', hrow'⟩ := Table.exists_left_of_mem hrows hr'
    obtain ⟨-, hruser, -⟩ := shareRow_eq_ok hrow
    obtain ⟨-, hruser', -⟩ := shareRow_eq_ok hrow'
    have huser : castUuid m.userID = castUuid m'.userID := by
      rw [hruser, hruser', (ItemShare.isFor_iff.mp hsame).2]
    obtain ⟨hdek, hnonce⟩ := hagree m hm m' hm' huser
    have heq : req.row itemID grantedBy m = req.row itemID grantedBy m' := by
      rw [ShareGroupRequest.row, ShareGroupRequest.row, shareRow, shareRow, huser, hdek, hnonce]
    rw [hrow, hrow'] at heq
    exact (Except.ok.inj heq).symm

section
variable (c : Conduct) (s : ShareTables) (now : Time) (claims : Claims) (itemID : String)

/-- The statement of a share takes effect and its answer is lost. -/
structure LosesShare (req : ShareItemRequest) : Prop where
  checks : checkShare c s.db now claims itemID req = .ok ()
  taken : ∃ r, req.row itemID claims.subject = .ok r ∧ shareReferencesOk s.db r = true
  lost : c.delivery 0 = .replyLost

/-- The row of the group gets written. -/
structure GroupStarts (req : ShareGroupRequest) : Prop where
  checks : checkShareGroup c s.db now claims itemID req = .ok ()
  taken : ∃ g, groupRow itemID claims req = .ok g ∧ g.referencesExist s.db = true
  sent : c.delivery 0 ≠ .notRun

/-- Every statement is taken and answered, and no recipient is listed with two wraps. -/
structure GroupCompletes (req : ShareGroupRequest) : Prop where
  answered : ∀ i ≤ req.members.length, c.delivery i = .answered
  taken : TakesMembers s.db itemID claims.subject req req.members
  agree : WrapsAgree req
end

variable {c : Conduct} {s : ShareTables} {now : Time} {claims : Claims} {itemID : String}

theorem share_all_or_nothing_iff (hclock : c.Ahead s) (req : ShareItemRequest) :
    AllOrNothing s (share c s now claims itemID req) (Delivered · itemID req.userID req.permission
        req.dekWrapped req.wrapNonce req.validFrom req.validUntil) ↔
      ¬ LosesShare c s now claims itemID req := by
  cases hcheck : checkShare c s.db now claims itemID req with
  | error e =>
    rw [share, hcheck]
    refine iff_of_true (.of_error s _ _) fun hloses => ?_
    rw [hloses.checks] at hcheck
    cases hcheck
  | ok u =>
    have hshare : share c s now claims itemID req = shareGiven c s claims itemID req := by
      rw [share, hcheck]
    rw [hshare, shareGiven]
    by_cases htaken : ∃ r, req.row itemID claims.subject = .ok r ∧ shareReferencesOk s.db r = true
    · obtain ⟨r, hrow, hrefs⟩ := htaken
      have heffect : memberStatement c (req.row itemID claims.subject) 0 s = some { s with
          db := s.db.putShare r, grantedAt := stamp s.grantedAt r.itemId r.userId (c.clock 0) } := by
        simp only [memberStatement, hrow, hrefs, if_true]
      rw [heffect]
      cases hdelivery : c.delivery 0 with
      | answered =>
        refine iff_of_true (allOrNothing_ok_iff.mpr ?_) fun hloses => ?_
        · refine delivered_of_row ?_ hrow
          simp only [writeAudit]
          split <;> exact mem_putShare_iff.mpr (.inl rfl)
        · exact absurd (hdelivery.symm.trans hloses.lost) (by decide)
      | notRun =>
        refine iff_of_true (.of_error s _ _) fun hloses => ?_
        exact absurd (hdelivery.symm.trans hloses.lost) (by decide)
      | replyLost =>
        refine iff_of_false (fun h => ?_) fun h => h ⟨hcheck, ⟨r, hrow, hrefs⟩, hdelivery⟩
        exact stamp_ne (hclock.shares 0 _ _) (allOrNothing_error_iff.mp h).grantedAt
    · have heffect : memberStatement c (req.row itemID claims.subject) 0 s = none := by
        unfold memberStatement
        split
        · rfl
        · next r hrow => exact if_neg fun hrefs => htaken ⟨r, hrow, hrefs⟩
      have hexec : (c.delivery 0).exec none s = (s, false) := by
        cases c.delivery 0 <;> rfl
      rw [heffect, hexec]
      exact iff_of_true (.of_error s _ _) fun hloses => htaken hloses.taken

/-- The run of the members' statements after the group's. -/
theorem run_members_iff (req : ShareGroupRequest) {s₁ : ShareTables} {g : ItemGroupShare}
    (hs₁ : s₁.db = s.db.putGroupShare g) (h0 : c.delivery 0 = .answered) :
    (∃ s₂, run c.delivery 1 (memberStatements c itemID claims req) s₁ = (s₂, true)) ↔
      (∀ i ≤ req.members.length, c.delivery i = .answered) ∧
        TakesMembers s.db itemID claims.subject req req.members := by
  have htakes : TakesMembers s₁.db itemID claims.subject req req.members ↔
      TakesMembers s.db itemID claims.subject req req.members := by
    rw [hs₁]
    exact Iff.rfl
  have hall : (∀ i < (memberStatements c itemID claims req).length, c.delivery (1 + i) = .answered) ↔
      ∀ i ≤ req.members.length, c.delivery i = .answered := by
    rw [memberStatements, List.length_map]
    constructor
    · rintro h (_ | i) hi
      · exact h0
      · have hi' := h i hi
        rwa [Nat.add_comm] at hi'
    · intro h i hi
      exact h (1 + i) (by omega)
  have heffects := (@effects_members c itemID claims.subject req req.members 1 s₁).1
  simp only [run_eq_true, exists_and_left, hall, ← htakes]
  rw [← heffects, Option.isSome_iff_exists]
  rfl

/-- Once the row of the group is written, all or nothing is all. -/
theorem shareMembersGiven_iff (hclock : c.Ahead s) (req : ShareGroupRequest)
    {s₁ : ShareTables} {g : ItemGroupShare} (hs₁ : s₁.db = s.db.putGroupShare g)
    (hstamped : s₁.groupGrantedAt = stamp s.groupGrantedAt g.itemId g.groupId (c.clock 0))
    (h0 : c.delivery 0 = .answered) :
    AllOrNothing s (shareMembersGiven c s₁ claims itemID req) (MembersDelivered itemID req) ↔
      GroupCompletes c s claims itemID req := by
  have hmembers := @run_members_iff c s claims itemID req s₁ g hs₁ h0
  have hkeeps : (run c.delivery 1 (memberStatements c itemID claims req) s₁).1.groupGrantedAt =
      s₁.groupGrantedAt := by
    refine run_keeps (I := fun s' : ShareTables => s'.groupGrantedAt = s₁.groupGrantedAt) ?_ rfl
    intro st hst n s' s'' hs' heff
    obtain ⟨m, -, rfl⟩ := List.mem_map.mp hst
    exact (memberStatement_keeps heff).trans hs'
  unfold shareMembersGiven
  cases hrun : run c.delivery 1 (memberStatements c itemID claims req) s₁ with
  | mk s₂ answered =>
    cases answered with
    | false =>
      refine iff_of_false (fun h => ?_) fun h => ?_
      · have hsame := (allOrNothing_error_iff.mp h).groupGrantedAt
        rw [hrun, hstamped] at hkeeps
        exact stamp_ne (hclock.groupShares 0 _ _) (hkeeps.symm.trans hsame)
      · obtain ⟨s₃, hs₃⟩ := hmembers.mpr ⟨h.answered, h.taken⟩
        rw [hrun] at hs₃
        cases hs₃
    | true =>
      obtain ⟨hanswered, htaken⟩ := hmembers.mp ⟨s₂, hrun⟩
      obtain ⟨rows, hrows, hdb⟩ :=
        (@effects_members c itemID claims.subject req req.members 1 s₁).2 s₂ (run_eq_true.mp hrun).2
      have hdelivered := @membersDelivered_iff itemID claims.subject req rows s₁.db hrows
      rw [← hdb] at hdelivered
      have haudit : ∀ e, MembersDelivered itemID req (writeAudit c s₂ e).db ↔
          MembersDelivered itemID req s₂.db := by
        intro e
        unfold writeAudit
        split <;> exact Iff.rfl
      simp only [allOrNothing_ok_iff, haudit, hdelivered]
      exact ⟨fun h => ⟨hanswered, htaken, h⟩, fun h => h.agree⟩

theorem shareGroup_all_or_nothing_iff (hclock : c.Ahead s) (req : ShareGroupRequest) :
    AllOrNothing s (shareGroup c s now claims itemID req) (MembersDelivered itemID req) ↔
      (GroupStarts c s now claims itemID req → GroupCompletes c s claims itemID req) := by
  cases hcheck : checkShareGroup c s.db now claims itemID req with
  | error e =>
    rw [shareGroup, hcheck]
    refine iff_of_true (.of_error s _ _) fun hstarts => ?_
    rw [hstarts.checks] at hcheck
    cases hcheck
  | ok u =>
    have hgroup : shareGroup c s now claims itemID req = shareGroupGiven c s claims itemID req := by
      rw [shareGroup, hcheck]
    rw [hgroup, shareGroupGiven]
    by_cases htaken : ∃ g, groupRow itemID claims req = .ok g ∧ g.referencesExist s.db = true
    · obtain ⟨g, hrow, hrefs⟩ := htaken
      have heffect : groupStatement c (groupRow itemID claims req) 0 s = some { s with
          db := s.db.putGroupShare g
          groupGrantedAt := stamp s.groupGrantedAt g.itemId g.groupId (c.clock 0) } := by
        simp only [groupStatement, hrow, hrefs, if_true]
      have hstamped := stamp_ne (hclock.groupShares 0 g.itemId g.groupId)
      have hstarts : c.delivery 0 ≠ .notRun → GroupStarts c s now claims itemID req :=
        fun hsent => ⟨hcheck, ⟨g, hrow, hrefs⟩, hsent⟩
      rw [heffect]
      cases hdelivery : c.delivery 0 with
      | notRun =>
        refine iff_of_true (.of_error s _ _) fun hstarts => ?_
        exact absurd hdelivery hstarts.sent
      | replyLost =>
        refine iff_of_false (fun h => hstamped (allOrNothing_error_iff.mp h).groupGrantedAt)
          fun h => ?_
        have hcompletes := h (hstarts (by rw [hdelivery]; decide))
        exact absurd (hdelivery.symm.trans (hcompletes.answered 0 (Nat.zero_le _))) (by decide)
      | answered =>
        have hstarts' := hstarts (by rw [hdelivery]; decide)
        rw [forall_prop_of_true hstarts']
        exact @shareMembersGiven_iff c s claims itemID hclock req _ g rfl rfl hdelivery
    · have heffect : groupStatement c (groupRow itemID claims req) 0 s = none := by
        unfold groupStatement
        split
        · rfl
        · next g hrow => exact if_neg fun hrefs => htaken ⟨g, hrow, hrefs⟩
      have hexec : (c.delivery 0).exec none s = (s, false) := by
        cases c.delivery 0 <;> rfl
      rw [heffect, hexec]
      exact iff_of_true (.of_error s _ _)
        fun hstarts => absurd hstarts.taken htaken

/-- Share is all or nothing unless its statement takes effect and loses its
answer. ShareGroup is where the row of the group is not written, or else every
statement is taken and answered and no recipient is listed with two wraps. -/
theorem sharing_all_or_nothing_iff (hclock : c.Ahead s) (now : Time) (claims : Claims)
    (itemID : String) :
    (∀ req, AllOrNothing s (share c s now claims itemID req) (Delivered · itemID req.userID
        req.permission req.dekWrapped req.wrapNonce req.validFrom req.validUntil) ↔
      ¬ LosesShare c s now claims itemID req) ∧
    ∀ req, AllOrNothing s (shareGroup c s now claims itemID req) (MembersDelivered itemID req) ↔
      (GroupStarts c s now claims itemID req → GroupCompletes c s claims itemID req) :=
  ⟨share_all_or_nothing_iff hclock, shareGroup_all_or_nothing_iff hclock⟩

/-! ## A recipient that does not exist -/

/-- Item 7 of user 1 and group 8, before any share. -/
def unsharedItem : ShareTables where
  db := { writerInGroup with itemShares := [] }
  grantedAt _ _ := none
  groupGrantedAt _ _ := none

/-- Every statement is answered. -/
def soundConduct : Conduct := ⟨true, true, fun _ => .answered, fun i => 100 + i, true⟩

/-- A share for user 5 and for user 6, who does not exist. -/
def twoRecipients : ShareGroupRequest :=
  { readForGroup with
    members := [⟨(Uuid.ofNat 5).text, [1], List.replicate aesGcmNonceLen 0⟩,
      ⟨(Uuid.ofNat 6).text, [2], List.replicate aesGcmNonceLen 0⟩] }

theorem soundConduct_ahead : soundConduct.Ahead unsharedItem := ⟨nofun, nofun⟩

theorem sharing_all_or_nothing_iff_sound :
    AllOrNothing unsharedItem
        (shareGroup soundConduct unsharedItem 0 ⟨Uuid.ofNat 1, []⟩ (Uuid.ofNat 7).text readForGroup)
        (MembersDelivered (Uuid.ofNat 7).text readForGroup) ↔
      (GroupStarts soundConduct unsharedItem 0 ⟨Uuid.ofNat 1, []⟩ (Uuid.ofNat 7).text readForGroup →
        GroupCompletes soundConduct unsharedItem ⟨Uuid.ofNat 1, []⟩ (Uuid.ofNat 7).text
          readForGroup) :=
  (sharing_all_or_nothing_iff soundConduct_ahead 0 ⟨Uuid.ofNat 1, []⟩ (Uuid.ofNat 7).text).2
    readForGroup

/-- The group and user 5 keep their shares when the request fails at user 6. -/
theorem shareGroup_keeps_half :
    ¬ AllOrNothing unsharedItem
      (shareGroup soundConduct unsharedItem 0 ⟨Uuid.ofNat 1, []⟩ (Uuid.ofNat 7).text twoRecipients)
      (MembersDelivered (Uuid.ofNat 7).text twoRecipients) := by
  have hreply : (shareGroup soundConduct unsharedItem 0 ⟨Uuid.ofNat 1, []⟩ (Uuid.ofNat 7).text
      twoRecipients).2 = .error (internalError "Üye DEK wraps kaydedilemedi.") := by decide
  have hwritten : (shareGroup soundConduct unsharedItem 0 ⟨Uuid.ofNat 1, []⟩ (Uuid.ofNat 7).text
      twoRecipients).1.db.itemShares.map ItemShare.userId = [Uuid.ofNat 5] := by decide
  intro h
  rw [(h.error _ hreply).shares] at hwritten
  exact absurd hwritten (by decide)

end IronStock.Sharing

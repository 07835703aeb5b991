import IronStock.ItemShares
import IronStock.Lib.Runs

/-!
# The owner's share over runs

Every item is created with a share row of its owner. Share and ShareGroup write
to the row of any user the request names, the owner included, and the guard of
Unshare compares texts. The owner keeps the row along every run in which these
writes spare it.
-/
namespace IronStock

/-- `created_by` of an item is this user. -/
def DB.isOwner (db : DB) (itemID userID : Uuid) : Bool :=
  (db.item? itemID).any (·.createdBy = userID)

/-- The rows of a list that the loop over members writes. -/
def writtenRows (db : DB) : List (Except PgError ItemShare) → List ItemShare
  | [] => []
  | .error _ :: _ => []
  | .ok s :: rows => if shareReferencesOk db s then s :: writtenRows (db.putShare s) rows else []

theorem shareMembers_db (db : DB) (rows : List (Except PgError ItemShare)) :
    (shareMembers db rows).1 = (writtenRows db rows).foldl DB.putShare db := by
  induction rows generalizing db with
  | nil => rfl
  | cons row rows ih =>
    cases row with
    | error e => rfl
    | ok s =>
      by_cases hrefs : shareReferencesOk db s = true
      · simp only [shareMembers, upsertShare, writtenRows, hrefs, if_true, List.foldl_cons]
        exact ih (db.putShare s)
      · simp [shareMembers, upsertShare, writtenRows, hrefs]

/-! ## Requests -/

inductive ShareOp
  | create (now : Time) (claims : Claims) (draw : EnvelopeDraw) (req : ItemRequest)
  | share (now : Time) (claims : Claims) (itemID : String) (req : ShareItemRequest)
  | shareGroup (now : Time) (claims : Claims) (itemID : String) (req : ShareGroupRequest)
  | unshare (now : Time) (claims : Claims) (itemID targetUserID : String)
  | unshareGroup (now : Time) (claims : Claims) (itemID groupID : String)

namespace ShareOp

variable (svc : Service) (db : DB)

/-- The state after a request. A refused one changes nothing, except that a
group share keeps the rows it wrote before an error. -/
def step : ShareOp → DB
  | create now claims draw req =>
    match itemCreate svc db now claims draw req with
    | .ok r => r.1
    | .error _ => db
  | share now claims itemID req => ((IronStock.share db now claims itemID req).toOption).getD db
  | shareGroup now claims itemID req => (IronStock.shareGroup db now claims itemID req).1
  | unshare now claims itemID target =>
    ((IronStock.unshare db now claims itemID target).toOption).getD db
  | unshareGroup now claims itemID groupID =>
    ((IronStock.unshareGroup db now claims itemID groupID).toOption).getD db

/-- The share rows a request writes, in order. -/
def writes : ShareOp → List ItemShare
  | create .. => []
  | share now claims itemID req =>
    if (IronStock.share db now claims itemID req).isOk then
      (req.row itemID claims.subject).toOption.toList
    else []
  | shareGroup now claims itemID req =>
    if (checkShareGroup db now claims itemID req).isOk then
      match upsertGroupShare db itemID req.groupID req.permission claims.subject req.validFrom
          req.validUntil with
      | .error _ => []
      | .ok db₁ => writtenRows db₁ (req.members.map (req.row itemID claims.subject))
    else []
  | unshare .. => []
  | unshareGroup .. => []

/-- The key whose row a request revokes. -/
def revokes : ShareOp → Option (Uuid × Uuid)
  | unshare now claims itemID target =>
    if (IronStock.unshare db now claims itemID target).isOk then
      match castUuid itemID, castUuid target with
      | some item, some user => some (item, user)
      | _, _ => none
    else none
  | _ => none

/-- The wraps that the owner of an item supplies for themself. -/
def supplies : ShareOp → List (Uuid × Bytes)
  | create now claims draw req =>
    if (itemCreate svc db now claims draw req).isOk then
      (castUuid req.id).toList.map (·, req.ownerDEKWrapped)
    else []
  | op => ((op.writes db).filter fun w => w.grantedBy = w.userId ∧ db.isOwner w.itemId w.userId).map
      fun w => (w.itemId, w.e2eDekWrapped)

end ShareOp

/-- A run with the wraps owners have supplied for their own items so far. -/
structure ShareRun where
  db : DB
  supplied : List (Uuid × Bytes)

def ShareRun.step (svc : Service) (s : ShareRun) (op : ShareOp) : ShareRun where
  db := op.step svc s.db
  supplied := op.supplies svc s.db ++ s.supplied

/-- The owner's row of item `x`: write, not revoked, no window, and a wrap from
this list. -/
structure OwnerShareHeld (db : DB) (supplied : List (Uuid × Bytes)) (x : Uuid) (item : Item)
    (s : ItemShare) : Prop where
  mem : s ∈ db.itemShares
  key : s.isFor x item.createdBy = true
  permission : s.permission = .write
  active : s.revokedAt = none
  window : s.window = .always
  wrap : (x, s.e2eDekWrapped) ∈ supplied

/-- Every item's owner has their row. -/
def OwnersHold (s : ShareRun) : Prop :=
  ∀ x item, s.db.item? x = some item → ∃ row, OwnerShareHeld s.db s.supplied x item row

/-- What the owner's row looks like when a share request may write it. -/
def SparesOwner (db : DB) (supplied : List (Uuid × Bytes)) (w : ItemShare) : Prop :=
  db.isOwner w.itemId w.userId = true →
    w.permission = .write ∧ w.window = .always ∧
      (w.grantedBy = w.userId ∨ (w.itemId, w.e2eDekWrapped) ∈ supplied)

instance (db : DB) (supplied : List (Uuid × Bytes)) (w : ItemShare) :
    Decidable (SparesOwner db supplied w) := by
  unfold SparesOwner
  infer_instance

/-- A request that writes no row of an owner but a full one with their own wrap,
and revokes none. -/
def SparesOwners (s : ShareRun) (op : ShareOp) : Prop :=
  (∀ w ∈ op.writes s.db, SparesOwner s.db s.supplied w) ∧
    ∀ r ∈ op.revokes s.db, s.db.isOwner r.1 r.2 = false

instance (s : ShareRun) (op : ShareOp) : Decidable (SparesOwners s op) := by
  unfold SparesOwners
  infer_instance

/-! ## One request -/

section Step

variable {db : DB} {supplied : List (Uuid × Bytes)}

theorem OwnersHold.mono {db' : DB} {supplied' : List (Uuid × Bytes)}
    (h : OwnersHold ⟨db, supplied⟩) (hitems : db'.items = db.items)
    (hshares : db'.itemShares = db.itemShares) (hsup : supplied ⊆ supplied') :
    OwnersHold ⟨db', supplied'⟩ := by
  intro x item hitem
  rw [DB.item?, hitems] at hitem
  obtain ⟨row, hrow⟩ := h x item hitem
  exact ⟨row, hshares ▸ hrow.mem, hrow.key, hrow.permission, hrow.active, hrow.window,
    hsup hrow.wrap⟩

theorem isOwner_congr {db' : DB} (hitems : db'.items = db.items) : db'.isOwner = db.isOwner := by
  funext x u
  rw [DB.isOwner, DB.isOwner, DB.item?, DB.item?, hitems]

/-- One upsert that spares the owner. -/
theorem putShare_holds (h : OwnersHold ⟨db, supplied⟩) {w : ItemShare} (hact : w.revokedAt = none)
    (hw : SparesOwner db supplied w)
    (hown : w.grantedBy = w.userId → db.isOwner w.itemId w.userId = true →
      (w.itemId, w.e2eDekWrapped) ∈ supplied) :
    OwnersHold ⟨db.putShare w, supplied⟩ := by
  intro x item hitem
  obtain ⟨row, hrow⟩ := h x item hitem
  by_cases hsame : row.isFor w.itemId w.userId = true
  · -- the row that is written is the owner's
    have hkey := hrow.key
    simp only [ItemShare.isFor, decide_eq_true_eq] at hsame hkey
    have hx : w.itemId = x := hsame.1.symm.trans hkey.1
    have hu : w.userId = item.createdBy := hsame.2.symm.trans hkey.2
    have howner : db.isOwner w.itemId w.userId = true := by
      have hitem' : db.item? x = some item := hitem
      simp [DB.isOwner, hx, hu, hitem']
    obtain ⟨hperm, hwin, hwrap⟩ := hw howner
    have hmem : w ∈ (db.putShare w).itemShares := by
      have hany : db.itemShares.any (·.isFor w.itemId w.userId) = true :=
        List.any_eq_true.mpr ⟨row, hrow.mem, by simp [ItemShare.isFor, hsame]⟩
      rw [DB.putShare, Table.upsert, if_pos hany]
      exact Table.mem_updateWhere.mpr ⟨row, hrow.mem, by simp [ItemShare.isFor, hsame]⟩
    refine ⟨w, hmem, by simp [ItemShare.isFor, hx, hu], hperm, hact, hwin, ?_⟩
    rcases hwrap with hself | hwrap
    · exact hx ▸ hown hself howner
    · exact hx ▸ hwrap
  · refine ⟨row, ?_, hrow.key, hrow.permission, hrow.active, hrow.window, hrow.wrap⟩
    change row ∈ Table.upsert _ _ w db.itemShares
    unfold Table.upsert
    split
    · exact Table.mem_updateWhere.mpr ⟨row, hrow.mem, if_neg hsame⟩
    · exact List.mem_append_left _ hrow.mem

theorem putShares_hold (writes : List ItemShare) (h : OwnersHold ⟨db, supplied⟩)
    (hact : ∀ w ∈ writes, w.revokedAt = none)
    (hspare : ∀ w ∈ writes, SparesOwner db supplied w)
    (hown : ∀ w ∈ writes, w.grantedBy = w.userId → db.isOwner w.itemId w.userId = true →
      (w.itemId, w.e2eDekWrapped) ∈ supplied) :
    OwnersHold ⟨writes.foldl DB.putShare db, supplied⟩ := by
  induction writes generalizing db with
  | nil => exact h
  | cons w rest ih =>
    rw [List.forall_mem_cons] at hact hspare hown
    have howner : (db.putShare w).isOwner = db.isOwner := isOwner_congr rfl
    apply ih (putShare_holds h hact.1 hspare.1 hown.1) hact.2
    · intro v hv hvo
      rw [howner] at hvo
      exact hspare.2 v hv hvo
    · intro v hv hself hvo
      rw [howner] at hvo
      exact hown.2 v hv hself hvo

theorem shareRow_active {itemID userID : String} {dekWrapped wrapNonce : Bytes}
    {permission : String} {grantedBy : Uuid} {validFrom validUntil : Option Time} {s : ItemShare}
    (h : shareRow itemID userID dekWrapped wrapNonce permission grantedBy validFrom validUntil =
      .ok s) : s.revokedAt = none := by
  unfold shareRow at h
  split at h
  · split at h
    · cases h
      rfl
    · cases h
  · cases h

theorem writtenRows_mem {rows : List (Except PgError ItemShare)} {s : ItemShare}
    (h : s ∈ writtenRows db rows) : .ok s ∈ rows := by
  induction rows generalizing db with
  | nil => cases h
  | cons row rows ih =>
    cases row with
    | error e => cases h
    | ok t =>
      rw [writtenRows] at h
      split at h
      · rcases List.mem_cons.mp h with rfl | h
        · exact List.mem_cons_self
        · exact List.mem_cons_of_mem _ (ih h)
      · cases h

theorem share_eq_ok {db' : DB} {now : Time} {claims : Claims} {itemID : String}
    {req : ShareItemRequest} (h : share db now claims itemID req = .ok db') :
    ∃ w e, req.row itemID claims.subject = .ok w ∧ db' = (db.putShare w).audit e := by
  simp only [share, Reply.bind_eq_ok, statement_eq_ok, Reply.pure_eq_ok] at h
  obtain ⟨_, _, _, _, _, _, db₁, hup, hdb'⟩ := h
  unfold upsertShare at hup
  split at hup
  · cases hup
  · next w hw =>
    split at hup
    · cases hup
      exact ⟨w, _, hw, hdb'.symm⟩
    · cases hup

/-- What a group share has done, whatever it answers: nothing to the share
rows, or the writes of the loop. -/
theorem shareGroup_db (svc : Service) (db : DB) (now : Time) (claims : Claims) (itemID : String)
    (req : ShareGroupRequest) :
    let op := ShareOp.shareGroup now claims itemID req
    ((op.step svc db).items = db.items ∧ (op.step svc db).itemShares = db.itemShares) ∨
      ∃ db₁, db₁.items = db.items ∧ db₁.itemShares = db.itemShares ∧
        (op.step svc db).items = ((op.writes db).foldl DB.putShare db₁).items ∧
        (op.step svc db).itemShares = ((op.writes db).foldl DB.putShare db₁).itemShares := by
  simp only [ShareOp.step, ShareOp.writes, shareGroup]
  cases hcheck : checkShareGroup db now claims itemID req with
  | error e => exact .inl ⟨rfl, rfl⟩
  | ok u =>
    simp only [Except.isOk, Except.toBool, if_true]
    cases hup : upsertGroupShare db itemID req.groupID req.permission claims.subject req.validFrom
        req.validUntil with
    | error e => exact .inl ⟨rfl, rfl⟩
    | ok db₁ =>
      have hdb₁ : db₁.items = db.items ∧ db₁.itemShares = db.itemShares := by
        unfold upsertGroupShare at hup
        split at hup
        · split at hup
          · simp only at hup
            split at hup
            · cases hup
              exact ⟨rfl, rfl⟩
            · cases hup
          · cases hup
        · cases hup
      have hloop := shareMembers_db db₁ (req.members.map (req.row itemID claims.subject))
      refine .inr ⟨db₁, hdb₁.1, hdb₁.2, ?_⟩
      simp only
      rw [← hloop]
      split
      · next heq => rw [heq]; exact ⟨rfl, rfl⟩
      · next heq => rw [heq]; exact ⟨rfl, rfl⟩

theorem unshare_eq_ok {db' : DB} {now : Time} {claims : Claims} {itemID target : String}
    (h : unshare db now claims itemID target = .ok db') :
    db' = db ∨ ∃ item user e, castUuid itemID = some item ∧ castUuid target = some user ∧
      db' = (db.revokeShare now item user).audit e := by
  simp only [unshare, Reply.bind_eq_ok, Reply.orElse_eq_ok] at h
  obtain ⟨_, _, _, _, _, _, item, hitem, user, huser, h⟩ := h
  split at h
  · rw [Reply.pure_eq_ok] at h
    exact .inr ⟨item, user, _, hitem, huser, h.symm⟩
  · rw [Reply.pure_eq_ok] at h
    exact .inl h.symm

theorem unshareGroup_eq_ok {db' : DB} {now : Time} {claims : Claims} {itemID groupID : String}
    (h : unshareGroup db now claims itemID groupID = .ok db') :
    db'.items = db.items ∧ db'.itemShares = db.itemShares := by
  simp only [unshareGroup, Reply.bind_eq_ok, Reply.orElse_eq_ok] at h
  obtain ⟨_, _, _, _, item, _, group, _, h⟩ := h
  split at h
  · rw [Reply.pure_eq_ok] at h
    rw [← h]
    exact ⟨rfl, rfl⟩
  · rw [Reply.pure_eq_ok] at h
    rw [← h]
    exact ⟨rfl, rfl⟩

/-- A revocation of somebody else's row. -/
theorem revokeShare_holds (h : OwnersHold ⟨db, supplied⟩) (now : Time) {itemID userID : Uuid}
    (hne : db.isOwner itemID userID = false) :
    OwnersHold ⟨db.revokeShare now itemID userID, supplied⟩ := by
  intro x item hitem
  have hitem' : db.item? x = some item := hitem
  obtain ⟨row, hrow⟩ := h x item hitem
  have hother : ¬ (row.isFor itemID userID && row.revokedAt.isNone) = true := by
    intro hcond
    have hkey := hrow.key
    simp only [ItemShare.isFor, Bool.and_eq_true, decide_eq_true_eq] at hcond hkey
    rw [← hcond.1.1, ← hcond.1.2, hkey.1, hkey.2] at hne
    simp [DB.isOwner, hitem'] at hne
  exact ⟨row, Table.mem_updateWhere.mpr ⟨row, hrow.mem, if_neg hother⟩, hrow.key,
    hrow.permission, hrow.active, hrow.window, hrow.wrap⟩

/-- A new item comes with its owner's row. -/
theorem itemCreate_holds {svc : Service} {db' : DB} {now : Time} {claims : Claims}
    {draw : EnvelopeDraw} {req : ItemRequest} {resp : ItemResponse}
    (h : OwnersHold ⟨db, supplied⟩)
    (hop : itemCreate svc db now claims draw req = .ok (db', resp)) :
    OwnersHold ⟨db', (castUuid req.id).toList.map (·, req.ownerDEKWrapped) ++ supplied⟩ := by
  obtain ⟨row, nonce, db₃, hid, _, _, _, _, hins, hdb'⟩ := itemCreate_eq_ok hop
  obtain ⟨fs, n, vs, hdb₃⟩ := insertItemFields_frame hins
  have hitems : db'.item? = (db.addItem row).item? := by
    rw [hdb', hdb₃]
    rfl
  have hshares : db'.itemShares =
      db.itemShares ++ [ownerShare row.id row.createdBy req.ownerDEKWrapped nonce] := by
    rw [hdb', hdb₃]
    rfl
  intro x item hitem
  have hitem' : db'.item? x = some item := hitem
  rw [hitems, item?_addItem] at hitem'
  cases hold : db.item? x with
  | some old =>
    rw [hold, Option.some_or] at hitem'
    obtain ⟨s, hs⟩ := h x item (hold.trans hitem')
    refine ⟨s, ?_, hs.key, hs.permission, hs.active, hs.window, List.mem_append_right _ hs.wrap⟩
    change s ∈ db'.itemShares
    rw [hshares]
    exact List.mem_append_left _ hs.mem
  | none =>
    rw [hold, Option.none_or] at hitem'
    split at hitem'
    · next hx =>
      cases hitem'
      refine ⟨ownerShare row.id row.createdBy req.ownerDEKWrapped nonce, ?_, ?_, rfl, rfl, rfl, ?_⟩
      · change _ ∈ db'.itemShares
        rw [hshares]
        exact List.mem_append_right _ (List.mem_singleton_self _)
      · simp [ItemShare.isFor, ownerShare, hx]
      · rw [hid, ← hx]
        exact List.mem_cons_self
    · cases hitem'

/-- A request that is refused writes nothing. -/
theorem OwnersHold.getD {r : Reply DB} (h : OwnersHold ⟨db, supplied⟩)
    (hok : ∀ db', r = .ok db' → OwnersHold ⟨db', supplied⟩) :
    OwnersHold ⟨r.toOption.getD db, supplied⟩ := by
  cases r with
  | error e => exact h
  | ok db' => exact hok db' rfl

theorem ownersHold_step (svc : Service) (s : ShareRun) (op : ShareOp) (h : OwnersHold s)
    (hspare : SparesOwners s op) : OwnersHold (s.step svc op) := by
  obtain ⟨db, supplied⟩ := s
  obtain ⟨hwrites, hrevokes⟩ := hspare
  -- the wraps the owner writes for themself count as supplied
  have hown : ∀ w ∈ op.writes db, w.grantedBy = w.userId → db.isOwner w.itemId w.userId = true →
      (w.itemId, w.e2eDekWrapped) ∈ op.supplies svc db ++ supplied := by
    intro w hw hself hwo
    apply List.mem_append_left
    cases op with
    | create => cases hw
    | _ => exact List.mem_map.mpr ⟨w, List.mem_filter.mpr ⟨hw, by simp [hself, hwo]⟩, rfl⟩
  have hspare' : ∀ w ∈ op.writes db, SparesOwner db (op.supplies svc db ++ supplied) w := by
    intro w hw hwo
    obtain ⟨hperm, hwin, hwrap⟩ := hwrites w hw hwo
    exact ⟨hperm, hwin, hwrap.imp_right (List.mem_append_right _)⟩
  have hmono : OwnersHold ⟨db, op.supplies svc db ++ supplied⟩ :=
    h.mono rfl rfl (List.subset_append_right _ _)
  cases op with
  | create now claims draw req =>
    simp only [ShareRun.step, ShareOp.step, ShareOp.supplies]
    cases hop : itemCreate svc db now claims draw req with
    | error e => exact h.mono rfl rfl (List.subset_append_right _ _)
    | ok r => exact itemCreate_holds h hop
  | share now claims itemID req =>
    refine hmono.getD fun db' hop => ?_
    obtain ⟨w, e, hrow, rfl⟩ := share_eq_ok hop
    have hw : w ∈ (ShareOp.share now claims itemID req).writes db := by
      simp [ShareOp.writes, hop, hrow, Except.isOk, Except.toBool, Except.toOption]
    have hput := putShare_holds hmono (shareRow_active hrow) (hspare' w hw) (hown w hw)
    exact hput.mono rfl rfl (List.Subset.refl _)
  | shareGroup now claims itemID req =>
    rcases shareGroup_db svc db now claims itemID req with
      ⟨hitems, hshares⟩ | ⟨db₁, hitems₁, hshares₁, hitems, hshares⟩
    · exact hmono.mono hitems hshares (List.Subset.refl _)
    · have h₁ := hmono.mono hitems₁ hshares₁ (List.Subset.refl _)
      have howner : db₁.isOwner = db.isOwner := isOwner_congr hitems₁
      have hact : ∀ w ∈ (ShareOp.shareGroup now claims itemID req).writes db,
          w.revokedAt = none := by
        intro w hw
        simp only [ShareOp.writes] at hw
        split at hw
        · split at hw
          · cases hw
          · obtain ⟨m, _, hm⟩ := List.mem_map.mp (writtenRows_mem hw)
            exact shareRow_active hm
        · cases hw
      have hput := putShares_hold _ h₁ hact
        (fun w hw => by rw [SparesOwner, howner]; exact hspare' w hw)
        (fun w hw hself hwo => hown w hw hself (howner ▸ hwo))
      exact hput.mono hitems hshares (List.Subset.refl _)
  | unshare now claims itemID target =>
    refine hmono.getD fun db' hop => ?_
    rcases unshare_eq_ok hop with rfl | ⟨item, user, e, hitem, huser, rfl⟩
    · exact hmono
    · have hne := hrevokes (item, user) (by
        simp [ShareOp.revokes, hop, hitem, huser, Except.isOk, Except.toBool])
      exact (revokeShare_holds hmono now hne).mono rfl rfl (List.Subset.refl _)
  | unshareGroup now claims itemID groupID =>
    refine hmono.getD fun db' hop => ?_
    obtain ⟨hitems, hshares⟩ := unshareGroup_eq_ok hop
    exact hmono.mono hitems hshares (List.Subset.refl _)

end Step

/-! ## Runs -/

/-- From a state without items, owners keep their rows along every run whose
requests spare them. -/
theorem owners_hold_along (svc : Service) {db₀ : DB} (hempty : db₀.items = [])
    (ops : List ShareOp)
    (hspare : Runs.Every (ShareRun.step svc) SparesOwners ⟨db₀, []⟩ ops) :
    Runs.Along (ShareRun.step svc) OwnersHold ⟨db₀, []⟩ ops := by
  refine Runs.along_of_every (ownersHold_step svc) ?_ hspare
  intro x item hitem
  have hnone : db₀.item? x = none := by rw [DB.item?, hempty]; rfl
  rw [hnone] at hitem
  cases hitem

/-- Two users, a folder of user 1 and a group. -/
def shareState : DB where
  users := [sampleUser 1 "owner", sampleUser 2 "guest"]
  groups := [⟨Uuid.ofNat 30, "team", none⟩]
  folders := [sampleFolder 10 1]
  itemTypes := [⟨1, none⟩]

/-- User 1 creates item 5. -/
def shareCreate : ShareOp :=
  .create 0 ⟨Uuid.ofNat 1, [.write]⟩
    ⟨List.replicate keyLength 0, sampleNonce, sampleNonce, length_zeroKey⟩
    { id := (Uuid.ofNat 5).text, folderID := (Uuid.ofNat 10).text, itemTypeID := 1, name := "db"
      description := none, fields := none, ownerDEKWrapped := [1]
      ownerWrapNonce := sampleNonce.bytes, externalSource := "", expiresAt := none
      rotationIntervalDays := none }

/-- A user shares item 5 with a user. -/
def shareWith (caller user : Nat) (permission : String) (dekWrapped : Bytes) : ShareOp :=
  .share 1 ⟨Uuid.ofNat caller, [.write]⟩ (Uuid.ofNat 5).text
    ⟨(Uuid.ofNat user).text, permission, dekWrapped, sampleNonce.bytes, none, none⟩

/-- The owner shares with a group they belong to, and revokes a guest. -/
theorem owners_hold_along_group_share :
    Runs.Along (ShareRun.step sampleService) OwnersHold ⟨shareState, []⟩
      [shareCreate, shareWith 1 2 "read" [2],
        .shareGroup 2 ⟨Uuid.ofNat 1, [.write]⟩ (Uuid.ofNat 5).text
          ⟨(Uuid.ofNat 30).text, "write", [⟨(Uuid.ofNat 1).text, [3], sampleNonce.bytes⟩], none,
            none⟩,
        .unshare 3 ⟨Uuid.ofNat 1, [.write]⟩ (Uuid.ofNat 5).text (Uuid.ofNat 2).text] :=
  owners_hold_along sampleService rfl _ (by decide)

/-- A guest with write shares the item back to its owner, for reading and with
a wrap of the guest's choice. -/
theorem owner_row_overwritten :
    ¬ ∀ (svc : Service) (db₀ : DB) (ops : List ShareOp), db₀.items = [] →
      Runs.Along (ShareRun.step svc) OwnersHold ⟨db₀, []⟩ ops := by
  intro h
  have hlast := (h sampleService shareState
    [shareCreate, shareWith 1 2 "write" [2], shareWith 2 1 "read" [9]] rfl).last
  have hitem : (Runs.run (ShareRun.step sampleService) ⟨shareState, []⟩
      [shareCreate, shareWith 1 2 "write" [2], shareWith 2 1 "read" [9]]).db.isOwner
      (Uuid.ofNat 5) (Uuid.ofNat 1) = true := by decide
  have hread : ∀ row ∈ (Runs.run (ShareRun.step sampleService) ⟨shareState, []⟩
      [shareCreate, shareWith 1 2 "write" [2], shareWith 2 1 "read" [9]]).db.itemShares,
      row.isFor (Uuid.ofNat 5) (Uuid.ofNat 1) = true → row.permission = .read := by decide
  obtain ⟨item, hsome, hby⟩ := (Option.any_eq_true _ _).mp hitem
  obtain ⟨row, hrow⟩ := hlast (Uuid.ofNat 5) item hsome
  have hkey := hrow.key
  rw [of_decide_eq_true hby] at hkey
  have hperm := hread row hrow.mem hkey
  rw [hrow.permission] at hperm
  cases hperm

end IronStock

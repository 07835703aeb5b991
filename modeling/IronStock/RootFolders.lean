import IronStock.FolderForest

/-!
# Who makes root folders

Creating a root folder needs the role admin. An update without `parent_id` sets
the parent to NULL and asks only for write on the folder itself, so it is a
second way to make one. A ledger of who made each root is carried beside the
table.
-/
namespace IronStock

def DB.isRoot (db : DB) (x : Uuid) : Bool := (db.folder? x).any (·.parentId.isNone)

/-- The caller's level on a folder is write. -/
def WritesFolder (db : DB) (now : Time) (claims : Claims) (x : Uuid) : Prop :=
  ∃ p, folderPermissionOf db now claims.subject x = .ok p ∧ p.allowsWrite = true

namespace FolderOp

def claims : FolderOp → Claims
  | create _ claims .. | update _ claims .. => claims

/-- A non-admin moves a folder only with write on it and on the new parent. -/
def MoveAllowed (svc : Service) (db : DB) (op : FolderOp) : Prop :=
  match op with
  | create .. => True
  | update now claims id _ _ =>
    claims.hasRole .admin = false → ∀ x, castUuid id = some x →
      (op.step svc db).parentOf x ≠ db.parentOf x →
        WritesFolder db now claims x ∧
          ∃ p, (op.step svc db).parentOf x = some p ∧ WritesFolder db now claims p

/-- A valid update without `parent_id`, of a folder that has a parent, by a
caller who is no admin and has write on the folder. -/
def TurnsToRoot (svc : Service) (db : DB) : FolderOp → Prop
  | create .. => False
  | update now claims id _ req =>
    claims.hasRole .admin = false ∧ req.parentID = none ∧ validateFolderRequest req = .ok () ∧
      isInt4 req.position = true ∧ (svc.searchHash req.name).isSome = true ∧
        ∃ x, castUuid id = some x ∧ (db.parentOf x).isSome = true ∧ WritesFolder db now claims x

end FolderOp

/-! ## The ledger -/

structure RootLedger where
  db : DB
  /-- who last made a folder a root -/
  madeBy : Uuid → Option Claims

namespace RootLedger

def step (svc : Service) (s : RootLedger) (op : FolderOp) : RootLedger where
  db := op.step svc s.db
  madeBy x := if (op.step svc s.db).isRoot x && !s.db.isRoot x then some op.claims else s.madeBy x

/-- Every root was made one by an admin. -/
def RootsByAdmins (s : RootLedger) : Prop :=
  ∀ x, s.db.isRoot x = true → ∃ claims, s.madeBy x = some claims ∧ claims.hasRole .admin = true

end RootLedger

/-! ## What a request asks for -/

section Checks
variable {svc : Service} {db db' : DB} {now : Time} {claims : Claims} {id : String} {nonce : Nonce}
  {req : FolderRequest}

/-- The check of a folder passes with write on the folder that the text names. -/
theorem requireFolderWrite_iff {folderID queryFailed denied : String} {u : Unit} :
    requireFolderWrite db now claims folderID queryFailed denied = .ok u ↔
      ∃ x, castUuid folderID = some x ∧ WritesFolder db now claims x := by
  unfold requireFolderWrite WritesFolder
  cases hx : castUuid folderID with
  | none =>
    have herr : ∃ e, resolveFolderPermission db now claims.subject folderID = .error e := by
      unfold resolveFolderPermission
      split
      · exact ⟨_, rfl⟩
      · rw [hx]
        exact ⟨_, rfl⟩
    obtain ⟨e, he⟩ := herr
    simp [he]
  | some x =>
    rw [resolveFolderPermission_of_cast hx]
    cases hperm : folderPermissionOf db now claims.subject x with
    | error e => simp [hperm]
    | ok p => simp [hperm]

/-- A name of a folder is no empty text, so it is not read as no parent. -/
theorem castParentID_of_cast {s : String} {p : Uuid} (h : castUuid s = some p) :
    castParentID (some s) = some (some p) := by
  have hne : s ≠ "" := by
    rintro rfl
    simp at h
  simp [castParentID, castNullableUuid, hne, h]

/-- What an accepted update of a caller who is no admin has passed. -/
theorem folderUpdate_writes (hadmin : claims.hasRole .admin = false)
    (h : folderUpdate svc db now claims id nonce req = .ok db') :
    validateFolderRequest req = .ok () ∧ isInt4 req.position = true ∧
      (svc.searchHash req.name).isSome = true ∧
      (∃ x, castUuid id = some x ∧ WritesFolder db now claims x) ∧
      ∀ s, req.parentID = some s → ∃ p, castUuid s = some p ∧ WritesFolder db now claims p := by
  simp only [folderUpdate, Reply.bind_eq_ok, Reply.unlessAdmin_eq_ok, Reply.orElse_eq_ok,
    statement_eq_ok, hadmin, Bool.false_eq_true, false_or] at h
  obtain ⟨_, -, _, hvalid, _, ⟨_, hfolder, hdest⟩, _, -, _, hsearch, _, hupd, -⟩ := h
  refine ⟨hvalid, ?_, Option.isSome_iff_exists.mpr ⟨_, hsearch⟩,
    requireFolderWrite_iff.mp hfolder, ?_⟩
  · by_contra hpos
    rw [updateFolder, if_pos hpos] at hupd
    cases hupd
  · intro s hs
    rw [hs] at hdest
    exact requireFolderWrite_iff.mp hdest

/-- An accepted update sets the parent of its folder and leaves the others. -/
theorem folderUpdate_parentOf (h : folderUpdate svc db now claims id nonce req = .ok db') :
    ∃ x parent, castUuid id = some x ∧ castParentID req.parentID = some parent ∧
      (∀ y, (db'.folder? y).isSome = (db.folder? y).isSome) ∧
      db'.parentOf = if (db.folder? x).isSome then Function.update db.parentOf x parent
        else db.parentOf := by
  obtain ⟨x, parent, hx, hparent, hcase⟩ := folderUpdate_change h
  refine ⟨x, parent, hx, hparent, ?_⟩
  rcases hcase with ⟨hnone, hsame⟩ | ⟨hsome, -, set, hset, hmove⟩
  · rw [hnone, parentOf_of_folders hsame]
    exact ⟨fun y => by rw [DB.folder?, DB.folder?, hsame], rfl⟩
  · rw [if_pos hsome, parentOf_move hsome hset hmove]
    refine ⟨fun y => ?_, rfl⟩
    rw [folder?_move (fun f hf => (hset f hf).1) hmove, Option.isSome_map]

end Checks

/-! ## New roots -/

theorem isRoot_iff {db : DB} {x : Uuid} :
    db.isRoot x = true ↔ (db.folder? x).isSome = true ∧ db.parentOf x = none := by
  unfold DB.isRoot DB.parentOf
  cases db.folder? x with
  | none => simp
  | some f => simp

section Requests
variable {svc : Service} {db db' : DB} {now : Time} {claims : Claims} {newID : Uuid} {id : String}
  {nonce : Nonce} {req : FolderRequest} {resp : FolderResponse} {x : Uuid}

/-- Nobody but an admin creates a root. -/
theorem folderCreate_isRoot (hadmin : claims.hasRole .admin = false)
    (h : folderCreate svc db now claims newID nonce req = .ok (db', resp))
    (hnew : db'.isRoot x = true) : db.isRoot x = true := by
  simp only [folderCreate, Reply.bind_eq_ok, statement_eq_ok, Reply.pure_eq_ok,
    Prod.mk.injEq] at h
  obtain ⟨_, -, _, hgate, _, -, _, -, db₁, hins, rfl, -⟩ := h
  obtain ⟨f, hcast, hfresh, -, hadd⟩ := insertFolder_row hins
  have hparent : f.parentId ≠ none := by
    intro hroot
    rw [hroot] at hcast
    cases hreq : req.parentID with
    | none =>
      rw [hreq] at hgate
      simp only [requireFolderCreate, Reply.require_eq_ok, hadmin] at hgate
      cases hgate
    | some s =>
      rw [hreq] at hgate hcast
      simp only [requireFolderCreate, Reply.unlessAdmin_eq_ok, hadmin, Bool.false_eq_true,
        false_or] at hgate
      obtain ⟨p, hp, -⟩ := requireFolderWrite_iff.mp hgate
      rw [castParentID_of_cast hp] at hcast
      cases hcast
  have hadd' : (db₁.audit ⟨claims.subject.text, "folder.created", "folder",
      newID.text⟩).folders = db.folders ++ [f] := hadd
  rw [isRoot_iff, folder?_add hadd', parentOf_add hfresh hadd'] at hnew
  by_cases hx : x = f.id
  · rw [hx, Function.update_self] at hnew
    exact absurd hnew.2 hparent
  · rw [if_neg (Ne.symm hx), Option.or_none, Function.update_of_ne hx] at hnew
    exact isRoot_iff.mpr hnew

/-- An update that makes a root gives no parent, if not by an admin. -/
theorem folderUpdate_isRoot (hadmin : claims.hasRole .admin = false)
    (h : folderUpdate svc db now claims id nonce req = .ok db')
    (hnew : db'.isRoot x = true) (hold : db.isRoot x = false) :
    (FolderOp.update now claims id nonce req).TurnsToRoot svc db := by
  have hwas : (db.folder? x).isSome = true → db.parentOf x ≠ none := by
    intro hsome hnone
    rw [isRoot_iff.mpr ⟨hsome, hnone⟩] at hold
    cases hold
  obtain ⟨hvalid, hpos, hsearch, ⟨x', hx', hwrites⟩, hdest⟩ := folderUpdate_writes hadmin h
  obtain ⟨x₀, parent, hx₀, hparent, hkept, hpar⟩ := folderUpdate_parentOf h
  obtain rfl : x' = x₀ := Option.some.inj (hx'.symm.trans hx₀)
  rw [isRoot_iff, hkept, hpar] at hnew
  obtain ⟨hsome, hroot⟩ := hnew
  have hmoved : x = x' ∧ parent = none := by
    by_cases hex : (db.folder? x').isSome = true
    · rw [if_pos hex] at hroot
      by_cases hxx : x = x'
      · rw [hxx, Function.update_self] at hroot
        exact ⟨hxx, hroot⟩
      · rw [Function.update_of_ne hxx] at hroot
        exact absurd hroot (hwas hsome)
    · rw [if_neg hex] at hroot
      exact absurd hroot (hwas hsome)
  obtain ⟨rfl, rfl⟩ := hmoved
  have hnone : req.parentID = none := by
    cases hreq : req.parentID with
    | none => rfl
    | some s =>
      obtain ⟨p, hp, -⟩ := hdest s hreq
      rw [hreq, castParentID_of_cast hp] at hparent
      cases hparent
  exact ⟨hadmin, hnone, hvalid, hpos, hsearch, x, hx₀,
    Option.isSome_iff_ne_none.mpr (hwas hsome), hwrites⟩

/-- Such an update passes every check. -/
theorem folderUpdate_of_turnsToRoot
    (h : (FolderOp.update now claims id nonce req).TurnsToRoot svc db) :
    ∃ db', folderUpdate svc db now claims id nonce req = .ok db' := by
  obtain ⟨hadmin, hnone, hvalid, hpos, hsearch, x, hx, hparent, hwrites⟩ := h
  obtain ⟨search, hsearch⟩ := Option.isSome_iff_exists.mp hsearch
  have hid : id ≠ "" := by
    rintro rfl
    simp at hx
  have hfolder : (db.folder? x).isNone = false := by
    cases hf : db.folder? x with
    | none => simp [DB.parentOf, hf] at hparent
    | some f => rfl
  have hgate : Reply.unlessAdmin claims (do
      requireFolderWrite db now claims id "Yetki sorgulanamadı." "Yazma yetkisi yok."
      requireDestination db now claims req.parentID) = .ok () := by
    rw [Reply.unlessAdmin_eq_ok, Reply.bind_eq_ok, hnone]
    exact .inr ⟨(), requireFolderWrite_iff.mpr ⟨x, hx, hwrites⟩, rfl⟩
  have hupd : ∃ db₁, updateFolder db now id req.parentID (encryptFolderName svc nonce req.name)
      nonce search req.position = .ok db₁ := by
    simp [updateFolder, hpos, hx, hnone, castParentID, hfolder]
  obtain ⟨db₁, hupd⟩ := hupd
  refine ⟨db₁.audit ⟨claims.subject.text, "folder.updated", "folder", id⟩, ?_⟩
  unfold folderUpdate
  rw [hgate, hvalid, hsearch]
  simp [Reply.require, hid, encryptFolderName, Reply.orElse, bind, Except.bind] at hupd ⊢
  rw [hupd]
  rfl

end Requests

section Steps
variable {svc : Service} {db : DB} {op : FolderOp} {x : Uuid}

/-- A root that was none before is an admin's, or an update without a parent. -/
theorem isRoot_step (hnew : (op.step svc db).isRoot x = true) (hold : db.isRoot x = false) :
    op.claims.hasRole .admin = true ∨ op.TurnsToRoot svc db := by
  cases hadmin : op.claims.hasRole .admin with
  | true => exact .inl rfl
  | false =>
    cases hres : op.result svc db with
    | error e =>
      rw [FolderOp.step, hres, hold] at hnew
      cases hnew
    | ok db' =>
      rw [FolderOp.step_of_ok hres] at hnew
      cases op with
      | create now claims newID nonce req =>
        obtain ⟨resp, hcreate⟩ := FolderOp.result_create hres
        rw [folderCreate_isRoot hadmin hcreate hnew] at hold
        cases hold
      | update now claims id nonce req => exact .inr (folderUpdate_isRoot hadmin hres hnew hold)

/-- The folder of such an update becomes a root. -/
theorem turnsToRoot_step (h : op.TurnsToRoot svc db) :
    op.claims.hasRole .admin = false ∧
      ∃ x, (op.step svc db).isRoot x = true ∧ db.isRoot x = false := by
  cases op with
  | create => cases h
  | update now claims id nonce req =>
    obtain ⟨db', hres⟩ := folderUpdate_of_turnsToRoot h
    obtain ⟨hadmin, hnone, -, -, -, x, hx, hparent, -⟩ := h
    obtain ⟨x', parent, hx', hcast, hkept, hpar⟩ := folderUpdate_parentOf hres
    obtain rfl : x = x' := Option.some.inj (hx.symm.trans hx')
    rw [hnone] at hcast
    obtain rfl : none = parent := Option.some.inj hcast
    have hfolder : (db.folder? x).isSome = true := by
      cases hf : db.folder? x with
      | none => simp [DB.parentOf, hf] at hparent
      | some f => rfl
    refine ⟨hadmin, x, ?_, ?_⟩
    · have hstep : (FolderOp.update now claims id nonce req).step svc db = db' :=
        FolderOp.step_of_ok hres
      rw [hstep, isRoot_iff, hkept, hpar, if_pos hfolder, Function.update_self]
      exact ⟨hfolder, rfl⟩
    · rw [← Bool.not_eq_true, isRoot_iff]
      rintro ⟨-, hroot⟩
      rw [hroot] at hparent
      cases hparent

/-- Every other move of a non-admin has asked for write on the new parent. -/
theorem moveAllowed_of_not_turnsToRoot (h : ¬ op.TurnsToRoot svc db) :
    op.MoveAllowed svc db := by
  cases op with
  | create => trivial
  | update now claims id nonce req =>
    intro hadmin x hx hmoved
    cases hres : (FolderOp.update now claims id nonce req).result svc db with
    | error e =>
      rw [FolderOp.step, hres] at hmoved
      exact absurd rfl hmoved
    | ok db' =>
      rw [FolderOp.step_of_ok hres] at hmoved ⊢
      obtain ⟨-, -, -, ⟨x₁, hx₁, hwrites⟩, hdest⟩ := folderUpdate_writes hadmin hres
      obtain ⟨x₂, parent, hx₂, hcast, hkept, hpar⟩ := folderUpdate_parentOf hres
      obtain rfl : x = x₁ := Option.some.inj (hx.symm.trans hx₁)
      obtain rfl : x = x₂ := Option.some.inj (hx.symm.trans hx₂)
      have hfolder : (db.folder? x).isSome = true := by
        by_contra hnone
        rw [hpar, if_neg hnone] at hmoved
        exact hmoved rfl
      rw [hpar, if_pos hfolder, Function.update_self] at hmoved ⊢
      refine ⟨hwrites, ?_⟩
      cases hreq : req.parentID with
      | none =>
        rw [hreq] at hcast
        obtain rfl : none = parent := Option.some.inj hcast
        refine absurd (folderUpdate_isRoot (x := x) hadmin hres ?_ ?_) h
        · rw [isRoot_iff, hkept, hpar, if_pos hfolder, Function.update_self]
          exact ⟨hfolder, rfl⟩
        · rw [← Bool.not_eq_true, isRoot_iff]
          rintro ⟨-, hroot⟩
          exact hmoved hroot.symm
      | some s =>
        obtain ⟨p, hp, hwrites'⟩ := hdest s hreq
        rw [hreq, castParentID_of_cast hp] at hcast
        obtain rfl : some p = parent := Option.some.inj hcast
        exact ⟨p, rfl, hwrites'⟩

end Steps

/-! ## Every run -/

namespace RootLedger
variable {svc : Service} {s : RootLedger} {op : FolderOp}

/-- A request keeps the ledger to admins exactly if it is no such update. -/
theorem rootsByAdmins_step_iff (hs : s.RootsByAdmins) :
    (s.step svc op).RootsByAdmins ↔ ¬ op.TurnsToRoot svc s.db := by
  constructor
  · intro hroots hturns
    obtain ⟨hadmin, x, hnew, hold⟩ := turnsToRoot_step hturns
    obtain ⟨claims, hmade, hby⟩ := hroots x hnew
    simp only [step, hnew, hold, Bool.not_false, Bool.and_self, if_true, Option.some.injEq] at hmade
    rw [← hmade, hadmin] at hby
    cases hby
  · intro hkept x hnew
    cases hold : s.db.isRoot x with
    | true =>
      obtain ⟨claims, hmade, hby⟩ := hs x hold
      exact ⟨claims, by simp [step, hold, hmade], hby⟩
    | false =>
      refine ⟨op.claims, ?_, (isRoot_step hnew hold).resolve_right hkept⟩
      have hnew' : (op.step svc s.db).isRoot x = true := hnew
      simp [step, hnew', hold]

/-- Along every run all roots are made by admins and non-admins move folders
only where they have write on both ends, exactly if no update leaves out
`parent_id` for a folder that has a parent, by a caller who is no admin. -/
theorem roots_by_admins_iff (hs : s.RootsByAdmins) (ops : List FolderOp) :
    (Runs.Along (step svc) RootsByAdmins s ops ∧
        Runs.Every (step svc) (fun s op => op.MoveAllowed svc s.db) s ops) ↔
      Runs.Every (step svc) (fun s op => ¬ op.TurnsToRoot svc s.db) s ops := by
  have htrue : ∀ (s : RootLedger) (ops : List FolderOp),
      Runs.Every (step svc) (fun _ _ => True) s ops := by
    intro s ops
    rw [Runs.every_const]
    exact fun _ _ => trivial
  have hiff : Runs.Along (step svc) RootsByAdmins s ops ↔
      Runs.Every (step svc) (fun s op => ¬ op.TurnsToRoot svc s.db) s ops :=
    Runs.along_iff_every (J := fun _ => True) (fun _ _ _ _ => trivial)
      (fun _ _ _ hs _ => rootsByAdmins_step_iff hs) ops trivial hs (htrue s ops)
  constructor
  · exact fun h => hiff.mp h.1
  · intro h
    exact ⟨hiff.mpr h, h.mono fun _ _ => moveAllowed_of_not_turnsToRoot⟩

end RootLedger

/-! ## An update without a parent -/

theorem two_ne_three : some (Uuid.ofNat 2) ≠ some (Uuid.ofNat 3) := by decide

/-- User 5 may write folder 3, which lies in the root folder 2 of an admin. -/
def nestedFolder : RootLedger where
  db :=
    { users := [sampleUser 1 "admin", sampleUser 5 "writer"]
      folders := [sampleFolder 2 1,
        { sampleFolder 3 1 with parentId := some (Uuid.ofNat 2), noSelfParent := two_ne_three }]
      folderPermissions := [⟨Uuid.ofNat 3, Uuid.ofNat 5, .write, false, .always, none⟩] }
  madeBy x := if x = Uuid.ofNat 2 then some folderAdmin else none

theorem nestedFolder_rootsByAdmins : nestedFolder.RootsByAdmins := by
  intro x hx
  obtain ⟨hsome, hroot⟩ := isRoot_iff.mp hx
  obtain ⟨f, hf⟩ := Option.isSome_iff_exists.mp hsome
  obtain ⟨hmem, hid⟩ := Table.lookup_eq_some hf
  rw [DB.parentOf, hf] at hroot
  simp only [nestedFolder, List.mem_cons, List.not_mem_nil, or_false] at hmem
  rcases hmem with rfl | rfl
  · refine ⟨folderAdmin, if_pos hid.symm, rfl⟩
  · cases hroot

/-- User 5 renames folder 3 and sends no `parent_id`. -/
def renameFolderOp (parent : Option Nat) : FolderOp :=
  .update 0 ⟨Uuid.ofNat 5, [.write]⟩ (Uuid.ofNat 3).text sampleNonce
    ⟨"renamed", parent.map fun p => (Uuid.ofNat p).text, 0⟩

/-- An admin takes folder 3 out of folder 2. -/
theorem roots_by_admins_iff_admin :
    Runs.Along (RootLedger.step sampleService) RootLedger.RootsByAdmins nestedFolder
      [moveFolderOp 3 none] :=
  ((RootLedger.roots_by_admins_iff nestedFolder_rootsByAdmins [moveFolderOp 3 none]).mpr
    ⟨fun h => (by cases h.1), trivial⟩).1

/-- User 5 makes folder 3 a root. -/
theorem rename_makes_root :
    ¬ ∀ (svc : Service) (s : RootLedger), s.RootsByAdmins → ∀ ops : List FolderOp,
      Runs.Along (RootLedger.step svc) RootLedger.RootsByAdmins s ops := by
  intro hall
  have hroots := (hall sampleService nestedFolder nestedFolder_rootsByAdmins
    [renameFolderOp none]).last
  have hnew : ((renameFolderOp none).step sampleService nestedFolder.db).isRoot (Uuid.ofNat 3) =
      true := by
    decide
  obtain ⟨claims, hmade, hby⟩ := hroots (Uuid.ofNat 3) hnew
  have hold : nestedFolder.db.isRoot (Uuid.ofNat 3) = false := by decide
  simp only [Runs.run_cons, Runs.run_nil, RootLedger.step, hnew, hold, Bool.not_false,
    Bool.and_self, if_true, Option.some.injEq] at hmade
  rw [← hmade] at hby
  revert hby
  decide

end IronStock

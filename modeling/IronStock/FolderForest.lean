import IronStock.FolderHandlers
import IronStock.Lib.Runs

/-!
# The folder hierarchy as a forest

Creating a folder hangs a new leaf under an existing one, so it keeps the
hierarchy a forest. Moving a folder keeps it exactly when the new parent does
not lie below the folder moved, which nothing checks.
-/
namespace IronStock

/-- Every chain of parents ends, and so the folder resolver has an answer for
every folder, caller and time. -/
structure FolderTree (db : DB) : Prop where
  forest : Forest.IsForest db.parentOf
  resolves : ∀ now userID folderID, ∃ p, folderPermissionOf db now userID folderID = .ok p

theorem folderTree_iff (db : DB) : FolderTree db ↔ Forest.IsForest db.parentOf := by
  constructor
  · exact FolderTree.forest
  · intro h
    refine ⟨h, ?_⟩
    intro now userID folderID
    exact (folderPermissionOf_isOk db now userID folderID).mpr (h folderID)

/-- The foreign key `fk_folders_parent`. -/
def ParentsExist (db : DB) : Prop :=
  ∀ x p, db.parentOf x = some p → (db.folder? p).isSome = true

/-- What an accepted folder request does to the folder table. -/
inductive FolderChange (db db' : DB) : Prop
  | none (h : db'.folders = db.folders)
  | add (f : Folder) (hfresh : db.folder? f.id = Option.none)
      (hparent : ∀ p, f.parentId = some p → (db.folder? p).isSome = true)
      (h : db'.folders = db.folders ++ [f])
  | move (x : Uuid) (parent : Option Uuid) (set : Folder → Folder)
      (hx : (db.folder? x).isSome = true)
      (hparent : ∀ p, parent = some p → (db.folder? p).isSome = true)
      (hset : ∀ f, f.id = x → (set f).id = f.id ∧ (set f).parentId = parent)
      (h : db'.folders = Table.updateWhere (·.id = x) set db.folders)

/-! ## The parent map after a change -/

theorem parentOf_of_folders {db db' : DB} (h : db'.folders = db.folders) :
    db'.parentOf = db.parentOf := by
  funext x
  rw [DB.parentOf, DB.parentOf, DB.folder?, DB.folder?, h]

theorem folder?_add {db db' : DB} {f : Folder} (h : db'.folders = db.folders ++ [f]) (x : Uuid) :
    db'.folder? x = (db.folder? x).or (if f.id = x then some f else none) := by
  rw [DB.folder?, h, Table.lookup_append]
  rfl

theorem parentOf_add {db db' : DB} {f : Folder} (hfresh : db.folder? f.id = none)
    (h : db'.folders = db.folders ++ [f]) :
    db'.parentOf = Function.update db.parentOf f.id f.parentId := by
  funext x
  rw [DB.parentOf, folder?_add h]
  by_cases hx : x = f.id
  · subst hx
    simp [hfresh]
  · rw [Function.update_of_ne hx, if_neg (Ne.symm hx), Option.or_none]
    rfl

theorem lookup_set {x : Uuid} {set : Folder → Folder} (hset : ∀ f, f.id = x → (set f).id = f.id)
    (folders : List Folder) (y : Uuid) :
    Table.lookup Folder.id y (Table.updateWhere (·.id = x) set folders) =
      (Table.lookup Folder.id y folders).map fun f => if f.id = x then set f else f := by
  have hkey : ∀ f : Folder, (if f.id = x then set f else f).id = f.id := by
    intro f
    by_cases hf : f.id = x
    · rw [if_pos hf, hset f hf]
    · rw [if_neg hf]
  have h := @Table.lookup_updateWhere _ _ _ Folder.id (fun _ => true) _ hkey y folders
  simpa [Table.updateWhere] using h

theorem folder?_move {db db' : DB} {x : Uuid} {set : Folder → Folder}
    (hset : ∀ f, f.id = x → (set f).id = f.id)
    (h : db'.folders = Table.updateWhere (·.id = x) set db.folders) (y : Uuid) :
    db'.folder? y = (db.folder? y).map fun f => if f.id = x then set f else f := by
  rw [DB.folder?, h, lookup_set hset]
  rfl

theorem parentOf_move {db db' : DB} {x : Uuid} {parent : Option Uuid} {set : Folder → Folder}
    (hx : (db.folder? x).isSome = true)
    (hset : ∀ f, f.id = x → (set f).id = f.id ∧ (set f).parentId = parent)
    (h : db'.folders = Table.updateWhere (·.id = x) set db.folders) :
    db'.parentOf = Function.update db.parentOf x parent := by
  funext y
  rw [DB.parentOf, folder?_move (fun f hf => (hset f hf).1) h]
  by_cases hy : y = x
  · subst hy
    obtain ⟨f, hf⟩ := Option.isSome_iff_exists.mp hx
    have hid : f.id = y := (Table.lookup_eq_some hf).2
    simp [hf, hid, (hset f hid).2]
  · rw [Function.update_of_ne hy, DB.parentOf]
    cases hf : db.folder? y with
    | none => rfl
    | some f =>
      have hid : f.id ≠ x := by
        rw [(Table.lookup_eq_some hf).2]
        exact hy
      simp [hid]

/-! ## What a change keeps -/

theorem FolderChange.parentsExist {db db' : DB} (hc : FolderChange db db')
    (hfk : ParentsExist db) : ParentsExist db' := by
  intro y p hp
  cases hc with
  | none h =>
    rw [parentOf_of_folders h] at hp
    rw [DB.folder?, h]
    exact hfk y p hp
  | add f hfresh hparent h =>
    rw [parentOf_add hfresh h] at hp
    rw [folder?_add h]
    have hold : (db.folder? p).isSome = true := by
      by_cases hy : y = f.id
      · subst hy
        rw [Function.update_self] at hp
        exact hparent p hp
      · rw [Function.update_of_ne hy] at hp
        exact hfk y p hp
    simp [hold]
  | move x parent set hx hparent hset h =>
    rw [parentOf_move hx hset h] at hp
    rw [folder?_move (fun f hf => (hset f hf).1) h, Option.isSome_map]
    by_cases hy : y = x
    · subst hy
      rw [Function.update_self] at hp
      exact hparent p hp
    · rw [Function.update_of_ne hy] at hp
      exact hfk y p hp

/-- Nothing lies below a folder that does not exist yet. -/
theorem not_above_fresh {db : DB} (hfk : ParentsExist db) {x p : Uuid}
    (hx : db.folder? x = none) (hp : (db.folder? p).isSome = true) :
    ¬ Forest.Above db.parentOf p x := by
  intro h
  induction h with
  | refl => simp [hx] at hp
  | tail _ hstep _ =>
    have := hfk _ _ hstep
    simp [hx] at this

/-- A new leaf keeps a forest. -/
theorem isForest_add {db db' : DB} {f : Folder} (hfk : ParentsExist db)
    (hf : Forest.IsForest db.parentOf) (hfresh : db.folder? f.id = none)
    (hparent : ∀ p, f.parentId = some p → (db.folder? p).isSome = true)
    (h : db'.folders = db.folders ++ [f]) : Forest.IsForest db'.parentOf := by
  rw [parentOf_add hfresh h]
  cases hp : f.parentId with
  | none => exact Forest.isForest_update_none hf f.id
  | some p =>
    rw [Forest.isForest_update_iff hf]
    exact not_above_fresh hfk hfresh (hparent p hp)

/-- A move keeps a forest exactly when the new parent is not below the folder. -/
theorem isForest_move {db db' : DB} {x : Uuid} {parent : Option Uuid} {set : Folder → Folder}
    (hf : Forest.IsForest db.parentOf) (hx : (db.folder? x).isSome = true)
    (hset : ∀ f, f.id = x → (set f).id = f.id ∧ (set f).parentId = parent)
    (h : db'.folders = Table.updateWhere (·.id = x) set db.folders) :
    Forest.IsForest db'.parentOf ↔
      ∀ p, parent = some p → ¬ Forest.Above db.parentOf p x := by
  rw [parentOf_move hx hset h]
  cases parent with
  | none => simpa using Forest.isForest_update_none hf x
  | some p => simpa using Forest.isForest_update_iff hf x p

/-! ## The requests -/

/-- A folder request with everything it draws and reads. -/
inductive FolderOp
  | create (now : Time) (claims : Claims) (newID : Uuid) (nonce : Nonce) (req : FolderRequest)
  | update (now : Time) (claims : Claims) (id : String) (nonce : Nonce) (req : FolderRequest)

namespace FolderOp

/-- The state after the request, if the handler accepts it. -/
def result (svc : Service) (db : DB) : FolderOp → Reply DB
  | create now claims newID nonce req =>
    (folderCreate svc db now claims newID nonce req).map Prod.fst
  | update now claims id nonce req => folderUpdate svc db now claims id nonce req

/-- A refused request leaves the database as it is. -/
def step (svc : Service) (db : DB) (op : FolderOp) : DB :=
  match op.result svc db with
  | .ok db' => db'
  | .error _ => db

def Accepted (svc : Service) (db : DB) (op : FolderOp) : Prop :=
  (op.result svc db).isOk = true

instance (svc : Service) (db : DB) (op : FolderOp) : Decidable (op.Accepted svc db) :=
  inferInstanceAs (Decidable (_ = true))

theorem accepted_iff {svc : Service} {db : DB} {op : FolderOp} :
    op.Accepted svc db ↔ ∃ db', op.result svc db = .ok db' := by
  unfold Accepted
  cases op.result svc db <;> simp [Except.isOk, Except.toBool]

theorem step_of_ok {svc : Service} {db db' : DB} {op : FolderOp}
    (h : op.result svc db = .ok db') : step svc db op = db' := by
  rw [step, h]

/-- The request moves no folder under itself or under a folder below it. -/
def MovesUpward (db : DB) : FolderOp → Prop
  | create .. => True
  | update _ _ id _ req =>
    ∀ x p, castUuid id = some x → castParentID req.parentID = some (some p) →
      (db.folder? x).isSome = true → ¬ Forest.Above db.parentOf p x

end FolderOp

/-- The row of an accepted insert. -/
theorem insertFolder_row {db db' : DB} {now : Time} {newID : Uuid} {parentID : Option String}
    {nameEnc : Bytes} {nameNonce : Nonce} {nameSearch : Bytes} {position : Int} {createdBy : Uuid}
    (h : insertFolder db now newID parentID nameEnc nameNonce nameSearch position createdBy =
      .ok db') :
    ∃ f : Folder, castParentID parentID = some f.parentId ∧ db.folder? f.id = none ∧
      (∀ p, f.parentId = some p → (db.folder? p).isSome = true) ∧
      db'.folders = db.folders ++ [f] := by
  have hpos : ¬ ¬ isInt4 position = true := by
    intro hpos
    rw [insertFolder, if_pos hpos] at h
    cases h
  unfold insertFolder at h
  rw [if_neg hpos] at h
  split at h
  · cases h
  · next parent hparent =>
    split at h
    · cases h
    · next hself =>
      split at h
      · cases h
      · next hnew =>
        split at h
        · cases h
        · next hfk =>
          cases h
          refine ⟨⟨newID, parent, nameEnc, nameNonce, nameSearch, position, createdBy, now, now,
            hself⟩, hparent, by simpa using hnew, ?_, rfl⟩
          intro p hp
          simp only [not_or, not_not] at hfk
          have hall := hfk.2
          dsimp only at hp
          rw [hp] at hall
          simpa using hall

theorem insertFolder_change {db db' : DB} {now : Time} {newID : Uuid} {parentID : Option String}
    {nameEnc : Bytes} {nameNonce : Nonce} {nameSearch : Bytes} {position : Int} {createdBy : Uuid}
    (h : insertFolder db now newID parentID nameEnc nameNonce nameSearch position createdBy =
      .ok db') :
    ∃ f : Folder, db.folder? f.id = none ∧
      (∀ p, f.parentId = some p → (db.folder? p).isSome = true) ∧
      db'.folders = db.folders ++ [f] := by
  obtain ⟨f, -, hfresh, hparent, hadd⟩ := insertFolder_row h
  exact ⟨f, hfresh, hparent, hadd⟩

theorem updateFolder_change {db db' : DB} {now : Time} {id : String} {parentID : Option String}
    {nameEnc : Bytes} {nameNonce : Nonce} {nameSearch : Bytes} {position : Int}
    (h : updateFolder db now id parentID nameEnc nameNonce nameSearch position = .ok db') :
    ∃ x parent, castUuid id = some x ∧ castParentID parentID = some parent ∧
      ((db.folder? x = none ∧ db'.folders = db.folders) ∨
        ((db.folder? x).isSome = true ∧
          (∀ p, parent = some p → (db.folder? p).isSome = true) ∧
          ∃ set : Folder → Folder,
            (∀ f, f.id = x → (set f).id = f.id ∧ (set f).parentId = parent) ∧
            db'.folders = Table.updateWhere (·.id = x) set db.folders)) := by
  have hpos : ¬ ¬ isInt4 position = true := by
    intro hpos
    rw [updateFolder, if_pos hpos] at h
    cases h
  unfold updateFolder at h
  rw [if_neg hpos] at h
  split at h
  · next x parent hx hparent =>
    refine ⟨x, parent, hx, hparent, ?_⟩
    split at h
    · next hnone =>
      cases h
      exact .inl ⟨by simpa using hnone, rfl⟩
    · next hsome =>
      split at h
      · cases h
      · next hself =>
        split at h
        · cases h
        · next hfk =>
          cases h
          refine .inr ⟨?_, ?_, _, ?_, rfl⟩
          · cases hf : db.folder? x <;> simp_all
          · intro p hp
            subst hp
            simpa [Option.isSome_iff_ne_none] using hfk
          · intro f hf
            have hne : parent ≠ some f.id := by
              rw [hf]
              exact hself
            simp [Folder.set, hne]
  · cases h

theorem folderCreate_change {svc : Service} {db db' : DB} {now : Time} {claims : Claims}
    {newID : Uuid} {nonce : Nonce} {req : FolderRequest} {resp : FolderResponse}
    (h : folderCreate svc db now claims newID nonce req = .ok (db', resp)) :
    ∃ f : Folder, db.folder? f.id = none ∧
      (∀ p, f.parentId = some p → (db.folder? p).isSome = true) ∧
      db'.folders = db.folders ++ [f] := by
  simp only [folderCreate, Reply.bind_eq_ok, statement_eq_ok, Reply.pure_eq_ok,
    Prod.mk.injEq] at h
  obtain ⟨_, _, _, _, _, _, _, _, db₁, hins, hdb, _⟩ := h
  subst hdb
  rw [audit_folders]
  exact insertFolder_change hins

theorem folderUpdate_change {svc : Service} {db db' : DB} {now : Time} {claims : Claims}
    {id : String} {nonce : Nonce} {req : FolderRequest}
    (h : folderUpdate svc db now claims id nonce req = .ok db') :
    ∃ x parent, castUuid id = some x ∧ castParentID req.parentID = some parent ∧
      ((db.folder? x = none ∧ db'.folders = db.folders) ∨
        ((db.folder? x).isSome = true ∧
          (∀ p, parent = some p → (db.folder? p).isSome = true) ∧
          ∃ set : Folder → Folder,
            (∀ f, f.id = x → (set f).id = f.id ∧ (set f).parentId = parent) ∧
            db'.folders = Table.updateWhere (·.id = x) set db.folders)) := by
  simp only [folderUpdate, Reply.bind_eq_ok, statement_eq_ok, Reply.pure_eq_ok] at h
  obtain ⟨_, _, _, _, _, _, _, _, _, _, db₁, hupd, hdb⟩ := h
  subst hdb
  rw [audit_folders]
  exact updateFolder_change hupd

namespace FolderOp

theorem result_create {svc : Service} {db db' : DB} {now : Time} {claims : Claims} {newID : Uuid}
    {nonce : Nonce} {req : FolderRequest}
    (h : (create now claims newID nonce req).result svc db = .ok db') :
    ∃ resp, folderCreate svc db now claims newID nonce req = .ok (db', resp) := by
  simp only [result, Except.map] at h
  split at h
  · cases h
  · next r hr =>
    cases h
    exact ⟨r.2, hr⟩

/-- What an accepted request did to the folder table. -/
theorem result_change {svc : Service} {db db' : DB} {op : FolderOp}
    (h : op.result svc db = .ok db') : FolderChange db db' := by
  cases op with
  | create now claims newID nonce req =>
    obtain ⟨resp, hresp⟩ := result_create h
    obtain ⟨f, hfresh, hparent, hadd⟩ := folderCreate_change hresp
    exact .add f hfresh hparent hadd
  | update now claims id nonce req =>
    obtain ⟨x, parent, _, _, hcase⟩ := folderUpdate_change h
    rcases hcase with ⟨_, hsame⟩ | ⟨hx, hparent, set, hset, hmove⟩
    · exact .none hsame
    · exact .move x parent set hx hparent hset hmove

/-- An accepted request keeps a forest exactly when it moves upward. -/
theorem isForest_iff {svc : Service} {db db' : DB} {op : FolderOp}
    (hfk : ParentsExist db) (hf : Forest.IsForest db.parentOf)
    (h : op.result svc db = .ok db') :
    Forest.IsForest db'.parentOf ↔ op.MovesUpward db := by
  cases op with
  | create now claims newID nonce req =>
    obtain ⟨resp, hresp⟩ := result_create h
    obtain ⟨f, hfresh, hparent, hadd⟩ := folderCreate_change hresp
    simp only [MovesUpward, iff_true]
    exact isForest_add hfk hf hfresh hparent hadd
  | update now claims id nonce req =>
    obtain ⟨x, parent, hid, hpar, hcase⟩ := folderUpdate_change h
    simp only [MovesUpward, hid, hpar, Option.some.injEq]
    rcases hcase with ⟨hx, hsame⟩ | ⟨hx, hparent, set, hset, hmove⟩
    · have hforest : Forest.IsForest db'.parentOf := by
        rw [parentOf_of_folders hsame]
        exact hf
      constructor
      · rintro _ y p rfl _ hy
        simp [hx] at hy
      · intro _
        exact hforest
    · have hiff := isForest_move hf hx hset hmove
      constructor
      · rintro hdb y p rfl hp _
        exact hiff.mp hdb p hp
      · intro hmoves
        exact hiff.mpr fun p hp => hmoves x p rfl hp hx

end FolderOp

/-! ## Every run -/

/-- Along every run of accepted requests from an empty folder table the
hierarchy stays a forest and the resolver terminates on every folder, exactly
when no request moves a folder under one of its own descendants. -/
theorem folder_tree_iff_moves_upward (svc : Service) (db₀ : DB) (h₀ : db₀.folders = [])
    (ops : List FolderOp) (hacc : Runs.Every (FolderOp.step svc) (FolderOp.Accepted svc) db₀ ops) :
    Runs.Along (FolderOp.step svc) FolderTree db₀ ops ↔
      Runs.Every (FolderOp.step svc) (fun db op => op.MovesUpward db) db₀ ops := by
  have hroot : ∀ x, db₀.parentOf x = none := by
    intro x
    simp [DB.parentOf, DB.folder?, h₀, Table.lookup]
  have hfk₀ : ParentsExist db₀ := by
    intro x p hp
    simp [hroot] at hp
  have hf₀ : FolderTree db₀ := (folderTree_iff db₀).mpr fun x => .root (hroot x)
  apply Runs.along_iff_every (J := ParentsExist) (A := FolderOp.Accepted svc) _ _ ops hfk₀ hf₀ hacc
  · intro db op hfk hop
    obtain ⟨db', hres⟩ := FolderOp.accepted_iff.mp hop
    rw [FolderOp.step_of_ok hres]
    exact (FolderOp.result_change hres).parentsExist hfk
  · intro db op hfk htree hop
    obtain ⟨db', hres⟩ := FolderOp.accepted_iff.mp hop
    rw [FolderOp.step_of_ok hres, folderTree_iff]
    exact FolderOp.isForest_iff hfk htree.forest hres

/-! ## A move that closes a cycle -/

def folderAdmin : Claims := ⟨Uuid.ofNat 1, [.admin]⟩
def folderStart : DB := { users := [sampleUser 1 "admin"] }

def createFolderOp (id : Nat) (parent : Option Nat) : FolderOp :=
  .create 0 folderAdmin (Uuid.ofNat id) sampleNonce
    ⟨"folder", parent.map fun p => (Uuid.ofNat p).text, 0⟩

def moveFolderOp (id : Nat) (parent : Option Nat) : FolderOp :=
  .update 0 folderAdmin (Uuid.ofNat id).text sampleNonce
    ⟨"folder", parent.map fun p => (Uuid.ofNat p).text, 0⟩

/-- Folder 3 is created under folder 2 and then moved to the root. -/
theorem folder_tree_iff_moves_upward_move_to_root :
    Runs.Along (FolderOp.step sampleService) FolderTree folderStart
        [createFolderOp 2 none, createFolderOp 3 (some 2), moveFolderOp 3 none] ↔
      Runs.Every (FolderOp.step sampleService) (fun db op => op.MovesUpward db) folderStart
        [createFolderOp 2 none, createFolderOp 3 (some 2), moveFolderOp 3 none] :=
  folder_tree_iff_moves_upward sampleService folderStart rfl _ (by decide)

/-- Folder 2, the parent of folder 3, is moved under folder 3: both requests
are accepted and the hierarchy is a cycle. -/
theorem folder_move_closes_cycle :
    ¬ ∀ (svc : Service) (db₀ : DB), db₀.folders = [] → ∀ ops,
      Runs.Every (FolderOp.step svc) (FolderOp.Accepted svc) db₀ ops →
        Runs.Along (FolderOp.step svc) FolderTree db₀ ops := by
  intro h
  have hrun := h sampleService folderStart rfl
    [createFolderOp 2 none, createFolderOp 3 (some 2), moveFolderOp 2 (some 3)] (by decide)
  have htree := hrun.last.forest (Uuid.ofNat 2)
  refine Forest.not_ends_of_cycle (b := Uuid.ofNat 3) ?_ ?_ htree
  · decide
  · exact Forest.Above.head (b := Uuid.ofNat 2) (by decide) (Forest.Above.refl _ _)

end IronStock

import IronStock.ApprovalGate
import IronStock.Lib.Runs
import IronStock.Replies

/-!
# Item links

`item_links.go`: links from a field of one item to a field of another. A new link asks
for write on its source and for read on its target, and a list asks nothing of the
targets. The INSERT casts the field ids to `uuid`; their columns are of type `bigint`.
-/
namespace IronStock.Links

/-! ## The tables -/

/-- The columns of `item_links` beside those of `ItemLink`. -/
structure LinkColumns where
  sourceFieldDefId : Int
  targetItemId : Uuid
  targetFieldDefId : Int
  createdBy : Uuid
  createdAt : Time

structure State where
  db : DB
  columns : Uuid → LinkColumns
  /-- `field_definitions.label` -/
  label : Int → Option String

/-- A value of a statement, with the type it has there. -/
inductive SqlValue
  | uuid (u : Uuid)
  | bigint (n : Int)
  | text (t : String)

def LinkType.ofText : String → Option LinkType
  | "mirror" => some .mirror
  | "reference" => some .reference
  | _ => none

def LinkType.text : LinkType → String
  | .mirror => "mirror"
  | .reference => "reference"

/-- The row of the six values, each of the type of its column. -/
def linkRow (id : Uuid) (now : Time) : List SqlValue → Option (ItemLink × LinkColumns)
  | [.uuid source, .bigint sourceField, .uuid target, .bigint targetField, .text linkType,
      .uuid createdBy] =>
    (LinkType.ofText linkType).map fun linkType =>
      (⟨id, source, linkType⟩, ⟨sourceField, target, targetField, createdBy, now⟩)
  | _ => none

def datatypeMismatch : PgError := pgError "42804"

namespace State
variable (s : State)

/-- The field pair of a link is there already, `uq_item_links`. -/
def hasPair (source : Uuid) (c : LinkColumns) : Bool :=
  s.db.itemLinks.any fun l => l.sourceItemId = source ∧
    (s.columns l.id).sourceFieldDefId = c.sourceFieldDefId ∧
    (s.columns l.id).targetItemId = c.targetItemId ∧
    (s.columns l.id).targetFieldDefId = c.targetFieldDefId

def linkReferencesExist (source : Uuid) (c : LinkColumns) : Bool :=
  (s.db.item? source).isSome && (s.db.item? c.targetItemId).isSome &&
    s.db.fieldDefinitions.contains c.sourceFieldDefId &&
    s.db.fieldDefinitions.contains c.targetFieldDefId && (s.db.user? c.createdBy).isSome

/-- The INSERT of these values, `ON CONFLICT ON CONSTRAINT uq_item_links DO NOTHING`. -/
def insertLink (now : Time) (newID : Uuid) (values : List SqlValue) :
    Except PgError (Option State) :=
  match linkRow newID now values with
  | none => .error datatypeMismatch
  | some (link, c) =>
    if s.hasPair link.sourceItemId c then .ok none
    else if s.linkReferencesExist link.sourceItemId c then
      .ok (some { s with
        db := { s.db with itemLinks := s.db.itemLinks ++ [link] }
        columns := fun id => if id = newID then c else s.columns id })
    else .error .foreignKeyViolation

def audit (e : AuditEntry) : State := { s with db := s.db.audit e }

end State

/-! ## CreateLink -/

structure CreateLinkRequest where
  targetItemID : String
  sourceFieldDefID : String
  targetFieldDefID : String
  linkType : String

/-- `$1::uuid, $2::uuid, $3::uuid, $4::uuid, $5, $6::uuid`. -/
def CreateLinkRequest.values (req : CreateLinkRequest) (sourceID : String) (userID : Uuid) :
    Option (List SqlValue) := do
  let source ← castUuid sourceID
  let sourceField ← castUuid req.sourceFieldDefID
  let target ← castUuid req.targetItemID
  let targetField ← castUuid req.targetFieldDefID
  return [.uuid source, .uuid sourceField, .uuid target, .uuid targetField, .text req.linkType,
    .uuid userID]

/-- The checks of the body. -/
def CreateLinkRequest.validate (req : CreateLinkRequest) : Reply Unit := do
  .require (req.targetItemID ≠ "" ∧ req.sourceFieldDefID ≠ "" ∧ req.targetFieldDefID ≠ "")
    (badRequest "target_item_id, source_field_def_id, target_field_def_id zorunlu.")
  .require ((LinkType.ofText req.linkType).isSome = true)
    (badRequest "link_type 'mirror' veya 'reference' olmalı.")

/-- A level of the caller on an item, unless the caller is an administrator. -/
def requirePerm (db : DB) (now : Time) (claims : Claims) (itemID : String)
    (allows : Perm → Bool) (denied : String) : Reply Unit :=
  .unlessAdmin claims
    (match resolveItemPermission db now claims.subject itemID with
    | .error _ => .error (internalError "Yetki sorgulanamadı.")
    | .ok perm => .require (allows perm = true) ⟨403, errCodeForbidden, denied⟩)

/-- The INSERT with the id it returns. -/
def scanLinkID (s : State) (now : Time) (newID : Uuid) (values : Option (List SqlValue)) :
    Except String (State × String) :=
  match values with
  | none => .error "22P02"
  | some values =>
    match s.insertLink now newID values with
    | .error e => .error e.sqlState
    -- a statement that returns no row cannot be scanned
    | .ok none => .error "no rows in result set"
    | .ok (some s) => .ok (s, newID.text)

def createLink (s : State) (now : Time) (claims : Claims) (newID : Uuid) (sourceID : String)
    (req : CreateLinkRequest) : Reply (State × String) := do
  .require (sourceID ≠ "") (badRequest "source item id zorunlu.")
  req.validate
  requirePerm s.db now claims sourceID Perm.allowsWrite
    "Kaynak item için yazma yetkisi gerekli."
  requirePerm s.db now claims req.targetItemID Perm.allowsRead
    "Hedef item'a erişim yetkisi yok."
  let (s, linkID) ← .orElse
    (scanLinkID s now newID (req.values sourceID claims.subject)).toOption
    (internalError "Bağlantı oluşturulamadı.")
  .require (linkID ≠ "") ⟨409, errCodeConflict, "Bu alan çifti zaten bağlı."⟩
  return (s.audit ⟨claims.subject.text, "item.link_created", "item", sourceID⟩, linkID)

/-! ## ListLinks -/

structure ItemLinkEntry where
  id : String
  sourceItemID : String
  sourceFieldDefID : String
  targetItemID : String
  targetItemName : String
  targetFieldDefID : String
  targetFieldDefName : String
  linkType : String
  createdBy : String
  createdAt : Time
deriving DecidableEq

/-- `COALESCE(ti.name_plain, '')` of the joined target. -/
def State.targetName (s : State) (l : ItemLink) : String :=
  ((s.db.item? (s.columns l.id).targetItemId).bind Item.namePlain).getD ""

def State.entry (s : State) (l : ItemLink) : ItemLinkEntry where
  id := l.id.text
  sourceItemID := l.sourceItemId.text
  sourceFieldDefID := toString (s.columns l.id).sourceFieldDefId
  targetItemID := (s.columns l.id).targetItemId.text
  targetItemName := s.targetName l
  targetFieldDefID := toString (s.columns l.id).targetFieldDefId
  targetFieldDefName := (s.label (s.columns l.id).targetFieldDefId).getD ""
  linkType := LinkType.text l.linkType
  createdBy := (s.columns l.id).createdBy.text
  createdAt := (s.columns l.id).createdAt

/-- The rows of the query, the newest first. -/
def State.linksOf (s : State) (item : Uuid) : List ItemLink :=
  (s.db.itemLinks.filter (·.sourceItemId = item)).mergeSort fun l l' =>
    (s.columns l'.id).createdAt ≤ (s.columns l.id).createdAt

def listLinks (s : State) (now : Time) (claims : Claims) (itemID : String) :
    Reply (List ItemLinkEntry) := do
  .require (itemID ≠ "") (badRequest "item id zorunlu.")
  requirePerm s.db now claims itemID Perm.allowsRead "Bu item'a erişim yetkisi yok."
  let item ← .orElse (castUuid itemID) (internalError "Bağlantılar alınamadı.")
  return (s.linksOf item).map s.entry

/-! ## DeleteLink -/

def deleteLink (s : State) (now : Time) (claims : Claims) (itemID linkID : String) :
    Reply State := do
  .require (itemID ≠ "" ∧ linkID ≠ "") (badRequest "item id ve link id zorunlu.")
  requirePerm s.db now claims itemID Perm.allowsWrite
    "Bağlantı silmek için yazma yetkisi gerekli."
  let link ← .orElse (castUuid linkID) (internalError "Bağlantı silinemedi.")
  let item ← .orElse (castUuid itemID) (internalError "Bağlantı silinemedi.")
  .require (0 < s.db.itemLinks.countP fun l => l.id = link ∧ l.sourceItemId = item)
    ⟨404, errCodeNotFound, "Bağlantı bulunamadı."⟩
  let links := Table.deleteWhere (fun l => l.id = link ∧ l.sourceItemId = item) s.db.itemLinks
  return ({ s with db := { s.db with itemLinks := links } }).audit
    ⟨claims.subject.text, "item.link_removed", "item", itemID⟩

/-! ## Requests and what becomes of them -/

inductive Request
  | create (newID : Uuid) (sourceID : String) (req : CreateLinkRequest)
  | list (itemID : String)
  | delete (itemID linkID : String)

structure Call where
  now : Time
  claims : Claims
  request : Request

/-- A request, or anything else that happens to the database. -/
inductive Move
  | call (c : Call)
  | outside (s : State)

def Call.step (s : State) (c : Call) : State :=
  match c.request with
  | .create newID sourceID req =>
    ((createLink s c.now c.claims newID sourceID req).toOption.map (·.1)).getD s
  | .list _ => s
  | .delete itemID linkID => ((deleteLink s c.now c.claims itemID linkID).toOption).getD s

def step (s : State) : Move → State
  | .call c => c.step s
  | .outside s => s

/-! ## What links owe to both ends -/

def Writable (db : DB) (now : Time) (claims : Claims) (x : Uuid) : Prop :=
  ∃ perm, itemPermissionOf db now claims.subject x = .ok perm ∧ perm.allowsWrite = true

/-- The request is for a link that is stored, its fields as a list shows them. -/
structure CreateLinkRequest.Names (req : CreateLinkRequest) (s : State) (sourceID : String)
    (l : ItemLink) : Prop where
  source : castUuid sourceID = some l.sourceItemId
  target : castUuid req.targetItemID = some (s.columns l.id).targetItemId
  sourceField : req.sourceFieldDefID = toString (s.columns l.id).sourceFieldDefId
  targetField : req.targetFieldDefID = toString (s.columns l.id).targetFieldDefId
  linkType : LinkType.ofText req.linkType = some l.linkType

namespace Call
variable (s : State) (c : Call)

abbrev CanRead (x : Uuid) : Prop := Readable s.db c.now c.claims x
abbrev CanWrite (x : Uuid) : Prop := Writable s.db c.now c.claims x

/-- A link that is stored would be created again by somebody who may. -/
def Recreates (sourceID : String) (req : CreateLinkRequest) : Prop :=
  ∃ l ∈ s.db.itemLinks, req.Names s sourceID l ∧ c.CanWrite s l.sourceItemId ∧
    c.CanWrite s (s.columns l.id).targetItemId

structure CreatesRightly (newID : Uuid) (sourceID : String) (req : CreateLinkRequest) : Prop where
  created : ∀ l ∈ (c.step s).db.itemLinks, l ∉ s.db.itemLinks →
    c.CanWrite s l.sourceItemId ∧ c.CanWrite s ((c.step s).columns l.id).targetItemId
  conflict : c.Recreates s sourceID req → c.step s = s ∧
    ∃ e, createLink s c.now c.claims newID sourceID req = .error e ∧ e.status = 409

structure ListsRightly (itemID : String) : Prop where
  answered : ∀ item, castUuid itemID = some item → c.CanRead s item →
    ∃ entries, listLinks s c.now c.claims itemID = .ok entries
  named : ∀ entries, listLinks s c.now c.claims itemID = .ok entries → ∀ e ∈ entries,
    e.targetItemName ≠ "" → ∃ target, castUuid e.targetItemID = some target ∧ c.CanRead s target
  complete : ∀ entries, listLinks s c.now c.claims itemID = .ok entries → ∀ l ∈ s.db.itemLinks,
    castUuid itemID = some l.sourceItemId → c.CanRead s (s.columns l.id).targetItemId →
      s.entry l ∈ entries

structure DeletesRightly (itemID linkID : String) : Prop where
  only : (c.step s).db.itemLinks ≠ s.db.itemLinks →
    ∃ item, castUuid itemID = some item ∧ c.CanWrite s item
  exactly : (deleteLink s c.now c.claims itemID linkID).isOk = true → ∀ l,
    l ∈ (c.step s).db.itemLinks ↔ l ∈ s.db.itemLinks ∧
      ¬ (castUuid linkID = some l.id ∧ castUuid itemID = some l.sourceItemId)

/-- What a request by somebody who is no administrator is to do. -/
def Respects : Prop :=
  c.claims.hasRole .admin = false →
    match c.request with
    | .create newID sourceID req => c.CreatesRightly s newID sourceID req
    | .list itemID => c.ListsRightly s itemID
    | .delete itemID linkID => c.DeletesRightly s itemID linkID

/-- No link is created again, and the targets a list would name can be read. -/
def Harmless : Prop :=
  c.claims.hasRole .admin = false →
    match c.request with
    | .create _ sourceID req => ¬ c.Recreates s sourceID req
    | .list itemID => ∀ item, castUuid itemID = some item → c.CanRead s item →
      ∀ l ∈ s.db.itemLinks, l.sourceItemId = item → s.targetName l ≠ "" →
        c.CanRead s (s.columns l.id).targetItemId
    | .delete _ _ => True

end Call

def Move.Respects (s : State) : Move → Prop
  | .call c => c.Respects s
  | .outside _ => True

def Move.Harmless (s : State) : Move → Prop
  | .call c => c.Harmless s
  | .outside _ => True

section Proofs

variable {s : State} {now : Time} {claims : Claims}

/-! ## No link is created -/

/-- A field id that is cast to `uuid` is no value for its column. -/
theorem scanLinkID_eq_error (s : State) (now : Time) (newID : Uuid) (req : CreateLinkRequest)
    (sourceID : String) (userID : Uuid) :
    (scanLinkID s now newID (req.values sourceID userID)).toOption = none := by
  simp only [CreateLinkRequest.values]
  cases castUuid sourceID with
  | none => rfl
  | some source =>
    cases castUuid req.sourceFieldDefID with
    | none => rfl
    | some sourceField =>
      cases castUuid req.targetItemID with
      | none => rfl
      | some target =>
        cases castUuid req.targetFieldDefID with
        | none => rfl
        | some targetField => rfl

theorem requirePerm_avoids (db : DB) (now : Time) (claims : Claims) (itemID : String)
    (allows : Perm → Bool) (denied : String) :
    (requirePerm db now claims itemID allows denied).Avoids 409 := by
  apply Reply.avoids_unlessAdmin
  split <;> simp

/-- `CreateLink` answers with an error and never with a conflict. -/
theorem createLink_fails (s : State) (now : Time) (claims : Claims) (newID : Uuid)
    (sourceID : String) (req : CreateLinkRequest) :
    ∃ e, createLink s now claims newID sourceID req = .error e ∧ e.status ≠ 409 := by
  have hscan := scanLinkID_eq_error s now newID req sourceID claims.subject
  have havoids : (createLink s now claims newID sourceID req).Avoids 409 := by
    simp [createLink, CreateLinkRequest.validate, requirePerm_avoids, hscan, Reply.orElse]
  cases h : createLink s now claims newID sourceID req with
  | error e => exact ⟨e, rfl, havoids e h⟩
  | ok r => simp [createLink, hscan] at h

theorem createsRightly_iff (c : Call) (newID : Uuid) (sourceID : String)
    (req : CreateLinkRequest) (hc : c.request = .create newID sourceID req) :
    c.CreatesRightly s newID sourceID req ↔ ¬ c.Recreates s sourceID req := by
  obtain ⟨e, he, hstatus⟩ := createLink_fails s c.now c.claims newID sourceID req
  have hstep : c.step s = s := by
    simp only [Call.step, hc, he]
    rfl
  constructor
  · intro h hagain
    obtain ⟨-, e', he', hstatus'⟩ := h.conflict hagain
    rw [he] at he'
    cases he'
    exact hstatus hstatus'
  · intro h
    refine ⟨fun l hl hnew => ?_, fun hagain => absurd hagain h⟩
    rw [hstep] at hl
    exact absurd hl hnew

/-! ## Lists -/

theorem requirePerm_eq_ok (hadmin : claims.hasRole .admin = false) {db : DB} {itemID : String}
    {item : Uuid} (hcast : castUuid itemID = some item) {allows : Perm → Bool} {denied : String}
    {u : Unit} :
    requirePerm db now claims itemID allows denied = .ok u ↔
      ∃ perm, itemPermissionOf db now claims.subject item = .ok perm ∧ allows perm = true := by
  simp only [requirePerm, Reply.unlessAdmin_eq_ok, hadmin, Bool.false_eq_true, false_or,
    resolveItemPermission_of_cast hcast]
  cases itemPermissionOf db now claims.subject item <;> simp

theorem listLinks_eq_ok (hadmin : claims.hasRole .admin = false) {itemID : String}
    {entries : List ItemLinkEntry} :
    listLinks s now claims itemID = .ok entries ↔
      ∃ item, castUuid itemID = some item ∧ Readable s.db now claims item ∧
        (s.linksOf item).map s.entry = entries := by
  simp only [listLinks, Reply.bind_eq_ok, Reply.require_eq_ok, Reply.orElse_eq_ok,
    Reply.pure_eq_ok]
  constructor
  · rintro ⟨_, _, _, hperm, item, hcast, hentries⟩
    exact ⟨item, hcast, (requirePerm_eq_ok hadmin hcast).mp hperm, hentries⟩
  · rintro ⟨item, hcast, hread, hentries⟩
    have hne : itemID ≠ "" := by
      rintro rfl
      simp at hcast
    exact ⟨(), hne, (), (requirePerm_eq_ok hadmin hcast).mpr hread, item, hcast, hentries⟩

theorem mem_linksOf {item : Uuid} {l : ItemLink} :
    l ∈ s.linksOf item ↔ l ∈ s.db.itemLinks ∧ l.sourceItemId = item := by
  rw [State.linksOf, List.mem_mergeSort, List.mem_filter, decide_eq_true_eq]

theorem listsRightly_iff (c : Call) (hadmin : c.claims.hasRole .admin = false) (itemID : String) :
    c.ListsRightly s itemID ↔ ∀ item, castUuid itemID = some item → c.CanRead s item →
      ∀ l ∈ s.db.itemLinks, l.sourceItemId = item → s.targetName l ≠ "" →
        c.CanRead s (s.columns l.id).targetItemId := by
  constructor
  · intro h item hcast hread l hl hsource hname
    have hanswer : listLinks s c.now c.claims itemID = .ok ((s.linksOf item).map s.entry) :=
      (listLinks_eq_ok hadmin).mpr ⟨item, hcast, hread, rfl⟩
    have hentry : s.entry l ∈ (s.linksOf item).map s.entry :=
      List.mem_map_of_mem (mem_linksOf.mpr ⟨hl, hsource⟩)
    obtain ⟨target, htarget, hread⟩ := h.named _ hanswer _ hentry hname
    have htext : castUuid (s.entry l).targetItemID = some (s.columns l.id).targetItemId :=
      castUuid_text _
    rw [htext] at htarget
    exact Option.some.inj htarget ▸ hread
  · intro h
    refine ⟨fun item hcast hread => ⟨_, (listLinks_eq_ok hadmin).mpr ⟨item, hcast, hread, rfl⟩⟩,
      fun entries hanswer e he hname => ?_, fun entries hanswer l hl hsource _ => ?_⟩
    · obtain ⟨item, hcast, hread, rfl⟩ := (listLinks_eq_ok hadmin).mp hanswer
      obtain ⟨l, hl, rfl⟩ := List.mem_map.mp he
      obtain ⟨hl, hsource⟩ := mem_linksOf.mp hl
      exact ⟨_, castUuid_text _, h item hcast hread l hl hsource hname⟩
    · obtain ⟨item, hcast, hread, rfl⟩ := (listLinks_eq_ok hadmin).mp hanswer
      rw [hcast] at hsource
      exact List.mem_map_of_mem (mem_linksOf.mpr ⟨hl, (Option.some.inj hsource).symm⟩)

/-! ## Deletions -/

theorem deleteLink_eq_ok (hadmin : claims.hasRole .admin = false) {itemID linkID : String}
    {s' : State} (h : deleteLink s now claims itemID linkID = .ok s') :
    ∃ item link, castUuid itemID = some item ∧ castUuid linkID = some link ∧
      Writable s.db now claims item ∧ s'.db.itemLinks =
        Table.deleteWhere (fun l => l.id = link ∧ l.sourceItemId = item) s.db.itemLinks := by
  simp only [deleteLink, Reply.bind_eq_ok, Reply.require_eq_ok, Reply.orElse_eq_ok,
    Reply.pure_eq_ok] at h
  obtain ⟨_, _, _, hperm, link, hlink, item, hitem, _, _, rfl⟩ := h
  exact ⟨item, link, hitem, hlink, (requirePerm_eq_ok hadmin hitem).mp hperm, rfl⟩

theorem deletesRightly (c : Call) (hadmin : c.claims.hasRole .admin = false)
    (itemID linkID : String) (hc : c.request = .delete itemID linkID) :
    c.DeletesRightly s itemID linkID := by
  cases h : deleteLink s c.now c.claims itemID linkID with
  | error e =>
    have hstep : c.step s = s := by
      simp only [Call.step, hc, h]
      rfl
    refine ⟨fun hchanged => absurd (by rw [hstep]) hchanged, fun hok => ?_⟩
    rw [h] at hok
    cases hok
  | ok s' =>
    have hstep : c.step s = s' := by
      simp only [Call.step, hc, h]
      rfl
    obtain ⟨item, link, hitem, hlink, hwrite, hlinks⟩ := deleteLink_eq_ok hadmin h
    refine ⟨fun _ => ⟨item, hitem, hwrite⟩, fun _ l => ?_⟩
    rw [hstep, hlinks, Table.mem_deleteWhere, hitem, hlink, decide_eq_false_iff_not,
      Option.some.injEq, Option.some.injEq, @eq_comm _ link, @eq_comm _ item]

/-! ## Every run -/

theorem respects_iff (s : State) (m : Move) : m.Respects s ↔ m.Harmless s := by
  cases m with
  | outside s' => exact Iff.rfl
  | call c =>
    refine forall_congr' fun hadmin => ?_
    cases hc : c.request with
    | create newID sourceID req => simpa [hc] using createsRightly_iff c newID sourceID req hc
    | list itemID => simpa [hc] using listsRightly_iff c hadmin itemID
    | delete itemID linkID => simpa [hc] using deletesRightly c hadmin itemID linkID hc

/-- In every run of requests, whatever else happens between them, links respect both
ends exactly where no stored link is created again by somebody who may, and no list
names a target its reader cannot read. -/
theorem itemLinks_respect_iff (s : State) (moves : List Move) :
    Runs.Every step (fun s m => m.Respects s) s moves ↔
      Runs.Every step (fun s m => m.Harmless s) s moves := by
  have hsame : (fun (s : State) (m : Move) => m.Respects s) = fun s m => m.Harmless s := by
    funext s m
    exact propext (respects_iff s m)
  rw [hsame]

end Proofs

/-! ## A link to an item of somebody else -/

/-- The item 7 of the user 1 is linked to the item 8 of the user 2. -/
def linkedState : State where
  db := {
    users := [sampleUser 1 "ada", sampleUser 2 "bob"]
    folders := [sampleFolder 3 1, sampleFolder 4 2]
    fieldDefinitions := [5]
    items := [sampleItem 7 3 1, { sampleItem 8 4 2 with namePlain := some "root key" }]
    itemLinks := [⟨Uuid.ofNat 9, Uuid.ofNat 7, .reference⟩] }
  columns := fun _ => ⟨5, Uuid.ofNat 8, 5, Uuid.ofNat 1, 0⟩
  label := fun _ => some "password"

def showLinks : Call := ⟨0, ⟨Uuid.ofNat 1, []⟩, .list (Uuid.ofNat 7).text⟩

/-- The list of the links of an item tells the name of an item its reader cannot read. -/
theorem listLinks_names_unreadable :
    ¬ ∀ (s : State) (moves : List Move), Runs.Every step (fun s m => m.Respects s) s moves := by
  intro h
  have hlists : showLinks.ListsRightly linkedState (Uuid.ofNat 7).text :=
    (h linkedState [.call showLinks]).1 rfl
  have hread : showLinks.CanRead linkedState (Uuid.ofNat 7) := ⟨.write, by decide, rfl⟩
  obtain ⟨perm, hperm, hallows⟩ := (listsRightly_iff showLinks rfl _).mp hlists _
    (castUuid_text _) hread ⟨Uuid.ofNat 9, Uuid.ofNat 7, .reference⟩ (by decide) rfl (by decide)
  have hnone : itemPermissionOf linkedState.db 0 (Uuid.ofNat 1) (Uuid.ofNat 8) = .ok .none := by
    decide
  obtain rfl : Perm.none = perm := Except.ok.inj (hnone.symm.trans hperm)
  cases hallows

end IronStock.Links

import IronStock.ItemAnnotations
import IronStock.ItemGraph
import IronStock.ItemMetadata

/-!
# One entity of the catalog

`GET /api/v1/catalog/{kind}/{name}`. The first row with the kind and the stored name is
taken, and only then is the caller's level asked for, on its folder. The statement for the
relationships names `relation_type`, a column that no migration creates, and its failure
reads as an item without relationships.
-/
namespace IronStock.Entity

open Annotations (AnnotationRow EncodesSegment castText)
open IronStock.Graph (GraphEdge backstageType graphEdge)
open SqlNames (Ddl Schema Select)
open UrlText (encode decode escapePath KeptPath keepPath)

/-! ## Schema and statements -/

/-- The migrations of the tables that the statements read. -/
def migrations : List Ddl :=
  Ansible.migrations ++
  [.createTable "users" ["id", "username", "email", "password_hash", "argon2_params", "status",
      "failed_login_attempts", "locked_until", "last_login_at", "created_at", "updated_at"],
    .createTable "item_relationships" ["source_item_id", "target_item_id", "relationship_type",
      "metadata", "created_by", "created_at"],
    .addColumn "users" "must_change_password",
    .addColumn "users" "is_break_glass",
    .addColumn "users" "totp_required",
    .addColumn "users" "requires_client_cert",
    .createTable "item_k8s_bindings" ["item_id", "cluster_id", "namespace_name", "created_at",
      "updated_at"],
    .addColumn "users" "webauthn_required",
    .addColumn "users" "allowed_ip_cidrs",
    .addColumn "users" "allowed_country_codes",
    .addColumn "users" "deny_tor_exit",
    .addColumn "users" "scim_external_id",
    .createTable "item_annotations" ["item_id", "key", "value", "created_at"]]

def schema : Schema := SqlNames.migrate migrations

/-- The statement for the item, with its three subqueries. -/
def entityQuery : Select where
  tables := [("i", "items"), ("it", "item_types"), ("u", "users"), ("tg", "item_tags"),
    ("ir", "item_relationships"), ("kb", "item_k8s_bindings")]
  refs :=
    -- FROM … JOIN … ON
    [("it", "id"), ("i", "item_type_id"), ("u", "id"), ("i", "created_by"),
    -- WHERE
      ("it", "kind_key"), ("i", "name_plain"),
    -- SELECT
      ("i", "id"), ("i", "folder_id"), ("i", "name_plain"), ("i", "description"),
      ("it", "kind_key"), ("i", "item_type_id"), ("u", "username"), ("i", "created_at"),
      ("i", "updated_at"), ("i", "expires_at"), ("i", "last_rotated_at"),
      ("i", "rotation_interval_days"), ("tg", "item_id"), ("i", "id"), ("ir", "source_item_id"),
      ("i", "id"), ("ir", "target_item_id"), ("i", "id"), ("kb", "item_id"), ("i", "id")]

def annotationsQuery : Select where
  tables := [("item_annotations", "item_annotations")]
  refs := [("item_annotations", "item_id"), ("item_annotations", "key"),
    ("item_annotations", "value"), ("item_annotations", "key")]

def relationshipsQuery : Select where
  tables := [("item_relationships", "item_relationships")]
  refs := [("item_relationships", "source_item_id"), ("item_relationships", "target_item_id"),
    ("item_relationships", "source_item_id"), ("item_relationships", "target_item_id"),
    ("item_relationships", "relation_type"), ("item_relationships", "metadata")]

theorem entityQuery_accepted : entityQuery.resolve schema = .ok () := by
  decide

theorem annotationsQuery_accepted : annotationsQuery.resolve schema = .ok () := by
  decide

/-- The column is called `relationship_type`. -/
theorem relationshipsQuery_refused : ∃ e, relationshipsQuery.resolve schema = .error e := by
  have href : ("item_relationships", "relation_type") ∈ relationshipsQuery.refs := by
    simp [relationshipsQuery]
  have htable : relationshipsQuery.tableOf "item_relationships" = some "item_relationships" := by
    simp [relationshipsQuery, Select.tableOf]
  have hnone : ∀ d ∈ migrations, d.declares "item_relationships" "relation_type" = false := by
    simp [migrations, Ansible.migrations, Ddl.declares]
  exact SqlNames.Select.resolve_migrate_ne_ok href htable hnone

/-! ## The tables -/

structure State extends Metadata.State where
  annotations : List AnnotationRow
  keys : ItemKeys db

structure Env where
  /-- `chi.URLParam` of `kind` and `name`, where the route matches -/
  urlParams : KeptPath → Option (Bytes × Bytes)
  /-- rows in the order in which the server meets them -/
  scan : List Item → List Item
  scanned : ∀ rows, (scan rows).Perm rows
  /-- `Time.Format(time.RFC3339)` -/
  formatRFC3339 : Time → String
  /-- what a column `relation_type` would hold -/
  relationType : ItemRelationship → String

namespace State
variable (s : State)

def itemType? (item : Item) : Option ItemType :=
  Table.lookup ItemType.id item.itemTypeId s.db.itemTypes

/-- `WHERE it.kind_key = $1 AND i.name_plain = $2`, over the joined type. -/
def isNamed (kindKey name : String) (item : Item) : Bool :=
  (s.itemType? item).any (·.kindKey = some kindKey) && item.namePlain = some name

/-- `ir.source_item_id = i.id OR ir.target_item_id = i.id`. -/
def relationshipsOf (item : Uuid) : List ItemRelationship :=
  s.relationships.filter fun r => r.sourceItemId = item ∨ r.targetItemId = item

end State

/-- The row that `LIMIT 1` leaves. -/
def first (env : Env) (s : State) (kindKey name : String) : Option Item :=
  (env.scan (s.db.items.filter (s.isNamed kindKey name))).head?

/-! ## The handler -/

structure OwnerRef where
  kind : String
  name : String
deriving DecidableEq

structure CatalogEntityItem where
  id : String
  folderID : String
  name : String
  description : String
  kind : String
  itemTypeID : Int
  ownerRef : Option OwnerRef
  createdAt : String
  updatedAt : String
  expiresAt : Option String
deriving DecidableEq

structure CatalogEntityResponse where
  item : CatalogEntityItem
  annotations : List (String × String)
  relationships : List GraphEdge
  health : Metadata.ItemHealthResponse

def entityNotFound : ApiError := ⟨404, errCodeNotFound, "Entity bulunamadı."⟩

def queryFailed : ApiError := internalError "Entity sorgulanamadı."

section Handler
variable (sch : Schema) (svc : Service) (env : Env) (s : State) (now : Time)
  (clock : Instants.Instant) (claims : Claims)

/-- The statement for the item; the outer `none` is an error. -/
def entityRow (kindKey name : Bytes) : Option (Option Item) := do
  (entityQuery.resolve sch).toOption
  let kindKey ← castText kindKey
  let name ← castText name
  return first env s kindKey name

def entityItem (item : Item) : CatalogEntityItem where
  id := item.id.text
  folderID := item.folderId.text
  name := item.namePlain.getD ""
  description := item.description.getD ""
  kind := ((s.itemType? item).bind ItemType.kindKey).getD ""
  itemTypeID := item.itemTypeId
  ownerRef := (s.db.user? item.createdBy).map fun u => ⟨"User", u.username⟩
  createdAt := svc.timestampText item.createdAt
  updatedAt := svc.timestampText item.updatedAt
  expiresAt := item.expiresAt.map env.formatRFC3339

/-- `perm == ""`, and an error, are answered as if there were no such item. -/
def requireFolder (item : Item) : Reply Unit :=
  .unlessAdmin claims
    (match resolveFolderPermission s.db now claims.subject item.folderId.text with
    | .error _ => .error entityNotFound
    | .ok perm => .require (perm ≠ .none) entityNotFound)

/-- The map of the annotations; a refused statement leaves it empty. -/
def annotationsOf (item : Item) : List (String × String) :=
  match annotationsQuery.resolve sch with
  | .error _ => []
  | .ok () => (s.annotations.filter (·.itemId = item.id)).map fun a => (a.key, a.value)

/-- The rows of the statement for the relationships, with `relation_type` as the type; a
refused statement leaves none. -/
def edgesOf (item : Item) : List GraphEdge :=
  match relationshipsQuery.resolve sch with
  | .error _ => []
  | .ok () => (s.relationshipsOf item.id).map fun r =>
      ⟨r.sourceItemId.text, r.targetItemId.text, env.relationType r, r.metadata,
        backstageType (env.relationType r)⟩

def entityResponse (item : Item) : CatalogEntityResponse where
  item := entityItem svc env s item
  annotations := annotationsOf sch s item
  relationships := edgesOf sch env s item
  health :=
    let (score, breakdown) := Health.scoreWithBreakdown (s.itemMeta item) clock
    ⟨item.id.text, score, healthSeverity score, breakdown⟩

/-- `GetEntity`, on the parameters of the route. -/
def getEntity (kindKey name : Bytes) : Reply CatalogEntityResponse := do
  .require (kindKey ≠ [] ∧ name ≠ []) (badRequest "kind ve name parametreleri zorunludur.")
  let row ← .orElse (entityRow sch env s kindKey name) queryFailed
  let item ← .orElse row entityNotFound
  requireFolder s now claims item
  return entityResponse sch svc env s clock item

end Handler

/-! ## The request -/

def catalogPrefix : List Char := "/api/v1/catalog/".toList

/-- The target of a request, with the two segments as the client wrote them. -/
def entityTarget (ek en : List Char) : List Char := catalogPrefix ++ (ek ++ '/' :: en)

/-- The router matches the path that is routed, and a parameter is a segment of it. -/
def Env.RoutesSegments (env : Env) : Prop :=
  ∀ (p : KeptPath) (kind name : Bytes), p.routed = encode catalogPrefix ++ (kind ++ 47 :: name) →
    kind ≠ [] → name ≠ [] → 47 ∉ kind → 47 ∉ name → env.urlParams p = some (kind, name)

def serveEntity (svc : Service) (env : Env) (s : State) (now : Time) (clock : Instants.Instant)
    (claims : Claims) (target : List Char) : Reply CatalogEntityResponse := do
  let p ← .orElse (keepPath target) (badRequest "Bad Request")
  let (kindKey, name) ← .orElse (env.urlParams p) ⟨404, errCodeNotFound, "404 page not found"⟩
  getEntity schema svc env s now clock claims kindKey name

/-- What the handler receives for a kind and a name: both as they were written, unless that
is how the server would write them. -/
def received (ek en : List Char) (kind name : String) : String × String :=
  if ek = escapePath (encode kind.toList) ∧ en = escapePath (encode name.toList) then (kind, name)
  else (String.ofList ek, String.ofList en)

/-! ## What is owed -/

section Contract
variable (svc : Service) (env : Env) (s : State) (now : Time) (claims : Claims)
  (kind name : String)

/-- At least read by the resolver; an administrator always. -/
def mayRead (x : Uuid) : Bool :=
  claims.hasRole .admin ||
    match resolveItemPermission s.db now claims.subject x.text with
    | .ok perm => perm.allowsRead
    | .error _ => false

/-- The caller's level on the folder of the item. -/
def mayReadFolder (item : Item) : Bool :=
  claims.hasRole .admin ||
    match folderPermissionOf s.db now claims.subject item.folderId with
    | .ok perm => perm.allowsRead
    | .error _ => false

/-- An item of this kind, stored under this name, that the caller can read. -/
structure Wanted (item : Item) : Prop where
  row : item ∈ s.db.items
  named : s.isNamed kind (svc.toLower name) item = true
  readable : mayRead s now claims item.id = true

def otherEnd (x : Uuid) (r : ItemRelationship) : Uuid :=
  if r.sourceItemId = x then r.targetItemId else r.sourceItemId

/-- The relationships of an item to what the caller can read. -/
def readableEdges (item : Item) : List GraphEdge :=
  ((s.relationshipsOf item.id).filter fun r => mayRead s now claims (otherEnd item.id r)).map
    graphEdge

structure Exact (reply : Reply CatalogEntityResponse) : Prop where
  found : ∀ item, Wanted svc s now claims kind name item →
    ∃ resp item', reply = .ok resp ∧ Wanted svc s now claims kind name item' ∧
      resp.item = entityItem svc env s item' ∧
      resp.relationships.Perm (readableEdges s now claims item')
  missing : (∀ item, ¬ Wanted svc s now claims kind name item) → reply = .error entityNotFound

/-- For the parameters that the handler receives: they are texts; if the first row with
them lies in a folder of the caller, it is of this kind and name and joined to nothing else
the caller can read; otherwise the caller can read no such item. -/
structure Meets (kindKey stored : String) : Prop where
  kindText : Char.ofNat 0 ∉ kindKey.toList
  nameText : Char.ofNat 0 ∉ stored.toList
  answered : ∀ item, first env s kindKey stored = some item → mayReadFolder s now claims item →
    kindKey = kind ∧ stored = svc.toLower name ∧
      ∀ r ∈ s.relationshipsOf item.id, mayRead s now claims (otherEnd item.id r) = false
  refused : (∀ item, first env s kindKey stored = some item →
      mayReadFolder s now claims item = false) →
    ∀ item ∈ s.db.items, s.isNamed kind (svc.toLower name) item = true →
      mayRead s now claims item.id = false

end Contract

section Proofs

variable {svc : Service} {env : Env} {s : State} {now : Time} {clock : Instants.Instant}
  {claims : Claims} {kind name kindKey stored : String} {ek en : List Char} {item : Item}

/-! ## Who can read -/

theorem mayRead_iff {x : Uuid} :
    mayRead s now claims x = true ↔
      claims.hasRole .admin = true ∨ Readable s.db now claims x := by
  rw [mayRead, resolveItemPermission_of_cast (castUuid_text x), Bool.or_eq_true, Readable]
  refine or_congr_right ?_
  cases itemPermissionOf s.db now claims.subject x <;> simp

theorem mayReadFolder_iff :
    mayReadFolder s now claims item = true ↔ claims.hasRole .admin = true ∨
      ∃ perm, folderPermissionOf s.db now claims.subject item.folderId = .ok perm ∧
        perm.allowsRead = true := by
  rw [mayReadFolder, Bool.or_eq_true]
  refine or_congr_right ?_
  cases folderPermissionOf s.db now claims.subject item.folderId <;> simp

theorem mayRead_of_folder (hrow : item ∈ s.db.items)
    (hfolder : mayReadFolder s now claims item = true) : mayRead s now claims item.id = true := by
  rw [mayRead_iff]
  rcases mayReadFolder_iff.mp hfolder with hadmin | ⟨perm, hperm, hallows⟩
  · exact .inl hadmin
  · have hitem : s.db.item? item.id = some item := Table.lookup_of_mem s.keys.items hrow
    exact .inr (Metadata.readable_of_folder hitem hperm hallows)

theorem requireFolder_eq :
    requireFolder s now claims item =
      if mayReadFolder s now claims item then .ok () else .error entityNotFound := by
  rw [requireFolder, Reply.unlessAdmin, mayReadFolder,
    resolveFolderPermission_of_cast (castUuid_text item.folderId)]
  cases claims.hasRole .admin with
  | true => rfl
  | false =>
    cases folderPermissionOf s.db now claims.subject item.folderId with
    | error e => rfl
    | ok perm => cases perm <;> rfl

/-! ## The first row -/

theorem mem_of_first (h : first env s kindKey stored = some item) :
    item ∈ s.db.items ∧ s.isNamed kindKey stored item = true := by
  have hmem := (env.scanned _).mem_iff.mp (List.mem_of_head? h)
  exact List.mem_filter.mp hmem

/-- One row has one kind and one stored name. -/
theorem isNamed_unique (h : s.isNamed kindKey stored item = true)
    (h' : s.isNamed kind name item = true) : kindKey = kind ∧ stored = name := by
  simp only [State.isNamed, Bool.and_eq_true, Option.any_eq_true, decide_eq_true_eq] at h h'
  obtain ⟨⟨it, hit, hkind⟩, hname⟩ := h
  obtain ⟨⟨it', hit', hkind'⟩, hname'⟩ := h'
  obtain rfl : it = it' := Option.some.inj (hit.symm.trans hit')
  exact ⟨Option.some.inj (hkind.symm.trans hkind'), Option.some.inj (hname.symm.trans hname')⟩

/-! ## The answer -/

theorem edgesOf_nil : edgesOf schema env s item = [] := by
  obtain ⟨e, he⟩ := relationshipsQuery_refused
  rw [edgesOf, he]

theorem castText_encode {k : String} (h : Char.ofNat 0 ∉ k.toList) :
    castText (encode k.toList) = some k :=
  Annotations.castText_eq_some.mpr ⟨rfl, h⟩

theorem castText_zero {k : String} (h : Char.ofNat 0 ∈ k.toList) :
    castText (encode k.toList) = none := by
  cases hcast : castText (encode k.toList) with
  | none => rfl
  | some k' =>
    obtain ⟨hbytes, hzero⟩ := Annotations.castText_eq_some.mp hcast
    rw [Annotations.encode_injective hbytes] at h
    exact absurd h hzero

theorem encode_ne_nil {k : String} (h : k ≠ "") : encode k.toList ≠ [] :=
  UrlText.encode_ne_nil (by simpa using h)

/-- A zero byte is no text of the server. -/
theorem getEntity_of_zero (hkind : kindKey ≠ "") (hname : stored ≠ "")
    (hzero : Char.ofNat 0 ∈ kindKey.toList ∨ Char.ofNat 0 ∈ stored.toList) :
    getEntity schema svc env s now clock claims (encode kindKey.toList) (encode stored.toList) =
      .error queryFailed := by
  have hrow : entityRow schema env s (encode kindKey.toList) (encode stored.toList) = none := by
    rw [entityRow, entityQuery_accepted]
    rcases hzero with hzero | hzero
    · rw [castText_zero hzero]
      rfl
    · rw [castText_zero hzero]
      cases castText (encode kindKey.toList) <;> rfl
  rw [getEntity, Reply.require, if_pos ⟨encode_ne_nil hkind, encode_ne_nil hname⟩, hrow]
  rfl

theorem getEntity_of_text (hkind : kindKey ≠ "") (hname : stored ≠ "")
    (hkindText : Char.ofNat 0 ∉ kindKey.toList) (hnameText : Char.ofNat 0 ∉ stored.toList) :
    getEntity schema svc env s now clock claims (encode kindKey.toList) (encode stored.toList) =
      match first env s kindKey stored with
      | none => .error entityNotFound
      | some item =>
        if mayReadFolder s now claims item then .ok (entityResponse schema svc env s clock item)
        else .error entityNotFound := by
  have hrow : entityRow schema env s (encode kindKey.toList) (encode stored.toList) =
      some (first env s kindKey stored) := by
    rw [entityRow, entityQuery_accepted, castText_encode hkindText, castText_encode hnameText]
    rfl
  rw [getEntity, Reply.require, if_pos ⟨encode_ne_nil hkind, encode_ne_nil hname⟩, hrow]
  cases first env s kindKey stored with
  | none => rfl
  | some item =>
    change (requireFolder s now claims item >>= fun _ =>
      pure (entityResponse schema svc env s clock item)) = _
    rw [requireFolder_eq]
    simp only
    cases mayReadFolder s now claims item <;> rfl

/-! ## Where a request leads -/

theorem received_ne (hek : EncodesSegment ek kind) (hen : EncodesSegment en name)
    (hkind : kind ≠ "") (hname : name ≠ "") :
    (received ek en kind name).1 ≠ "" ∧ (received ek en kind name).2 ≠ "" := by
  rw [received]
  split
  · exact ⟨hkind, hname⟩
  · have hne {e : List Char} (h : e ≠ []) : String.ofList e ≠ "" := by simpa using h
    exact ⟨hne (hek.ne_nil hkind), hne (hen.ne_nil hname)⟩

theorem serveEntity_eq (henv : env.RoutesSegments) (hek : EncodesSegment ek kind)
    (hen : EncodesSegment en name) (hkind : kind ≠ "") (hname : name ≠ "") :
    serveEntity svc env s now clock claims (entityTarget ek en) =
      getEntity schema svc env s now clock claims
        (encode (received ek en kind name).1.toList)
        (encode (received ek en kind name).2.toList) := by
  have hprefix : ∀ c ∈ catalogPrefix, c.toNat < 0x80 ∧ UrlText.pathChar c = true :=
    UrlText.plain_of_all (by decide)
  have hdecode : decode (ek ++ '/' :: en) =
      some (encode kind.toList ++ 47 :: encode name.toList) := by
    rw [UrlText.decode_append_slash, hek.decoded, hen.decoded]
    rfl
  have hdefault : ek ++ '/' :: en = escapePath (encode kind.toList ++ 47 :: encode name.toList) ↔
      ek = escapePath (encode kind.toList) ∧ en = escapePath (encode name.toList) := by
    have hslash : escapePath (47 :: encode name.toList) = '/' :: escapePath (encode name.toList) :=
      rfl
    rw [UrlText.escapePath_append, hslash, List.append_cons_inj_of_notMem hek.slash hen.slash]
    simp only [true_and]
  have hkept : keepPath (entityTarget ek en) = _ := UrlText.keepPath_append hprefix hdecode
  rw [serveEntity, hkept, received]
  by_cases hown : ek = escapePath (encode kind.toList) ∧ en = escapePath (encode name.toList)
  · have hkindSlash : 47 ∉ encode kind.toList := fun hmem =>
      hek.slash (hown.1 ▸ UrlText.slash_mem_escapePath hmem)
    have hnameSlash : 47 ∉ encode name.toList := fun hmem =>
      hen.slash (hown.2 ▸ UrlText.slash_mem_escapePath hmem)
    have hroute := henv ⟨encode catalogPrefix ++ (encode kind.toList ++ 47 :: encode name.toList),
      []⟩ (encode kind.toList) (encode name.toList) rfl (encode_ne_nil hkind)
      (encode_ne_nil hname) hkindSlash hnameSlash
    rw [if_pos (hdefault.mpr hown), if_pos hown]
    change (Reply.orElse (env.urlParams _) _ >>= _) = _
    rw [hroute]
    rfl
  · have hslash {e : List Char} (he : '/' ∉ e) : 47 ∉ encode e := by
      rw [UrlText.slash_mem_encode]
      exact he
    have hraw : entityTarget ek en ≠ [] := by simp [entityTarget]
    have hroute := henv ⟨encode catalogPrefix ++ (encode kind.toList ++ 47 :: encode name.toList),
      entityTarget ek en⟩ (encode ek) (encode en)
      (by rw [KeptPath.routed, if_neg hraw]; simp only [entityTarget, UrlText.encode_append]; rfl)
      (UrlText.encode_ne_nil (hek.ne_nil hkind)) (UrlText.encode_ne_nil (hen.ne_nil hname))
      (hslash hek.slash) (hslash hen.slash)
    rw [if_neg (fun h => hown (hdefault.mp h)), if_neg hown]
    change (Reply.orElse (env.urlParams ⟨_, entityTarget ek en⟩) _ >>= _) = _
    rw [hroute, String.toList_ofList, String.toList_ofList]
    rfl

/-! ## Exactness -/

theorem entityItem_injective {item' : Item} (hrow : item ∈ s.db.items) (hrow' : item' ∈ s.db.items)
    (h : entityItem svc env s item = entityItem svc env s item') : item = item' := by
  have hid : item.id = item'.id := Uuid.text_injective (congrArg CatalogEntityItem.id h)
  have hlookup := Table.lookup_of_mem s.keys.items hrow
  rw [hid, Table.lookup_of_mem s.keys.items hrow'] at hlookup
  exact (Option.some.inj hlookup).symm

theorem readableEdges_eq_nil :
    readableEdges s now claims item = [] ↔
      ∀ r ∈ s.relationshipsOf item.id, mayRead s now claims (otherEnd item.id r) = false := by
  simp [readableEdges, List.filter_eq_nil_iff]

/-- Nothing is found; this is right if nothing was wanted. -/
theorem exact_notFound_iff :
    Exact svc env s now claims kind name (.error entityNotFound) ↔
      ∀ item, ¬ Wanted svc s now claims kind name item := by
  constructor
  · intro h item hwanted
    obtain ⟨resp, item', hreply, -⟩ := h.found item hwanted
    cases hreply
  · intro hnone
    exact ⟨fun item hwanted => absurd hwanted (hnone item), fun _ => rfl⟩

/-- An item of the caller is found; it has to be a wanted one without edges. -/
theorem exact_ok_iff (hrow : item ∈ s.db.items)
    (hfolder : mayReadFolder s now claims item = true) :
    Exact svc env s now claims kind name (.ok (entityResponse schema svc env s clock item)) ↔
      s.isNamed kind (svc.toLower name) item = true ∧ readableEdges s now claims item = [] := by
  have hedges : edgesOf schema env s item = [] := edgesOf_nil
  constructor
  · intro h
    have hsome : ¬ ∀ item, ¬ Wanted svc s now claims kind name item := by
      intro hnone
      cases h.missing hnone
    push Not at hsome
    obtain ⟨wanted, hwanted⟩ := hsome
    obtain ⟨resp, item', hreply, hwanted', hitem, hperm⟩ := h.found wanted hwanted
    obtain rfl := Except.ok.inj hreply
    obtain rfl := entityItem_injective hrow hwanted'.row hitem
    change (edgesOf schema env s item).Perm _ at hperm
    rw [hedges] at hperm
    exact ⟨hwanted'.named, hperm.nil_eq.symm⟩
  · rintro ⟨hnamed, hnil⟩
    have hwanted : Wanted svc s now claims kind name item :=
      ⟨hrow, hnamed, mayRead_of_folder hrow hfolder⟩
    refine ⟨fun _ _ => ⟨_, item, rfl, hwanted, rfl, ?_⟩, fun hnone => absurd hwanted (hnone item)⟩
    change (edgesOf schema env s item).Perm _
    rw [hedges, hnil]

theorem none_wanted_iff :
    (∀ item, ¬ Wanted svc s now claims kind name item) ↔
      ∀ item ∈ s.db.items, s.isNamed kind (svc.toLower name) item = true →
        mayRead s now claims item.id = false := by
  constructor
  · intro hnone item hrow hnamed
    by_contra hread
    exact hnone item ⟨hrow, hnamed, by simpa using hread⟩
  · intro hall item hwanted
    exact absurd hwanted.readable (by simp [hall item hwanted.row hwanted.named])

theorem exact_getEntity_iff (hkind : kindKey ≠ "") (hname : stored ≠ "") :
    Exact svc env s now claims kind name
        (getEntity schema svc env s now clock claims (encode kindKey.toList)
          (encode stored.toList)) ↔
      Meets svc env s now claims kind name kindKey stored := by
  by_cases hzero : Char.ofNat 0 ∈ kindKey.toList ∨ Char.ofNat 0 ∈ stored.toList
  · rw [getEntity_of_zero hkind hname hzero]
    constructor
    · intro h
      by_cases hnone : ∀ item, ¬ Wanted svc s now claims kind name item
      · cases h.missing hnone
      · push Not at hnone
        obtain ⟨item, hwanted⟩ := hnone
        obtain ⟨resp, item', hreply, -⟩ := h.found item hwanted
        cases hreply
    · intro h
      exact absurd hzero (not_or.mpr ⟨h.kindText, h.nameText⟩)
  · obtain ⟨hkindText, hnameText⟩ := not_or.mp hzero
    rw [getEntity_of_text hkind hname hkindText hnameText]
    cases hfirst : first env s kindKey stored with
    | none =>
      refine exact_notFound_iff.trans (none_wanted_iff.trans ⟨?_, ?_⟩)
      · intro hall
        exact ⟨hkindText, hnameText, fun item h => by simp [hfirst] at h, fun _ => hall⟩
      · intro h
        exact h.refused fun item h => by simp [hfirst] at h
    | some item =>
      obtain ⟨hrow, hnamed⟩ := mem_of_first hfirst
      cases hfolder : mayReadFolder s now claims item with
      | true =>
        simp only [hfolder, if_true, exact_ok_iff hrow hfolder, readableEdges_eq_nil]
        constructor
        · rintro ⟨hwanted, hnil⟩
          obtain ⟨hk, hn⟩ := isNamed_unique hnamed hwanted
          refine ⟨hkindText, hnameText, ?_, ?_⟩
          · intro item' hfirst'
            obtain rfl : item = item' := Option.some.inj (hfirst.symm.trans hfirst')
            exact fun _ => ⟨hk, hn, hnil⟩
          · intro hnone
            cases hfolder.symm.trans (hnone item hfirst)
        · intro h
          obtain ⟨rfl, rfl, hnil⟩ := h.answered item hfirst hfolder
          exact ⟨hnamed, hnil⟩
      | false =>
        simp only [hfolder, Bool.false_eq_true, if_false]
        refine exact_notFound_iff.trans (none_wanted_iff.trans ⟨?_, ?_⟩)
        · intro hall
          refine ⟨hkindText, hnameText, ?_, fun _ => hall⟩
          intro item' hfirst' hfolder'
          obtain rfl : item = item' := Option.some.inj (hfirst.symm.trans hfirst')
          cases hfolder.symm.trans hfolder'
        · intro h
          refine h.refused ?_
          intro item' hfirst'
          obtain rfl : item = item' := Option.some.inj (hfirst.symm.trans hfirst')
          exact hfolder

end Proofs

/-! ## A router -/

/-- The route `/api/v1/catalog/{kind}/{name}` over the segments of the path. -/
def chiParams (p : KeptPath) : Option (Bytes × Bytes) :=
  match UrlText.segments p.routed with
  | [front, api, version, catalog, kind, name] =>
    if front = [] ∧ api = encode "api".toList ∧ version = encode "v1".toList ∧
        catalog = encode "catalog".toList ∧ kind ≠ [] ∧ name ≠ [] then some (kind, name)
    else none
  | _ => none

def chiEnv : Env where
  urlParams := chiParams
  scan rows := rows
  scanned _ := .refl _
  formatRFC3339 _ := "2026-01-01T00:00:00Z"
  relationType r := r.relationshipType

theorem chiEnv_routesSegments : chiEnv.RoutesSegments := by
  intro p kind name hrouted hkind hname hkindSlash hnameSlash
  have hcatalog : encode catalogPrefix = 47 :: (encode "api".toList ++ 47 ::
      (encode "v1".toList ++ 47 :: (encode "catalog".toList ++ [47]))) := by
    decide
  have hpath : p.routed = [] ++ 47 :: (encode "api".toList ++ 47 :: (encode "v1".toList ++ 47 ::
      (encode "catalog".toList ++ 47 :: (kind ++ 47 :: name)))) := by
    rw [hrouted, hcatalog]
    simp only [List.cons_append, List.append_assoc, List.nil_append]
  have hplain : ∀ b ∈ [[], encode "api".toList, encode "v1".toList, encode "catalog".toList],
      47 ∉ b := by
    decide
  simp only [List.forall_mem_cons] at hplain
  obtain ⟨hfront, hapi, hversion, hseg, -⟩ := hplain
  have hsegments : UrlText.segments p.routed = [[], encode "api".toList, encode "v1".toList,
      encode "catalog".toList, kind, name] := by
    rw [hpath]
    simp only [UrlText.segments_append, UrlText.segments_of_not_mem hfront,
      UrlText.segments_of_not_mem hapi, UrlText.segments_of_not_mem hversion,
      UrlText.segments_of_not_mem hseg, UrlText.segments_of_not_mem hkindSlash,
      UrlText.segments_of_not_mem hnameSlash]
    rfl
  simp only [chiEnv, chiParams, hsegments]
  exact if_pos ⟨trivial, trivial, trivial, trivial, hkind, hname⟩

/-! ## A server and its database -/

def serverDB : DB where
  users := [sampleUser 1 "ada"]
  folders := [sampleFolder 3 1]
  itemTypes := [⟨1, some "Server"⟩]
  items := [{ sampleItem 7 3 1 with namePlain := some "web" },
    { sampleItem 8 3 1 with namePlain := some "db" }]

theorem serverDB_keys : ItemKeys serverDB := by
  refine ⟨by decide, by decide, ?_⟩
  simp only [serverDB, List.forall_mem_cons]
  decide

def epoch : Instants.Instant := .ofMicros 0 (by decide)

theorem noScore_range (_ : Uuid) :
    (none : Option Int).all (fun n => 0 ≤ n ∧ n ≤ 100) = true := rfl

/-- The items `web` and `db` of the user 1. -/
def entityState (relationships : List ItemRelationship) : State where
  db := serverDB
  healthScore _ := none
  tags := []
  itemTags := []
  lifecycleStages := []
  relationships := relationships
  favorites := []
  scoreRange := noScore_range
  bindings := []
  suggestions := []
  annotations := []
  keys := serverDB_keys

theorem encodes_server : EncodesSegment "Server".toList "Server" := .of_all (by decide) (by decide)

theorem encodes_web : EncodesSegment "web".toList "web" := .of_all (by decide) (by decide)

theorem received_web : received "Server".toList "web".toList "Server" "web" = ("Server", "web") :=
  if_pos ⟨by decide, by decide⟩

end IronStock.Entity

import IronStock.CatalogBrowse
import IronStock.Lib.SqlNames
import IronStock.TokenGates

/-!
# The Ansible inventory

`GET /api/v1/ansible/inventory`. Its statement names three columns that no
migration creates, so the server refuses it before a row is read. What it would
return is modelled over given values of these columns: then every item of the
type is listed, whoever asks.
-/
namespace IronStock.Ansible

open SqlNames (Schema Ddl Select)

/-! ## Schema and statement -/

/-- The migrations of the tables that the statement reads. -/
def migrations : List Ddl :=
  [.createTable "item_types" ["id", "key", "label", "icon", "suggested_fields",
      "default_launchers", "created_by", "created_at"],
    .createTable "field_definitions" ["id", "key", "label", "field_type", "allowed_values",
      "is_secret", "hint", "validation_regex", "created_by", "created_at"],
    .createTable "items" ["id", "folder_id", "item_type_id", "name_enc", "name_nonce",
      "name_search", "server_dek_wrapped", "master_key_id", "external_source", "created_by",
      "created_at", "updated_at"],
    .createTable "item_fields" ["id", "item_id", "field_definition_id", "value_enc",
      "value_nonce", "position"],
    .addColumn "items" "description",
    .addColumn "item_types" "field_groups",
    .addColumn "items" "expires_at",
    .addColumn "items" "rotation_interval_days",
    .addColumn "items" "last_rotated_at",
    .createTable "tags" ["id", "name", "color", "created_by", "created_at"],
    .createTable "item_tags" ["item_id", "tag_id", "tagged_by", "tagged_at"],
    .addColumn "items" "name_plain",
    .addColumn "items" "requires_approval",
    .addColumn "items" "health_score",
    .addColumn "item_types" "kind_key"]

def schema : Schema := SqlNames.migrate migrations

/-- The tables and the names of the statement, clause by clause. -/
def inventoryQuery : Select where
  tables := [("i", "items"), ("it", "item_types"), ("ifld", "item_fields"),
    ("fd", "field_definitions"), ("itg", "item_tags"), ("t", "tags")]
  refs :=
    -- FROM … JOIN … ON
    [("it", "id"), ("i", "item_type_id"), ("ifld", "item_id"), ("i", "id"), ("fd", "id"),
      ("ifld", "field_definition_id"), ("fd", "is_secret"), ("itg", "item_id"), ("i", "id"),
      ("t", "id"), ("itg", "tag_id"),
    -- SELECT
      ("i", "id"), ("i", "name_plain"), ("i", "id"), ("i", "description"), ("it", "name"),
      ("i", "folder_id"), ("fd", "key"), ("fd", "name"), ("fd", "id"), ("fd", "is_secret"),
      ("t", "label_plain"), ("t", "id"),
    -- WHERE
      ("it", "name"), ("it", "name"),
    -- GROUP BY
      ("i", "id"), ("it", "name")]

/-- Where the statement is accepted, the three columns have been added. -/
theorem inventoryQuery_needs {s : Schema} (h : inventoryQuery.resolve s = .ok ()) :
    s.hasColumn "item_types" "name" = true ∧ s.hasColumn "field_definitions" "name" = true ∧
      s.hasColumn "tags" "label_plain" = true := by
  have hcolumn {qualifier table column : String}
      (href : (qualifier, column) ∈ inventoryQuery.refs)
      (htable : inventoryQuery.tableOf qualifier = some table) :
      s.hasColumn table column = true := by
    obtain ⟨t, ht, hcol⟩ := (SqlNames.Select.resolve_eq_ok_iff.mp h).2 _ href
    obtain rfl : table = t := Option.some.inj (htable.symm.trans ht)
    exact hcol
  refine ⟨@hcolumn "it" _ _ ?_ ?_, @hcolumn "fd" _ _ ?_ ?_, @hcolumn "t" _ _ ?_ ?_⟩ <;>
    simp [inventoryQuery, Select.tableOf]

/-- No migration creates `item_types.name`. -/
theorem inventoryQuery_refused : ∃ e, inventoryQuery.resolve schema = .error e := by
  have href : ("it", "name") ∈ inventoryQuery.refs := by simp [inventoryQuery]
  have htable : inventoryQuery.tableOf "it" = some "item_types" := by
    simp [inventoryQuery, Select.tableOf]
  have hnone : ∀ d ∈ migrations, d.declares "item_types" "name" = false := by
    simp [migrations, Ddl.declares]
  exact SqlNames.Select.resolve_migrate_ne_ok href htable hnone

/-! ## The handler -/

/-- What the columns that are missing would hold. `fd.name` goes into
`field_keys` alone, which the handler drops. -/
structure MissingColumns where
  /-- `it.name` -/
  typeName : ItemType → String
  /-- `t.label_plain` -/
  labelPlain : Tag → String

structure InventoryRequest where
  authz : String
  groupBy : String := ""
  filter : String := ""

structure HostEntry where
  hostname : String
  description : String
  itemType : String
  folderID : String
  tags : List String
deriving DecidableEq

/-- `coalesce(i.name_plain, i.id::text)`. -/
def hostname (item : Item) : String := item.namePlain.getD item.id.text

section Rows
variable (cols : MissingColumns) (ops : TextOps) (s : CatalogState)

/-- `$1 = '' OR lower(it.name) LIKE '%' || lower($1) || '%'`. -/
def typeMatches (filter : String) (item : Item) : Bool :=
  (Table.lookup ItemType.id item.itemTypeId s.db.itemTypes).any fun it =>
    filter = "" ||
      like ("%" ++ ops.lower filter ++ "%").toList (ops.lower (cols.typeName it)).toList

/-- `array_agg(DISTINCT t.label_plain)`. -/
def tagLabels (item : Uuid) : List String :=
  (((s.itemTags.filter (·.itemId = item)).filterMap fun itg =>
    Table.lookup Tag.id itg.tagId s.tags).map cols.labelPlain).dedup.mergeSort ops.le

def hostEntry (item : Item) : HostEntry where
  hostname := hostname item
  description := item.description.getD ""
  itemType := ((Table.lookup ItemType.id item.itemTypeId s.db.itemTypes).map cols.typeName).getD ""
  folderID := item.folderId.text
  tags := tagLabels cols ops s item.id

/-- The rows of the statement, one for each item: `ORDER BY hostname`. -/
def inventoryRows (filter : String) : List HostEntry :=
  ((s.db.items.filter (typeMatches cols ops s filter)).mergeSort fun a b =>
    ops.le (hostname a) (hostname b)).map (hostEntry cols ops s)

end Rows

structure HostVars where
  itemType : String
  folderID : String
  description : String
deriving DecidableEq

/-- The values of the top-level object. -/
inductive InventoryValue
  | hostvars (vars : List (String × HostVars))
  | group (hosts : List String)
  | all (hosts children : List String)
deriving DecidableEq

abbrev Inventory := List (String × InventoryValue)

/-- `m[k] = v`. -/
def assign {α : Type} (m : List (String × α)) (k : String) (v : α) : List (String × α) :=
  Table.upsert (fun e => e.1 = k) (fun _ => (k, v)) (k, v) m

def HostEntry.vars (h : HostEntry) : HostVars := ⟨h.itemType, h.folderID, h.description⟩

/-- The groups a host is put into. -/
def HostEntry.groups (h : HostEntry) : String → List String
  | "tag" => if h.tags = [] then ["ungrouped"] else h.tags
  | "folder" => [h.folderID]
  | _ => ["all_items"]

/-- `groups[g] = append(groups[g], hn)`. -/
def appendHost (groups : List (String × List String)) (e : String × String) :
    List (String × List String) :=
  Table.upsert (fun g => g.1 = e.1) (fun g => (g.1, g.2 ++ [e.2])) (e.1, [e.2]) groups

def hostvarsOf (hosts : List HostEntry) : List (String × HostVars) :=
  hosts.foldl (fun m h => assign m h.hostname h.vars) []

def groupsOf (groupBy : String) (hosts : List HostEntry) : List (String × List String) :=
  (hosts.flatMap fun h => (h.groups groupBy).map (·, h.hostname)).foldl appendHost []

/-- `_meta` and the groups; a group may take the name `_meta`. -/
def withGroups (groupBy : String) (hosts : List HostEntry) : Inventory :=
  (groupsOf groupBy hosts).foldl (fun inv g => assign inv g.1 (.group g.2))
    [("_meta", .hostvars (hostvarsOf hosts))]

/-- The response, with `all` written last. -/
def inventoryOf (groupBy : String) (hosts : List HostEntry) : Inventory :=
  assign (withGroups groupBy hosts) "all"
    (.all (hosts.map HostEntry.hostname) ((groupsOf groupBy hosts).map Prod.fst))

section Handler
variable (sch : Schema) (svc : Service) (ops : TextOps) (cols : MissingColumns) (s : CatalogState)

/-- `GetInventory` after the authentication: nothing of the caller is left. -/
def inventoryReply (r : InventoryRequest) : Reply Inventory :=
  let groupBy := if r.groupBy = "" then "tag" else r.groupBy
  match inventoryQuery.resolve sch with
  | .error _ => .error (internalError "Envanter sorgusu başarısız.")
  | .ok () => .ok (inventoryOf groupBy (inventoryRows cols ops s (trimSpace r.filter)))

/-- `GetInventory`. -/
def getInventory (now : Time) (claims : Option TokenClaims) (r : InventoryRequest) :
    DB × Reply Inventory :=
  match getInventoryAuth svc s.db now claims r.authz with
  | (db, .error e) => (db, .error e)
  | (db, .ok ()) => (db, inventoryReply sch ops cols { s with db := db } r)

/-- The route, with the middleware in front. -/
def inventoryRoute (now : Time) (r : InventoryRequest) : DB × Reply Inventory :=
  match requireAccessTokenMiddleware svc s.db now r.authz with
  | .error e => (s.db, .error e)
  | .ok claims => getInventory sch svc ops cols s now (some claims) r

end Handler

/-! ## What it should list -/

/-- Who was authenticated. -/
structure InventoryCaller where
  userID : Uuid
  isAdmin : Bool

/-- The row of `api_tokens` that the fallback looks for. -/
def usableToken (svc : Service) (now : Time) (authz : String) (t : ApiToken) : Bool :=
  t.tokenHash = (svc.sha256 (bytesOf (extractBearerToken authz))).bytes ∧
    (t.scope = .read ∨ t.scope = .ansible) ∧ t.expiresAt.all (now < ·) = true

/-- The subject of the access token, or the owner of the API token. -/
def inventoryCaller (svc : Service) (db : DB) (now : Time) (claims : Option TokenClaims)
    (authz : String) : Option InventoryCaller :=
  match claims with
  | some c => some ⟨c.subject, c.hasRole .admin⟩
  | none =>
    if extractBearerToken authz = "" then none
    else (db.apiTokens.find? (usableToken svc now authz)).map fun t =>
      ⟨t.userId, db.hasRole t.userId .admin⟩

/-- Every item for an administrator, else those the resolver gives at least read. -/
def InventoryCaller.mayList (caller : InventoryCaller) (db : DB) (now : Time) (item : Item) :
    Bool :=
  caller.isAdmin || (resolveItemPermission db now caller.userID item.id.text).toOption.any
    Perm.allowsRead

namespace Inventory
variable (inv : Inventory)

/-- `all.hosts`. -/
def hosts : List String :=
  match Table.lookup Prod.fst "all" inv with
  | some (_, .all hosts _) => hosts
  | _ => []

/-- One host for each of the items, and nothing about any other. -/
structure ListsExactly (items : List Item) : Prop where
  hosts : inv.hosts.Perm (items.map hostname)
  hostvars : ∀ vars, ("_meta", .hostvars vars) ∈ inv → ∀ e ∈ vars, ∃ item ∈ items,
    e.1 = hostname item ∧ e.2.folderID = item.folderId.text ∧
      e.2.description = item.description.getD ""
  groups : ∀ g hosts, (g, .group hosts) ∈ inv → ∀ h ∈ hosts, h ∈ items.map hostname

end Inventory

/-- The answer is an inventory of the items that match and that the caller may
list. -/
def InventoryExact (s : CatalogState) (now : Time) (caller : InventoryCaller)
    (matching : Item → Bool) (reply : Reply Inventory) : Prop :=
  ∃ inv, reply = .ok inv ∧
    Inventory.ListsExactly inv (s.db.items.filter fun item =>
      matching item && caller.mayList s.db now item)

/-! ## What the response holds -/

section Response
variable {groupBy : String} {hosts : List HostEntry}

theorem mem_assign {α : Type} {m : List (String × α)} {k : String} {v : α} {e : String × α}
    (h : e ∈ assign m k v) : e = (k, v) ∨ e ∈ m := by
  unfold assign Table.upsert at h
  split at h
  · obtain ⟨e₀, he₀, heq⟩ := Table.mem_updateWhere.mp h
    split at heq
    · exact .inl heq.symm
    · exact .inr (heq ▸ he₀)
  · rw [List.mem_append, List.mem_singleton] at h
    exact h.symm

theorem mem_appendHost {groups : List (String × List String)} {e : String × String}
    {g : String × List String} (h : g ∈ appendHost groups e) :
    ∀ hn ∈ g.2, hn = e.2 ∨ ∃ g₀ ∈ groups, hn ∈ g₀.2 := by
  intro hn hmem
  unfold appendHost Table.upsert at h
  split at h
  · obtain ⟨g₀, hg₀, rfl⟩ := Table.mem_updateWhere.mp h
    split at hmem
    · rw [List.mem_append, List.mem_singleton] at hmem
      exact hmem.symm.imp id fun hold => ⟨g₀, hg₀, hold⟩
    · exact .inr ⟨g₀, hg₀, hmem⟩
  · rw [List.mem_append, List.mem_singleton] at h
    rcases h with hold | rfl
    · exact .inr ⟨g, hold, hmem⟩
    · exact .inl (List.mem_singleton.mp hmem)

/-- Each entry of the hostvars is about one of the hosts. -/
theorem mem_hostvarsOf : ∀ e ∈ hostvarsOf hosts, ∃ h ∈ hosts, e = (h.hostname, h.vars) := by
  unfold hostvarsOf
  apply List.foldlRecOn (motive := fun m : List (String × HostVars) =>
    ∀ e ∈ m, ∃ h ∈ hosts, e = (h.hostname, h.vars))
  · intro e he
    cases he
  · intro m hm h hh e he
    rcases mem_assign he with rfl | hold
    · exact ⟨h, hh, rfl⟩
    · exact hm e hold

/-- A group holds names of the hosts only. -/
theorem mem_groupsOf : ∀ g ∈ groupsOf groupBy hosts, ∀ hn ∈ g.2,
    hn ∈ hosts.map HostEntry.hostname := by
  unfold groupsOf
  apply List.foldlRecOn (motive := fun groups : List (String × List String) =>
    ∀ g ∈ groups, ∀ hn ∈ g.2, hn ∈ hosts.map HostEntry.hostname)
  · intro g hg
    cases hg
  · intro groups hgroups e he g hg hn hmem
    rcases mem_appendHost hg hn hmem with rfl | ⟨g₀, hg₀, hold⟩
    · obtain ⟨h, hh, hpair⟩ := List.mem_flatMap.mp he
      obtain ⟨name, -, rfl⟩ := List.mem_map.mp hpair
      exact List.mem_map_of_mem hh
    · exact hgroups g₀ hg₀ hn hold

theorem mem_withGroups : ∀ e ∈ withGroups groupBy hosts,
    e = ("_meta", .hostvars (hostvarsOf hosts)) ∨
      ∃ g ∈ groupsOf groupBy hosts, e = (g.1, .group g.2) := by
  unfold withGroups
  apply List.foldlRecOn (motive := fun inv : Inventory => ∀ e ∈ inv,
    e = ("_meta", .hostvars (hostvarsOf hosts)) ∨
      ∃ g ∈ groupsOf groupBy hosts, e = (g.1, .group g.2))
  · intro e he
    exact .inl (List.mem_singleton.mp he)
  · intro inv hinv g hg e he
    rcases mem_assign he with rfl | hold
    · exact .inr ⟨g, hg, rfl⟩
    · exact hinv e hold

theorem lookup_assign_self {α : Type} (m : List (String × α)) (k : String) (v : α) :
    Table.lookup Prod.fst k (assign m k v) = some (k, v) := by
  unfold assign
  exact Table.lookup_upsert_self (r := (k, v)) rfl m

@[simp] theorem inventoryOf_hosts :
    Inventory.hosts (inventoryOf groupBy hosts) = hosts.map HostEntry.hostname := by
  unfold Inventory.hosts inventoryOf
  rw [lookup_assign_self]

end Response

section Lists
variable {cols : MissingColumns} {ops : TextOps} {s : CatalogState} {filter : String}

/-- The names of the hosts are those of the items of the type, sorted. -/
theorem inventoryRows_hostnames :
    ((inventoryRows cols ops s filter).map HostEntry.hostname).Perm
      ((s.db.items.filter (typeMatches cols ops s filter)).map hostname) := by
  unfold inventoryRows
  rw [List.map_map]
  exact (List.mergeSort_perm _ _).map _

theorem mem_inventoryRows {h : HostEntry} (hmem : h ∈ inventoryRows cols ops s filter) :
    ∃ item ∈ s.db.items.filter (typeMatches cols ops s filter),
      h = hostEntry cols ops s item := by
  obtain ⟨item, hitem, rfl⟩ := List.mem_map.mp hmem
  exact ⟨item, List.mem_mergeSort.mp hitem, rfl⟩

/-- The inventory of the rows is about the items of the type and no others. -/
theorem inventoryOf_listsExactly (groupBy : String) :
    Inventory.ListsExactly (inventoryOf groupBy (inventoryRows cols ops s filter))
      (s.db.items.filter (typeMatches cols ops s filter)) where
  hosts := by
    rw [inventoryOf_hosts]
    exact inventoryRows_hostnames
  hostvars := by
    intro vars hvars e he
    rcases mem_assign hvars with hall | hbefore
    · cases congrArg Prod.snd hall
    · rcases mem_withGroups _ hbefore with hmeta | ⟨g, -, hgroup⟩
      · obtain rfl := InventoryValue.hostvars.inj (congrArg Prod.snd hmeta)
        obtain ⟨h, hh, rfl⟩ := mem_hostvarsOf e he
        obtain ⟨item, hitem, rfl⟩ := mem_inventoryRows hh
        exact ⟨item, hitem, rfl, rfl, rfl⟩
      · cases congrArg Prod.snd hgroup
  groups := by
    intro g names hnames hn hmem
    rcases mem_assign hnames with hall | hbefore
    · cases congrArg Prod.snd hall
    · rcases mem_withGroups _ hbefore with hmeta | ⟨g', hg', hgroup⟩
      · cases congrArg Prod.snd hmeta
      · cases hgroup
        exact (inventoryRows_hostnames.mem_iff).mp (mem_groupsOf g' hg' hn hmem)

end Lists

/-! ## What it does list -/

section Reply
variable {svc : Service} {ops : TextOps} {cols : MissingColumns} {s : CatalogState} {now : Time}
  {claims : Option TokenClaims} {r : InventoryRequest} {caller : InventoryCaller}

/-- A caller is known exactly if the authentication succeeds; it may stamp the
token. -/
theorem getInventoryAuth_of_caller
    (h : inventoryCaller svc s.db now claims r.authz = some caller) :
    ∃ tokens, getInventoryAuth svc s.db now claims r.authz =
      ({ s.db with apiTokens := tokens }, .ok ()) := by
  cases claims with
  | some c => exact ⟨s.db.apiTokens, rfl⟩
  | none =>
    unfold inventoryCaller at h
    unfold getInventoryAuth
    by_cases hempty : extractBearerToken r.authz = ""
    · simp [hempty] at h
    · simp only [hempty, if_false, Option.map_eq_some_iff] at h ⊢
      obtain ⟨t, ht, -⟩ := h
      have hfind : s.db.apiTokens.find? (fun t =>
          t.tokenHash = (svc.sha256 (bytesOf (extractBearerToken r.authz))).bytes ∧
            (t.scope = .read ∨ t.scope = .ansible) ∧ t.expiresAt.all (now < ·) = true) = some t :=
        ht
      rw [hfind]
      exact ⟨_, rfl⟩

/-- An authenticated caller gets the answer that everybody gets. -/
theorem getInventory_reply (sch : Schema)
    (h : inventoryCaller svc s.db now claims r.authz = some caller) :
    (getInventory sch svc ops cols s now claims r).2 = inventoryReply sch ops cols s r := by
  obtain ⟨tokens, hauth⟩ := getInventoryAuth_of_caller h
  unfold getInventory
  rw [hauth]
  rfl

/-- Behind the middleware is the handler. -/
theorem inventoryRoute_of_auth {sch : Schema} {c : TokenClaims}
    (h : requireAccessTokenMiddleware svc s.db now r.authz = .ok c) :
    inventoryRoute sch svc ops cols s now r = getInventory sch svc ops cols s now (some c) r := by
  unfold inventoryRoute
  rw [h]

theorem inventoryReply_refused :
    inventoryReply schema ops cols s r = .error (internalError "Envanter sorgusu başarısız.") := by
  obtain ⟨e, he⟩ := inventoryQuery_refused
  unfold inventoryReply
  rw [he]

/-- Were the columns there, the inventory would be exact for those callers only
who may list every item of the type. -/
theorem inventoryExact_of_resolve {sch : Schema} (hsch : inventoryQuery.resolve sch = .ok ())
    (h : inventoryCaller svc s.db now claims r.authz = some caller) :
    InventoryExact s now caller (typeMatches cols ops s (trimSpace r.filter))
        (getInventory sch svc ops cols s now claims r).2 ↔
      ∀ item ∈ s.db.items, typeMatches cols ops s (trimSpace r.filter) item = true →
        caller.mayList s.db now item = true := by
  have hreply : (getInventory sch svc ops cols s now claims r).2 =
      .ok (inventoryOf (if r.groupBy = "" then "tag" else r.groupBy)
        (inventoryRows cols ops s (trimSpace r.filter))) := by
    rw [getInventory_reply sch h, inventoryReply, hsch]
  have hlists := @inventoryOf_listsExactly cols ops s (trimSpace r.filter)
    (if r.groupBy = "" then "tag" else r.groupBy)
  have hsplit : s.db.items.filter (fun item =>
      typeMatches cols ops s (trimSpace r.filter) item && caller.mayList s.db now item) =
      (s.db.items.filter (typeMatches cols ops s (trimSpace r.filter))).filter
        (caller.mayList s.db now) := by
    rw [List.filter_filter]
    simp only [Bool.and_comm]
  unfold InventoryExact
  rw [hreply, hsplit]
  constructor
  · rintro ⟨inv, hinv, hexact⟩ item hitem hmatch
    cases hinv
    have hlen := (hexact.hosts.symm.trans hlists.hosts).length_eq
    rw [List.length_map, List.length_map, List.length_filter_eq_length_iff] at hlen
    exact hlen item (List.mem_filter.mpr ⟨hitem, hmatch⟩)
  · intro hall
    have hself : (s.db.items.filter (typeMatches cols ops s (trimSpace r.filter))).filter
        (caller.mayList s.db now) =
          s.db.items.filter (typeMatches cols ops s (trimSpace r.filter)) := by
      rw [List.filter_eq_self]
      intro item hitem
      exact hall item (List.mem_filter.mp hitem).1 (List.mem_filter.mp hitem).2
    rw [hself]
    exact ⟨_, rfl, hlists⟩

end Reply

/-- Over the schema of the migrations no authenticated caller ever gets an
inventory: the answer is the same error for all of them. -/
theorem inventory_never_exact {svc : Service} {s : CatalogState} {now : Time}
    {claims : Option TokenClaims} {r : InventoryRequest} {caller : InventoryCaller}
    (h : inventoryCaller svc s.db now claims r.authz = some caller) (ops : TextOps)
    (cols : MissingColumns) (matching : Item → Bool) :
    (getInventory schema svc ops cols s now claims r).2 =
        .error (internalError "Envanter sorgusu başarısız.") ∧
      ¬ InventoryExact s now caller matching
        (getInventory schema svc ops cols s now claims r).2 := by
  have hreply : (getInventory schema svc ops cols s now claims r).2 =
      .error (internalError "Envanter sorgusu başarısız.") := by
    rw [getInventory_reply schema h, inventoryReply_refused]
  constructor
  · exact hreply
  · rintro ⟨inv, hinv, -⟩
    rw [hreply] at hinv
    cases hinv

/-- Types without a name, and tags under their own. -/
def sampleColumns : MissingColumns := ⟨fun _ => "", Tag.name⟩

/-- An administrator asks, of a state without items. -/
theorem inventory_never_exact_admin :
    ¬ InventoryExact (bareCatalog sessionState) 1 ⟨Uuid.ofNat 1, true⟩ (fun _ => true)
      (getInventory schema tokenService sampleText sampleColumns (bareCatalog sessionState) 1
        (some ⟨⟨Uuid.ofNat 1, [.admin]⟩, purposeAccess, ""⟩) ⟨"", "", ""⟩).2 :=
  (inventory_never_exact (r := ⟨"", "", ""⟩) (h := rfl) sampleText sampleColumns _).2

/-- The holder of an access token gets the error, through the route. -/
theorem inventory_refused_on_route :
    ¬ ∀ (svc : Service) (ops : TextOps) (cols : MissingColumns) (s : CatalogState) (now : Time)
      (r : InventoryRequest) (claims : TokenClaims),
      requireAccessTokenMiddleware svc s.db now r.authz = .ok claims →
        InventoryExact s now ⟨claims.subject, claims.hasRole .admin⟩
          (typeMatches cols ops s (trimSpace r.filter))
          (inventoryRoute schema svc ops cols s now r).2 := by
  intro hall
  have hauth : requireAccessTokenMiddleware tokenService (bareCatalog sessionState).db 1
      ("Bearer " ++ sampleAccessToken) = .ok sampleAccessClaims :=
    requireAccessTokenMiddleware_sample
  obtain ⟨inv, hinv, -⟩ := hall tokenService sampleText sampleColumns (bareCatalog sessionState) 1
    ⟨"Bearer " ++ sampleAccessToken, "", ""⟩ sampleAccessClaims hauth
  rw [inventoryRoute_of_auth (r := ⟨"Bearer " ++ sampleAccessToken, "", ""⟩) hauth,
    getInventory_reply schema rfl, inventoryReply_refused] at hinv
  cases hinv

end IronStock.Ansible

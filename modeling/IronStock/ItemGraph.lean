import IronStock.CatalogBrowse

/-!
# The relationship graph

`GET /api/v1/graph`. Nodes and edges come from two statements with conditions
of their own: the one for nodes reads the grants on folders, the one for edges
reads owners and direct shares only. The handler then drops an edge with an end
outside the nodes.
-/
namespace IronStock.Graph

/-! ## The queries -/

/-- The second arm of both statements: a direct share in force. -/
def sharedWith (db : DB) (now : Time) (user : Uuid) (item : Item) : Bool :=
  db.itemShares.any fun s => s.userId = user ∧ s.inForce now ∧ s.itemId = item.id

/-- The `WHERE` of `nodeSQL`. -/
def nodeVisible (db : DB) (now : Time) (user : Uuid) (item : Item) : Bool :=
  item.createdBy = user || sharedWith db now user item ||
    (db.folderGrants now user).contains item.folderId

/-- The item is one the statement for nodes selects. -/
def isVisible (db : DB) (now : Time) (user id : Uuid) : Bool :=
  db.items.any fun item => item.id = id && nodeVisible db now user item

/-- `id IN (SELECT id FROM items WHERE …)`, as `edgeSQL` has it for both ends. -/
def edgeEndVisible (db : DB) (now : Time) (user id : Uuid) : Bool :=
  db.items.any fun item => item.id = id && (item.createdBy = user || sharedWith db now user item)

/-- `nodeSQL`. -/
def nodeRows (db : DB) (now : Time) (claims : Claims) : List Item :=
  (db.items.filter fun item =>
    claims.hasRole .admin || nodeVisible db now claims.subject item).mergeSort
      fun a b => a.createdAt ≤ b.createdAt

/-- `edgeSQL`; the table is in the order of `created_at`. -/
def edgeRows (s : CatalogState) (now : Time) (claims : Claims) : List ItemRelationship :=
  s.relationships.filter fun r => claims.hasRole .admin ||
    (edgeEndVisible s.db now claims.subject r.sourceItemId &&
      edgeEndVisible s.db now claims.subject r.targetItemId)

/-! ## The handler -/

structure GraphNode where
  id : String
  folderID : String
  itemTypeID : Int
  name : Bytes
deriving DecidableEq

structure GraphEdge where
  sourceID : String
  targetID : String
  type : String
  metadata : String
  backstageType : String
deriving DecidableEq

structure GraphResponse where
  nodes : List GraphNode
  edges : List GraphEdge
  lifecycleStages : List (String × List Int)

/-- `backstageTypeMap`; a missing key reads as the empty text. -/
def backstageType : String → String
  | "depends_on" | "hosted_on" | "accessed_via" | "uses_tool" | "builds_to" | "deploys_to"
  | "scans_with" | "dependsOn" => "dependsOn"
  | "part_of" | "runs_in" => "partOf"
  | "related_to" => "hasPart"
  | "ownedBy" => "ownedBy"
  | "memberOf" => "memberOf"
  | "providesApi" => "providesApi"
  | "consumesApi" => "consumesApi"
  | _ => ""

def graphNode (svc : Service) (item : Item) : GraphNode where
  id := item.id.text
  folderID := item.folderId.text
  itemTypeID := item.itemTypeId
  name := (decryptItemName svc item.id.text item.serverDekWrapped item.nameEnc).getD (bytesOf "[?]")

def graphEdge (r : ItemRelationship) : GraphEdge where
  sourceID := r.sourceItemId.text
  targetID := r.targetItemId.text
  type := r.relationshipType
  metadata := r.metadata
  backstageType := backstageType r.relationshipType

/-- The stages of the nodes that have any. -/
def stagesOf (s : CatalogState) (nodes : List Item) : List (String × List Int) :=
  nodes.filterMap fun item =>
    match (s.lifecycleStages.filter (·.itemId = item.id)).map (·.lifecycleStageId) with
    | [] => none
    | stages => some (item.id.text, stages.mergeSort (· ≤ ·))

/-- `Graph`. -/
def graph (svc : Service) (s : CatalogState) (now : Time) (claims : Claims) : GraphResponse :=
  let items := nodeRows s.db now claims
  let nodes := items.map (graphNode svc)
  let nodeIDSet := nodes.map GraphNode.id
  let edges := ((edgeRows s now claims).map graphEdge).filter fun e =>
    claims.hasRole .admin || (nodeIDSet.contains e.sourceID && nodeIDSet.contains e.targetID)
  { nodes, edges, lifecycleStages := stagesOf s items }

/-! ## Edges and nodes -/

namespace GraphResponse
variable (resp : GraphResponse)

def HasNode (id : Uuid) : Prop := ∃ n ∈ resp.nodes, n.id = id.text

/-- The edges are the relationships between nodes. -/
structure EdgesComplete (relationships : List ItemRelationship) : Prop where
  edges : ∀ e, e ∈ resp.edges ↔ ∃ r ∈ relationships,
    resp.HasNode r.sourceItemId ∧ resp.HasNode r.targetItemId ∧ e = graphEdge r
  ends : ∀ e ∈ resp.edges, (∃ n ∈ resp.nodes, n.id = e.sourceID) ∧
    ∃ n ∈ resp.nodes, n.id = e.targetID

end GraphResponse

section Edges
variable {svc : Service} {s : CatalogState} {now : Time} {claims : Claims}

/-- Nodes are the items the statement lets through. -/
theorem hasNode_iff (hadmin : claims.hasRole .admin = false) {id : Uuid} :
    (graph svc s now claims).HasNode id ↔ isVisible s.db now claims.subject id = true := by
  unfold GraphResponse.HasNode graph nodeRows isVisible
  simp only [List.mem_map, List.mem_mergeSort, List.mem_filter, hadmin, Bool.false_or,
    List.any_eq_true, Bool.and_eq_true, decide_eq_true_eq]
  constructor
  · rintro ⟨n, ⟨item, ⟨hitem, hvisible⟩, rfl⟩, hid⟩
    exact ⟨item, hitem, Uuid.text_injective hid, hvisible⟩
  · rintro ⟨item, hitem, rfl, hvisible⟩
    exact ⟨_, ⟨item, ⟨hitem, hvisible⟩, rfl⟩, rfl⟩

/-- What the caller made or was given directly is visible. -/
theorem isVisible_of_edgeEndVisible {db : DB} {user id : Uuid}
    (h : edgeEndVisible db now user id = true) : isVisible db now user id = true := by
  obtain ⟨item, hitem, hvisible⟩ := List.any_eq_true.mp h
  rw [Bool.and_eq_true] at hvisible
  refine List.any_eq_true.mpr ⟨item, hitem, ?_⟩
  rw [hvisible.1, nodeVisible, hvisible.2]
  rfl

/-- An edge of the answer is a relationship whose ends both statements let
through. -/
theorem mem_edges_iff (hadmin : claims.hasRole .admin = false) {e : GraphEdge} :
    e ∈ (graph svc s now claims).edges ↔ ∃ r ∈ s.relationships,
      edgeEndVisible s.db now claims.subject r.sourceItemId = true ∧
        edgeEndVisible s.db now claims.subject r.targetItemId = true ∧ e = graphEdge r := by
  have hnode {id : Uuid} (h : edgeEndVisible s.db now claims.subject id = true) :
      ∃ n ∈ (nodeRows s.db now claims).map (graphNode svc), n.id = id.text :=
    (hasNode_iff hadmin).mpr (isVisible_of_edgeEndVisible h)
  unfold graph edgeRows
  simp only [List.mem_filter, List.mem_map, hadmin, Bool.false_or, Bool.and_eq_true,
    List.contains_iff_mem]
  constructor
  · rintro ⟨⟨r, ⟨hr, hsource, htarget⟩, rfl⟩, -⟩
    exact ⟨r, hr, hsource, htarget, rfl⟩
  · rintro ⟨r, hr, hsource, htarget, rfl⟩
    obtain ⟨n, hn, hid⟩ := hnode hsource
    obtain ⟨n', hn', hid'⟩ := hnode htarget
    exact ⟨⟨r, ⟨hr, hsource, htarget⟩, rfl⟩, ⟨n, List.mem_map.mp hn, hid⟩,
      ⟨n', List.mem_map.mp hn', hid'⟩⟩

/-- The edges are complete exactly if every relationship between two visible
items joins items that the caller made or was given directly: what is seen
through a folder has no edge. -/
theorem graph_edges_complete_iff (hadmin : claims.hasRole .admin = false) :
    (graph svc s now claims).EdgesComplete s.relationships ↔
      ∀ r ∈ s.relationships, isVisible s.db now claims.subject r.sourceItemId = true →
        isVisible s.db now claims.subject r.targetItemId = true →
          edgeEndVisible s.db now claims.subject r.sourceItemId = true ∧
            edgeEndVisible s.db now claims.subject r.targetItemId = true := by
  constructor
  · intro h r hr hsource htarget
    have hedge : graphEdge r ∈ (graph svc s now claims).edges :=
      (h.edges _).mpr ⟨r, hr, (hasNode_iff hadmin).mpr hsource, (hasNode_iff hadmin).mpr htarget,
        rfl⟩
    obtain ⟨r', -, hsource', htarget', heq⟩ := (mem_edges_iff hadmin).mp hedge
    rw [Uuid.text_injective (congrArg GraphEdge.sourceID heq),
      Uuid.text_injective (congrArg GraphEdge.targetID heq)]
    exact ⟨hsource', htarget'⟩
  · intro h
    have hnode {id : Uuid} (hend : edgeEndVisible s.db now claims.subject id = true) :
        (graph svc s now claims).HasNode id :=
      (hasNode_iff hadmin).mpr (isVisible_of_edgeEndVisible hend)
    constructor
    · intro e
      rw [mem_edges_iff hadmin]
      constructor
      · rintro ⟨r, hr, hsource, htarget, rfl⟩
        exact ⟨r, hr, hnode hsource, hnode htarget, rfl⟩
      · rintro ⟨r, hr, hsource, htarget, rfl⟩
        rw [hasNode_iff hadmin] at hsource htarget
        obtain ⟨hsource', htarget'⟩ := h r hr hsource htarget
        exact ⟨r, hr, hsource', htarget', rfl⟩
    · intro e he
      obtain ⟨r, -, hsource, htarget, rfl⟩ := (mem_edges_iff hadmin).mp he
      exact ⟨hnode hsource, hnode htarget⟩

end Edges

/-! ## Items of a folder -/

/-- User 2 may read the folder of items 5 and 6, and 5 depends on 6. -/
def folderReader : CatalogState :=
  { bareCatalog
      { users := [sampleUser 1 "owner", sampleUser 2 "reader"]
        folders := [sampleFolder 10 1]
        folderPermissions := [⟨Uuid.ofNat 10, Uuid.ofNat 2, .read, false, .always, none⟩]
        items := [sampleItem 5 10 1, sampleItem 6 10 1] } with
    relationships := [⟨Uuid.ofNat 5, Uuid.ofNat 6, "depends_on", "\x7b\x7d"⟩] }

/-- The owner of both items gets the edge. -/
theorem graph_edges_complete_owner :
    (graph sampleService folderReader 0 ⟨Uuid.ofNat 1, [.read]⟩).EdgesComplete
      folderReader.relationships :=
  (graph_edges_complete_iff rfl).mpr (by decide)

/-- The reader of the folder gets two nodes and no edge. -/
theorem graph_edges_incomplete_folder_reader :
    ¬ ∀ (svc : Service) (s : CatalogState) (now : Time) (claims : Claims),
      claims.hasRole .admin = false →
        (graph svc s now claims).EdgesComplete s.relationships := by
  intro hall
  have hcomplete := hall sampleService folderReader 0 ⟨Uuid.ofNat 2, [.read]⟩ rfl
  have hnode : isVisible folderReader.db 0 (Uuid.ofNat 2) (Uuid.ofNat 5) = true ∧
      isVisible folderReader.db 0 (Uuid.ofNat 2) (Uuid.ofNat 6) = true := by
    decide
  have hend : edgeEndVisible folderReader.db 0 (Uuid.ofNat 2) (Uuid.ofNat 5) = false := by
    decide
  have hedge := (hcomplete.edges _).mpr ⟨_, List.mem_singleton.mpr rfl, (hasNode_iff rfl).mpr
    hnode.1, (hasNode_iff rfl).mpr hnode.2, rfl⟩
  obtain ⟨r, hr, hsource, -⟩ := (mem_edges_iff rfl).mp hedge
  rw [List.mem_singleton.mp hr] at hsource
  rw [show edgeEndVisible folderReader.db 0 (Uuid.ofNat 2) (Uuid.ofNat 5) = true from hsource]
    at hend
  cases hend

end IronStock.Graph

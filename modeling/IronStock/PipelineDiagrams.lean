import IronStock.ApprovalGate
import IronStock.Lib.Runs

/-!
# Pipeline diagrams

`pipeline_handlers.go`: named sets of items with their positions. Every handler
asks whether the caller made the diagram or is an administrator; none asks about
the items on it.
-/
namespace IronStock

/-! ## The tables -/

structure PipelineDiagram where
  id : Uuid
  name : String
  description : Option String
  folderId : Option Uuid
  layoutData : String
  createdBy : Uuid

structure PipelineDiagramNode where
  diagramId : Uuid
  itemId : Uuid
  positionX : Option Float
  positionY : Option Float
  customLabel : Option String

structure ItemRelationship where
  sourceItemId : Uuid
  targetItemId : Uuid
  relationshipType : String
  metadata : String

structure ItemLifecycleStage where
  itemId : Uuid
  lifecycleStageId : Int

structure DiagramState where
  db : DB
  /-- the column `master_key_id` of `items` -/
  masterKeyId : Uuid → Int
  relationships : List ItemRelationship
  lifecycleStages : List ItemLifecycleStage
  diagrams : List PipelineDiagram
  nodes : List PipelineDiagramNode

def DiagramState.diagram? (s : DiagramState) (id : Uuid) : Option PipelineDiagram :=
  Table.lookup PipelineDiagram.id id s.diagrams

/-! ## Whose diagram it is -/

def errCodeValidation := "validation_error"

def diagramNotFound : ApiError := ⟨404, errCodeNotFound, "Diyagram bulunamadı"⟩

def validationError (message : String) : ApiError := ⟨400, errCodeValidation, message⟩

def ownerOrAdmin (claims : Claims) (ownerID : Uuid) : Bool :=
  claims.subject = ownerID || claims.hasRole .admin

/-- The start of every handler with a diagram in its path. -/
def DiagramState.ownDiagram (s : DiagramState) (claims : Claims) (diagramID : String) :
    Reply PipelineDiagram := do
  let id ← Reply.orElse (castUuid diagramID) (internalError "Veritabanı hatası")
  let d ← Reply.orElse (s.diagram? id) diagramNotFound
  Reply.require (ownerOrAdmin claims d.createdBy = true) diagramNotFound
  return d

/-! ## Diagrams -/

structure CreatePipelineDiagramRequest where
  name : String
  description : Option String
  folderID : Option String

/-- The optional `folder_id`: NULL, or a folder that exists. -/
def DiagramState.folderRef (s : DiagramState) : Option String → Option (Option Uuid)
  | none => some none
  | some text => ((castUuid text).filter fun id => (s.db.folder? id).isSome).map some

/-- `CreateDiagram`, with the id the default drew. -/
def createDiagram (s : DiagramState) (claims : Claims) (req : CreatePipelineDiagramRequest)
    (newID : Uuid) : Reply DiagramState := do
  Reply.require (req.name ≠ "" ∧ req.name.utf8ByteSize ≤ 256)
    (validationError "İsim 1-256 karakter olmalı")
  let folderId ← Reply.orElse (s.folderRef req.folderID) (internalError "Oluşturulamadı")
  Reply.require ((s.db.user? claims.subject).isSome = true ∧ (s.diagram? newID).isNone = true)
    (internalError "Oluşturulamadı")
  return { s with
    diagrams :=
      s.diagrams ++ [⟨newID, req.name, req.description, folderId, "\x7b\x7d", claims.subject⟩] }

structure UpdatePipelineDiagramRequest where
  name : Option String
  description : Option String

def DiagramState.updateDiagram (s : DiagramState) (id : Uuid)
    (f : PipelineDiagram → PipelineDiagram) : DiagramState :=
  { s with diagrams := Table.updateWhere (·.id = id) f s.diagrams }

/-- `UpdateDiagram`. -/
def updateDiagram (s : DiagramState) (claims : Claims) (diagramID : String)
    (req : UpdatePipelineDiagramRequest) : Reply DiagramState := do
  let d ← s.ownDiagram claims diagramID
  Reply.require (req.name.all (fun n => n ≠ "" ∧ n.utf8ByteSize ≤ 256) = true)
    (validationError "İsim 1-256 karakter olmalı")
  return s.updateDiagram d.id fun d =>
    { d with name := req.name.getD d.name, description := req.description <|> d.description }

/-- `DeleteDiagram`; the nodes go with it. -/
def deleteDiagram (s : DiagramState) (claims : Claims) (diagramID : String) :
    Reply DiagramState := do
  let d ← s.ownDiagram claims diagramID
  return { s with
    diagrams := Table.deleteWhere (·.id = d.id) s.diagrams
    nodes := Table.deleteWhere (·.diagramId = d.id) s.nodes }

/-! ## Nodes -/

/-- One INSERT of `AddNodes`. A text that is no uuid and an item that does not
exist are passed over. -/
def DiagramState.addNode (s : DiagramState) (diagram : Uuid) (itemID : String) : DiagramState :=
  match (castUuid itemID).filter fun item => (s.db.item? item).isSome with
  | none => s
  | some item =>
    { s with
      nodes := Table.insertOrIgnore (fun n => n.diagramId = diagram ∧ n.itemId = item)
        ⟨diagram, item, none, none, none⟩ s.nodes }

/-- `AddNodes`. -/
def addNodes (s : DiagramState) (claims : Claims) (diagramID : String) (itemIDs : List String) :
    Reply DiagramState := do
  let d ← s.ownDiagram claims diagramID
  Reply.require (0 < itemIDs.length ∧ itemIDs.length ≤ 100)
    (validationError "1-100 arası item eklenebilir")
  return itemIDs.foldl (fun s itemID => s.addNode d.id itemID) s

/-- `RemoveNode`. -/
def removeNode (s : DiagramState) (claims : Claims) (diagramID itemID : String) :
    Reply DiagramState := do
  let d ← s.ownDiagram claims diagramID
  let item ← Reply.orElse (castUuid itemID) (internalError "Silinemedi")
  return { s with
    nodes := Table.deleteWhere (fun n => n.diagramId = d.id ∧ n.itemId = item) s.nodes }

structure LayoutNodePosition where
  itemID : String
  positionX : Option Float
  positionY : Option Float

structure SaveLayoutRequest where
  nodes : List LayoutNodePosition
  /-- the JSON text, if the field is there -/
  viewport : Option String

/-- One UPDATE of a position; a malformed id fails it. -/
def DiagramState.saveNode (diagram : Uuid) (s : DiagramState) (n : LayoutNodePosition) :
    Reply DiagramState := do
  let item ← Reply.orElse (castUuid n.itemID) (internalError "Pozisyon kaydedilemedi")
  return { s with
    nodes := Table.updateWhere (fun r => r.diagramId = diagram ∧ r.itemId = item)
      (fun r => { r with positionX := n.positionX, positionY := n.positionY }) s.nodes }

/-- `SaveLayout`; `castJsonb` is the input function of `jsonb`. -/
def saveLayout (castJsonb : String → Option String) (s : DiagramState) (claims : Claims)
    (diagramID : String) (req : SaveLayoutRequest) : Reply DiagramState := do
  let d ← s.ownDiagram claims diagramID
  let s ← req.nodes.foldlM (DiagramState.saveNode d.id) s
  match req.viewport with
  | none => return s
  | some viewport =>
    let layoutData ← Reply.orElse (castJsonb ("\x7b\"viewport\":" ++ viewport ++ "\x7d"))
      (internalError "Layout kaydedilemedi")
    return s.updateDiagram d.id fun d => { d with layoutData }

/-! ## The graph -/

structure DiagramGraphNode where
  id : Uuid
  folderID : Uuid
  itemTypeID : Int
  nameEnc : Bytes
  nameNonce : Nonce
  serverDEKWrapped : Bytes
  masterKeyID : Int
  positionX : Option Float
  positionY : Option Float
  customLabel : Option String

structure DiagramGraphEdge where
  sourceID : Uuid
  targetID : Uuid
  type : String
  metadata : String

structure DiagramGraphResponse where
  nodes : List DiagramGraphNode
  edges : List DiagramGraphEdge
  lifecycleStages : List (Uuid × List Int)

/-- `SELECT item_id FROM pipeline_diagram_nodes WHERE diagram_id = $1`. -/
def DiagramState.placed (s : DiagramState) (diagram : Uuid) : List Uuid :=
  (s.nodes.filter (·.diagramId = diagram)).map (·.itemId)

/-- A row of the first query: the node joined to its item. -/
def DiagramState.graphNode (s : DiagramState) (n : PipelineDiagramNode) :
    Option DiagramGraphNode :=
  (s.db.item? n.itemId).map fun item =>
    ⟨n.itemId, item.folderId, item.itemTypeId, item.nameEnc, item.nameNonce,
      item.serverDekWrapped, s.masterKeyId item.id, n.positionX, n.positionY, n.customLabel⟩

/-- The rows of the third query, gathered by item. -/
def DiagramState.stagesOf (s : DiagramState) (items : List Uuid) : List (Uuid × List Int) :=
  let rows := s.lifecycleStages.filter (items.contains ·.itemId)
  (rows.map (·.itemId)).eraseDups.map fun item =>
    (item, (rows.filter (·.itemId = item)).map (·.lifecycleStageId))

/-- `DiagramGraph`. -/
def diagramGraph (s : DiagramState) (claims : Claims) (diagramID : String) :
    Reply DiagramGraphResponse := do
  let d ← s.ownDiagram claims diagramID
  let placed := s.placed d.id
  let edges := s.relationships.filter fun e =>
    placed.contains e.sourceItemId ∧ placed.contains e.targetItemId
  return {
    nodes := (s.nodes.filter (·.diagramId = d.id)).filterMap s.graphNode
    edges := edges.map fun e => ⟨e.sourceItemId, e.targetItemId, e.relationshipType, e.metadata⟩
    lifecycleStages := s.stagesOf placed }

/-- Every item the answer tells something about. -/
def DiagramGraphResponse.items (g : DiagramGraphResponse) : List Uuid :=
  g.nodes.map (·.id) ++ g.edges.flatMap (fun e => [e.sourceID, e.targetID]) ++
    g.lifecycleStages.map (·.1)

/-! ## Runs -/

inductive DiagramMove
  | create (claims : Claims) (req : CreatePipelineDiagramRequest) (newID : Uuid)
  | update (claims : Claims) (diagramID : String) (req : UpdatePipelineDiagramRequest)
  | delete (claims : Claims) (diagramID : String)
  | addNodes (claims : Claims) (diagramID : String) (itemIDs : List String)
  | removeNode (claims : Claims) (diagramID itemID : String)
  | saveLayout (claims : Claims) (diagramID : String) (req : SaveLayoutRequest)
  /-- any other request: it may write every table but the two of the diagrams -/
  | elsewhere (db : DB) (masterKeyId : Uuid → Int) (relationships : List ItemRelationship)
      (lifecycleStages : List ItemLifecycleStage)

/-- A diagram goes with its maker, a node with its diagram or item; a deleted
folder leaves NULL. -/
def DiagramState.cascade (s : DiagramState) : DiagramState :=
  let kept := Table.deleteWhere (fun d => (s.db.user? d.createdBy).isNone) s.diagrams
  let unlink (d : PipelineDiagram) : PipelineDiagram :=
    { d with folderId := d.folderId.filter fun f => (s.db.folder? f).isSome }
  { s with
    diagrams := kept.map unlink
    nodes := Table.deleteWhere
      (fun n => (s.db.item? n.itemId).isNone ∨ (Table.lookup (·.id) n.diagramId kept).isNone)
      s.nodes }

/-- One request; a refused one changes nothing. -/
def diagramStep (castJsonb : String → Option String) (s : DiagramState) : DiagramMove → DiagramState
  | .create claims req newID => (createDiagram s claims req newID).toOption.getD s
  | .update claims diagramID req => (updateDiagram s claims diagramID req).toOption.getD s
  | .delete claims diagramID => (deleteDiagram s claims diagramID).toOption.getD s
  | .addNodes claims diagramID itemIDs =>
    (IronStock.addNodes s claims diagramID itemIDs).toOption.getD s
  | .removeNode claims diagramID itemID =>
    (IronStock.removeNode s claims diagramID itemID).toOption.getD s
  | .saveLayout claims diagramID req =>
    (IronStock.saveLayout castJsonb s claims diagramID req).toOption.getD s
  | .elsewhere db masterKeyId relationships lifecycleStages =>
    { s with db, masterKeyId, relationships, lifecycleStages }.cascade

/-! ## Nodes refer to items -/

/-- The foreign key `item_id`. -/
def NodesExist (s : DiagramState) : Prop := ∀ n ∈ s.nodes, (s.db.item? n.itemId).isSome = true

/-- No node of another item, and the same items. -/
structure NodesKept (s s' : DiagramState) : Prop where
  db : s'.db = s.db
  items : ∀ n ∈ s'.nodes, ∃ n₀ ∈ s.nodes, n.itemId = n₀.itemId

theorem NodesKept.of_subset {s s' : DiagramState} (hdb : s'.db = s.db)
    (h : ∀ n ∈ s'.nodes, n ∈ s.nodes) : NodesKept s s' :=
  ⟨hdb, fun n hn => ⟨n, h n hn, rfl⟩⟩

theorem NodesKept.trans {s₁ s₂ s₃ : DiagramState} (h : NodesKept s₁ s₂) (h' : NodesKept s₂ s₃) :
    NodesKept s₁ s₃ := by
  refine ⟨h'.db.trans h.db, ?_⟩
  intro n hn
  obtain ⟨n₁, hn₁, hitem⟩ := h'.items n hn
  obtain ⟨n₀, hn₀, hitem₀⟩ := h.items n₁ hn₁
  exact ⟨n₀, hn₀, hitem.trans hitem₀⟩

theorem NodesExist.kept {s s' : DiagramState} (h : NodesExist s) (hkept : NodesKept s s') :
    NodesExist s' := by
  intro n hn
  obtain ⟨n₀, hn₀, hitem⟩ := hkept.items n hn
  rw [hkept.db, hitem]
  exact h n₀ hn₀

/-- A request that goes through, if all such keep the property. -/
theorem NodesExist.of_reply {s : DiagramState} {r : Reply DiagramState} (h : NodesExist s)
    (hok : ∀ s', r = .ok s' → NodesExist s') : NodesExist (r.toOption.getD s) := by
  cases r with
  | error e => exact h
  | ok s' => exact hok s' rfl

theorem createDiagram_kept {s s' : DiagramState} {claims : Claims}
    {req : CreatePipelineDiagramRequest} {newID : Uuid}
    (h : createDiagram s claims req newID = .ok s') : NodesKept s s' := by
  simp only [createDiagram, Reply.bind_eq_ok, Reply.pure_eq_ok] at h
  obtain ⟨_, _, _, _, _, _, rfl⟩ := h
  exact .of_subset rfl fun n hn => hn

theorem updateDiagram_kept {s s' : DiagramState} {claims : Claims} {diagramID : String}
    {req : UpdatePipelineDiagramRequest} (h : updateDiagram s claims diagramID req = .ok s') :
    NodesKept s s' := by
  simp only [updateDiagram, Reply.bind_eq_ok, Reply.pure_eq_ok] at h
  obtain ⟨_, _, _, _, rfl⟩ := h
  exact .of_subset rfl fun n hn => hn

theorem deleteDiagram_kept {s s' : DiagramState} {claims : Claims} {diagramID : String}
    (h : deleteDiagram s claims diagramID = .ok s') : NodesKept s s' := by
  simp only [deleteDiagram, Reply.bind_eq_ok, Reply.pure_eq_ok] at h
  obtain ⟨_, _, rfl⟩ := h
  exact .of_subset rfl fun n hn => (Table.mem_deleteWhere.mp hn).1

theorem removeNode_kept {s s' : DiagramState} {claims : Claims} {diagramID itemID : String}
    (h : removeNode s claims diagramID itemID = .ok s') : NodesKept s s' := by
  simp only [removeNode, Reply.bind_eq_ok, Reply.pure_eq_ok] at h
  obtain ⟨_, _, _, _, rfl⟩ := h
  exact .of_subset rfl fun n hn => (Table.mem_deleteWhere.mp hn).1

theorem saveNode_kept {diagram : Uuid} {s s' : DiagramState} {p : LayoutNodePosition}
    (h : DiagramState.saveNode diagram s p = .ok s') : NodesKept s s' := by
  simp only [DiagramState.saveNode, Reply.bind_eq_ok, Reply.pure_eq_ok] at h
  obtain ⟨item, _, rfl⟩ := h
  refine ⟨rfl, ?_⟩
  intro n hn
  obtain ⟨n₀, hn₀, rfl⟩ := Table.mem_updateWhere.mp hn
  refine ⟨n₀, hn₀, ?_⟩
  split <;> rfl

/-- The UPDATEs of the positions, one after the other. -/
theorem saveNodes_kept {diagram : Uuid} {positions : List LayoutNodePosition}
    {s s' : DiagramState} (h : positions.foldlM (DiagramState.saveNode diagram) s = .ok s') :
    NodesKept s s' := by
  induction positions generalizing s with
  | nil =>
    obtain rfl := Reply.pure_eq_ok.mp h
    exact .of_subset rfl fun n hn => hn
  | cons p positions ih =>
    rw [List.foldlM_cons, Reply.bind_eq_ok] at h
    obtain ⟨s₁, hsave, hrest⟩ := h
    exact (saveNode_kept hsave).trans (ih hrest)

theorem saveLayout_kept {castJsonb : String → Option String} {s s' : DiagramState}
    {claims : Claims} {diagramID : String} {req : SaveLayoutRequest}
    (h : saveLayout castJsonb s claims diagramID req = .ok s') : NodesKept s s' := by
  simp only [saveLayout, Reply.bind_eq_ok] at h
  obtain ⟨d, _, s₁, hsave, h⟩ := h
  have hkept := saveNodes_kept hsave
  split at h
  · obtain rfl := Reply.pure_eq_ok.mp h
    exact hkept
  · simp only [Reply.bind_eq_ok, Reply.pure_eq_ok] at h
    obtain ⟨_, _, rfl⟩ := h
    exact hkept.trans (.of_subset rfl fun n hn => hn)

/-! ## What AddNodes places -/

/-- One INSERT places the item it names, if there is one. -/
theorem addNode_spec (s : DiagramState) (diagram : Uuid) (itemID : String) :
    (s.addNode diagram itemID).db = s.db ∧
      ∀ d x, (∃ n ∈ (s.addNode diagram itemID).nodes, n.diagramId = d ∧ n.itemId = x) ↔
        (∃ n ∈ s.nodes, n.diagramId = d ∧ n.itemId = x) ∨
          (d = diagram ∧ castUuid itemID = some x ∧ (s.db.item? x).isSome = true) := by
  simp only [DiagramState.addNode]
  cases hitem : (castUuid itemID).filter fun item => (s.db.item? item).isSome with
  | none =>
    refine ⟨rfl, fun d x => ?_⟩
    rw [Option.filter_eq_none_iff] at hitem
    constructor
    · exact .inl
    · rintro (h | ⟨-, hcast, hexists⟩)
      · exact h
      · exact absurd hexists (hitem x hcast)
  | some item =>
    obtain ⟨hcast, hexists⟩ := Option.filter_eq_some_iff.mp hitem
    refine ⟨rfl, fun d x => ?_⟩
    simp only [Table.insertOrIgnore]
    split
    · next hthere =>
      obtain ⟨n, hn, hsame⟩ := List.any_eq_true.mp hthere
      simp only [decide_eq_true_eq] at hsame
      constructor
      · exact .inl
      · rintro (h | ⟨rfl, hx, -⟩)
        · exact h
        · rw [hcast] at hx
          obtain rfl := Option.some.inj hx
          exact ⟨n, hn, hsame⟩
    · constructor
      · rintro ⟨n, hn, rfl, rfl⟩
        rcases List.mem_append.mp hn with hn | hn
        · exact .inl ⟨n, hn, rfl, rfl⟩
        · obtain rfl := List.mem_singleton.mp hn
          exact .inr ⟨rfl, hcast, hexists⟩
      · rintro (⟨n, hn, h⟩ | ⟨rfl, hx, -⟩)
        · exact ⟨n, List.mem_append_left _ hn, h⟩
        · rw [hcast] at hx
          obtain rfl := Option.some.inj hx
          exact ⟨_, List.mem_append_right _ (List.mem_singleton.mpr rfl), rfl, rfl⟩

/-- What all the INSERTs place. -/
theorem addNodes_foldl_spec (diagram : Uuid) (itemIDs : List String) (s : DiagramState) :
    (itemIDs.foldl (fun s itemID => s.addNode diagram itemID) s).db = s.db ∧
      ∀ d x, (∃ n ∈ (itemIDs.foldl (fun s itemID => s.addNode diagram itemID) s).nodes,
          n.diagramId = d ∧ n.itemId = x) ↔
        (∃ n ∈ s.nodes, n.diagramId = d ∧ n.itemId = x) ∨
          (d = diagram ∧ (∃ itemID ∈ itemIDs, castUuid itemID = some x) ∧
            (s.db.item? x).isSome = true) := by
  induction itemIDs generalizing s with
  | nil => simp
  | cons itemID itemIDs ih =>
    obtain ⟨hdb, hone⟩ := addNode_spec s diagram itemID
    obtain ⟨hdb', hrest⟩ := ih (s.addNode diagram itemID)
    refine ⟨hdb'.trans hdb, ?_⟩
    intro d x
    rw [List.foldl_cons, hrest, hone, hdb, or_assoc]
    simp only [List.exists_mem_cons_iff]
    constructor
    · rintro (h | ⟨hd, hcast, hitem⟩ | ⟨hd, hcast, hitem⟩)
      · exact .inl h
      · exact .inr ⟨hd, .inl hcast, hitem⟩
      · exact .inr ⟨hd, .inr hcast, hitem⟩
    · rintro (h | ⟨hd, hcast | hcast, hitem⟩)
      · exact .inl h
      · exact .inr (.inl ⟨hd, hcast, hitem⟩)
      · exact .inr (.inr ⟨hd, hcast, hitem⟩)

/-- Every item that exists can be placed, whoever asks. -/
theorem addNodes_eq_ok {s s' : DiagramState} {claims : Claims} {diagramID : String}
    {itemIDs : List String} (h : addNodes s claims diagramID itemIDs = .ok s') :
    s'.db = s.db ∧ ∃ diagram, s.ownDiagram claims diagramID = .ok diagram ∧
      ∀ d x, (∃ n ∈ s'.nodes, n.diagramId = d ∧ n.itemId = x) ↔
        (∃ n ∈ s.nodes, n.diagramId = d ∧ n.itemId = x) ∨
          (d = diagram.id ∧ (∃ itemID ∈ itemIDs, castUuid itemID = some x) ∧
            (s.db.item? x).isSome = true) := by
  simp only [addNodes, Reply.bind_eq_ok, Reply.pure_eq_ok] at h
  obtain ⟨diagram, hdiagram, _, _, rfl⟩ := h
  obtain ⟨hdb, hplaced⟩ := addNodes_foldl_spec diagram.id itemIDs s
  exact ⟨hdb, diagram, hdiagram, hplaced⟩

/-! ## One request keeps the foreign key -/

theorem NodesExist.addNodes {s s' : DiagramState} {claims : Claims} {diagramID : String}
    {itemIDs : List String} (h : NodesExist s)
    (hok : IronStock.addNodes s claims diagramID itemIDs = .ok s') : NodesExist s' := by
  obtain ⟨hdb, diagram, _, hplaced⟩ := addNodes_eq_ok hok
  intro n hn
  rw [hdb]
  rcases (hplaced n.diagramId n.itemId).mp ⟨n, hn, rfl, rfl⟩ with ⟨n₀, hn₀, _, hitem⟩ | hnew
  · rw [← hitem]
    exact h n₀ hn₀
  · exact hnew.2.2

theorem NodesExist.cascade (s : DiagramState) : NodesExist s.cascade := by
  intro n hn
  obtain ⟨_, hkept⟩ := Table.mem_deleteWhere.mp hn
  by_contra hgone
  have hnone : (s.db.item? n.itemId).isNone = true := by
    cases hitem : s.db.item? n.itemId with
    | none => rfl
    | some item => exact absurd (by simp [DiagramState.cascade, hitem]) hgone
  simp [hnone] at hkept

theorem NodesExist.step {s : DiagramState} (h : NodesExist s)
    (castJsonb : String → Option String) (m : DiagramMove) :
    NodesExist (diagramStep castJsonb s m) := by
  cases m with
  | create claims req newID => exact h.of_reply fun s' hok => h.kept (createDiagram_kept hok)
  | update claims diagramID req => exact h.of_reply fun s' hok => h.kept (updateDiagram_kept hok)
  | delete claims diagramID => exact h.of_reply fun s' hok => h.kept (deleteDiagram_kept hok)
  | addNodes claims diagramID itemIDs => exact h.of_reply fun s' hok => h.addNodes hok
  | removeNode claims diagramID itemID =>
    exact h.of_reply fun s' hok => h.kept (removeNode_kept hok)
  | saveLayout claims diagramID req => exact h.of_reply fun s' hok => h.kept (saveLayout_kept hok)
  | elsewhere db masterKeyId relationships lifecycleStages => exact .cascade _

/-! ## What the graph tells -/

theorem ownDiagram_eq_ok {s : DiagramState} {claims : Claims} {diagramID : String}
    {d : PipelineDiagram} : s.ownDiagram claims diagramID = .ok d ↔
      ∃ id, castUuid diagramID = some id ∧ s.diagram? id = some d ∧
        ownerOrAdmin claims d.createdBy = true := by
  simp only [DiagramState.ownDiagram, Reply.bind_eq_ok, Reply.orElse_eq_ok, Reply.require_eq_ok,
    Reply.pure_eq_ok]
  constructor
  · rintro ⟨id, hid, d', hd, _, howner, rfl⟩
    exact ⟨id, hid, hd, howner⟩
  · rintro ⟨id, hid, hd, howner⟩
    exact ⟨id, hid, d, hd, (), howner, rfl⟩

theorem DiagramState.mem_placed {s : DiagramState} {diagram x : Uuid} :
    x ∈ s.placed diagram ↔ ∃ n ∈ s.nodes, n.diagramId = diagram ∧ n.itemId = x := by
  simp only [DiagramState.placed, List.mem_map, List.mem_filter, decide_eq_true_eq, and_assoc]

/-- The stages are told of placed items only. -/
theorem DiagramState.mem_stagesOf {s : DiagramState} {items : List Uuid} {e : Uuid × List Int}
    (h : e ∈ s.stagesOf items) : e.1 ∈ items := by
  simp only [DiagramState.stagesOf, List.mem_map, List.mem_eraseDups, List.mem_filter,
    List.contains_iff_mem] at h
  obtain ⟨item, ⟨row, ⟨_, hrow⟩, rfl⟩, rfl⟩ := h
  exact hrow

/-- The answer is about the placed items, all of them. -/
theorem diagramGraph_items {s : DiagramState} (h : NodesExist s) {claims : Claims}
    {diagramID : String} {g : DiagramGraphResponse} (hg : diagramGraph s claims diagramID = .ok g) :
    ∃ d, s.ownDiagram claims diagramID = .ok d ∧ ∀ x, x ∈ g.items ↔ x ∈ s.placed d.id := by
  simp only [diagramGraph, Reply.bind_eq_ok, Reply.pure_eq_ok] at hg
  obtain ⟨d, hd, rfl⟩ := hg
  refine ⟨d, hd, ?_⟩
  intro x
  simp only [DiagramGraphResponse.items, List.mem_append, or_assoc]
  constructor
  · rintro (hnode | hedge | hstage)
    · obtain ⟨v, hv, rfl⟩ := List.mem_map.mp hnode
      obtain ⟨n, hn, hjoin⟩ := List.mem_filterMap.mp hv
      obtain ⟨item, _, rfl⟩ := Option.map_eq_some_iff.mp hjoin
      exact List.mem_map.mpr ⟨n, hn, rfl⟩
    · obtain ⟨v, hv, hx⟩ := List.mem_flatMap.mp hedge
      obtain ⟨e, he, rfl⟩ := List.mem_map.mp hv
      simp only [List.mem_filter, decide_eq_true_eq, List.contains_iff_mem] at he
      obtain ⟨_, hsource, htarget⟩ := he
      rcases List.mem_pair.mp hx with rfl | rfl
      · exact hsource
      · exact htarget
    · obtain ⟨e, he, rfl⟩ := List.mem_map.mp hstage
      exact DiagramState.mem_stagesOf he
  · intro hx
    obtain ⟨n, hn, rfl⟩ := List.mem_map.mp hx
    obtain ⟨item, hitem⟩ := Option.isSome_iff_exists.mp (h n (List.mem_of_mem_filter hn))
    have hjoin : ∃ v, s.graphNode n = some v ∧ v.id = n.itemId := by
      simp [DiagramState.graphNode, hitem]
    obtain ⟨v, hv, hid⟩ := hjoin
    exact .inl (List.mem_map.mpr ⟨v, List.mem_filterMap.mpr ⟨n, hn, hv⟩, hid⟩)

/-- Whoever is let into the diagram gets an answer. -/
theorem diagramGraph_answers {s : DiagramState} {claims : Claims} {diagramID : String}
    {d : PipelineDiagram} (hd : s.ownDiagram claims diagramID = .ok d) :
    ∃ g, diagramGraph s claims diagramID = .ok g := by
  simp only [diagramGraph, Reply.bind_eq_ok, Reply.pure_eq_ok]
  exact ⟨_, d, hd, rfl⟩

/-- The graph of one's own diagram tells of readable items only exactly when
every item on it is readable at the time. -/
theorem diagram_graph_discloses_readable_iff (castJsonb : String → Option String)
    {s₀ : DiagramState} (h₀ : NodesExist s₀) (moves : List DiagramMove) (claims : Claims)
    (hadmin : claims.hasRole .admin = false) (diagramID : String) (now : Time) :
    let s := Runs.run (diagramStep castJsonb) s₀ moves
    (∀ g, diagramGraph s claims diagramID = .ok g →
        ∀ x ∈ g.items, Readable s.db now claims x) ↔
      ∀ id d, castUuid diagramID = some id → s.diagram? id = some d →
        d.createdBy = claims.subject →
        ∀ n ∈ s.nodes, n.diagramId = id → Readable s.db now claims n.itemId := by
  intro s
  have hexist : NodesExist s :=
    Runs.run_invariant (J := NodesExist) (fun s m h => h.step castJsonb m) h₀ moves
  have hown (d : PipelineDiagram) :
      ownerOrAdmin claims d.createdBy = true ↔ d.createdBy = claims.subject := by
    simp [ownerOrAdmin, hadmin, eq_comm]
  constructor
  · intro hall id d hid hd howner n hn hplaced
    have hlet : s.ownDiagram claims diagramID = .ok d :=
      ownDiagram_eq_ok.mpr ⟨id, hid, hd, (hown d).mpr howner⟩
    obtain ⟨g, hg⟩ := diagramGraph_answers hlet
    obtain ⟨d', hd', hitems⟩ := diagramGraph_items hexist hg
    rw [hlet] at hd'
    obtain rfl := Except.ok.inj hd'
    refine hall g hg n.itemId ((hitems n.itemId).mpr (DiagramState.mem_placed.mpr ⟨n, hn, ?_, rfl⟩))
    rw [hplaced, (Table.lookup_eq_some hd).2]
  · intro hread g hg x hx
    obtain ⟨d, hlet, hitems⟩ := diagramGraph_items hexist hg
    obtain ⟨id, hid, hd, howner⟩ := ownDiagram_eq_ok.mp hlet
    obtain ⟨n, hn, hplaced, rfl⟩ := DiagramState.mem_placed.mp ((hitems x).mp hx)
    rw [(Table.lookup_eq_some hd).2] at hplaced
    exact hread id d hid hd ((hown d).mp howner) n hn hplaced

/-! ## A diagram of somebody else's item -/

/-- The item 7 of the user 1, and the user 5 with nothing granted. -/
def strangersDiagram : DiagramState where
  db := {
    users := [sampleUser 1 "ada", sampleUser 5 "eve"]
    folders := [sampleFolder 3 1]
    items := [sampleItem 7 3 1] }
  masterKeyId := fun _ => 1
  relationships := []
  lifecycleStages := []
  diagrams := []
  nodes := []

def stranger : Claims := { subject := Uuid.ofNat 5, roles := [] }

/-- The moves of somebody who makes diagram 9 and puts item 7 on it. -/
def mapMoves (claims : Claims) : List DiagramMove :=
  [.create claims ⟨"map", none, none⟩ (Uuid.ofNat 9),
    .addNodes claims (Uuid.ofNat 9).text [(Uuid.ofNat 7).text]]

/-- The owner of the item may be told of it. -/
theorem diagram_graph_discloses_readable_iff_owner :
    ∃ g, diagramGraph (Runs.run (diagramStep some) strangersDiagram (mapMoves ⟨Uuid.ofNat 1, []⟩))
        ⟨Uuid.ofNat 1, []⟩ (Uuid.ofNat 9).text = .ok g ∧
      ∀ x ∈ g.items, Readable strangersDiagram.db 0 ⟨Uuid.ofNat 1, []⟩ x := by
  have hplaced : ∀ n ∈ (Runs.run (diagramStep some) strangersDiagram
      (mapMoves ⟨Uuid.ofNat 1, []⟩)).nodes, n.itemId = Uuid.ofNat 7 := by decide
  have hread : Readable strangersDiagram.db 0 ⟨Uuid.ofNat 1, []⟩ (Uuid.ofNat 7) :=
    ⟨.write, by decide, rfl⟩
  have hanswer : ((diagramGraph (Runs.run (diagramStep some) strangersDiagram
      (mapMoves ⟨Uuid.ofNat 1, []⟩)) ⟨Uuid.ofNat 1, []⟩ (Uuid.ofNat 9).text).toOption.map
        (·.items)).isSome = true := by decide
  obtain ⟨items, hitems⟩ := Option.isSome_iff_exists.mp hanswer
  obtain ⟨g, hg, -⟩ := Option.map_eq_some_iff.mp hitems
  refine ⟨g, Reply.toOption_eq_some.mp hg, ?_⟩
  refine (diagram_graph_discloses_readable_iff some (by simp [NodesExist, strangersDiagram])
    (mapMoves ⟨Uuid.ofNat 1, []⟩) ⟨Uuid.ofNat 1, []⟩ (by decide) _ 0).mpr ?_ g
    (Reply.toOption_eq_some.mp hg)
  intro id d _ _ _ n hn _
  rw [hplaced n hn]
  exact hread

/-- The user 5 makes a diagram, puts the item 7 on it and is told its name, its
folder and its wrapped key. -/
theorem diagram_discloses_unreadable_item :
    ¬ ∀ (castJsonb : String → Option String) (s₀ : DiagramState) (moves : List DiagramMove)
        (claims : Claims) (diagramID : String) (now : Time) (g : DiagramGraphResponse),
        NodesExist s₀ → claims.hasRole .admin = false →
        diagramGraph (Runs.run (diagramStep castJsonb) s₀ moves) claims diagramID = .ok g →
        ∀ x ∈ g.items, Readable (Runs.run (diagramStep castJsonb) s₀ moves).db now claims x := by
  intro hall
  have hitems : (diagramGraph (Runs.run (diagramStep some) strangersDiagram (mapMoves stranger))
      stranger (Uuid.ofNat 9).text).toOption.map (·.items) = some [Uuid.ofNat 7] := by
    decide
  obtain ⟨g, hg, hitems⟩ := Option.map_eq_some_iff.mp hitems
  obtain ⟨perm, hperm, hread⟩ := hall some strangersDiagram (mapMoves stranger) stranger
    (Uuid.ofNat 9).text 0 g (by simp [NodesExist, strangersDiagram]) (by decide)
    (Reply.toOption_eq_some.mp hg) (Uuid.ofNat 7) (by simp [hitems])
  have hnone : itemPermissionOf
      (Runs.run (diagramStep some) strangersDiagram (mapMoves stranger)).db 0 (Uuid.ofNat 5)
      (Uuid.ofNat 7) = .ok .none := by decide
  rw [show stranger.subject = Uuid.ofNat 5 from rfl, hnone] at hperm
  cases hperm
  cases hread

end IronStock

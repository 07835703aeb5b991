import IronStock.AnsibleInventory
import IronStock.HealthScores
import IronStock.K8sProxy
import IronStock.Lib.RunTallies

/-!
# Health and suggestions of an item

`item_health.go` and `ai_suggestions.go`. The score and the generation of suggestions
ask for a level on the folder; the stored suggestions are listed, accepted and rejected
without any check. `Suggest` reads `item_types.name`, a column that no migration creates.
-/
namespace IronStock.Metadata

open SqlNames (Schema Select)

/-! ## The tables -/

/-- `CHECK (suggestion_type IN ('tag', 'relationship'))`. -/
inductive SuggestionType
  | tag
  | relationship
deriving DecidableEq

structure AiSuggestion where
  id : Uuid
  itemId : Uuid
  suggestionType : SuggestionType
  /-- the text of the `jsonb` -/
  payload : String
  acceptedAt : Option Time
  rejectedAt : Option Time
  createdAt : Time
deriving DecidableEq

namespace AiSuggestion

/-- `accepted_at IS NULL AND rejected_at IS NULL`. -/
def isPending (g : AiSuggestion) : Bool := g.acceptedAt.isNone && g.rejectedAt.isNone

/-- `SET accepted_at = NOW()`, or `rejected_at`. -/
def resolve (now : Time) (accept : Bool) (g : AiSuggestion) : AiSuggestion :=
  if accept then { g with acceptedAt := some now } else { g with rejectedAt := some now }

@[simp] theorem resolve_id (now : Time) (accept : Bool) (g : AiSuggestion) :
    (g.resolve now accept).id = g.id := by
  cases accept <;> rfl

@[simp] theorem resolve_itemId (now : Time) (accept : Bool) (g : AiSuggestion) :
    (g.resolve now accept).itemId = g.itemId := by
  cases accept <;> rfl

@[simp] theorem isPending_resolve (now : Time) (accept : Bool) (g : AiSuggestion) :
    (g.resolve now accept).isPending = false := by
  cases accept <;> simp [resolve, isPending]

end AiSuggestion

structure State extends CatalogState where
  bindings : List K8s.Binding
  suggestions : List AiSuggestion

namespace State
variable (s : State)

/-- `WHERE i.id::text = $1`. -/
def itemByText (itemID : String) : Option Item := s.db.items.find? (·.id.text = itemID)

def audit (e : AuditEntry) : State := { s with db := s.db.audit e }

end State

/-! ## Health -/

/-- A time of a row, within the range of its column. -/
def timestamptz (t : Time) : Option Health.Timestamptz :=
  if h : -210866803200000000 ≤ t ∧ t < 9224318016000000000 then some ⟨t, h⟩ else none

structure ItemHealthResponse where
  itemID : String
  score : Int
  severity : HealthSeverity
  breakdown : List Health.Breakdown

/-- The columns of the statement; the cluster is not asked. -/
def State.itemMeta (s : State) (item : Item) : Health.ItemMeta where
  expiresAt := item.expiresAt.bind timestamptz
  lastRotatedAt := item.lastRotatedAt.bind timestamptz
  description := item.description.getD ""
  hasTags := s.itemTags.any (·.itemId = item.id)
  relationshipCount :=
    s.relationships.countP fun r => r.sourceItemId = item.id ∨ r.targetItemId = item.id
  k8sBindingExists := s.bindings.any (·.itemId = item.id)
  k8sClusterReachable := true

def itemNotFound : ApiError := ⟨404, errCodeNotFound, "Item bulunamadı."⟩

def folderDenied : ApiError := ⟨403, errCodeUnauthorized, "Bu item'a erişim yetkiniz yok."⟩

/-- The check of both files, with `perm == ""` for no permission. -/
def requireFolder (db : DB) (now : Time) (claims : Claims) (folderID : String) : Reply Unit :=
  .unlessAdmin claims
    (match resolveFolderPermission db now claims.subject folderID with
    | .error _ => .error folderDenied
    | .ok perm => .require (perm ≠ .none) folderDenied)

def getHealth (s : State) (now : Time) (clock : Instants.Instant) (claims : Claims)
    (itemID : String) : Reply ItemHealthResponse := do
  let item ← .orElse (s.itemByText itemID) itemNotFound
  requireFolder s.db now claims item.folderId.text
  let (score, breakdown) := Health.scoreWithBreakdown (s.itemMeta item) clock
  return ⟨itemID, score, healthSeverity score, breakdown⟩

theorem scoreWithBreakdown_range (item : Health.ItemMeta) (clock : Instants.Instant) :
    0 ≤ (Health.scoreWithBreakdown item clock).1 ∧
      (Health.scoreWithBreakdown item clock).1 ≤ 100 := by
  obtain ⟨hsame, -, hnonneg, hcap, -⟩ := Health.scorers_agree item clock
  rw [hsame]
  exact ⟨hnonneg, hcap⟩

/-- `UPDATE items SET health_score = $1 WHERE id::text = $2`; the trigger sets
`updated_at`. -/
def State.cacheScore (s : State) (now : Time) (clock : Instants.Instant) (item : Item) : State :=
  { s with
    db := { s.db with
      items := Table.updateWhere (·.id = item.id) (fun i => { i with updatedAt := now })
        s.db.items }
    healthScore := fun id =>
      if id = item.id then some (Health.scoreWithBreakdown (s.itemMeta item) clock).1
      else s.healthScore id
    scoreRange := by
      intro id
      split
      · simpa using scoreWithBreakdown_range (s.itemMeta item) clock
      · exact s.scoreRange id }

/-! ## Suggest -/

structure RelSuggestion where
  targetName : String
  relationshipType : String

structure SuggestionResult where
  tags : List String
  relationships : List RelSuggestion

/-- `SuggestForItem` of the name, the description, the type and the tags of an item. -/
abbrev LlmClient := String → String → String → List String → Option SuggestionResult

/-- What the handlers are given. -/
structure Env where
  llm : Option LlmClient
  /-- `strings.ToLower` -/
  toLower : String → String
  /-- the verb `%q` -/
  quote : String → String
  /-- the input function of `jsonb` -/
  castJsonb : String → Option String
  columns : Ansible.MissingColumns

def metaQuery : Select where
  tables := [("i", "items"), ("it", "item_types")]
  refs := [("it", "id"), ("i", "item_type_id"), ("i", "name_plain"), ("i", "description"),
    ("it", "name"), ("i", "folder_id"), ("i", "id")]

def tagsQuery : Select where
  tables := [("it", "item_tags"), ("t", "tags")]
  refs := [("t", "id"), ("it", "tag_id"), ("t", "label_plain"), ("it", "item_id")]

/-- A suggestion of the model, with the text of its payload and the payload shown. -/
structure Draft where
  suggestionType : SuggestionType
  payload : String
  shown : List (String × String)

namespace Env
variable (env : Env)

/-- `coalesce(it.name, '')` of the joined type. -/
def itemType (s : State) (item : Item) : String :=
  ((Table.lookup ItemType.id item.itemTypeId s.db.itemTypes).map env.columns.typeName).getD ""

/-- The labels for the prompt; a refused statement leaves none. -/
def existingTags (sch : Schema) (s : State) (item : Uuid) : List String :=
  match tagsQuery.resolve sch with
  | .error _ => []
  | .ok () => ((s.itemTags.filter (·.itemId = item)).filterMap fun it =>
      Table.lookup Tag.id it.tagId s.tags).map env.columns.labelPlain

def tagDraft (tag : String) : Option Draft :=
  let tag := trimSpace (env.toLower tag)
  if tag = "" then none
  else some ⟨.tag, "\x7b\"tag_label\": " ++ env.quote tag ++ "\x7d", [("tag_label", tag)]⟩

def relDraft (rel : RelSuggestion) : Option Draft :=
  if rel.targetName = "" ∨ rel.relationshipType = "" then none
  else some ⟨.relationship,
    "\x7b\"target_name\": " ++ env.quote (trimSpace rel.targetName) ++
      ", \"relationship_type\": " ++ env.quote (trimSpace rel.relationshipType) ++ "\x7d",
    [("target_name", rel.targetName), ("relationship_type", rel.relationshipType)]⟩

def drafts (result : SuggestionResult) : List Draft :=
  result.tags.filterMap env.tagDraft ++ result.relationships.filterMap env.relDraft

/-- The upsert of a suggestion, with the id it returns. -/
def insertSuggestion (s : State) (now : Time) (newID : Uuid) (item : Uuid) (d : Draft) :
    Option (State × Uuid) := do
  let payload ← env.castJsonb d.payload
  match s.suggestions.find? fun g =>
      g.itemId = item ∧ g.suggestionType = d.suggestionType ∧ g.payload = payload with
  | some g => return (s, g.id)
  | none =>
    if (s.db.item? item).isSome ∧ s.suggestions.all (·.id ≠ newID) then
      return ({ s with
        suggestions := s.suggestions ++
          [⟨newID, item, d.suggestionType, payload, none, none, now⟩] }, newID)
    else none

structure SavedSuggestion where
  id : String
  suggestionType : SuggestionType
  payload : List (String × String)

/-- The two loops; a draft that cannot be stored is left out. -/
def save (now : Time) (item : Uuid) : State → List (Draft × Uuid) → State × List SavedSuggestion
  | s, [] => (s, [])
  | s, (d, newID) :: rest =>
    match env.insertSuggestion s now newID item d with
    | none => save now item s rest
    | some (s, id) =>
      let (s, saved) := save now item s rest
      (s, ⟨id.text, d.suggestionType, d.shown⟩ :: saved)

end Env

def llmNotConfigured : ApiError :=
  ⟨501, errCodeInternal,
    "LLM sağlayıcısı yapılandırılmamış (ENVANTER_LLM_PROVIDER ayarlanmamış)."⟩

/-- `Suggest`, with the ids drawn for its rows. -/
def suggest (sch : Schema) (env : Env) (s : State) (now : Time) (claims : Claims)
    (newID : Nat → Uuid) (itemID : String) : Reply (State × List Env.SavedSuggestion) := do
  let llm ← .orElse env.llm llmNotConfigured
  let item ← .orElse ((metaQuery.resolve sch).toOption.bind fun _ => s.itemByText itemID)
    itemNotFound
  requireFolder s.db now claims item.folderId.text
  let result ← .orElse
    (llm (item.namePlain.getD "") (item.description.getD "") (env.itemType s item)
      (env.existingTags sch s item.id))
    (internalError "LLM önerisi alınamadı.")
  let rows := (env.drafts result).zipIdx.map fun d => (d.1, newID d.2)
  let (s, saved) := env.save now item.id s rows
  return (s.audit ⟨claims.subject.text, "ai.suggestion_generated", "item", itemID⟩, saved)

/-! ## The stored suggestions -/

structure AiSuggestionRow where
  id : String
  itemID : String
  suggestionType : SuggestionType
  payload : String
  acceptedAt : Option Time
  rejectedAt : Option Time
  createdAt : Time
deriving DecidableEq

def AiSuggestion.row (g : AiSuggestion) : AiSuggestionRow :=
  ⟨g.id.text, g.itemId.text, g.suggestionType, g.payload, g.acceptedAt, g.rejectedAt, g.createdAt⟩

/-- The pending suggestions of an item, the newest first. -/
def State.pendingOf (s : State) (item : Uuid) : List AiSuggestion :=
  (s.suggestions.filter fun g => g.itemId = item ∧ g.isPending).mergeSort
    fun g g' => g'.createdAt ≤ g.createdAt

def listSuggestions (s : State) (itemID : String) : Reply (List AiSuggestionRow) := do
  let item ← .orElse (castUuid itemID) (internalError "Öneriler alınamadı.")
  return (s.pendingOf item).map AiSuggestion.row

def notPending : ApiError := ⟨404, errCodeNotFound, "Öneri bulunamadı veya zaten işlendi."⟩

/-- `resolveSuggestion`. -/
def resolveSuggestion (s : State) (now : Time) (claims : Claims) (accept : Bool)
    (itemID sid : String) : Reply State := do
  let suggestion ← .orElse (castUuid sid) notPending
  let item ← .orElse (castUuid itemID) notPending
  let pending (g : AiSuggestion) : Bool := g.id = suggestion ∧ g.itemId = item ∧ g.isPending
  .require (0 < s.suggestions.countP pending) notPending
  let suggestions := Table.updateWhere pending (·.resolve now accept) s.suggestions
  return ({ s with suggestions }).audit
    ⟨claims.subject.text, if accept then "ai.suggestion_accepted" else "ai.suggestion_rejected",
      "item", itemID⟩

/-! ## Requests -/

inductive Request
  /-- whether the update after the answer was made -/
  | health (itemID : String) (cached : Bool)
  | suggest (itemID : String) (newID : Nat → Uuid)
  | list (itemID : String)
  | resolve (accept : Bool) (itemID sid : String)

def Request.itemID : Request → String
  | .health itemID _ | .suggest itemID _ | .list itemID | .resolve _ itemID _ => itemID

structure Call where
  now : Time
  clock : Instants.Instant
  claims : Claims
  request : Request

/-- A request, or anything else that happens to the tables. Nothing else writes
suggestions, but those of a deleted item go with it. -/
inductive Move
  | call (c : Call)
  | outside (s : State)

namespace Call
variable (env : Env) (s : State) (c : Call)

def step : State :=
  match c.request with
  | .health itemID cached =>
    match getHealth s c.now c.clock c.claims itemID, s.itemByText itemID with
    | .ok _, some item => if cached then s.cacheScore c.now c.clock item else s
    | _, _ => s
  | .suggest itemID newID =>
    ((suggest Ansible.schema env s c.now c.claims newID itemID).toOption.map (·.1)).getD s
  | .list _ => s
  | .resolve accept itemID sid =>
    (resolveSuggestion s c.now c.claims accept itemID sid).toOption.getD s

end Call

def step (env : Env) (s : State) : Move → State
  | .call c => c.step env s
  | .outside o =>
    { o with suggestions := s.suggestions.filter fun g => (o.db.item? g.itemId).isSome }

/-! ## What the endpoints owe -/

/-- The path names the suggestion, which is pending. -/
def Named (itemID sid : String) (g : AiSuggestion) : Prop :=
  castUuid sid = some g.id ∧ castUuid itemID = some g.itemId ∧ g.isPending = true

/-- The model is there and answers. -/
def Env.LlmAnswers (env : Env) : Prop :=
  ∃ llm, env.llm = some llm ∧ ∀ name description itemType tags,
    (llm name description itemType tags).isSome = true

namespace Call
variable (env : Env) (s : State) (c : Call)

/-- At least read on the item in the path. -/
def CanRead : Prop :=
  ∃ x, castUuid c.request.itemID = some x ∧ Readable s.db c.now c.claims x

/-- At least read on the folder of that item. -/
def ReadsFolder : Prop :=
  ∃ x item perm, castUuid c.request.itemID = some x ∧ s.db.item? x = some item ∧
    folderPermissionOf s.db c.now c.claims.subject item.folderId = .ok perm ∧
    perm.allowsRead = true

/-- The answer holds data of the item. -/
def Discloses : Prop :=
  match c.request with
  | .health itemID _ => ∃ out, getHealth s c.now c.clock c.claims itemID = .ok out
  | .suggest itemID newID =>
    ∃ out, suggest Ansible.schema env s c.now c.claims newID itemID = .ok out
  | .list itemID => ∃ out, listSuggestions s itemID = .ok out ∧ out ≠ []
  | .resolve accept itemID sid =>
    ∃ s', resolveSuggestion s c.now c.claims accept itemID sid = .ok s'

/-- The request gets what it is for. -/
def Served : Prop :=
  match c.request with
  | .health itemID _ => ∃ out, getHealth s c.now c.clock c.claims itemID = .ok out
  | .suggest itemID newID => env.LlmAnswers →
    ∃ out, suggest Ansible.schema env s c.now c.claims newID itemID = .ok out
  | .list itemID => ∃ out, listSuggestions s itemID = .ok out ∧
    ∀ g ∈ s.suggestions, castUuid itemID = some g.itemId → g.isPending = true → g.row ∈ out
  | .resolve accept itemID sid => (∃ g ∈ s.suggestions, Named itemID sid g) →
    ∃ s', resolveSuggestion s c.now c.claims accept itemID sid = .ok s'

/-- The endpoint follows the permission of a caller who is no administrator. -/
structure Follows : Prop where
  discloses : c.Discloses env s → c.CanRead s
  changes : c.step env s ≠ s → c.CanRead s
  serves : c.ReadsFolder s → c.Served env s

/-- The id is spelled as the server spells it, nothing is asked of the model, and what
would be listed or resolved is of an item the caller can read. -/
def Covered : Prop :=
  match c.request with
  | .health itemID _ => c.ReadsFolder s → ∃ x : Uuid, itemID = x.text
  | .suggest _ _ => env.LlmAnswers → ¬ c.ReadsFolder s
  | .list itemID => (∃ g ∈ s.suggestions, castUuid itemID = some g.itemId ∧ g.isPending = true) →
    c.CanRead s
  | .resolve _ itemID sid => (∃ g ∈ s.suggestions, Named itemID sid g) → c.CanRead s

/-- No row changes but the pending one in the path, and nothing else does. -/
structure ResolvesOnly (s' : State) (accept : Bool) (itemID sid : String) : Prop where
  rows : List.Forall₂ (fun g g' => g' = g ∨ Named itemID sid g ∧ g' = g.resolve c.now accept)
    s.suggestions s'.suggestions
  rest : ∃ log, s' = { s with
    suggestions := s'.suggestions, db := { s.db with auditLog := log } }

end Call

namespace Move
variable (env : Env) (s : State)

def Follows : Move → Prop
  | .call c => c.claims.hasRole .admin = false → c.Follows env s
  | .outside _ => True

def Covered : Move → Prop
  | .call c => c.claims.hasRole .admin = false → c.Covered env s
  | .outside _ => True

/-- Whoever accepts or rejects. -/
def ResolvesOnly : Move → Prop
  | .call c => ∀ accept itemID sid, c.request = .resolve accept itemID sid →
    c.ResolvesOnly s (c.step env s) accept itemID sid
  | .outside _ => True

/-- One for an accept or a reject of this suggestion that succeeds. -/
def resolutions (item suggestion : Uuid) : Move → Nat
  | .call c =>
    match c.request with
    | .resolve accept itemID sid =>
      if castUuid itemID = some item ∧ castUuid sid = some suggestion ∧
        (resolveSuggestion s c.now c.claims accept itemID sid).isOk = true then 1 else 0
    | _ => 0
  | .outside _ => 0

end Move

section Proofs

variable {env : Env} {s : State} {now : Time} {claims : Claims}

/-! ## The folder and the item -/

/-- Whoever can read the folder can read its items. -/
theorem readable_of_folder {x : Uuid} {item : Item} {perm : Perm} (hitem : s.db.item? x = some item)
    (hfolder : folderPermissionOf s.db now claims.subject item.folderId = .ok perm)
    (hperm : perm.allowsRead = true) : Readable s.db now claims x := by
  simp only [Readable, itemPermissionOf, hitem, hfolder]
  split
  · exact ⟨.write, rfl, rfl⟩
  · split
    · exact ⟨.write, rfl, rfl⟩
    · split
      · exact ⟨.write, rfl, rfl⟩
      · exact ⟨_, rfl, by simp [maxItemPerm_allowsRead, hperm]⟩

theorem requireFolder_eq_ok (hadmin : claims.hasRole .admin = false) {folder : Uuid} {u : Unit} :
    requireFolder s.db now claims folder.text = .ok u ↔
      ∃ perm, folderPermissionOf s.db now claims.subject folder = .ok perm ∧
        perm.allowsRead = true := by
  simp only [requireFolder, Reply.unlessAdmin_eq_ok, hadmin, Bool.false_eq_true, false_or,
    resolveFolderPermission_of_cast (castUuid_text folder), Perm.allowsRead_iff]
  cases folderPermissionOf s.db now claims.subject folder <;> simp

theorem itemByText_text (x : Uuid) : s.itemByText x.text = s.db.item? x := by
  have hsame :
      (fun i : Item => decide (i.id.text = x.text)) = fun i : Item => decide (i.id = x) := by
    funext i
    exact decide_eq_decide.mpr ⟨Uuid.text_injective, congrArg Uuid.text⟩
  simp only [State.itemByText, DB.item?, Table.lookup, hsame]

theorem itemByText_eq_some {itemID : String} {item : Item} (h : s.itemByText itemID = some item) :
    itemID = item.id.text ∧ s.db.item? item.id = some item := by
  have htext : item.id.text = itemID := by simpa using List.find?_some h
  subst htext
  rw [itemByText_text] at h
  exact ⟨rfl, h⟩

/-- The caller can read the folder of the item that is found. -/
def FoundReadable (s : State) (now : Time) (claims : Claims) (itemID : String) : Prop :=
  ∃ item perm, s.itemByText itemID = some item ∧
    folderPermissionOf s.db now claims.subject item.folderId = .ok perm ∧ perm.allowsRead = true

theorem FoundReadable.canRead {c : Call} (h : FoundReadable s c.now c.claims c.request.itemID) :
    c.CanRead s := by
  obtain ⟨item, perm, hfound, hfolder, hperm⟩ := h
  obtain ⟨htext, hitem⟩ := itemByText_eq_some hfound
  exact ⟨item.id, by rw [htext, castUuid_text], readable_of_folder hitem hfolder hperm⟩

/-! ## Health -/

theorem getHealth_isOk (hadmin : claims.hasRole .admin = false) {clock : Instants.Instant}
    {itemID : String} :
    (∃ out, getHealth s now clock claims itemID = .ok out) ↔
      FoundReadable s now claims itemID := by
  simp only [getHealth, Reply.bind_eq_ok, Reply.orElse_eq_ok, requireFolder_eq_ok hadmin,
    Reply.pure_eq_ok]
  constructor
  · rintro ⟨_, item, hfound, _, ⟨perm, hfolder, hperm⟩, _⟩
    exact ⟨item, perm, hfound, hfolder, hperm⟩
  · rintro ⟨item, perm, hfound, hfolder, hperm⟩
    exact ⟨_, item, hfound, (), ⟨perm, hfolder, hperm⟩, rfl⟩

theorem health_follows_iff (c : Call) (hadmin : c.claims.hasRole .admin = false) {itemID : String}
    {cached : Bool} (hc : c.request = .health itemID cached) :
    c.Follows env s ↔ c.Covered env s := by
  have hID : c.request.itemID = itemID := by rw [hc]; rfl
  have hread : (∃ out, getHealth s c.now c.clock c.claims itemID = .ok out) → c.CanRead s := by
    intro hok
    exact (hID ▸ (getHealth_isOk hadmin).mp hok : FoundReadable s c.now c.claims _).canRead
  simp only [Call.Covered, hc]
  constructor
  · intro h hfolder
    have hok := h.serves hfolder
    simp only [Call.Served, hc] at hok
    obtain ⟨item, _, hfound, _⟩ := (getHealth_isOk hadmin).mp hok
    exact ⟨item.id, (itemByText_eq_some hfound).1⟩
  · intro h
    refine ⟨by simpa only [Call.Discloses, hc] using hread, ?_, ?_⟩
    · intro hchanged
      by_contra hno
      have hfail : ∀ out, getHealth s c.now c.clock c.claims itemID ≠ .ok out :=
        fun out hout => hno (hread ⟨out, hout⟩)
      apply hchanged
      simp only [Call.step, hc]
      split
      · next hok _ => exact absurd hok (hfail _)
      · rfl
    · intro hfolder
      obtain ⟨x, rfl⟩ := h hfolder
      obtain ⟨y, item, perm, hcast, hitem, hperm⟩ := hfolder
      rw [hID, castUuid_text] at hcast
      cases hcast
      simp only [Call.Served, hc]
      exact (getHealth_isOk hadmin).mpr ⟨item, perm, (itemByText_text x).trans hitem, hperm⟩

/-! ## Suggest -/

/-- No migration creates `item_types.name`. -/
theorem metaQuery_refused : (metaQuery.resolve Ansible.schema).toOption = none := by
  have href : ("it", "name") ∈ metaQuery.refs := by simp [metaQuery]
  have htable : metaQuery.tableOf "it" = some "item_types" := by
    simp [metaQuery, Select.tableOf]
  have hnone : ∀ d ∈ Ansible.migrations, d.declares "item_types" "name" = false := by
    simp [Ansible.migrations, SqlNames.Ddl.declares]
  obtain ⟨e, he⟩ := SqlNames.Select.resolve_migrate_ne_ok href htable hnone
  rw [Ansible.schema, he]
  rfl

/-- `Suggest` never gets past its first statement. -/
theorem suggest_fails (newID : Nat → Uuid) (itemID : String)
    (out : State × List Env.SavedSuggestion) :
    suggest Ansible.schema env s now claims newID itemID ≠ .ok out := by
  simp [suggest, metaQuery_refused]

theorem suggest_follows_iff (c : Call) {itemID : String} {newID : Nat → Uuid}
    (hc : c.request = .suggest itemID newID) : c.Follows env s ↔ c.Covered env s := by
  have hfails := @suggest_fails env s c.now c.claims newID itemID
  have hnone : (suggest Ansible.schema env s c.now c.claims newID itemID).toOption = none := by
    cases h : suggest Ansible.schema env s c.now c.claims newID itemID with
    | error e => rfl
    | ok out => exact absurd h (hfails out)
  simp only [Call.Covered, hc]
  constructor
  · intro h hllm hfolder
    have hok := h.serves hfolder
    simp only [Call.Served, hc] at hok
    obtain ⟨out, hout⟩ := hok hllm
    exact hfails out hout
  · intro h
    refine ⟨?_, ?_, ?_⟩
    · simp only [Call.Discloses, hc]
      rintro ⟨out, hout⟩
      exact absurd hout (hfails out)
    · intro hchanged
      simp [Call.step, hc, hnone] at hchanged
    · intro hfolder
      simp only [Call.Served, hc]
      intro hllm
      exact absurd hfolder (h hllm)

/-! ## Lists -/

theorem listSuggestions_eq_ok {itemID : String} {out : List AiSuggestionRow} :
    listSuggestions s itemID = .ok out ↔
      ∃ x, castUuid itemID = some x ∧ (s.pendingOf x).map AiSuggestion.row = out := by
  simp only [listSuggestions, Reply.bind_eq_ok, Reply.orElse_eq_ok, Reply.pure_eq_ok]

theorem mem_pendingOf {x : Uuid} {g : AiSuggestion} :
    g ∈ s.pendingOf x ↔ g ∈ s.suggestions ∧ g.itemId = x ∧ g.isPending = true := by
  rw [State.pendingOf, List.mem_mergeSort, List.mem_filter, decide_eq_true_eq]

theorem list_follows_iff (c : Call) {itemID : String} (hc : c.request = .list itemID) :
    c.Follows env s ↔ c.Covered env s := by
  have hID : c.request.itemID = itemID := by rw [hc]; rfl
  have hdiscloses : c.Discloses env s ↔
      ∃ g ∈ s.suggestions, castUuid itemID = some g.itemId ∧ g.isPending = true := by
    simp only [Call.Discloses, hc, listSuggestions_eq_ok]
    constructor
    · rintro ⟨out, ⟨x, hcast, rfl⟩, hne⟩
      obtain ⟨g, hg⟩ := List.exists_mem_of_ne_nil (s.pendingOf x) (by simpa using hne)
      obtain ⟨hmem, rfl, hpending⟩ := mem_pendingOf.mp hg
      exact ⟨g, hmem, hcast, hpending⟩
    · rintro ⟨g, hmem, hcast, hpending⟩
      have hg : g ∈ s.pendingOf g.itemId := mem_pendingOf.mpr ⟨hmem, rfl, hpending⟩
      exact ⟨_, ⟨_, hcast, rfl⟩, List.ne_nil_of_mem (List.mem_map_of_mem hg)⟩
  simp only [Call.Covered, hc]
  constructor
  · intro h hsome
    exact h.discloses (hdiscloses.mpr hsome)
  · intro h
    refine ⟨fun hsome => h (hdiscloses.mp hsome), ?_, ?_⟩
    · intro hchanged
      simp [Call.step, hc] at hchanged
    · rintro ⟨x, item, perm, hcast, -⟩
      rw [hID] at hcast
      simp only [Call.Served, hc]
      refine ⟨_, listSuggestions_eq_ok.mpr ⟨x, hcast, rfl⟩, ?_⟩
      intro g hmem hitem hpending
      rw [hcast, Option.some.injEq] at hitem
      exact List.mem_map_of_mem (mem_pendingOf.mpr ⟨hmem, hitem.symm, hpending⟩)

/-! ## Accepts and rejects -/

section Resolve

variable {accept : Bool} {itemID sid : String}

/-- The `WHERE` of the UPDATE. -/
def isNamed (itemID sid : String) (g : AiSuggestion) : Bool :=
  castUuid sid = some g.id ∧ castUuid itemID = some g.itemId ∧ g.isPending

theorem isNamed_iff {g : AiSuggestion} : isNamed itemID sid g = true ↔ Named itemID sid g := by
  simp [isNamed, Named]

/-- An accept or a reject that succeeds writes to the rows that are named, and logs it. -/
theorem resolveSuggestion_eq_ok {s' : State} :
    resolveSuggestion s now claims accept itemID sid = .ok s' ↔
      (∃ g ∈ s.suggestions, Named itemID sid g) ∧
        s' = ({ s with suggestions :=
          Table.updateWhere (isNamed itemID sid) (·.resolve now accept) s.suggestions }).audit
            ⟨claims.subject.text,
              if accept then "ai.suggestion_accepted" else "ai.suggestion_rejected", "item",
              itemID⟩ := by
  simp only [resolveSuggestion, Reply.bind_eq_ok, Reply.orElse_eq_ok, Reply.require_eq_ok,
    Reply.pure_eq_ok]
  have hwhere {suggestion item : Uuid} (hsid : castUuid sid = some suggestion)
      (hitem : castUuid itemID = some item) :
      (fun g : AiSuggestion => decide (g.id = suggestion ∧ g.itemId = item ∧ g.isPending = true)) =
        isNamed itemID sid := by
    funext g
    simp only [isNamed, hsid, hitem, Option.some.injEq, @eq_comm _ suggestion, @eq_comm _ item]
  have hcount : 0 < s.suggestions.countP (isNamed itemID sid) ↔
      ∃ g ∈ s.suggestions, Named itemID sid g := by
    simp only [List.countP_pos_iff, isNamed_iff]
  constructor
  · rintro ⟨suggestion, hsid, item, hitem, _, hpos, rfl⟩
    rw [hwhere hsid hitem] at hpos ⊢
    exact ⟨hcount.mp hpos, rfl⟩
  · rintro ⟨⟨g, hg, hnamed⟩, rfl⟩
    have hsid := hnamed.1
    have hitem := hnamed.2.1
    refine ⟨g.id, hsid, g.itemId, hitem, (), ?_⟩
    rw [hwhere hsid hitem]
    exact ⟨hcount.mpr ⟨g, hg, hnamed⟩, rfl⟩

theorem resolveSuggestion_isOk :
    (∃ s', resolveSuggestion s now claims accept itemID sid = .ok s') ↔
      ∃ g ∈ s.suggestions, Named itemID sid g := by
  constructor
  · rintro ⟨s', h⟩
    exact (resolveSuggestion_eq_ok.mp h).1
  · intro h
    exact ⟨_, resolveSuggestion_eq_ok.mpr ⟨h, rfl⟩⟩

theorem resolve_follows_iff (c : Call) (hc : c.request = .resolve accept itemID sid) :
    c.Follows env s ↔ c.Covered env s := by
  have hok := @resolveSuggestion_isOk s c.now c.claims accept itemID sid
  simp only [Call.Covered, hc]
  constructor
  · intro h hsome
    apply h.discloses
    simp only [Call.Discloses, hc]
    exact hok.mpr hsome
  · intro h
    refine ⟨?_, ?_, ?_⟩
    · simp only [Call.Discloses, hc]
      intro hsome
      exact h (hok.mp hsome)
    · intro hchanged
      simp only [Call.step, hc] at hchanged
      cases hr : resolveSuggestion s c.now c.claims accept itemID sid with
      | error e =>
        rw [hr] at hchanged
        exact absurd rfl hchanged
      | ok s' => exact h (hok.mp ⟨s', hr⟩)
    · intro _
      simp only [Call.Served, hc]
      exact hok.mpr

theorem call_resolvesOnly (c : Call) (hc : c.request = .resolve accept itemID sid) :
    c.ResolvesOnly s (c.step env s) accept itemID sid := by
  simp only [Call.step, hc]
  cases h : resolveSuggestion s c.now c.claims accept itemID sid with
  | error e => exact ⟨List.forall₂_same.mpr fun g _ => .inl rfl, _, rfl⟩
  | ok s' =>
    obtain ⟨-, rfl⟩ := resolveSuggestion_eq_ok.mp h
    refine ⟨(Table.forall₂_updateWhere _ _ _).imp ?_, _, rfl⟩
    intro g g' hg
    rwa [isNamed_iff] at hg

end Resolve

/-! ## At most one resolution -/

/-- No suggestion of this id and item is pending. -/
def NonePending (item suggestion : Uuid) (s : State) : Prop :=
  ∀ g ∈ s.suggestions, g.id = suggestion → g.itemId = item → g.isPending = false

theorem isPending_of_updateWhere {item suggestion : Uuid} {rows : List AiSuggestion} {now : Time}
    {accept : Bool} {p : AiSuggestion → Bool} (g : AiSuggestion)
    (h : ∀ g ∈ rows, g.id = suggestion → g.itemId = item → g.isPending = true → p g = true)
    (hg : g ∈ Table.updateWhere p (·.resolve now accept) rows) (hid : g.id = suggestion)
    (hitem : g.itemId = item) : g.isPending = false := by
  obtain ⟨g₀, hg₀, rfl⟩ := Table.mem_updateWhere.mp hg
  by_cases hp : p g₀ = true
  · rw [if_pos hp]
    exact AiSuggestion.isPending_resolve now accept g₀
  · rw [if_neg hp] at hid hitem ⊢
    by_contra hpending
    exact hp (h g₀ hg₀ hid hitem (by simpa using hpending))

/-- The moves add no suggestion and make none pending again. -/
theorem nonePending_step {item suggestion : Uuid} (h : NonePending item suggestion s) (m : Move) :
    NonePending item suggestion (step env s m) := by
  cases m with
  | outside o =>
    intro g hg
    exact h g (List.mem_of_mem_filter hg)
  | call c =>
    cases hc : c.request with
    | health itemID cached =>
      have hsame : (c.step env s).suggestions = s.suggestions := by
        simp only [Call.step, hc]
        split
        · split <;> rfl
        · rfl
      intro g hg
      exact h g (hsame ▸ hg)
    | suggest itemID newID =>
      have hnone : (suggest Ansible.schema env s c.now c.claims newID itemID).toOption = none := by
        cases hr : suggest Ansible.schema env s c.now c.claims newID itemID with
        | error e => rfl
        | ok out => exact absurd hr (suggest_fails newID itemID out)
      have hsame : c.step env s = s := by simp [Call.step, hc, hnone]
      intro g hg
      exact h g (hsame ▸ hg)
    | list itemID =>
      have hsame : c.step env s = s := by simp only [Call.step, hc]
      intro g hg
      exact h g (hsame ▸ hg)
    | resolve accept itemID sid =>
      intro g hg hid hitem
      simp only [step, Call.step, hc] at hg
      cases hr : resolveSuggestion s c.now c.claims accept itemID sid with
      | error e =>
        rw [hr] at hg
        exact h g hg hid hitem
      | ok s' =>
        rw [hr] at hg
        obtain ⟨-, rfl⟩ := resolveSuggestion_eq_ok.mp hr
        refine isPending_of_updateWhere g ?_ hg hid hitem
        intro g hg hid hitem hpending
        rw [h g hg hid hitem] at hpending
        cases hpending

theorem nonePending_of_resolutions {item suggestion : Uuid} {m : Move}
    (h : m.resolutions s item suggestion ≠ 0) : NonePending item suggestion (step env s m) := by
  cases m with
  | outside o => exact absurd rfl h
  | call c =>
    cases hc : c.request with
    | resolve accept itemID sid =>
      simp only [Move.resolutions, hc] at h
      obtain ⟨hitem, hsid, hok⟩ := of_not_not fun hn => h (if_neg hn)
      obtain ⟨s', hr⟩ : ∃ s', resolveSuggestion s c.now c.claims accept itemID sid = .ok s' := by
        cases hr : resolveSuggestion s c.now c.claims accept itemID sid with
        | error e =>
          rw [hr] at hok
          cases hok
        | ok s' => exact ⟨s', rfl⟩
      have hstep : c.step env s = s' := by
        simp only [Call.step, hc, hr]
        rfl
      obtain ⟨-, hs'⟩ := resolveSuggestion_eq_ok.mp hr
      intro g hg hid hgitem
      change g ∈ (c.step env s).suggestions at hg
      rw [hstep, hs'] at hg
      refine isPending_of_updateWhere g ?_ hg hid hgitem
      intro g hg hid hgitem hpending
      exact isNamed_iff.mpr ⟨hid ▸ hsid, hgitem ▸ hitem, hpending⟩
    | health | suggest | list =>
      simp only [Move.resolutions, hc] at h
      exact absurd rfl h

theorem resolutions_eq_zero {item suggestion : Uuid} (h : NonePending item suggestion s)
    (m : Move) : m.resolutions s item suggestion = 0 := by
  cases m with
  | outside o => rfl
  | call c =>
    cases hc : c.request with
    | resolve accept itemID sid =>
      simp only [Move.resolutions, hc]
      apply if_neg
      rintro ⟨hitem, hsid, hok⟩
      cases hr : resolveSuggestion s c.now c.claims accept itemID sid with
      | error e =>
        rw [hr] at hok
        cases hok
      | ok s' =>
        obtain ⟨⟨g, hg, hgsid, hgitem, hpending⟩, -⟩ := resolveSuggestion_eq_ok.mp hr
        rw [hsid, Option.some.injEq] at hgsid
        rw [hitem, Option.some.injEq] at hgitem
        rw [h g hg hgsid.symm hgitem.symm] at hpending
        cases hpending
    | health | suggest | list => simp only [Move.resolutions, hc]

theorem resolutions_le_one (s : State) (item suggestion : Uuid) (m : Move) :
    m.resolutions s item suggestion ≤ 1 := by
  cases m with
  | outside o => exact Nat.zero_le 1
  | call c =>
    simp only [Move.resolutions]
    split
    · split <;> omega
    · omega

/-! ## Every run -/

theorem follows_iff (env : Env) (s : State) (m : Move) : m.Follows env s ↔ m.Covered env s := by
  cases m with
  | outside o => exact Iff.rfl
  | call c =>
    refine forall_congr' fun hadmin => ?_
    cases hc : c.request with
    | health itemID cached => exact health_follows_iff c hadmin hc
    | suggest itemID newID => exact suggest_follows_iff c hc
    | list itemID => exact list_follows_iff c hc
    | resolve accept itemID sid => exact resolve_follows_iff c hc

theorem move_resolvesOnly (env : Env) (s : State) (m : Move) : m.ResolvesOnly env s := by
  cases m with
  | outside o => trivial
  | call c =>
    intro accept itemID sid hc
    exact call_resolvesOnly c hc

end Proofs

/-! ## Suggestions for an item of somebody else -/

/-- The item 8 of the user 2 has a suggestion. -/
def suggestedState : State where
  toCatalogState := bareCatalog {
    users := [sampleUser 1 "ada", sampleUser 2 "bob"]
    folders := [sampleFolder 4 2]
    items := [sampleItem 8 4 2] }
  bindings := []
  suggestions :=
    [⟨Uuid.ofNat 9, Uuid.ofNat 8, .tag, "\x7b\"tag_label\": \"production\"\x7d", none, none, 0⟩]

def silentEnv : Env := ⟨none, id, id, some, fun _ => "", fun _ => ""⟩

def rejectForeign : Call :=
  ⟨0, .ofMicros 63800000000000000 (by decide), ⟨Uuid.ofNat 1, []⟩,
    .resolve false (Uuid.ofNat 8).text (Uuid.ofNat 9).text⟩

end IronStock.Metadata

import IronStock.ApprovalGate

/-!
# Tags on items

`POST` and `DELETE /api/v1/items/{id}/tags`. A tag is a personal label of the user
who created it, and the two handlers differ in what they ask of the caller before
they write to `item_tags`.
-/
namespace IronStock.Tags

/-! ## The tables -/

structure Tag where
  id : Uuid
  name : String
  createdBy : Uuid
deriving DecidableEq

structure ItemTag where
  itemId : Uuid
  tagId : Uuid
  taggedBy : Option Uuid
deriving DecidableEq

structure State where
  db : DB
  tags : List Tag
  itemTags : List ItemTag

namespace State
variable (s : State)

/-- The primary keys of `item_tags`. -/
def pairs : List (Uuid × Uuid) := s.itemTags.map fun t => (t.itemId, t.tagId)

def tag? (id : Uuid) : Option Tag := Table.lookup Tag.id id s.tags

/-- The tag is a label of this user. -/
def owns (user tag : Uuid) : Prop := (s.tag? tag).any (·.createdBy = user) = true

instance (user tag : Uuid) : Decidable (s.owns user tag) :=
  inferInstanceAs (Decidable (_ = true))

/-- `INSERT INTO item_tags … ON CONFLICT DO NOTHING`. A row that is added refers
to an item, a tag and a user. -/
def insertItemTag (item tag user : Uuid) : Option State :=
  if (item, tag) ∈ s.pairs then some s
  else if (s.db.item? item).isSome ∧ (s.tag? tag).isSome ∧ (s.db.user? user).isSome then
    some { s with itemTags := s.itemTags ++ [⟨item, tag, some user⟩] }
  else none

/-- `DELETE FROM item_tags WHERE item_id = $1 AND tag_id = $2`. -/
def deleteItemTag (item tag : Uuid) : State :=
  { s with itemTags := Table.deleteWhere (fun t => t.itemId = item ∧ t.tagId = tag) s.itemTags }

def audit (e : AuditEntry) : State := { s with db := s.db.audit e }

end State

/-! ## The handlers -/

def addItemTag (s : State) (now : Time) (claims : Claims) (itemID tagID : String) :
    Reply State := do
  .require (tagID ≠ "") (badRequest "tag_id zorunlu.")
  .unlessAdmin claims
    (requireItemRead s.db now claims itemID ⟨404, errCodeBadRequest, "Item bulunamadı."⟩)
  let s ← .orElse
    ((castUuid itemID).bind fun item => (castUuid tagID).bind fun tag =>
      s.insertItemTag item tag claims.subject)
    (internalError "Etiket eklenemedi.")
  pure (s.audit ⟨claims.subject.text, "item.tagged", "item", itemID⟩)

def removeItemTag (s : State) (claims : Claims) (itemID tagID : String) : Reply State := do
  let s ← .orElse
    ((castUuid itemID).bind fun item => (castUuid tagID).map fun tag => s.deleteItemTag item tag)
    (internalError "Etiket kaldırılamadı.")
  pure (s.audit ⟨claims.subject.text, "item.untagged", "item", itemID⟩)

inductive Request
  | add (itemID tagID : String)
  | remove (itemID tagID : String)
deriving DecidableEq

namespace Request

/-- The pair in the path and the body of the request. -/
def names : Request → Uuid × Uuid → Prop
  | .add itemID tagID, p | .remove itemID tagID, p =>
    castUuid itemID = some p.1 ∧ castUuid tagID = some p.2

def handle (s : State) (now : Time) (claims : Claims) : Request → Reply State
  | .add itemID tagID => addItemTag s now claims itemID tagID
  | .remove itemID tagID => removeItemTag s claims itemID tagID

/-- The state after the request, whatever its answer. -/
def step (s : State) (now : Time) (claims : Claims) (req : Request) : State :=
  (req.handle s now claims).toOption.getD s

end Request

/-! ## What changes -/

variable {s : State} {now : Time} {claims : Claims}

/-- The pair is in one of the states only. -/
def Changed (s s' : State) (p : Uuid × Uuid) : Prop := ¬ (p ∈ s'.pairs ↔ p ∈ s.pairs)

/-- A pair changes only where the request names it and the caller has the right:
the tag is a label of the caller, who has at least read on the item. -/
def Rightful (s : State) (now : Time) (claims : Claims) (req : Request) : Prop :=
  ∀ p, Changed s (req.step s now claims) p →
    req.names p ∧ s.owns claims.subject p.2 ∧ Readable s.db now claims p.1

/-- The condition under which a request of a caller without the admin role is
rightful. A tag of another user is not put on an item if it is there already, or
if the request comes to nothing: the item is not readable, or there is no such
tag, or no account of the caller any more. A tag that is there is removed by
nobody but its owner, while the item is readable. -/
def Admissible (s : State) (now : Time) (claims : Claims) : Request → Prop
  | .add itemID tagID => ∀ item tag, castUuid itemID = some item →
      castUuid tagID = some tag → s.owns claims.subject tag ∨ (item, tag) ∈ s.pairs ∨
        ¬ Readable s.db now claims item ∨ s.tag? tag = none ∨
        s.db.user? claims.subject = none
  | .remove itemID tagID => ∀ item tag, castUuid itemID = some item →
      castUuid tagID = some tag → (item, tag) ∉ s.pairs ∨
        (s.owns claims.subject tag ∧ Readable s.db now claims item)

theorem mem_pairs_delete {item tag : Uuid} {p : Uuid × Uuid} :
    p ∈ (s.deleteItemTag item tag).pairs ↔ p ∈ s.pairs ∧ p ≠ (item, tag) := by
  simp only [State.pairs, State.deleteItemTag, List.mem_map, Table.mem_deleteWhere]
  constructor
  · rintro ⟨t, ⟨ht, hne⟩, rfl⟩
    exact ⟨⟨t, ht, rfl⟩, by simpa using hne⟩
  · rintro ⟨⟨t, ht, rfl⟩, hne⟩
    exact ⟨t, ⟨ht, by simpa using hne⟩, rfl⟩

theorem pairs_insert {item tag user : Uuid} {s' : State}
    (h : s.insertItemTag item tag user = some s') (p : Uuid × Uuid) :
    p ∈ s'.pairs ↔ p ∈ s.pairs ∨ p = (item, tag) := by
  unfold State.insertItemTag at h
  split at h
  · next hmem =>
    cases h
    constructor
    · exact .inl
    · rintro (hp | rfl)
      · exact hp
      · exact hmem
  · split at h
    · cases h
      simp [State.pairs]
    · cases h

/-- A readable item is there, and a request that passes adds a pair unless a row
that it refers to is missing. -/
theorem insertItemTag_isSome {item tag : Uuid} (hitem : (s.db.item? item).isSome = true)
    (htag : s.tag? tag ≠ none) (huser : s.db.user? claims.subject ≠ none) :
    ∃ s', s.insertItemTag item tag claims.subject = some s' := by
  unfold State.insertItemTag
  split
  · exact ⟨s, rfl⟩
  · rw [if_pos ⟨hitem, Option.isSome_iff_ne_none.2 htag, Option.isSome_iff_ne_none.2 huser⟩]
    exact ⟨_, rfl⟩

/-- A pair that is added has its rows. -/
theorem rows_of_insert {item tag user : Uuid} {s' : State}
    (h : s.insertItemTag item tag user = some s') (hnew : (item, tag) ∉ s.pairs) :
    s.tag? tag ≠ none ∧ s.db.user? user ≠ none := by
  unfold State.insertItemTag at h
  rw [if_neg hnew] at h
  split at h
  · next hrows =>
    exact ⟨Option.isSome_iff_ne_none.1 hrows.2.1, Option.isSome_iff_ne_none.1 hrows.2.2⟩
  · cases h

theorem item_of_readable {x : Uuid} (h : Readable s.db now claims x) :
    (s.db.item? x).isSome = true := by
  obtain ⟨perm, hperm, hread⟩ := h
  unfold itemPermissionOf at hperm
  split at hperm
  · cases hperm
    cases hread
  · next item hitem =>
    rw [hitem]
    rfl

/-! ## The two handlers -/

theorem addItemTag_eq_ok (hrole : claims.hasRole .admin = false) {itemID tagID : String}
    {s' : State} :
    addItemTag s now claims itemID tagID = .ok s' ↔
      ∃ item tag t, castUuid itemID = some item ∧ castUuid tagID = some tag ∧
        Readable s.db now claims item ∧ s.insertItemTag item tag claims.subject = some t ∧
        t.audit ⟨claims.subject.text, "item.tagged", "item", itemID⟩ = s' := by
  have hcast : ∀ {item denied}, castUuid itemID = some item →
      (requireItemRead s.db now claims itemID denied = .ok () ↔
        Readable s.db now claims item) := fun h => requireItemRead_iff h
  have hne : ∀ {tag}, castUuid tagID = some tag → tagID ≠ "" := by
    rintro tag h rfl
    simp at h
  simp only [addItemTag, Reply.bind_eq_ok, Reply.require_eq_ok, Reply.unlessAdmin_eq_ok, hrole,
    Bool.false_eq_true, false_or, Reply.orElse_eq_ok, Option.bind_eq_some_iff, Reply.pure_eq_ok]
  constructor
  · rintro ⟨-, -, -, hread, t, ⟨item, hitem, tag, htag, ht⟩, hs'⟩
    exact ⟨item, tag, t, hitem, htag, (hcast hitem).1 hread, ht, hs'⟩
  · rintro ⟨item, tag, t, hitem, htag, hread, ht, hs'⟩
    exact ⟨(), hne htag, (), (hcast hitem).2 hread, t, ⟨item, hitem, tag, htag, ht⟩, hs'⟩

theorem removeItemTag_eq_ok {itemID tagID : String} {s' : State} :
    removeItemTag s claims itemID tagID = .ok s' ↔
      ∃ item tag, castUuid itemID = some item ∧ castUuid tagID = some tag ∧
        (s.deleteItemTag item tag).audit
          ⟨claims.subject.text, "item.untagged", "item", itemID⟩ = s' := by
  simp only [removeItemTag, Reply.bind_eq_ok, Reply.orElse_eq_ok, Option.bind_eq_some_iff,
    Option.map_eq_some_iff, Reply.pure_eq_ok]
  constructor
  · rintro ⟨t, ⟨item, hitem, tag, htag, rfl⟩, hs'⟩
    exact ⟨item, tag, hitem, htag, hs'⟩
  · rintro ⟨item, tag, hitem, htag, hs'⟩
    exact ⟨_, ⟨item, hitem, tag, htag, rfl⟩, hs'⟩

/-- A request that is refused changes no pair. -/
theorem step_error {req : Request} {e : ApiError} (h : req.handle s now claims = .error e) :
    req.step s now claims = s := by
  rw [Request.step, h]
  rfl

theorem step_ok {req : Request} {s' : State} (h : req.handle s now claims = .ok s') :
    req.step s now claims = s' := by
  rw [Request.step, h]
  rfl

theorem names_iff {itemID tagID : String} {item tag : Uuid} (hitem : castUuid itemID = some item)
    (htag : castUuid tagID = some tag) (p : Uuid × Uuid) :
    (castUuid itemID = some p.1 ∧ castUuid tagID = some p.2) ↔ p = (item, tag) := by
  rw [hitem, htag, Prod.ext_iff]
  simp [eq_comm]

/-- What an add changes: the pair it names, if that is new and the request passes. -/
theorem changed_add (hrole : claims.hasRole .admin = false) {itemID tagID : String}
    {p : Uuid × Uuid} :
    Changed s ((Request.add itemID tagID).step s now claims) p ↔
      (Request.add itemID tagID).names p ∧ p ∉ s.pairs ∧
        Readable s.db now claims p.1 ∧ s.tag? p.2 ≠ none ∧
        s.db.user? claims.subject ≠ none := by
  cases hreply : (Request.add itemID tagID).handle s now claims with
  | error e =>
    rw [step_error hreply]
    constructor
    · intro h
      exact absurd Iff.rfl h
    · rintro ⟨⟨hitem, htag⟩, hnew, hread, hrow, huser⟩
      obtain ⟨t, ht⟩ := insertItemTag_isSome (item_of_readable hread) hrow huser
      have hok : addItemTag s now claims itemID tagID = .ok _ :=
        (addItemTag_eq_ok hrole).2 ⟨p.1, p.2, t, hitem, htag, hread, ht, rfl⟩
      rw [Request.handle, hok] at hreply
      cases hreply
  | ok s' =>
    rw [step_ok hreply]
    rw [Request.handle, addItemTag_eq_ok hrole] at hreply
    obtain ⟨item, tag, t, hitem, htag, hread, ht, rfl⟩ := hreply
    have hpairs : p ∈ (t.audit ⟨claims.subject.text, "item.tagged", "item", itemID⟩).pairs ↔
        p ∈ s.pairs ∨ p = (item, tag) := pairs_insert ht p
    rw [Changed, hpairs, Request.names, names_iff hitem htag]
    constructor
    · intro h
      have hnew : p ∉ s.pairs := fun hp => h ⟨fun _ => hp, .inl⟩
      have heq : p = (item, tag) := by
        by_contra hne
        exact h ⟨fun h' => h'.resolve_right hne, .inl⟩
      subst heq
      exact ⟨rfl, hnew, hread, rows_of_insert ht hnew⟩
    · rintro ⟨heq, hnew, -⟩ h
      exact hnew (h.1 (.inr heq))

/-- What a removal changes: the pair it names, if that is there. -/
theorem changed_remove {itemID tagID : String} {p : Uuid × Uuid} :
    Changed s ((Request.remove itemID tagID).step s now claims) p ↔
      (Request.remove itemID tagID).names p ∧ p ∈ s.pairs := by
  cases hreply : (Request.remove itemID tagID).handle s now claims with
  | error e =>
    rw [step_error hreply]
    constructor
    · intro h
      exact absurd Iff.rfl h
    · rintro ⟨⟨hitem, htag⟩, -⟩
      have hok : removeItemTag s claims itemID tagID = .ok _ :=
        removeItemTag_eq_ok.2 ⟨p.1, p.2, hitem, htag, rfl⟩
      rw [Request.handle, hok] at hreply
      cases hreply
  | ok s' =>
    rw [step_ok hreply]
    rw [Request.handle, removeItemTag_eq_ok] at hreply
    obtain ⟨item, tag, hitem, htag, rfl⟩ := hreply
    have hpairs : p ∈ ((s.deleteItemTag item tag).audit
        ⟨claims.subject.text, "item.untagged", "item", itemID⟩).pairs ↔
        p ∈ s.pairs ∧ p ≠ (item, tag) := mem_pairs_delete
    rw [Changed, hpairs, Request.names, names_iff hitem htag]
    tauto

/-! ## The rights -/

theorem not_owns_of_none {user tag : Uuid} (h : s.tag? tag = none) : ¬ s.owns user tag := by
  simp [State.owns, h]

/-- A request changes the tags of items only with rights if and only if it is
admissible. -/
theorem itemTags_rightful_iff (hrole : claims.hasRole .admin = false) (req : Request) :
    Rightful s now claims req ↔ Admissible s now claims req := by
  cases req with
  | add itemID tagID =>
    simp only [Rightful, Admissible, changed_add hrole]
    constructor
    · intro h item tag hitem htag
      by_contra hnot
      push Not at hnot
      obtain ⟨howns, hnew, hread, hrow, huser⟩ := hnot
      exact howns (h (item, tag) ⟨⟨hitem, htag⟩, hnew, hread, hrow, huser⟩).2.1
    · rintro h p ⟨hnames, hnew, hread, hrow, huser⟩
      have howns := h p.1 p.2 hnames.1 hnames.2
      simp only [hnew, hread, hrow, huser, not_true, or_false] at howns
      exact ⟨hnames, howns, hread⟩
  | remove itemID tagID =>
    simp only [Rightful, Admissible, changed_remove]
    constructor
    · intro h item tag hitem htag
      by_cases hmem : (item, tag) ∈ s.pairs
      · exact .inr (h (item, tag) ⟨⟨hitem, htag⟩, hmem⟩).2
      · exact .inl hmem
    · rintro h p ⟨hnames, hmem⟩
      exact ⟨hnames, (h p.1 p.2 hnames.1 hnames.2).resolve_left (fun hnot => hnot hmem)⟩

/-- An item and a tag of user 1, and the tag on the item. -/
def sampleTags : State where
  db := {
    users := [sampleUser 1 "ada", sampleUser 2 "bob"]
    folders := [sampleFolder 5 1]
    items := [sampleItem 10 5 1] }
  tags := [⟨Uuid.ofNat 20, "db", Uuid.ofNat 1⟩]
  itemTags := [⟨Uuid.ofNat 10, Uuid.ofNat 20, some (Uuid.ofNat 1)⟩]

def sampleRemoval : Request := .remove (Uuid.ofNat 10).text (Uuid.ofNat 20).text

theorem itemTags_rightful_owner : Rightful sampleTags 0 ⟨Uuid.ofNat 1, []⟩ sampleRemoval := by
  apply (itemTags_rightful_iff rfl _).2
  intro item tag hitem htag
  rw [castUuid_text] at hitem htag
  cases hitem
  cases htag
  have hrow : sampleTags.db.item? (Uuid.ofNat 10) = some (sampleItem 10 5 1) := rfl
  exact .inr ⟨by decide, .write, itemPermissionOf_creator hrow, rfl⟩

/-- A user without any right takes the label off. -/
theorem itemTags_not_rightful :
    ¬ ∀ (s : State) (now : Time) (claims : Claims) (req : Request),
      claims.hasRole .admin = false → Rightful s now claims req := by
  intro h
  have hright := h sampleTags 0 ⟨Uuid.ofNat 2, []⟩ sampleRemoval rfl (Uuid.ofNat 10, Uuid.ofNat 20)
    (changed_remove.2 ⟨⟨castUuid_text _, castUuid_text _⟩, by decide⟩)
  exact absurd hright.2.1 (by decide)

end IronStock.Tags

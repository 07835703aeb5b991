import IronStock.ImportHandlers

/-!
# What a bulk import touches

The loop only appends rows, and each element only appends rows of its own item
id. So an import leaves the items that were there alone exactly when none of
its elements names one of them and still gets to the share and field
statements; and it reports the number of new items exactly when as many
elements leave an item without a share as are counted for an id that was taken.
-/
namespace IronStock

/-- Import cannot escalate: the shares, the fields and the levels of every item
that was there are the same, and `created` is the number of new item rows. -/
structure ImportIsolated (svc : Service) (db : DB) (claims : Claims) (batch : List ImportElem) :
    Prop where
  shares : ∀ x, (db.item? x).isSome = true →
    (batchImport svc db claims batch).1.itemShares.filter (·.itemId = x) =
      db.itemShares.filter (·.itemId = x)
  fields : ∀ x, (db.item? x).isSome = true →
    (batchImport svc db claims batch).1.itemFields.filter (·.itemId = x) =
      db.itemFields.filter (·.itemId = x)
  levels : ∀ x, (db.item? x).isSome = true → ∀ now userID,
    itemPermissionOf (batchImport svc db claims batch).1 now userID x =
      itemPermissionOf db now userID x
  created : ∀ resp, (batchImport svc db claims batch).2 = .ok resp →
    resp.created = ((batchImport svc db claims batch).1.items.filter fun i =>
      (db.item? i.id).isNone).length

/-! ## What an element asks for -/

/-- The item row an element asks for, if the caller may write to the folder it
names and the row passes its casts and checks. -/
def importRow (svc : Service) (db : DB) (claims : Claims) (e : ImportElem) : Option Item :=
  match prepareImport svc db claims e with
  | .error _ => none
  | .ok n => (n.row svc e.now).toOption

/-- The owner-share statement goes through: the wrap nonce has its length and
the row is there already or its user exists. -/
def ownerShareAccepted (db : DB) (itemID userID : Uuid) (wrapNonce : Bytes) : Bool :=
  (Nonce.ofBytes wrapNonce).isSome && (db.hasShare itemID userID || (db.user? userID).isSome)

/-- An element gets to the share and field statements of an item that exists,
and one of them inserts a row. -/
def TouchesExisting (svc : Service) (db : DB) (claims : Claims) (e : ImportElem) : Prop :=
  ∃ row, importRow svc db claims e = some row ∧ (db.item? row.id).isSome = true ∧
    ownerShareAccepted db row.id claims.subject e.item.ownerWrapNonce = true ∧
    (db.hasShare row.id claims.subject = false ∨
      ∃ f ∈ e.item.fields, fieldInsertable db row.id f = true)

/-- Counts over a batch, given the ids already taken: the elements that leave a
new item without its owner's share, and the elements counted as created for an
id that was taken. -/
def importTally (svc : Service) (db : DB) (claims : Claims) :
    List Uuid → List ImportElem → Nat × Nat
  | _, [] => (0, 0)
  | taken, e :: es =>
    match importRow svc db claims e with
    | none => importTally svc db claims taken es
    | some row =>
      if row.id ∈ taken then
        let t := importTally svc db claims taken es
        if ownerShareAccepted db row.id claims.subject e.item.ownerWrapNonce then
          (t.1, t.2 + 1)
        else t
      else if row.referencesExist db then
        let t := importTally svc db claims (row.id :: taken) es
        if (Nonce.ofBytes e.item.ownerWrapNonce).isSome then t else (t.1 + 1, t.2)
      else importTally svc db claims taken es

/-- The batch is refused as a whole, or no element touches an item that was
there and as many elements leave a new item unshared as are counted for a taken
id. -/
def ImportHarmless (svc : Service) (db : DB) (claims : Claims) (batch : List ImportElem) : Prop :=
  batch.length = 0 ∨ 1000 < batch.length ∨
    ((∀ e ∈ batch, ¬ TouchesExisting svc db claims e) ∧
      (importTally svc db claims (db.items.map Item.id) batch).1 =
        (importTally svc db claims (db.items.map Item.id) batch).2)

theorem importRow_eq_some {svc : Service} {db : DB} {claims : Claims} {e : ImportElem} {row : Item}
    (h : importRow svc db claims e = some row) :
    castUuid e.item.id = some row.id ∧ row.createdBy = claims.subject ∧
      ∃ n, prepareImport svc db claims e = .ok n ∧ n.row svc e.now = .ok row := by
  unfold importRow at h
  split at h
  · cases h
  · next n hn =>
    have hrow : n.row svc e.now = .ok row := by
      cases hr : n.row svc e.now with
      | error err => simp [hr, Except.toOption] at h
      | ok r => simpa [hr, Except.toOption] using h
    obtain ⟨hid, hby⟩ := NewItem.row_eq_ok hrow
    have hn' := hn
    unfold prepareImport at hn'
    simp only at hn'
    split at hn'
    · cases hn'
    · split at hn'
      · cases hn'
      · split at hn'
        · cases hn'
        · split at hn'
          · cases hn'
          · cases hn'
          · cases hn'
            exact ⟨hid, hby, _, hn, hrow⟩

/-! ## The outcome of one element -/

inductive ImportOutcome
  | refused
  | unshared (row : Item)
  | counted (row : Item)

def importOutcome (svc : Service) (db : DB) (claims : Claims) (e : ImportElem) : ImportOutcome :=
  match importRow svc db claims e with
  | none => .refused
  | some row =>
    if (db.item? row.id).isSome ∨ row.referencesExist db then
      if ownerShareAccepted db row.id claims.subject e.item.ownerWrapNonce then .counted row
      else .unshared row
    else .refused

/-- The item row is there afterwards. -/
def DB.withItem (db : DB) (row : Item) : DB :=
  if (db.item? row.id).isSome then db else db.addItem row

/-- The owner's share is there afterwards, if its nonce is well formed. -/
def DB.withOwnerShare (db : DB) (itemID userID : Uuid) (dekWrapped wrapNonce : Bytes) : DB :=
  match Nonce.ofBytes wrapNonce with
  | none => db
  | some nonce =>
    if db.hasShare itemID userID then db
    else db.addShare (ownerShare itemID userID dekWrapped nonce)

def DB.withFields (db : DB) (itemID : Uuid) (fields : List ItemFieldInput) : DB :=
  Runs.run (importField · itemID ·) db fields

/-- The state after an element with this outcome. -/
def ImportOutcome.state (o : ImportOutcome) (db : DB) (userID : Uuid) (it : BatchImportItem) : DB :=
  match o with
  | .refused => db
  | .unshared row => db.withItem row
  | .counted row =>
    (((db.withItem row).withOwnerShare row.id userID it.ownerDEKWrapped
      it.ownerWrapNonce).withFields row.id it.fields).audit
        ⟨userID.text, "item.imported", "item", it.id⟩

def ImportOutcome.isCounted : ImportOutcome → Bool
  | .counted _ => true
  | _ => false

theorem insertItem_doNothing {svc : Service} {db : DB} {now : Time} {n : NewItem} {row : Item}
    (h : n.row svc now = .ok row) :
    insertItem .doNothing svc db now n =
      if (db.item? row.id).isSome ∨ row.referencesExist db then .ok (db.withItem row)
      else .error .foreignKeyViolation := by
  simp only [insertItem, h, DB.withItem, OnConflict.taken]
  by_cases hx : (db.item? row.id).isSome = true
  · simp [hx]
  · simp [hx]

theorem withItem_isSome (db : DB) (row : Item) (x : Uuid) :
    ((db.withItem row).item? x).isSome = true ↔ (db.item? x).isSome = true ∨ row.id = x := by
  unfold DB.withItem
  split
  · next hx =>
    constructor
    · exact .inl
    · rintro (h | rfl)
      · exact h
      · exact hx
  · rw [item?_addItem]
    by_cases hx : row.id = x <;> simp [hx]

theorem withItem_user? (db : DB) (row : Item) : (db.withItem row).user? = db.user? := by
  funext x
  unfold DB.withItem
  split <;> rfl

theorem withItem_hasShare (db : DB) (row : Item) : (db.withItem row).hasShare = db.hasShare := by
  funext x y
  unfold DB.withItem
  split <;> rfl

theorem insertOwnerShare_doNothing (db : DB) {row : Item} {id : String} (userID : Uuid)
    (dekWrapped wrapNonce : Bytes) (hid : castUuid id = some row.id) :
    (ownerShareAccepted db row.id userID wrapNonce = true →
      insertOwnerShare .doNothing (db.withItem row) id userID dekWrapped wrapNonce =
        .ok ((db.withItem row).withOwnerShare row.id userID dekWrapped wrapNonce)) ∧
    (ownerShareAccepted db row.id userID wrapNonce = false →
      ∃ e, insertOwnerShare .doNothing (db.withItem row) id userID dekWrapped wrapNonce =
        .error e) := by
  have hitem : ((db.withItem row).item? row.id).isSome = true := (withItem_isSome ..).mpr (.inr rfl)
  simp only [ownerShareAccepted, insertOwnerShare, DB.withOwnerShare, hid, withItem_hasShare,
    ItemShare.referencesExist, ownerShare, withItem_user?, OnConflict.taken]
  cases hn : Nonce.ofBytes wrapNonce with
  | none => simp
  | some nonce =>
    cases hs : db.hasShare row.id userID with
    | true => simp [hs]
    | false => cases hu : (db.user? userID).isSome <;> simp [hs, hitem]

theorem importItem_outcome (svc : Service) (db : DB) (claims : Claims) (e : ImportElem) :
    (importItem svc db claims e).1 =
        (importOutcome svc db claims e).state db claims.subject e.item ∧
      (importItem svc db claims e).2.isNone = (importOutcome svc db claims e).isCounted := by
  cases hrow : importRow svc db claims e with
  | none =>
    simp only [importOutcome, hrow, ImportOutcome.state, ImportOutcome.isCounted, importItem]
    cases hn : prepareImport svc db claims e with
    | error err => simp
    | ok n =>
      have hno : ∃ err, n.row svc e.now = .error err := by
        unfold importRow at hrow
        rw [hn] at hrow
        cases hr : n.row svc e.now with
        | error err => exact ⟨err, rfl⟩
        | ok r => simp [hr, Except.toOption] at hrow
      obtain ⟨err, herr⟩ := hno
      simp [insertItem, herr]
  | some row =>
    obtain ⟨hid, _, n, hn, hr⟩ := importRow_eq_some hrow
    simp only [importOutcome, hrow, importItem, hn, insertItem_doNothing hr]
    by_cases hin : (db.item? row.id).isSome = true ∨ row.referencesExist db = true
    · rw [if_pos hin, if_pos hin]
      obtain ⟨hok, hfail⟩ := insertOwnerShare_doNothing db claims.subject e.item.ownerDEKWrapped
        e.item.ownerWrapNonce hid
      cases ha : ownerShareAccepted db row.id claims.subject e.item.ownerWrapNonce with
      | true => simp [hok ha, ImportOutcome.state, ImportOutcome.isCounted, importFields, hid,
          DB.withFields]
      | false =>
        obtain ⟨err, herr⟩ := hfail ha
        simp [herr, ImportOutcome.state, ImportOutcome.isCounted]
    · rw [if_neg hin, if_neg hin]
      simp [ImportOutcome.state, ImportOutcome.isCounted]

/-! ## What the loop keeps -/

/-- `db'` is `db` with rows appended: items whose id was free, and shares of
`userID` only where `userID` is a user or had one. -/
structure ImportGrowth (userID : Uuid) (db db' : DB) : Prop where
  acl : SameFolderAcl db db'
  users : db'.users = db.users
  itemTypes : db'.itemTypes = db.itemTypes
  fieldDefinitions : db'.fieldDefinitions = db.fieldDefinitions
  groupShares : db'.itemGroupShares = db.itemGroupShares
  items : ∃ new, db'.items = db.items ++ new ∧ ∀ i ∈ new, db.item? i.id = none
  shares : db.itemShares <+: db'.itemShares
  fields : db.itemFields <+: db'.itemFields
  ownShares : ∀ x, db'.hasShare x userID = true →
    db.hasShare x userID = true ∨ (db.user? userID).isSome = true

namespace ImportGrowth

variable {userID : Uuid} {db db' db'' : DB}

theorem refl (userID : Uuid) (db : DB) : ImportGrowth userID db db where
  acl := .refl db
  users := rfl
  itemTypes := rfl
  fieldDefinitions := rfl
  groupShares := rfl
  items := ⟨[], by simp⟩
  shares := List.prefix_refl _
  fields := List.prefix_refl _
  ownShares _ h := .inl h

theorem user?_eq (h : ImportGrowth userID db db') : db'.user? = db.user? := by
  funext x
  rw [DB.user?, DB.user?, h.users]

/-- Items that were there are still the ones found. -/
theorem item?_of_isSome (h : ImportGrowth userID db db') {x : Uuid}
    (hx : (db.item? x).isSome = true) : db'.item? x = db.item? x := by
  obtain ⟨new, hnew, _⟩ := h.items
  obtain ⟨i, hi⟩ := Option.isSome_iff_exists.mp hx
  have hfind : db.items.find? (fun r => decide (r.id = x)) = some i := hi
  rw [DB.item?, DB.item?, Table.lookup, Table.lookup, hnew, List.find?_append, hfind]
  rfl

theorem item?_isSome (h : ImportGrowth userID db db') {x : Uuid}
    (hx : (db.item? x).isSome = true) : (db'.item? x).isSome = true := by
  rw [h.item?_of_isSome hx]
  exact hx

theorem hasShare_mono (h : ImportGrowth userID db db') {x y : Uuid}
    (hx : db.hasShare x y = true) : db'.hasShare x y = true := by
  obtain ⟨new, hnew⟩ := h.shares
  simp only [DB.hasShare] at hx ⊢
  rw [← hnew, List.any_append, hx, Bool.true_or]

theorem trans (h : ImportGrowth userID db db') (h' : ImportGrowth userID db' db'') :
    ImportGrowth userID db db'' where
  acl := h.acl.trans h'.acl
  users := h'.users.trans h.users
  itemTypes := h'.itemTypes.trans h.itemTypes
  fieldDefinitions := h'.fieldDefinitions.trans h.fieldDefinitions
  groupShares := h'.groupShares.trans h.groupShares
  items := by
    obtain ⟨new, hnew, hfree⟩ := h.items
    obtain ⟨new', hnew', hfree'⟩ := h'.items
    refine ⟨new ++ new', by rw [hnew', hnew, List.append_assoc], ?_⟩
    intro i hi
    rw [List.mem_append] at hi
    rcases hi with hi | hi
    · exact hfree i hi
    · have hfree'' := hfree' i hi
      by_contra hsome
      have hold : (db.item? i.id).isSome = true := Option.isSome_iff_ne_none.mpr hsome
      rw [h.item?_of_isSome hold] at hfree''
      exact hsome hfree''
  shares := h.shares.trans h'.shares
  fields := h.fields.trans h'.fields
  ownShares x hx := by
    rcases h'.ownShares x hx with hx' | hu
    · exact h.ownShares x hx'
    · rw [h.user?_eq] at hu
      exact .inr hu

theorem withItem (userID : Uuid) (db : DB) (row : Item) :
    ImportGrowth userID db (db.withItem row) := by
  unfold DB.withItem
  split
  · exact refl userID db
  · next hx =>
    refine { refl userID db with items := ⟨[row], rfl, ?_⟩, acl := ⟨rfl, rfl, rfl, rfl⟩ }
    intro i hi
    rw [List.mem_singleton] at hi
    subst hi
    simpa using hx

theorem withOwnerShare (db : DB) (itemID userID : Uuid) (dekWrapped wrapNonce : Bytes)
    (ha : ownerShareAccepted db itemID userID wrapNonce = true) :
    ImportGrowth userID db (db.withOwnerShare itemID userID dekWrapped wrapNonce) := by
  unfold DB.withOwnerShare
  split
  · exact refl userID db
  · split
    · exact refl userID db
    · next hs =>
      have hu : (db.user? userID).isSome = true := by
        simp only [ownerShareAccepted, hs, Bool.and_eq_true] at ha
        simpa using ha.2
      refine { refl userID db with
        shares := List.prefix_append _ _, acl := ⟨rfl, rfl, rfl, rfl⟩, ownShares := ?_ }
      intro x _
      exact .inr hu

theorem importField (userID : Uuid) (db : DB) (itemID : Uuid) (f : ItemFieldInput) :
    ImportGrowth userID db (importField db itemID f) := by
  unfold IronStock.importField
  split
  · exact refl userID db
  · split
    · exact refl userID db
    · split
      · exact { refl userID db with
          fields := List.prefix_append _ _, acl := ⟨rfl, rfl, rfl, rfl⟩ }
      · exact refl userID db

theorem withFields (userID : Uuid) (db : DB) (itemID : Uuid) (fields : List ItemFieldInput) :
    ImportGrowth userID db (db.withFields itemID fields) :=
  Runs.run_invariant (fun s f hs => hs.trans (importField userID s itemID f)) (refl userID db)
    fields

theorem audit (userID : Uuid) (db : DB) (e : AuditEntry) : ImportGrowth userID db (db.audit e) :=
  { refl userID db with acl := ⟨rfl, rfl, rfl, rfl⟩ }

end ImportGrowth

/-- Every element only appends. -/
theorem importItem_growth (svc : Service) (db : DB) (claims : Claims) (e : ImportElem) :
    ImportGrowth claims.subject db (importItem svc db claims e).1 := by
  rw [(importItem_outcome svc db claims e).1]
  cases ho : importOutcome svc db claims e with
  | refused => exact .refl claims.subject db
  | unshared row => exact .withItem claims.subject db row
  | counted row =>
    have ha : ownerShareAccepted (db.withItem row) row.id claims.subject e.item.ownerWrapNonce =
        true := by
      simp only [importOutcome] at ho
      split at ho
      · cases ho
      · split at ho
        · split at ho
          · next ha =>
            cases ho
            simpa [ownerShareAccepted, withItem_hasShare, withItem_user?] using ha
          · cases ho
        · cases ho
    refine .trans ?_ (.audit claims.subject _ _)
    refine .trans ?_ (.withFields claims.subject _ row.id e.item.fields)
    exact (ImportGrowth.withItem claims.subject db row).trans (.withOwnerShare _ _ _ _ _ ha)

/-! ## Rows of one item -/

/-- Shares and fields are only appended, and only for item `x`. -/
structure AppendsFor (x : Uuid) (db db' : DB) : Prop where
  shares : ∃ new, db'.itemShares = db.itemShares ++ new ∧ ∀ s ∈ new, s.itemId = x
  fields : ∃ new, db'.itemFields = db.itemFields ++ new ∧ ∀ f ∈ new, f.itemId = x

namespace AppendsFor

variable {x : Uuid} {db db' db'' : DB}

theorem refl (x : Uuid) (db : DB) : AppendsFor x db db := ⟨⟨[], by simp⟩, ⟨[], by simp⟩⟩

theorem trans (h : AppendsFor x db db') (h' : AppendsFor x db' db'') : AppendsFor x db db'' := by
  obtain ⟨⟨ss, hs, hsx⟩, ⟨fs, hf, hfx⟩⟩ := h
  obtain ⟨⟨ss', hs', hsx'⟩, ⟨fs', hf', hfx'⟩⟩ := h'
  refine ⟨⟨ss ++ ss', by rw [hs', hs, List.append_assoc], ?_⟩,
    ⟨fs ++ fs', by rw [hf', hf, List.append_assoc], ?_⟩⟩
  · intro s hmem
    exact (List.mem_append.mp hmem).elim (hsx s) (hsx' s)
  · intro f hmem
    exact (List.mem_append.mp hmem).elim (hfx f) (hfx' f)

theorem withItem (x : Uuid) (db : DB) (row : Item) : AppendsFor x db (db.withItem row) := by
  unfold DB.withItem
  split
  · exact refl x db
  · exact ⟨⟨[], by simp [DB.addItem]⟩, ⟨[], by simp [DB.addItem]⟩⟩

theorem withOwnerShare (db : DB) (x userID : Uuid) (dekWrapped wrapNonce : Bytes) :
    AppendsFor x db (db.withOwnerShare x userID dekWrapped wrapNonce) := by
  unfold DB.withOwnerShare
  split
  · exact refl x db
  · split
    · exact refl x db
    · exact ⟨⟨_, rfl, by simp [ownerShare]⟩, ⟨[], by simp [DB.addShare]⟩⟩

theorem importField (db : DB) (x : Uuid) (f : ItemFieldInput) :
    AppendsFor x db (importField db x f) := by
  unfold IronStock.importField
  split
  · exact refl x db
  · split
    · exact refl x db
    · split
      · exact ⟨⟨[], by simp [DB.addField]⟩, ⟨_, rfl, by simp⟩⟩
      · exact refl x db

theorem withFields (db : DB) (x : Uuid) (fields : List ItemFieldInput) :
    AppendsFor x db (db.withFields x fields) :=
  Runs.run_invariant (fun s f hs => hs.trans (importField s x f)) (refl x db) fields

theorem audit (x : Uuid) (db : DB) (e : AuditEntry) : AppendsFor x db (db.audit e) :=
  ⟨⟨[], by simp⟩, ⟨[], by simp⟩⟩

/-- The rows of another item are the same. -/
theorem filter_of_ne (h : AppendsFor x db db') {y : Uuid} (hy : y ≠ x) :
    db'.itemShares.filter (·.itemId = y) = db.itemShares.filter (·.itemId = y) ∧
      db'.itemFields.filter (·.itemId = y) = db.itemFields.filter (·.itemId = y) := by
  obtain ⟨⟨ss, hs, hsx⟩, ⟨fs, hf, hfx⟩⟩ := h
  have hss : ss.filter (·.itemId = y) = [] := by
    rw [List.filter_eq_nil_iff]
    intro s hmem
    simpa [hsx s hmem] using hy.symm
  have hfs : fs.filter (·.itemId = y) = [] := by
    rw [List.filter_eq_nil_iff]
    intro f hmem
    simpa [hfx f hmem] using hy.symm
  rw [hs, hf, List.filter_append, List.filter_append, hss, hfs, List.append_nil, List.append_nil]
  exact ⟨rfl, rfl⟩

/-- The rows of the item itself are the same only if nothing was appended. -/
theorem filter_self_iff (h : AppendsFor x db db') :
    (db'.itemShares.filter (·.itemId = x) = db.itemShares.filter (·.itemId = x) ∧
      db'.itemFields.filter (·.itemId = x) = db.itemFields.filter (·.itemId = x)) ↔
    db'.itemShares = db.itemShares ∧ db'.itemFields = db.itemFields := by
  obtain ⟨⟨ss, hs, hsx⟩, ⟨fs, hf, hfx⟩⟩ := h
  have hss : ss.filter (·.itemId = x) = ss := by
    rw [List.filter_eq_self]
    intro s hmem
    simpa using hsx s hmem
  have hfs : fs.filter (·.itemId = x) = fs := by
    rw [List.filter_eq_self]
    intro f hmem
    simpa using hfx f hmem
  rw [hs, hf, List.filter_append, List.filter_append, hss, hfs]
  simp

end AppendsFor

theorem withOwnerShare_itemShares {db : DB} {x userID : Uuid} {dekWrapped wrapNonce : Bytes}
    (hn : (Nonce.ofBytes wrapNonce).isSome = true) :
    (db.withOwnerShare x userID dekWrapped wrapNonce).itemShares = db.itemShares ↔
      db.hasShare x userID = true := by
  obtain ⟨nonce, hn⟩ := Option.isSome_iff_exists.mp hn
  simp only [DB.withOwnerShare, hn]
  cases hs : db.hasShare x userID <;> simp [DB.addShare]

theorem importField_of_not_insertable {db : DB} {x : Uuid} {f : ItemFieldInput}
    (h : fieldInsertable db x f = false) : importField db x f = db := by
  unfold importField
  split
  · rfl
  · next value hv =>
    split
    · rfl
    · next hnew =>
      split
      · next href =>
        simp [fieldInsertable, hv, hnew, href, Except.isOk, Except.toBool] at h
      · rfl

theorem importField_of_insertable {db : DB} {x : Uuid} {f : ItemFieldInput}
    (h : fieldInsertable db x f = true) : ∃ row,
    (importField db x f).itemFields = db.itemFields ++ [row] := by
  simp only [fieldInsertable, Bool.and_eq_true, Bool.not_eq_eq_eq_not, Bool.not_true] at h
  obtain ⟨⟨hv, hnew⟩, href⟩ := h
  unfold importField
  split
  · next e he => simp [he, Except.isOk, Except.toBool] at hv
  · rw [if_neg (by simp [hnew]), if_pos href]
    exact ⟨_, rfl⟩

/-- Some field is stored exactly if one of the request could be on its own. -/
theorem withFields_itemFields (db : DB) (x : Uuid) (fields : List ItemFieldInput) :
    (db.withFields x fields).itemFields = db.itemFields ↔
      ∀ f ∈ fields, fieldInsertable db x f = false := by
  induction fields with
  | nil => simp [DB.withFields]
  | cons f fields ih =>
    cases hf : fieldInsertable db x f with
    | false =>
      have hskip : db.withFields x (f :: fields) = db.withFields x fields := by
        simp [DB.withFields, importField_of_not_insertable hf]
      rw [hskip, ih]
      simp [hf]
    | true =>
      obtain ⟨row, hrow⟩ := importField_of_insertable hf
      obtain ⟨new, hnew, _⟩ := (AppendsFor.withFields (importField db x f) x fields).fields
      have hlen : (db.withFields x (f :: fields)).itemFields =
          db.itemFields ++ ([row] ++ new) := by
        rw [← List.append_assoc, ← hrow]
        exact hnew
      simp [hlen, hf]

/-! ## Elements judged in the first state -/

section Judged

variable {db₀ db : DB} {claims : Claims}

theorem SameFolderAcl.importRow (h : SameFolderAcl db₀ db) (svc : Service) (claims : Claims)
    (e : ImportElem) : importRow svc db claims e = importRow svc db₀ claims e := by
  have hmay : mayImportInto db e.now claims e.item.folderID =
      mayImportInto db₀ e.now claims e.item.folderID := by
    simp only [mayImportInto, h.resolveFolderPermission]
  have hprep : prepareImport svc db claims e = prepareImport svc db₀ claims e := by
    simp only [prepareImport, hmay]
  simp only [IronStock.importRow, hprep]

/-- Whether the share statement goes through does not depend on what the loop
has added. -/
theorem ImportGrowth.ownerShareAccepted (h : ImportGrowth claims.subject db₀ db) (x : Uuid)
    (wrapNonce : Bytes) :
    ownerShareAccepted db x claims.subject wrapNonce =
      ownerShareAccepted db₀ x claims.subject wrapNonce := by
  simp only [IronStock.ownerShareAccepted, h.user?_eq]
  congr 1
  rw [Bool.eq_iff_iff, Bool.or_eq_true, Bool.or_eq_true]
  constructor
  · rintro (hs | hu)
    · exact h.ownShares x hs
    · exact .inr hu
  · rintro (hs | hu)
    · exact .inl (h.hasShare_mono hs)
    · exact .inr hu

theorem ImportGrowth.referencesExist (h : ImportGrowth claims.subject db₀ db) (row : Item) :
    row.referencesExist db = row.referencesExist db₀ := by
  simp only [Item.referencesExist, h.user?_eq, h.itemTypes, DB.folder?, h.acl.folders]

/-- Rows of the items of `db₀` are the same in `db`. -/
def Untouched (db₀ db : DB) : Prop :=
  ∀ x, (db₀.item? x).isSome = true →
    db.itemShares.filter (·.itemId = x) = db₀.itemShares.filter (·.itemId = x) ∧
      db.itemFields.filter (·.itemId = x) = db₀.itemFields.filter (·.itemId = x)

theorem hasShare_of_filter {x : Uuid} (y : Uuid)
    (h : db.itemShares.filter (·.itemId = x) = db₀.itemShares.filter (·.itemId = x)) :
    db.hasShare x y = db₀.hasShare x y := by
  have hany : ∀ shares : List ItemShare, (shares.any fun s => s.itemId = x ∧ s.userId = y) =
      (shares.filter (·.itemId = x)).any fun s => s.userId = y := by
    intro shares
    simp [List.any_filter]
  rw [DB.hasShare, DB.hasShare, hany, hany, h]

theorem hasField_of_filter {x : Uuid} (d : Int)
    (h : db.itemFields.filter (·.itemId = x) = db₀.itemFields.filter (·.itemId = x)) :
    db.hasField x d = db₀.hasField x d := by
  have hany : ∀ fields : List ItemField,
      (fields.any fun f => f.itemId = x ∧ f.fieldDefinitionId = d) =
        (fields.filter (·.itemId = x)).any fun f => f.fieldDefinitionId = d := by
    intro fields
    simp [List.any_filter]
  rw [DB.hasField, DB.hasField, hany, hany, h]

/-- A field of an item that was there can be stored now exactly if it could. -/
theorem ImportGrowth.fieldInsertable (h : ImportGrowth claims.subject db₀ db)
    (hu : Untouched db₀ db) {x : Uuid} (hx : (db₀.item? x).isSome = true) (f : ItemFieldInput) :
    fieldInsertable db x f = fieldInsertable db₀ x f := by
  simp only [IronStock.fieldInsertable, hasField_of_filter f.fieldDefinitionID (hu x hx).2,
    DB.fieldReferencesExist, h.item?_of_isSome hx, h.fieldDefinitions]

/-- The share statement does not change which fields can be stored. -/
theorem withOwnerShare_fieldInsertable (db : DB) (x y userID : Uuid) (dekWrapped wrapNonce : Bytes)
    (f : ItemFieldInput) :
    fieldInsertable (db.withOwnerShare x userID dekWrapped wrapNonce) y f =
      fieldInsertable db y f := by
  unfold DB.withOwnerShare
  split
  · rfl
  · split <;> rfl

theorem withOwnerShare_itemFields (db : DB) (x userID : Uuid) (dekWrapped wrapNonce : Bytes) :
    (db.withOwnerShare x userID dekWrapped wrapNonce).itemFields = db.itemFields := by
  unfold DB.withOwnerShare
  split
  · rfl
  · split <;> rfl

theorem withFields_itemShares (db : DB) (x : Uuid) (fields : List ItemFieldInput) :
    (db.withFields x fields).itemShares = db.itemShares := by
  refine Runs.run_invariant (J := fun s : DB => s.itemShares = db.itemShares) ?_ rfl fields
  intro s f hs
  unfold importField
  split
  · exact hs
  · split
    · exact hs
    · split <;> exact hs

/-- The rows an element with outcome `counted` leaves for its own item. -/
theorem counted_unchanged_iff {row : Item} (userID : Uuid) (it : BatchImportItem)
    (hx : (db.item? row.id).isSome = true)
    (hn : (Nonce.ofBytes it.ownerWrapNonce).isSome = true) :
    (((ImportOutcome.counted row).state db userID it).itemShares = db.itemShares ∧
      ((ImportOutcome.counted row).state db userID it).itemFields = db.itemFields) ↔
    db.hasShare row.id userID = true ∧
      ∀ f ∈ it.fields, fieldInsertable db row.id f = false := by
  have hitem : db.withItem row = db := by rw [DB.withItem, if_pos hx]
  simp only [ImportOutcome.state, hitem, audit_itemShares, audit_itemFields,
    withFields_itemShares, withOwnerShare_itemShares hn]
  have hfields := withFields_itemFields
    (db.withOwnerShare row.id userID it.ownerDEKWrapped it.ownerWrapNonce) row.id it.fields
  simp only [withOwnerShare_itemFields, withOwnerShare_fieldInsertable] at hfields
  rw [hfields]

theorem outcome_appendsFor (row : Item) (userID : Uuid) (it : BatchImportItem) :
    AppendsFor row.id db ((ImportOutcome.counted row).state db userID it) :=
  (((AppendsFor.withItem row.id db row).trans (.withOwnerShare _ _ _ _ _)).trans
    (.withFields _ row.id it.fields)).trans (.audit row.id _ _)

theorem importOutcome_row {svc : Service} {e : ImportElem} {row : Item}
    (h : importOutcome svc db claims e = .counted row) :
    importRow svc db claims e = some row ∧
      ownerShareAccepted db row.id claims.subject e.item.ownerWrapNonce = true := by
  simp only [importOutcome] at h
  split at h
  · cases h
  · next r hr =>
    split at h
    · split at h
      · next ha =>
        cases h
        exact ⟨hr, ha⟩
      · cases h
    · cases h

/-- An element that touches an item of the first state is counted. -/
theorem TouchesExisting.outcome {svc : Service} {e : ImportElem}
    (h : TouchesExisting svc db₀ claims e) (hgrow : ImportGrowth claims.subject db₀ db) :
    ∃ row, importOutcome svc db claims e = .counted row ∧
      (db₀.item? row.id).isSome = true := by
  obtain ⟨row, hrow, hx, ha, _⟩ := h
  rw [← hgrow.acl.importRow] at hrow
  rw [← hgrow.ownerShareAccepted] at ha
  exact ⟨row, by simp [importOutcome, hrow, hgrow.item?_isSome hx, ha], hx⟩

/-- An element that names an item of the first state leaves the items alone
exactly when it finds a share of the caller and all its fields. -/
theorem counted_untouched_iff {e : ImportElem} {row : Item}
    (hgrow : ImportGrowth claims.subject db₀ db) (hu : Untouched db₀ db)
    (hn : (Nonce.ofBytes e.item.ownerWrapNonce).isSome = true)
    (hx : (db₀.item? row.id).isSome = true) :
    Untouched db₀ (ImportOutcome.state (.counted row) db claims.subject e.item) ↔
      db₀.hasShare row.id claims.subject = true ∧
        ∀ f ∈ e.item.fields, fieldInsertable db₀ row.id f = false := by
  have happ : AppendsFor row.id db
      ((ImportOutcome.counted row).state db claims.subject e.item) :=
    outcome_appendsFor row claims.subject e.item
  have hiff := counted_unchanged_iff claims.subject e.item (hgrow.item?_isSome hx) hn
  rw [hasShare_of_filter claims.subject (hu row.id hx).1] at hiff
  simp only [hgrow.fieldInsertable hu hx] at hiff
  rw [← hiff, ← happ.filter_self_iff]
  constructor
  · intro h
    obtain ⟨hs, hf⟩ := h row.id hx
    exact ⟨hs.trans (hu row.id hx).1.symm, hf.trans (hu row.id hx).2.symm⟩
  · rintro ⟨hs, hf⟩ y hy
    by_cases hyx : y = row.id
    · subst hyx
      exact ⟨hs.trans (hu row.id hx).1, hf.trans (hu row.id hx).2⟩
    · obtain ⟨hs', hf'⟩ := happ.filter_of_ne hyx
      exact ⟨hs'.trans (hu y hy).1, hf'.trans (hu y hy).2⟩

/-- An element of the loop leaves the items of the first state alone exactly
when it does not touch one of them. -/
theorem untouched_step_iff {svc : Service} {e : ImportElem}
    (hgrow : ImportGrowth claims.subject db₀ db) (hu : Untouched db₀ db) :
    Untouched db₀ (importItem svc db claims e).1 ↔ ¬ TouchesExisting svc db₀ claims e := by
  rw [(importItem_outcome svc db claims e).1]
  cases ho : importOutcome svc db claims e with
  | refused =>
    simp only [ImportOutcome.state, hu, true_iff]
    intro htouch
    obtain ⟨row, hcounted, _⟩ := htouch.outcome hgrow
    simp [ho] at hcounted
  | unshared row' =>
    have hsame : Untouched db₀ (ImportOutcome.state (.unshared row') db claims.subject e.item) := by
      intro x hx
      obtain ⟨hs, hf⟩ := hu x hx
      simp only [ImportOutcome.state, DB.withItem]
      split <;> exact ⟨hs, hf⟩
    simp only [hsame, true_iff]
    intro htouch
    obtain ⟨row, hcounted, _⟩ := htouch.outcome hgrow
    simp [ho] at hcounted
  | counted row =>
    obtain ⟨hrow, ha⟩ := importOutcome_row ho
    have hn : (Nonce.ofBytes e.item.ownerWrapNonce).isSome = true := by
      simp only [ownerShareAccepted, Bool.and_eq_true] at ha
      exact ha.1
    by_cases hx : (db₀.item? row.id).isSome = true
    · -- the element names an item of the first state
      rw [counted_untouched_iff hgrow hu hn hx]
      rw [hgrow.acl.importRow] at hrow
      rw [hgrow.ownerShareAccepted] at ha
      constructor
      · rintro ⟨hs, hf⟩ ⟨row', hrow', _, _, htouch⟩
        rw [hrow] at hrow'
        cases hrow'
        rcases htouch with hno | ⟨f, hmem, hins⟩
        · simp [hs] at hno
        · simp [hf f hmem] at hins
      · intro hno
        refine ⟨?_, ?_⟩
        · by_contra hs
          exact hno ⟨row, hrow, hx, ha, .inl (by simpa using hs)⟩
        · intro f hmem
          by_contra hins
          exact hno ⟨row, hrow, hx, ha, .inr ⟨f, hmem, by simpa using hins⟩⟩
    · -- the element names an id that was free
      have happ : AppendsFor row.id db
          ((ImportOutcome.counted row).state db claims.subject e.item) :=
        outcome_appendsFor row claims.subject e.item
      have hsame : Untouched db₀ (ImportOutcome.state (.counted row) db claims.subject e.item) := by
        intro y hy
        have hyx : y ≠ row.id := by
          rintro rfl
          exact hx hy
        obtain ⟨hs, hf⟩ := happ.filter_of_ne hyx
        exact ⟨hs.trans (hu y hy).1, hf.trans (hu y hy).2⟩
      simp only [hsame, true_iff]
      intro htouch
      obtain ⟨row', hcounted, hx'⟩ := htouch.outcome hgrow
      obtain rfl : row = row' := by simpa [ho] using hcounted
      exact hx hx'

end Judged

/-! ## The whole batch -/

section Batch

variable (svc : Service) (db : DB) (claims : Claims)

theorem importStep_db (s : ImportState) (e : ImportElem) :
    (importStep svc claims s e).db = (importItem svc s.db claims e).1 := by
  unfold importStep
  split <;> simp_all

theorem importStep_created (s : ImportState) (e : ImportElem) :
    (importStep svc claims s e).created =
      s.created + if (importItem svc s.db claims e).2.isNone then 1 else 0 := by
  unfold importStep
  split <;> simp_all

theorem importStep_growth (s : ImportState) (e : ImportElem)
    (hs : ImportGrowth claims.subject db s.db) :
    ImportGrowth claims.subject db (importStep svc claims s e).db := by
  rw [importStep_db]
  exact hs.trans (importItem_growth svc s.db claims e)

theorem importLoop_growth (batch : List ImportElem) :
    ImportGrowth claims.subject db (importLoop svc db claims batch).db :=
  Runs.run_invariant (J := fun s : ImportState => ImportGrowth claims.subject db s.db)
    (importStep_growth svc db claims) (.refl _ db) batch

/-- Rows once appended stay, so the items of the first state are as they were
only if they have been all along. -/
theorem untouched_of_step (s : ImportState) (e : ImportElem)
    (hs : ImportGrowth claims.subject db s.db)
    (h : Untouched db (importStep svc claims s e).db) : Untouched db s.db := by
  rw [importStep_db] at h
  have hstep := importItem_growth svc s.db claims e
  intro x hx
  obtain ⟨hsx, hfx⟩ := h x hx
  refine ⟨?_, ?_⟩
  · have h1 := hs.shares.filter (fun r => decide (r.itemId = x))
    have h2 := hstep.shares.filter (fun r => decide (r.itemId = x))
    rw [hsx] at h2
    exact h2.eq_of_length_le h1.length_le
  · have h1 := hs.fields.filter (fun r => decide (r.itemId = x))
    have h2 := hstep.fields.filter (fun r => decide (r.itemId = x))
    rw [hfx] at h2
    exact h2.eq_of_length_le h1.length_le

/-- The items that were there are left alone exactly when no element of the
batch touches one of them. -/
theorem importLoop_untouched_iff (batch : List ImportElem) :
    Untouched db (importLoop svc db claims batch).db ↔
      ∀ e ∈ batch, ¬ TouchesExisting svc db claims e := by
  have hgrow₀ : ImportGrowth claims.subject db (ImportState.mk db 0 []).db := .refl _ db
  have hun₀ : Untouched db (ImportState.mk db 0 []).db := fun x _ => ⟨rfl, rfl⟩
  have hstep : ∀ (s : ImportState) e, ImportGrowth claims.subject db s.db → Untouched db s.db →
      True → (Untouched db (importStep svc claims s e).db ↔
        ¬ TouchesExisting svc db claims e) := by
    intro s e hs hu _
    rw [importStep_db]
    exact untouched_step_iff hs hu
  have hiff := Runs.along_iff_every (A := fun _ _ => True)
    (fun s e hs _ => importStep_growth svc db claims s e hs) hstep batch hgrow₀ hun₀
    ((Runs.every_const _ _ _ _).mpr fun _ _ => trivial)
  rw [Runs.every_const] at hiff
  rw [← hiff]
  constructor
  · intro h
    exact Runs.along_of_last (importStep_growth svc db claims) (untouched_of_step svc db claims)
      hgrow₀ h
  · intro h
    exact h.last

/-! ## The count -/

/-- The item rows of `db'` that `db` has not. -/
def newItems (db db' : DB) : Nat := (db'.items.filter fun i => (db.item? i.id).isNone).length

theorem newItems_self : newItems db db = 0 := by
  rw [newItems, List.length_eq_zero_iff, List.filter_eq_nil_iff]
  intro i hi hnone
  rw [Option.isNone_iff_eq_none, DB.item?, Table.lookup_eq_none] at hnone
  exact hnone i hi rfl

theorem withOwnerShare_items (s : DB) (x userID : Uuid) (dekWrapped wrapNonce : Bytes) :
    (s.withOwnerShare x userID dekWrapped wrapNonce).items = s.items := by
  unfold DB.withOwnerShare
  split
  · rfl
  · split <;> rfl

theorem withFields_items (s : DB) (x : Uuid) (fields : List ItemFieldInput) :
    (s.withFields x fields).items = s.items := by
  refine Runs.run_invariant (J := fun t : DB => t.items = s.items) ?_ rfl fields
  intro t f ht
  unfold importField
  split
  · exact ht
  · split
    · exact ht
    · split <;> exact ht

theorem outcome_items (o : ImportOutcome) (s : DB) (userID : Uuid) (it : BatchImportItem) :
    (o.state s userID it).items =
      match o with
      | .refused => s.items
      | .unshared row => (s.withItem row).items
      | .counted row => (s.withItem row).items := by
  cases o with
  | refused => rfl
  | unshared row => rfl
  | counted row =>
    simp only [ImportOutcome.state, audit_items, withFields_items, withOwnerShare_items]

theorem newItems_withItem {s : DB} {row : Item} (hs : s.item? row.id = none)
    (hdb : db.item? row.id = none) : newItems db (s.withItem row) = newItems db s + 1 := by
  simp [newItems, DB.withItem, hs, DB.addItem, List.filter_append, hdb]

/-- What one element does to the balance: `o` items left without a share, `r`
elements counted for a taken id, and the ids taken afterwards. -/
def TallyStep (taken : List Uuid) (e : ImportElem) (s s' : ImportState) : Prop :=
  ∃ taken' o r,
    (∀ es, importTally svc db claims taken (e :: es) =
      ((importTally svc db claims taken' es).1 + o, (importTally svc db claims taken' es).2 + r)) ∧
    (∀ x, x ∈ taken' ↔ (s'.db.item? x).isSome = true) ∧
    s'.created + o + newItems db s.db = s.created + r + newItems db s'.db

variable {db claims}

theorem tallyStep_same {taken : List Uuid} {e : ImportElem} {s s' : ImportState} (r : Nat)
    (htaken : ∀ x, x ∈ taken ↔ (s.db.item? x).isSome = true)
    (htally : ∀ es, importTally svc db claims taken (e :: es) =
      ((importTally svc db claims taken es).1, (importTally svc db claims taken es).2 + r))
    (hitems : s'.db.items = s.db.items) (hcreated : s'.created = s.created + r) :
    TallyStep svc db claims taken e s s' := by
  refine ⟨taken, 0, r, htally, ?_, ?_⟩
  · intro x
    rw [htaken, DB.item?, DB.item?, hitems]
  · rw [hcreated, newItems, newItems, hitems]
    omega

theorem tallyStep_new {taken : List Uuid} {e : ImportElem} {s s' : ImportState} {row : Item}
    {o c : Nat} (hoc : o + c = 1)
    (htaken : ∀ x, x ∈ taken ↔ (s.db.item? x).isSome = true)
    (hfree : s.db.item? row.id = none) (hfree₀ : db.item? row.id = none)
    (htally : ∀ es, importTally svc db claims taken (e :: es) =
      ((importTally svc db claims (row.id :: taken) es).1 + o,
        (importTally svc db claims (row.id :: taken) es).2))
    (hitems : s'.db.items = (s.db.withItem row).items) (hcreated : s'.created = s.created + c) :
    TallyStep svc db claims taken e s s' := by
  refine ⟨row.id :: taken, o, 0, htally, ?_, ?_⟩
  · intro x
    have hstep : s'.db.item? x = (s.db.withItem row).item? x := by
      rw [DB.item?, DB.item?, hitems]
    rw [hstep, withItem_isSome, List.mem_cons, htaken]
    constructor
    · rintro (rfl | h)
      · exact .inr rfl
      · exact .inl h
    · rintro (h | rfl)
      · exact .inr h
      · exact .inl rfl
  · have hnew : newItems db s'.db = newItems db s.db + 1 := by
      rw [← newItems_withItem db hfree hfree₀, newItems, newItems, hitems]
    omega

theorem importItem_tallyStep {taken : List Uuid} {e : ImportElem} {s : ImportState}
    (hgrow : ImportGrowth claims.subject db s.db)
    (htaken : ∀ x, x ∈ taken ↔ (s.db.item? x).isSome = true) :
    TallyStep svc db claims taken e s (importStep svc claims s e) := by
  obtain ⟨hdb, hcount⟩ := importItem_outcome svc s.db claims e
  have hcreated := importStep_created svc claims s e
  rw [hcount] at hcreated
  have hitems := outcome_items (importOutcome svc s.db claims e) s.db claims.subject e.item
  rw [← hdb, ← importStep_db] at hitems
  have hrowEq := hgrow.acl.importRow svc claims e
  cases hrow : importRow svc db claims e with
  | none =>
    have ho : importOutcome svc s.db claims e = .refused := by simp [importOutcome, hrowEq, hrow]
    rw [ho] at hitems hcreated
    exact tallyStep_same svc 0 htaken (by simp [importTally, hrow]) hitems hcreated
  | some row =>
    have hacc := hgrow.ownerShareAccepted row.id e.item.ownerWrapNonce
    by_cases htk : row.id ∈ taken
    · -- the id is taken: no new row, counted if the share statement goes through
      have hex : (s.db.item? row.id).isSome = true := (htaken _).mp htk
      have hitem : s.db.withItem row = s.db := by rw [DB.withItem, if_pos hex]
      cases ha : ownerShareAccepted db row.id claims.subject e.item.ownerWrapNonce with
      | true =>
        have ho : importOutcome svc s.db claims e = .counted row := by
          simp [importOutcome, hrowEq, hrow, hex, hacc, ha]
        rw [ho] at hitems hcreated
        exact tallyStep_same svc 1 htaken (by simp [importTally, hrow, htk, ha])
          (hitems.trans (congrArg DB.items hitem)) hcreated
      | false =>
        have ho : importOutcome svc s.db claims e = .unshared row := by
          simp [importOutcome, hrowEq, hrow, hex, hacc, ha]
        rw [ho] at hitems hcreated
        exact tallyStep_same svc 0 htaken (by simp [importTally, hrow, htk, ha])
          (hitems.trans (congrArg DB.items hitem)) hcreated
    · have hfree : s.db.item? row.id = none := by
        rw [htaken] at htk
        simpa using htk
      have hfree₀ : db.item? row.id = none := by
        by_contra hsome
        have hstill := hgrow.item?_isSome (Option.isSome_iff_ne_none.mpr hsome)
        simp [hfree] at hstill
      have href := hgrow.referencesExist row
      cases href₀ : row.referencesExist db with
      | false =>
        -- a foreign key fails: nothing happens
        have ho : importOutcome svc s.db claims e = .refused := by
          simp [importOutcome, hrowEq, hrow, hfree, href, href₀]
        rw [ho] at hitems hcreated
        exact tallyStep_same svc 0 htaken (by simp [importTally, hrow, htk, href₀]) hitems hcreated
      | true =>
        -- a new row, counted if the nonce lets its share statement go through
        have huser : (db.user? claims.subject).isSome = true := by
          have hby : row.createdBy = claims.subject := (importRow_eq_some hrow).2.1
          simp only [Item.referencesExist, Bool.and_eq_true, hby] at href₀
          exact href₀.2
        have hnonce : ownerShareAccepted db row.id claims.subject e.item.ownerWrapNonce =
            (Nonce.ofBytes e.item.ownerWrapNonce).isSome := by
          simp [ownerShareAccepted, huser]
        cases hn : (Nonce.ofBytes e.item.ownerWrapNonce).isSome with
        | true =>
          have ho : importOutcome svc s.db claims e = .counted row := by
            simp [importOutcome, hrowEq, hrow, hfree, href, href₀, hacc, hnonce, hn]
          rw [ho] at hitems hcreated
          exact tallyStep_new svc (o := 0) rfl htaken hfree hfree₀
            (by simp [importTally, hrow, htk, href₀, hn]) hitems hcreated
        | false =>
          have ho : importOutcome svc s.db claims e = .unshared row := by
            simp [importOutcome, hrowEq, hrow, hfree, href, href₀, hacc, hnonce, hn]
          rw [ho] at hitems hcreated
          exact tallyStep_new svc (o := 1) rfl htaken hfree hfree₀
            (by simp [importTally, hrow, htk, href₀, hn]) hitems hcreated

/-- Items created so far and items left without a share balance against new
rows and elements counted for a taken id. -/
theorem tally_balance (batch : List ImportElem) (s : ImportState) (taken : List Uuid)
    (hgrow : ImportGrowth claims.subject db s.db)
    (htaken : ∀ x, x ∈ taken ↔ (s.db.item? x).isSome = true) :
    (Runs.run (importStep svc claims) s batch).created +
        (importTally svc db claims taken batch).1 + newItems db s.db =
      s.created + (importTally svc db claims taken batch).2 +
        newItems db (Runs.run (importStep svc claims) s batch).db := by
  induction batch generalizing s taken with
  | nil => simp [importTally]
  | cons e es ih =>
    obtain ⟨taken', o, r, htally, htaken', hbal⟩ :=
      importItem_tallyStep svc (e := e) hgrow htaken
    have hih := ih _ taken' (importStep_growth svc db claims s e hgrow) htaken'
    rw [Runs.run_cons, htally]
    omega

variable (db claims) in
/-- `created` is the number of new items exactly when the two counts agree. -/
theorem importLoop_created_iff (batch : List ImportElem) :
    (importLoop svc db claims batch).created = newItems db (importLoop svc db claims batch).db ↔
      (importTally svc db claims (db.items.map Item.id) batch).1 =
        (importTally svc db claims (db.items.map Item.id) batch).2 := by
  have htaken : ∀ x, x ∈ db.items.map Item.id ↔ (db.item? x).isSome = true := by
    intro x
    rw [DB.item?, Table.lookup_isSome]
    simp
  have hbal := tally_balance svc batch ⟨db, 0, []⟩ _ (.refl claims.subject db) htaken
  have hzero := newItems_self db
  simp only [importLoop]
  simp only at hbal
  omega

end Batch

/-- User 1 owns item 5; user 2 owns folder 20 and nothing else. -/
def importState : DB where
  users := [sampleUser 1 "owner", sampleUser 2 "importer"]
  folders := [sampleFolder 10 1, sampleFolder 20 2]
  itemTypes := [⟨1, none⟩]
  items := [sampleItem 5 10 1]

def importDraw : EnvelopeDraw :=
  ⟨List.replicate keyLength 0, sampleNonce, sampleNonce, length_zeroKey⟩

/-- User 2 imports one element into folder 20, under the id of item 5. -/
def importOfTakenId : List ImportElem :=
  [⟨0, importDraw, ⟨(Uuid.ofNat 5).text, (Uuid.ofNat 20).text, 1, "copy", "", [], [1],
    List.replicate aesGcmNonceLen 0, none, none⟩⟩]

end IronStock

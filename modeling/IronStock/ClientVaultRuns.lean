import IronStock.ClientVault
import IronStock.ShareAtomicity
import IronStock.Lib.PartialFold

/-!
# Runs of the item pages

Every step of the pages is one of the vault, and what the pages show along a run is what
the vault says.
-/
namespace IronStock

/-! ## One step -/

section Step

variable {svc : Service} {s : SubtleCrypto} {w : VaultWorld}

theorem VaultHeld.answer (h : VaultHeld s w) {session : WebSession} {n : Nat}
    {resp : ItemResponse} (hresp : w.pages.answer? session n = some resp) :
    ∃ a, w.vault.loaded[n]? = some a ∧ AnswerHeld s resp a := by
  obtain ⟨e, he, rfl⟩ := Option.map_eq_some_iff.mp hresp
  have hget : w.pages.loaded[n]? = some e := Option.filter_eq_some_iff.mp he |>.1
  obtain ⟨hn, rfl⟩ := List.getElem?_eq_some_iff.mp hget
  have hlen := h.loaded.length_eq
  have hn' : n < w.vault.loaded.length := by omega
  exact ⟨w.vault.loaded[n], List.getElem?_eq_getElem hn', h.loaded.get hn hn'⟩

theorem isSome_of_known {db : DB} {P : Prop} {x : Uuid} (h : db.item? x = none → P)
    (hP : ¬ P) : (db.item? x).isSome = true := by
  cases hx : db.item? x with
  | some item => rfl
  | none => exact absurd (h hx) hP

/-- Every value belongs to an item. -/
theorem VaultHeld.housed (h : VaultHeld s w) {f : ItemField} (hf : f ∈ w.pages.db.itemFields) :
    (w.pages.db.item? f.itemId).isSome = true := by
  refine isSome_of_known (fun hnone => (h.known f.itemId hnone).2.1) fun hempty => ?_
  have hheld := (h.fields f.itemId).held
  rw [hempty, List.forall₂_nil_right_iff] at hheld
  have hmem : f ∈ w.pages.db.itemFields.filter (·.itemId = f.itemId) :=
    List.mem_filter.mpr ⟨hf, by simp⟩
  rw [hheld] at hmem
  cases hmem

/-- So does every answer. -/
theorem VaultHeld.answered (h : VaultHeld s w) {a : VaultAnswer} (ha : a ∈ w.vault.loaded) :
    (w.pages.db.item? a.item).isSome = true :=
  isSome_of_known (fun hnone => (h.known a.item hnone).2.2) fun hall => hall a ha rfl

/-- Another database with the same keys and values. -/
theorem VaultHeld.congr (h : VaultHeld s w) {db : DB}
    (hkeys : fetchCallerDEK db = fetchCallerDEK w.pages.db)
    (hfields : db.itemFields = w.pages.db.itemFields) (hitems : db.items = w.pages.db.items) :
    VaultHeld s ⟨{ w.pages with db := db }, w.vault⟩ where
  keys x u := by
    rw [hkeys]
    exact h.keys x u
  fields x := by
    rw [hfields]
    exact h.fields x
  loaded := h.loaded
  known x hx := by
    rw [DB.item?, hitems] at hx
    exact h.known x hx

/-- What an answer about an item holds, as the vault has it. -/
theorem VaultHeld.itemGet (h : VaultHeld s w) {now : Time} {claims : Claims} {itemID : String}
    {resp : ItemResponse}
    (hresp : (IronStock.itemGet svc w.pages.db now claims itemID).2 = .ok resp) :
    ∃ x, castUuid itemID = some x ∧ (w.pages.db.item? x).isSome = true ∧
      AnswerHeld s resp (w.vault.answer x claims.subject) := by
  obtain ⟨x, hx⟩ := Option.isSome_iff_exists.mp (itemGet_castUuid hresp)
  obtain ⟨hitem, hid, hcases⟩ := itemGet_fields hx hresp
  obtain ⟨hwrapped, hnonce⟩ := itemGet_key hx hresp
  refine ⟨x, hx, hitem, hid, ⟨_, hwrapped, hnonce, h.keys x claims.subject⟩, fun hsome => ?_⟩
  have hfieldsx := h.fields x
  have hsorted := hfieldsx.inOrder.insertionSort_eq
  refine ⟨_, ?_, hfieldsx⟩
  obtain hnone | hfields := hcases
  · exfalso
    rw [hnone] at hwrapped
    have hkey := h.keys x claims.subject
    cases hfetch : fetchCallerDEK w.pages.db x claims.subject with
    | some p => rw [hfetch] at hwrapped; cases hwrapped
    | none =>
      rw [hfetch] at hkey
      obtain ⟨k, hk⟩ := Option.isSome_iff_exists.mp hsome
      have hk' : w.vault.key x claims.subject = some k := hk
      rw [hk'] at hkey
      cases hkey
  · rw [hfields, fetchItemFields, hsorted]

theorem VaultHeld.load (h : VaultHeld s w) (now : Time) (claims : Claims) (itemID : String) :
    VaultHeld s (w.step svc s (.load now claims itemID)) := by
  obtain ⟨hshares, hfields, hitems⟩ := @itemGet_tables svc w.pages.db now claims itemID
  have hsame := h.congr (fetchCallerDEK_congr hshares) hfields hitems
  cases hget : IronStock.itemGet svc w.pages.db now claims itemID with
  | mk db r =>
    rw [hget] at hsame
    cases r with
    | error e =>
      simpa [VaultWorld.step, PageWorld.step, PageAction.outcome, hget, Except.isOk,
        Except.toBool] using hsame
    | ok resp =>
      have hresp : (IronStock.itemGet svc w.pages.db now claims itemID).2 = .ok resp := by
        rw [hget]
      obtain ⟨x, hx, hitem, hanswer⟩ := h.itemGet hresp
      have hstep : w.step svc s (.load now claims itemID) =
          ⟨⟨db, w.pages.loaded ++ [(claims.subject, resp)]⟩,
            { w.vault with loaded := w.vault.loaded ++ [w.vault.answer x claims.subject] }⟩ := by
        simp [VaultWorld.step, PageWorld.step, PageAction.outcome, hget, Except.isOk,
          Except.toBool, Vault.apply, hx]
      rw [hstep]
      refine ⟨hsame.keys, hsame.fields,
        List.rel_append h.loaded (List.Forall₂.cons hanswer List.Forall₂.nil), fun y hy => ?_⟩
      obtain ⟨hnokey, hnosecret, hnoanswer⟩ := hsame.known y hy
      refine ⟨hnokey, hnosecret, fun a ha => ?_⟩
      obtain ha | ha := List.mem_append.mp ha
      · exact hnoanswer a ha
      · rw [List.mem_singleton.mp ha]
        rintro rfl
        have hdb : db.items = w.pages.db.items := by
          rw [hget] at hitems
          exact hitems
        have hsome : (db.item? x).isSome = true := by
          rw [DB.item?, hdb]
          exact hitem
        have hnone : db.item? x = none := hy
        rw [hnone] at hsome
        cases hsome

/-- What is in the request of a new item. -/
theorem createItemRequest_eq_some {session : WebSession} {form : CreateForm} {draw : PageDraw}
    {req : ItemRequest} (h : createItemRequest s session form draw = some req) :
    ∃ privateKey wrapped nonce fs, session.privateKey = some privateKey ∧
      sealDEKWithKEK s draw.wrapNonce draw.ephPubPlaceholder draw.dek privateKey =
        some (wrapped, nonce) ∧
      encryptFields s draw.dek draw.fieldNonce form.fields = some fs ∧ req.id = form.id ∧
      req.fields = some fs ∧ req.ownerDEKWrapped = wrapped ∧ req.ownerWrapNonce = nonce.bytes := by
  unfold createItemRequest at h
  split at h
  · next privateKey itemTypeID hkey _ =>
    split at h
    · cases h
    · split at h
      · next wrapped nonce fs hseal henc =>
        cases h
        exact ⟨privateKey, wrapped, nonce, fs, hkey, hseal, henc, rfl, rfl, rfl, rfl⟩
      · cases h
  · cases h

/-- A wrap is written to an item that is there. -/
theorem VaultHeld.setKey (h : VaultHeld s w) {db : DB} {x : Uuid} {e : Uuid × SealedKey}
    {wrap : Bytes × Nonce}
    (hfetch : ∀ x' u', fetchCallerDEK db x' u' =
      if x = x' ∧ e.1 = u' then some wrap else fetchCallerDEK w.pages.db x' u')
    (hwraps : Wraps s e.2 wrap.1 wrap.2) (hfields : db.itemFields = w.pages.db.itemFields)
    (hitems : db.items = w.pages.db.items) (hx : (w.pages.db.item? x).isSome = true) :
    VaultHeld s ⟨{ w.pages with db := db }, w.vault.setKey x e⟩ where
  keys x' u' := by
    rw [hfetch, Vault.setKey]
    dsimp only
    by_cases hkey : x = x' ∧ e.1 = u'
    · rw [if_pos hkey, if_pos hkey]
      exact Option.Rel.some hwraps
    · rw [if_neg hkey, if_neg hkey]
      exact h.keys x' u'
  fields x' := by
    rw [hfields]
    exact h.fields x'
  loaded := h.loaded
  known y hy := by
    rw [DB.item?, hitems] at hy
    obtain ⟨hnokey, hnosecret, hnoanswer⟩ := h.known y hy
    have hne : ¬ x = y := by
      rintro rfl
      have hnone : w.pages.db.item? x = none := hy
      rw [hnone] at hx
      cases hx
    refine ⟨fun u => ?_, hnosecret, hnoanswer⟩
    rw [Vault.setKey]
    dsimp only
    rw [if_neg fun hkey => hne hkey.1]
    exact hnokey u

/-- The values of one item are replaced. -/
theorem VaultHeld.setSecrets (h : VaultHeld s w) {db : DB} {x : Uuid} {es : List (Int × Secret)}
    (hkeys : fetchCallerDEK db = fetchCallerDEK w.pages.db)
    (hheld : FieldsHeld s (db.itemFields.filter (·.itemId = x)) es)
    (hothers : ∀ y, x ≠ y →
      db.itemFields.filter (·.itemId = y) = w.pages.db.itemFields.filter (·.itemId = y))
    (hx : (db.item? x).isSome = true)
    (hgrow : ∀ y, db.item? y = none → w.pages.db.item? y = none) :
    VaultHeld s ⟨{ w.pages with db := db }, w.vault.setSecrets x es⟩ where
  keys x' u' := by
    rw [hkeys]
    exact h.keys x' u'
  fields y := by
    rw [Vault.setSecrets]
    dsimp only
    by_cases hy : x = y
    · rw [if_pos hy, ← hy]
      exact hheld
    · rw [if_neg hy, hothers y hy]
      exact h.fields y
  loaded := h.loaded
  known y hy := by
    obtain ⟨hnokey, hnosecret, hnoanswer⟩ := h.known y (hgrow y hy)
    have hne : ¬ x = y := by
      rintro rfl
      have hnone : db.item? x = none := hy
      rw [hnone] at hx
      cases hx
    refine ⟨hnokey, ?_, hnoanswer⟩
    rw [Vault.setSecrets]
    dsimp only
    rw [if_neg hne]
    exact hnosecret

theorem VaultHeld.create (hs : s.Ideal) (h : VaultHeld s w) (now : Time) (envelope : EnvelopeDraw)
    (session : WebSession) (form : CreateForm) (draw : PageDraw) :
    VaultHeld s (w.step svc s (.create now envelope session form draw)) := by
  simp only [VaultWorld.step, PageWorld.step, PageAction.outcome]
  cases hreq : createItemRequest s session form draw with
  | none => simpa using h
  | some req =>
    dsimp only [Option.bind_eq_bind, Option.bind_some]
    cases hcreate : itemCreate svc w.pages.db now session.claims envelope req with
    | error e => simpa [Except.isOk, Except.toBool] using h
    | ok r =>
      obtain ⟨db, resp⟩ := r
      obtain ⟨privateKey, wrapped, nonce, fs, hkey, hseal, henc, hid, hfs, hwrapped, hnonce⟩ :=
        createItemRequest_eq_some hreq
      obtain ⟨row, nonce', db₃, hcast, hby, hfree, hnoshare, hofBytes, hfields, rfl⟩ :=
        itemCreate_eq_ok hcreate
      rw [hnonce, Nonce.ofBytes_bytes] at hofBytes
      obtain rfl := Option.some.inj hofBytes
      rw [hwrapped, hfs, Option.getD_some] at hfields
      obtain ⟨rfl, hwraps⟩ := sealDEKWithKEK_wraps draw.length_placeholder hseal
      have hempty : ∀ r ∈ (w.pages.db.withNewItem row wrapped draw.wrapNonce).itemFields,
          r.itemId ≠ row.id := by
        intro r hr heq
        have hsome := h.housed hr
        rw [heq, hfree] at hsome
        cases hsome
      obtain ⟨fs', n', vs', hframe⟩ := insertItemFields_frame hfields
      obtain ⟨hheld, hothers, hnew⟩ := insertItemFields_held hs henc hempty hfields
      have hitems : ∀ y, db₃.item? y =
          (w.pages.db.item? y).or (if row.id = y then some row else none) := by
        intro y
        rw [hframe]
        exact item?_addItem w.pages.db row y
      have hfetch : ∀ x' u', fetchCallerDEK db₃ x' u' =
          if row.id = x' ∧ session.claims.subject = u' then some (wrapped, draw.wrapNonce)
          else fetchCallerDEK w.pages.db x' u' := by
        intro x' u'
        have hsame : db₃.itemShares = (w.pages.db.addShare
            (ownerShare row.id row.createdBy wrapped draw.wrapNonce)).itemShares := by
          rw [hframe]
          rfl
        rw [← hby] at hnoshare ⊢
        rw [fetchCallerDEK_congr hsame]
        exact @fetchCallerDEK_addShare w.pages.db
          (ownerShare row.id row.createdBy wrapped draw.wrapNonce) hnoshare x' u'
      have hthere : (db₃.item? row.id).isSome = true := by
        rw [hitems, if_pos rfl, Option.isSome_or, Option.isSome_some, Bool.or_true]
      have hstored : VaultHeld s ⟨{ w.pages with db := { db₃ with
            itemShares := w.pages.db.itemShares } },
          w.vault.setSecrets row.id (secretsOf draw.dek form.fields.texts)⟩ := by
        refine h.setSecrets (fetchCallerDEK_congr rfl) hheld hothers hthere fun y hy => ?_
        have hnone : db₃.item? y = none := hy
        rw [hitems, Option.or_eq_none_iff] at hnone
        exact hnone.1
      have hrow : castUuid form.id = some row.id := hid ▸ hcast
      have hdone : VaultHeld s ⟨{ w.pages with db := (db₃.audit
            ⟨session.claims.subject.text, "item.created", "item", req.id⟩) },
          (w.vault.setSecrets row.id (secretsOf draw.dek form.fields.texts)).setKey row.id
            (session.claims.subject, ⟨draw.ephPubPlaceholder, s.sha256 privateKey, draw.dek⟩)⟩ :=
        hstored.setKey hfetch hwraps rfl rfl hthere
      simpa [Except.isOk, Except.toBool, Vault.apply, hkey, hrow] using hdone

/-- What is in the request of an edit. -/
theorem editItemRequest_eq_some {session : WebSession} {resp : ItemResponse} {form : EditForm}
    {draw : PageDraw} {req : ItemRequest}
    (h : editItemRequest s session resp form draw = some req) :
    ∃ privateKey fs, session.privateKey = some privateKey ∧ req.fields = some fs ∧
      encryptFields s ((form.editDEK s resp privateKey).getD draw.dek) draw.fieldNonce
        (form.fields ((form.editDEK s resp privateKey).map fun dek =>
          decryptFields s dek (resp.fields.getD []))) = some fs := by
  unfold editItemRequest at h
  split at h
  · cases h
  · next privateKey hkey =>
    split at h
    · cases h
    · dsimp only at h
      split at h
      · next wrapped nonce fs hseal henc =>
        cases h
        exact ⟨privateKey, fs, hkey, rfl, henc⟩
      · cases h

theorem AnswerHeld.editDEK (hs : s.Ideal) {resp : ItemResponse} {a : VaultAnswer}
    (h : AnswerHeld s resp a) (form : EditForm) (privateKey : Bytes) :
    form.editDEK s resp privateKey = a.editDEK form (s.sha256 privateKey) := by
  rw [EditForm.editDEK, VaultAnswer.editDEK]
  cases form.ready with
  | false => rfl
  | true =>
    rw [if_pos rfl]
    cases hopened : resp.ownerDEK s privateKey with
    | opened dek => rw [(h.opened_iff hs privateKey dek).mp hopened]
    | missing =>
      symm
      apply Option.eq_none_iff_forall_ne_some.mpr
      intro dek hdek
      rw [(h.opened_iff hs privateKey dek).mpr hdek] at hopened
      cases hopened
    | failed =>
      symm
      apply Option.eq_none_iff_forall_ne_some.mpr
      intro dek hdek
      rw [(h.opened_iff hs privateKey dek).mpr hdek] at hopened
      cases hopened

theorem AnswerHeld.shown (hs : s.Ideal) {resp : ItemResponse} {a : VaultAnswer}
    (h : AnswerHeld s resp a) (form : EditForm) (wrapKey : Bytes) :
    ((a.editDEK form wrapKey).map fun dek => decryptFields s dek (resp.fields.getD [])) =
      (a.editDEK form wrapKey).map (shownUnder · a.secrets) := by
  cases hdek : a.editDEK form wrapKey with
  | none => rfl
  | some dek =>
    have hsome : a.key.isSome = true := by
      rw [VaultAnswer.editDEK] at hdek
      split at hdek
      · obtain ⟨k, hk, _⟩ := Option.map_eq_some_iff.mp hdek
        rw [(Option.filter_eq_some_iff.mp hk).1]
        rfl
      · cases hdek
    obtain ⟨rows, hrows, hheld⟩ := h.fields hsome
    rw [Option.map_some, Option.map_some, hrows, Option.getD_some, hheld.decrypt hs]

theorem VaultHeld.edit (hs : s.Ideal) (h : VaultHeld s w) (now : Time) (envelope : EnvelopeDraw)
    (session : WebSession) (n : Nat) (form : EditForm) (draw : PageDraw) :
    VaultHeld s (w.step svc s (.edit now envelope session n form draw)) := by
  simp only [VaultWorld.step, PageWorld.step, PageAction.outcome]
  cases hresp : w.pages.answer? session n with
  | none => simpa using h
  | some resp =>
    dsimp only [Option.bind_eq_bind, Option.bind_some]
    cases hreq : editItemRequest s session resp form draw with
    | none => simpa using h
    | some req =>
      dsimp only [Option.bind_some]
      cases hupdate : itemUpdate svc w.pages.db now session.claims resp.id envelope req with
      | error e => simpa [Except.isOk, Except.toBool] using h
      | ok r =>
        obtain ⟨db, links⟩ := r
        obtain ⟨a, ha, hanswer⟩ := h.answer hresp
        obtain ⟨privateKey, fs, hkey, hfs, henc⟩ := editItemRequest_eq_some hreq
        rw [hanswer.editDEK hs, hanswer.shown hs] at henc
        obtain ⟨existing, c, db₂, hcast, hitem, hfields, rfl⟩ := itemUpdate_eq_ok hupdate
        have hid : existing.id = a.item := by
          rw [hanswer.item, castUuid_text] at hcast
          exact (Option.some.inj hcast).symm
        rw [hfs, replaceItemFields] at hfields
        obtain ⟨fs', n', vs', hframe⟩ := insertItemFields_frame hfields
        have hempty : ∀ r ∈ Table.deleteWhere (·.itemId = existing.id) w.pages.db.itemFields,
            r.itemId ≠ existing.id := by
          intro r hr
          simpa using (Table.mem_deleteWhere.mp hr).2
        obtain ⟨hheld, hothers, hnew⟩ := insertItemFields_held hs henc hempty hfields
        have hitems : ∀ y, (db₂.item? y).isSome = (w.pages.db.item? y).isSome := by
          intro y
          have hids : ∀ r : Item, (r.set c now).id = r.id := fun _ => rfl
          rw [hframe]
          show (Table.lookup Item.id y (Table.updateWhere (·.id = existing.id) (·.set c now)
            w.pages.db.items)).isSome = _
          rw [Table.lookup_updateWhere hids, Option.isSome_map]
          rfl
        have hdone : VaultHeld s ⟨{ w.pages with db := (db₂.audit
              ⟨session.claims.subject.text, "item.updated", "item", resp.id⟩) },
            w.vault.setSecrets existing.id (a.edited form draw.dek (s.sha256 privateKey))⟩ := by
          refine h.setSecrets (fetchCallerDEK_congr (by rw [hframe]; rfl)) hheld ?_ ?_ ?_
          · intro y hy
            rw [DB.audit]
            rw [hothers y hy, deleteItemFields, Table.deleteWhere, List.filter_filter]
            apply List.filter_congr
            intro r _
            by_cases hr : r.itemId = y
            · simp [hr, Ne.symm hy]
            · simp [hr]
          · show (db₂.item? existing.id).isSome = true
            have hitem' : w.pages.db.item? existing.id = some existing := hitem
            rw [hitems, hitem']
            rfl
          · intro y hy
            have hy' : db₂.item? y = none := hy
            have hnone : (w.pages.db.item? y).isSome = false := by
              rw [← hitems, hy']
              rfl
            exact Option.not_isSome_iff_eq_none.mp (by rw [hnone]; decide)
        rw [hid] at hdone
        simpa [Except.isOk, Except.toBool, Vault.apply, ha, hkey] using hdone

end Step

/-! ## Shares -/

section Shares

variable {svc : Service} {s : SubtleCrypto} {w : VaultWorld}

/-- The row of a wrap that the modal has sealed for a member. -/
structure RowHeld (s : SubtleCrypto) (x : Uuid) (dek : Bytes) (m : MemberWrap)
    (row : ItemShare) : Prop where
  item : row.itemId = x
  key : ∃ key, Vault.memberKey s dek m = some (row.userId, key) ∧
    Wraps s key row.e2eDekWrapped row.wrapNonce

theorem rowHeld_of_seal (hs : s.Ideal) {x : Uuid} {dek wrapped : Bytes} {m : MemberWrap}
    {nonce : Nonce} {itemID permission : String} {grantedBy : Uuid}
    {validFrom validUntil : Option Time} {row : ItemShare} (hx : castUuid itemID = some x)
    (hseal : sealDEK s m.wrapNonce m.ephemeral dek m.publicKey = some (wrapped, nonce))
    (hrow : shareRow itemID m.userID wrapped nonce.bytes permission grantedBy validFrom
      validUntil = .ok row) : RowHeld s x dek m row := by
  obtain ⟨hitem, huser, _, _, _, _, hwrapped, hbytes, _⟩ := Sharing.shareRow_eq_ok hrow
  obtain ⟨rfl, bits, hbits, hwraps⟩ := sealDEK_wraps hs hseal
  have hnonce : m.wrapNonce = row.wrapNonce := by
    have hread := congrArg Nonce.ofBytes hbytes
    rw [Nonce.ofBytes_bytes, Nonce.ofBytes_bytes] at hread
    exact (Option.some.inj hread).symm
  refine ⟨Option.some.inj (hitem.symm.trans hx), ⟨s.publicKey m.ephemeral, bits, dek⟩, ?_, ?_⟩
  · rw [Vault.memberKey, huser, hbits]
  · rw [hwrapped, ← hnonce]
    exact hwraps

theorem VaultHeld.putShare (h : VaultHeld s w) {x : Uuid} {dek : Bytes} {m : MemberWrap}
    {row : ItemShare} (hrow : RowHeld s x dek m row) (hx : (w.pages.db.item? x).isSome = true) :
    ∃ e, Vault.memberKey s dek m = some e ∧
      VaultHeld s ⟨{ w.pages with db := w.pages.db.putShare row }, w.vault.setKey x e⟩ := by
  obtain ⟨rfl, key, hkey, hwraps⟩ := hrow
  exact ⟨_, hkey, h.setKey (fetchCallerDEK_putShare row) hwraps rfl rfl hx⟩

/-- What is in the request of a share. -/
theorem shareUserRequest_eq_some {session : WebSession} {resp : ItemResponse} {form : ShareForm}
    {req : ShareItemRequest} (h : shareUserRequest s session resp form = some req) :
    ∃ privateKey dek wrapped nonce, session.privateKey = some privateKey ∧
      resp.ownerDEK s privateKey = .opened dek ∧
      sealDEK s form.wrapNonce form.ephemeral dek form.publicKey = some (wrapped, nonce) ∧
      req.userID = form.recipientId ∧ req.dekWrapped = wrapped ∧ req.wrapNonce = nonce.bytes := by
  unfold shareUserRequest at h
  split at h
  · cases h
  · split at h
    · cases h
    · next privateKey hkey =>
      split at h
      · next dek hdek =>
        obtain ⟨⟨wrapped, nonce⟩, hseal, rfl⟩ := Option.map_eq_some_iff.mp h
        exact ⟨privateKey, dek, wrapped, nonce, hkey, hdek, hseal, rfl, rfl, rfl⟩
      · cases h

theorem VaultHeld.share (hs : s.Ideal) (h : VaultHeld s w) (now : Time) (session : WebSession)
    (n : Nat) (form : ShareForm) : VaultHeld s (w.step svc s (.share now session n form)) := by
  simp only [VaultWorld.step, PageWorld.step, PageAction.outcome]
  cases hresp : w.pages.answer? session n with
  | none => simpa using h
  | some resp =>
    dsimp only [Option.bind_eq_bind, Option.bind_some]
    cases hreq : shareUserRequest s session resp form with
    | none => simpa using h
    | some req =>
      dsimp only [Option.bind_some]
      cases hshare : IronStock.share w.pages.db now session.claims resp.id req with
      | error e => simpa [Except.isOk, Except.toBool] using h
      | ok db =>
        obtain ⟨a, ha, hanswer⟩ := h.answer hresp
        obtain ⟨privateKey, dek, wrapped, nonce, hkey, hdek, hseal, huser, hwrapped, hnonce⟩ :=
          shareUserRequest_eq_some hreq
        obtain ⟨row, entry, hrow, rfl⟩ := share_eq_ok hshare
        rw [ShareItemRequest.row, huser, hwrapped, hnonce] at hrow
        have hx : castUuid resp.id = some a.item := by rw [hanswer.item, castUuid_text]
        have hheld := @rowHeld_of_seal s hs a.item dek wrapped
          ⟨form.recipientId, form.publicKey, form.ephemeral, form.wrapNonce⟩ _ _ _ _ _ _ _ hx
          hseal hrow
        obtain ⟨e, he, hdone⟩ := h.putShare hheld (h.answered (List.mem_of_getElem? ha))
        have hopened := (hanswer.opened_iff hs privateKey dek).mp hdek
        have haudit : VaultHeld s ⟨{ w.pages with db := (w.pages.db.putShare row).audit entry },
            w.vault.setKey a.item e⟩ := hdone.congr rfl rfl rfl
        simpa [Except.isOk, Except.toBool, Vault.apply, ha, hkey, hopened, he] using haudit

/-- The rows the loop writes are those of the first members, in order. -/
theorem writtenRows_prefix (db : DB) (rows : List (Except PgError ItemShare)) :
    List.Forall₂ (fun r row => r = .ok row) (rows.take (writtenRows db rows).length)
      (writtenRows db rows) := by
  induction rows generalizing db with
  | nil => exact List.Forall₂.nil
  | cons r rows ih =>
    cases r with
    | error e => exact List.Forall₂.nil
    | ok row =>
      rw [writtenRows]
      split
      · rw [List.length_cons, List.take_succ_cons]
        exact List.Forall₂.cons rfl (ih (db.putShare row))
      · exact List.Forall₂.nil

/-- What a group share does to the tables of the vault, whatever it answers. -/
theorem shareGroup_tables (db : DB) (now : Time) (claims : Claims) (itemID : String)
    (req : ShareGroupRequest) :
    ∃ db₁ ws, db₁.itemShares = db.itemShares ∧ db₁.itemFields = db.itemFields ∧
      db₁.items = db.items ∧ ws = (ShareOp.shareGroup now claims itemID req).writes db ∧
      (shareGroup db now claims itemID req).1.itemShares = (ws.foldl DB.putShare db₁).itemShares ∧
      (shareGroup db now claims itemID req).1.itemFields = (ws.foldl DB.putShare db₁).itemFields ∧
      (shareGroup db now claims itemID req).1.items = (ws.foldl DB.putShare db₁).items ∧
      List.Forall₂ (fun m row => req.row itemID claims.subject m = .ok row)
        (req.members.take ws.length) ws := by
  simp only [ShareOp.writes, shareGroup]
  cases hcheck : checkShareGroup db now claims itemID req with
  | error e =>
    exact ⟨db, [], rfl, rfl, rfl, by simp [Except.isOk, Except.toBool], rfl, rfl, rfl,
      List.Forall₂.nil⟩
  | ok u =>
    simp only [Except.isOk, Except.toBool, if_true]
    cases hup : upsertGroupShare db itemID req.groupID req.permission claims.subject req.validFrom
        req.validUntil with
    | error e => exact ⟨db, [], rfl, rfl, rfl, rfl, rfl, rfl, rfl, List.Forall₂.nil⟩
    | ok db₁ =>
      have hdb₁ : db₁.itemShares = db.itemShares ∧ db₁.itemFields = db.itemFields ∧
          db₁.items = db.items := by
        unfold upsertGroupShare at hup
        split at hup
        · split at hup
          · simp only at hup
            split at hup
            · cases hup
              exact ⟨rfl, rfl, rfl⟩
            · cases hup
          · cases hup
        · cases hup
      have hloop := shareMembers_db db₁ (req.members.map (req.row itemID claims.subject))
      have hrows := writtenRows_prefix db₁ (req.members.map (req.row itemID claims.subject))
      rw [← List.map_take, List.forall₂_map_left_iff] at hrows
      refine ⟨db₁, _, hdb₁.1, hdb₁.2.1, hdb₁.2.2, rfl, ?_, ?_, ?_, hrows⟩
      all_goals
        simp only
        rw [← hloop]
        split
        · next heq => rw [heq]
        · next heq => rw [heq]; rfl

theorem VaultHeld.putShares {x : Uuid} {dek : Bytes} {ms : List MemberWrap} {ws : List ItemShare}
    (hrows : List.Forall₂ (RowHeld s x dek) ms ws) (h : VaultHeld s w)
    (hx : (w.pages.db.item? x).isSome = true) :
    VaultHeld s ⟨{ w.pages with db := ws.foldl DB.putShare w.pages.db },
      (ms.filterMap (Vault.memberKey s dek)).foldl (Vault.setKey · x ·) w.vault⟩ := by
  induction hrows generalizing w with
  | nil => exact h
  | cons hrow _ ih =>
    obtain ⟨e, he, hdone⟩ := h.putShare hrow hx
    rw [List.filterMap_cons, he]
    exact ih hdone hx

/-- What is in the request of a group share. -/
theorem shareGroupUserRequest_eq_some {session : WebSession} {resp : ItemResponse}
    {form : ShareGroupForm} {req : ShareGroupRequest}
    (h : shareGroupUserRequest s session resp form = some req) :
    ∃ privateKey dek, session.privateKey = some privateKey ∧
      resp.ownerDEK s privateKey = .opened dek ∧
      List.Forall₂ (fun m r => ∃ wrapped nonce,
        sealDEK s m.wrapNonce m.ephemeral dek m.publicKey = some (wrapped, nonce) ∧
        r = ShareGroupMemberDEK.mk m.userID wrapped nonce.bytes) form.members req.members := by
  unfold shareGroupUserRequest at h
  split at h
  · cases h
  · split at h
    · cases h
    · next privateKey hkey =>
      split at h
      · next dek hdek =>
        obtain ⟨members, hmembers, rfl⟩ := Option.map_eq_some_iff.mp h
        refine ⟨privateKey, dek, hkey, hdek, (PartialFold.forall₂_of_mapM hmembers).imp ?_⟩
        intro m r hr
        obtain ⟨⟨wrapped, nonce⟩, hseal, rfl⟩ := Option.map_eq_some_iff.mp hr
        exact ⟨wrapped, nonce, hseal, rfl⟩
      · cases h

theorem rowsHeld_of_seals (hs : s.Ideal) {x : Uuid} {dek : Bytes} {itemID : String}
    {grantedBy : Uuid} {req : ShareGroupRequest} (hx : castUuid itemID = some x)
    {ms : List MemberWrap} {rs : List ShareGroupMemberDEK} {ws : List ItemShare}
    (hseals : List.Forall₂ (fun m r => ∃ wrapped nonce,
      sealDEK s m.wrapNonce m.ephemeral dek m.publicKey = some (wrapped, nonce) ∧
      r = ShareGroupMemberDEK.mk m.userID wrapped nonce.bytes) ms rs)
    (hrows : List.Forall₂ (fun r row => req.row itemID grantedBy r = .ok row) rs ws) :
    List.Forall₂ (RowHeld s x dek) ms ws := by
  induction hseals generalizing ws with
  | nil =>
    cases hrows
    exact List.Forall₂.nil
  | cons hseal _ ih =>
    cases hrows with
    | cons hrow hrest =>
      obtain ⟨wrapped, nonce, hseal, rfl⟩ := hseal
      exact List.Forall₂.cons (rowHeld_of_seal hs hx hseal hrow) (ih hrest)

theorem VaultHeld.shareGroup (hs : s.Ideal) (h : VaultHeld s w) (now : Time)
    (session : WebSession) (n : Nat) (form : ShareGroupForm) :
    VaultHeld s (w.step svc s (.shareGroup now session n form)) := by
  simp only [VaultWorld.step, PageWorld.step, PageAction.outcome]
  cases hresp : w.pages.answer? session n with
  | none => simpa using h
  | some resp =>
    dsimp only [Option.bind_eq_bind, Option.bind_some]
    cases hreq : shareGroupUserRequest s session resp form with
    | none => simpa using h
    | some req =>
      dsimp only [Option.bind_some]
      obtain ⟨a, ha, hanswer⟩ := h.answer hresp
      obtain ⟨privateKey, dek, hkey, hdek, hseals⟩ := shareGroupUserRequest_eq_some hreq
      obtain ⟨db₁, ws, hshares, hfields, hitems, hws, hshares', hfields', hitems', hrows⟩ :=
        shareGroup_tables w.pages.db now session.claims resp.id req
      have hx : castUuid resp.id = some a.item := by rw [hanswer.item, castUuid_text]
      have hheld := rowsHeld_of_seals hs hx (List.forall₂_take ws.length hseals) hrows
      have hstart : VaultHeld s ⟨{ w.pages with db := db₁ }, w.vault⟩ :=
        h.congr (fetchCallerDEK_congr hshares) hfields hitems
      have hthere := hstart.answered (List.mem_of_getElem? ha)
      have hdone := hstart.putShares hheld hthere
      have hopened := (hanswer.opened_iff hs privateKey dek).mp hdek
      have hend := hdone.congr (fetchCallerDEK_congr hshares') hfields' hitems'
      have hlen : groupRows w.pages now session.claims resp.id req = ws.length := by
        rw [groupRows, hws]
      simpa [Vault.apply, ha, hkey, hopened, hlen] using hend

theorem VaultHeld.unshare (h : VaultHeld s w) (now : Time) (claims : Claims)
    (itemID target : String) : VaultHeld s (w.step svc s (.unshare now claims itemID target)) := by
  simp only [VaultWorld.step, PageWorld.step, PageAction.outcome]
  cases hunshare : IronStock.unshare w.pages.db now claims itemID target with
  | error e => exact h
  | ok db =>
    obtain rfl | ⟨item, user, entry, _, _, rfl⟩ := unshare_eq_ok hunshare
    · exact h
    · exact h.congr (fetchCallerDEK_revokeShare now item user) rfl rfl

/-- Every step of the pages is one of the vault. -/
theorem VaultHeld.step (hs : s.Ideal) (h : VaultHeld s w) (a : PageAction) :
    VaultHeld s (w.step svc s a) := by
  cases a with
  | load now claims itemID => exact h.load now claims itemID
  | create now envelope session form draw => exact h.create hs now envelope session form draw
  | edit now envelope session n form draw => exact h.edit hs now envelope session n form draw
  | share now session n form => exact h.share hs now session n form
  | shareGroup now session n form => exact h.shareGroup hs now session n form
  | unshare now claims itemID target => exact h.unshare now claims itemID target

end Shares

/-! ## Runs -/

section Runs

/-- Nobody has anything of an item. -/
def Vault.empty : Vault := ⟨fun _ _ => none, fun _ => [], []⟩

/-- The pages over a database, before the first answer. -/
def VaultWorld.start (db : DB) : VaultWorld := ⟨⟨db, []⟩, Vault.empty⟩

theorem VaultHeld.start {s : SubtleCrypto} {db : DB} (hshares : db.itemShares = [])
    (hfields : db.itemFields = []) : VaultHeld s (VaultWorld.start db) where
  keys x u := by
    rw [VaultWorld.start, fetchCallerDEK, hshares]
    exact Option.Rel.none
  fields x := by
    rw [VaultWorld.start, hfields]
    exact ⟨List.Forall₂.nil, List.Pairwise.nil⟩
  loaded := List.Forall₂.nil
  known x _ := ⟨fun _ => rfl, rfl, fun _ ha => absurd ha List.not_mem_nil⟩

theorem VaultHeld.run {svc : Service} {s : SubtleCrypto} (hs : s.Ideal) {db : DB}
    (hshares : db.itemShares = []) (hfields : db.itemFields = []) (as : List PageAction) :
    VaultHeld s (Runs.run (VaultWorld.step svc s) (.start db) as) :=
  Runs.run_invariant (fun _ a h => h.step hs a) (VaultHeld.start hshares hfields) as

/-- The detail page shows what the vault says, of an answer it gets now and of those
there are from before. -/
structure ShowsVault (svc : Service) (s : SubtleCrypto) (w : VaultWorld) : Prop where
  now : ∀ now claims itemID resp privateKey,
    (itemGet svc w.pages.db now claims itemID).2 = .ok resp →
    ∃ x, castUuid itemID = some x ∧ itemDetail s resp (some privateKey) =
      (w.vault.answer x claims.subject).page (s.sha256 privateKey)
  before : List.Forall₂ (fun e a => ∀ privateKey,
    itemDetail s e.2 (some privateKey) = a.page (s.sha256 privateKey))
    w.pages.loaded w.vault.loaded

/-- What users see of the items is what the vault says, whatever the pages and the
server have done. -/
theorem showsVault_along_runs (svc : Service) {s : SubtleCrypto} (hs : s.Ideal) {db : DB}
    (hshares : db.itemShares = []) (hfields : db.itemFields = []) (as : List PageAction) :
    Runs.Along (VaultWorld.step svc s) (ShowsVault svc s) (.start db) as := by
  have hstep : ∀ w a, VaultHeld s w → VaultHeld s (VaultWorld.step svc s w a) :=
    fun _ a h => h.step hs a
  have halong := Runs.along_invariant hstep (VaultHeld.start hshares hfields) as
  refine halong.mono fun w h => ⟨?_, h.loaded.imp fun e a hanswer => hanswer.itemDetail hs⟩
  intro now claims itemID resp privateKey hresp
  obtain ⟨x, hx, _, hanswer⟩ := h.itemGet hresp
  exact ⟨x, hx, hanswer.itemDetail hs privateKey⟩

/-! A run: user 1 makes item 5 with a password and shares it with user 2. -/

/-- Two users, a folder, and an item type with one field. -/
def pagesState : DB where
  users := [sampleUser 1 "owner", sampleUser 2 "guest"]
  folders := [sampleFolder 10 1]
  itemTypes := [⟨1, none⟩]
  fieldDefinitions := [1]

/-- A private key for each user. -/
def sampleKeyOf (u : Uuid) : Bytes := u.digits.map fun d => UInt8.ofNat d.val

def pagesSession (n : Nat) : WebSession :=
  ⟨⟨Uuid.ofNat n, [.write]⟩, some (sampleKeyOf (Uuid.ofNat n))⟩

def pagesDraw (b : UInt8) : PageDraw :=
  ⟨List.replicate 32 b, sampleNonce, List.replicate 32 0, fun _ => sampleNonce,
    List.length_replicate, List.length_replicate⟩

def pagesEnvelope : EnvelopeDraw :=
  ⟨List.replicate keyLength 0, sampleNonce, sampleNonce, List.length_replicate⟩

def pagesShared : List PageAction :=
  [.create 0 pagesEnvelope (pagesSession 1)
      { name := "db", description := "", expiresAt := none, rotationIntervalDays := none
        id := (Uuid.ofNat 5).text, folderID := (Uuid.ofNat 10).text, itemTypeID := some 1
        suggested := [], defs := [], duplicateFrom := fun _ => none, externalSource := ""
        typed := [(1, "pw")] }
      (pagesDraw 7),
    .load 0 ⟨Uuid.ofNat 1, [.write]⟩ (Uuid.ofNat 5).text,
    .share 0 (pagesSession 1) 0
      { recipientId := (Uuid.ofNat 2).text, publicKey := to32 (sampleKeyOf (Uuid.ofNat 2))
        permission := "write", validFrom := none, validUntil := none
        ephemeral := List.replicate 32 9, wrapNonce := sampleNonce },
    .load 0 ⟨Uuid.ofNat 2, [.write]⟩ (Uuid.ofNat 5).text]

theorem showsVault_along_pagesShared :
    Runs.Along (VaultWorld.step sampleService sampleSubtle) (ShowsVault sampleService sampleSubtle)
      (.start pagesState) pagesShared :=
  showsVault_along_runs sampleService sampleSubtle_ideal rfl rfl pagesShared

end Runs

end IronStock

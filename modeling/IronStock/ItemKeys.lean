import IronStock.ClientVaultRuns
import IronStock.GroupShareLevels

/-!
# Keys of items

What a run of the pages does to the keys behind the wraps and the values: an item has
one DEK for all its wraps and one for all its values, and an edit from a form whose key
did not open takes them apart.
-/
namespace IronStock

/-! ## Changes -/

/-- Who a page seals the DEK for. -/
def PageAction.recipients : PageAction → List MemberWrap
  | .share _ _ _ form => [⟨form.recipientId, form.publicKey, form.ephemeral, form.wrapNonce⟩]
  | .shareGroup _ _ _ form => form.members
  | _ => []

/-- The creator of an item. -/
def DB.creator (db : DB) (x : Uuid) : Option Uuid := (db.item? x).map Item.createdBy

namespace Vault

/-- Nobody has a key or a value of the item, or an answer about it. -/
def Unknown (v : Vault) (x : Uuid) : Prop :=
  (∀ u, v.key x u = none) ∧ v.secrets x = [] ∧ ∀ a ∈ v.loaded, a.item ≠ x

/-- The wraps sealed for the recipients. -/
def sealFor (s : SubtleCrypto) (v : Vault) (x : Uuid) (dek : Bytes) (ms : List MemberWrap) :
    Vault :=
  (ms.filterMap (memberKey s dek)).foldl (setKey · x ·) v

/-- What an action makes of the vault, with the creators the items have then. -/
inductive Change (s : SubtleCrypto) (creator : Uuid → Option Uuid) (v : Vault) :
    PageAction → Vault → Prop
  | same (action : PageAction) : Change s creator v action v
  | load {now : Time} {claims : Claims} {itemID : String} {x : Uuid} :
    Change s creator v (.load now claims itemID)
      { v with loaded := v.loaded ++ [v.answer x claims.subject] }
  | create {now : Time} {envelope : EnvelopeDraw} {session : WebSession} {form : CreateForm}
      {draw : PageDraw} {privateKey : Bytes} {x : Uuid} :
    session.privateKey = some privateKey → v.Unknown x →
    creator x = some session.claims.subject →
    Change s creator v (.create now envelope session form draw)
      ((v.setSecrets x (secretsOf draw.dek form.fields.texts)).setKey x
        (session.claims.subject, ⟨draw.ephPubPlaceholder, s.sha256 privateKey, draw.dek⟩))
  | edit {now : Time} {envelope : EnvelopeDraw} {session : WebSession} {n : Nat}
      {form : EditForm} {draw : PageDraw} {a : VaultAnswer} {privateKey : Bytes} :
    v.loaded[n]? = some a → session.privateKey = some privateKey →
    Change s creator v (.edit now envelope session n form draw)
      (v.setSecrets a.item (a.edited form draw.dek (s.sha256 privateKey)))
  | shared {action : PageAction} {a : VaultAnswer} {wrapKey dek : Bytes} {ms : List MemberWrap} :
    a ∈ v.loaded → a.opened wrapKey = some dek → (∀ m ∈ ms, m ∈ action.recipients) →
    Change s creator v action (v.sealFor s a.item dek ms)

end Vault

section Change

variable {svc : Service} {s : SubtleCrypto} {w : VaultWorld}

/-- A new item is new, and has its creator. -/
theorem creator_create {now : Time} {envelope : EnvelopeDraw} {session : WebSession}
    {form : CreateForm} {draw : PageDraw} {written : Nat} {x : Uuid}
    (hx : castUuid form.id = some x)
    (h : (PageAction.create now envelope session form draw).outcome svc s w.pages =
      some written) :
    w.pages.db.item? x = none ∧
      (w.pages.step svc s (.create now envelope session form draw)).db.creator x =
        some session.claims.subject := by
  simp only [PageAction.outcome, Option.bind_eq_bind, Option.bind_eq_some_iff,
    Option.ite_none_right_eq_some] at h
  obtain ⟨req, hreq, haccepted, _⟩ := h
  obtain ⟨_, _, _, _, _, _, _, hid, _⟩ := createItemRequest_eq_some hreq
  simp only [PageWorld.step, hreq]
  cases hcreate : itemCreate svc w.pages.db now session.claims envelope req with
  | error e => rw [hcreate] at haccepted; cases haccepted
  | ok r =>
    obtain ⟨db, resp⟩ := r
    obtain ⟨row, nonce, db₃, hcast, hby, hfree, _, _, hfields, rfl⟩ := itemCreate_eq_ok hcreate
    rw [hid, hx] at hcast
    obtain rfl := Option.some.inj hcast
    obtain ⟨fs, n, vs, hframe⟩ := insertItemFields_frame hfields
    have hrow : db₃.item? row.id = some row := by
      rw [hframe]
      show (w.pages.db.addItem row).item? row.id = some row
      rw [item?_addItem, hfree, if_pos rfl, Option.none_or]
    refine ⟨hfree, ?_⟩
    show (db₃.item? row.id).map Item.createdBy = some session.claims.subject
    rw [hrow, Option.map_some, hby]

theorem VaultHeld.change (h : VaultHeld s w) (action : PageAction) :
    w.vault.Change s (w.step svc s action).pages.db.creator action
      (w.step svc s action).vault := by
  cases houtcome : action.outcome svc s w.pages with
  | none =>
    rw [VaultWorld.step, houtcome]
    exact .same action
  | some written =>
    rw [VaultWorld.step, houtcome]
    dsimp only
    cases action with
    | load now claims itemID =>
      rw [Vault.apply]
      split
      · exact .load
      · exact .same _
    | create now envelope session form draw =>
      rw [Vault.apply]
      split
      · next privateKey x hkey hx =>
        obtain ⟨hfree, hcreator⟩ := creator_create hx houtcome
        exact .create hkey (h.known x hfree) hcreator
      · exact .same _
    | edit now envelope session n form draw =>
      rw [Vault.apply]
      split
      · next a privateKey ha hkey => exact .edit ha hkey
      · exact .same _
    | share now session n form =>
      rw [Vault.apply]
      split
      · next a privateKey ha hkey =>
        split
        · next dek hdek =>
          have hsealed := @Vault.Change.shared s
            (w.pages.step svc s (.share now session n form)).db.creator w.vault
            (.share now session n form) a (s.sha256 privateKey) dek _ (List.mem_of_getElem? ha)
            hdek fun m hm => hm
          rw [Vault.sealFor, PageAction.recipients, List.filterMap_cons,
            List.filterMap_nil] at hsealed
          split
          · next e he =>
            rw [he] at hsealed
            exact hsealed
          · exact .same _
        · exact .same _
      · exact .same _
    | shareGroup now session n form =>
      rw [Vault.apply]
      split
      · next a privateKey ha hkey =>
        split
        · next dek hdek =>
          exact .shared (List.mem_of_getElem? ha) hdek fun m hm => List.mem_of_mem_take hm
        · exact .same _
      · exact .same _
    | unshare now claims itemID target => exact .same _

end Change

/-! ## The DEK of an item -/

namespace Vault

/-- The wraps of the item, and those in the answers about it, hold such DEKs. -/
structure Wrapped (v : Vault) (x : Uuid) (P : Bytes → Prop) : Prop where
  keys : ∀ u k, v.key x u = some k → P k.dek
  answers : ∀ a ∈ v.loaded, a.item = x → ∀ k, a.key = some k → P k.dek

variable {s : SubtleCrypto} {creator : Uuid → Option Uuid} {v v' : Vault} {x : Uuid}
  {P : Bytes → Prop} {action : PageAction}

theorem memberKey_dek {dek : Bytes} {m : MemberWrap} {e : Uuid × SealedKey}
    (h : memberKey s dek m = some e) : e.2.dek = dek := by
  unfold memberKey at h
  split at h
  · rw [← Option.some.inj h]
  · cases h

@[simp] theorem setKey_secrets (v : Vault) (x : Uuid) (e : Uuid × SealedKey) :
    (v.setKey x e).secrets = v.secrets := rfl

theorem setKey_key {y u : Uuid} {e : Uuid × SealedKey} {k : SealedKey}
    (h : (v.setKey x e).key y u = some k) :
    (x = y ∧ e.1 = u ∧ e.2 = k) ∨ v.key y u = some k := by
  rw [setKey] at h
  dsimp only at h
  split at h
  · next hsame => exact Or.inl ⟨hsame.1, hsame.2, Option.some.inj h⟩
  · exact Or.inr h

theorem sealFor_eq (s : SubtleCrypto) (x : Uuid) (dek : Bytes) (ms : List MemberWrap) (v : Vault) :
    (v.sealFor s x dek ms).loaded = v.loaded ∧ (v.sealFor s x dek ms).secrets = v.secrets ∧
      ∀ y u k, (v.sealFor s x dek ms).key y u = some k →
        (x = y ∧ ∃ m ∈ ms, memberKey s dek m = some (u, k)) ∨ v.key y u = some k := by
  induction ms generalizing v with
  | nil => exact ⟨rfl, rfl, fun y u k h => Or.inr h⟩
  | cons m ms ih =>
    rw [sealFor, List.filterMap_cons]
    split
    · obtain ⟨hloaded, hsecrets, hkeys⟩ := ih v
      refine ⟨hloaded, hsecrets, fun y u k h => (hkeys y u k h).imp_left ?_⟩
      rintro ⟨hx, m', hm', hkey⟩
      exact ⟨hx, m', List.mem_cons_of_mem m hm', hkey⟩
    · next e he =>
      obtain ⟨hloaded, hsecrets, hkeys⟩ := ih (v.setKey x e)
      refine ⟨hloaded, hsecrets, fun y u k h => ?_⟩
      obtain ⟨hx, m', hm', hkey⟩ | hkey := hkeys y u k h
      · exact Or.inl ⟨hx, m', List.mem_cons_of_mem m hm', hkey⟩
      · obtain ⟨hx, rfl, rfl⟩ | hold := setKey_key hkey
        · exact Or.inl ⟨hx, m, List.mem_cons_self, he⟩
        · exact Or.inr hold

theorem opened_key {a : VaultAnswer} {wrapKey dek : Bytes} (h : a.opened wrapKey = some dek) :
    ∃ k, a.key = some k ∧ wrapKey = k.wrapKey ∧ k.dek = dek := by
  obtain ⟨k, hk, rfl⟩ := Option.map_eq_some_iff.mp h
  obtain ⟨hkey, hwrap⟩ := Option.filter_eq_some_iff.mp hk
  exact ⟨k, hkey, by simpa using hwrap, rfl⟩

theorem wrapped_empty (x : Uuid) (P : Bytes → Prop) : empty.Wrapped x P := by
  refine ⟨fun u k hk => ?_, fun a ha => absurd ha List.not_mem_nil⟩
  cases hk

/-- Only a new item brings a new DEK into the wraps. -/
theorem Wrapped.change (h : v.Wrapped x P) (hchange : v.Change s creator action v')
    (hnew : ∀ {now envelope session form draw}, action = .create now envelope session form draw →
      v.Unknown x → P draw.dek) : v'.Wrapped x P := by
  cases hchange with
  | same => exact h
  | @load now claims itemID y =>
    refine ⟨h.keys, fun a ha hax k hk => ?_⟩
    obtain ha | ha := List.mem_append.mp ha
    · exact h.answers a ha hax k hk
    · rw [List.mem_singleton.mp ha] at hax hk
      exact h.keys claims.subject k (by rw [← hax]; exact hk)
  | create hkey hunknown _ =>
    refine ⟨fun u k hk => ?_, h.answers⟩
    obtain ⟨rfl, _, rfl⟩ | hold := setKey_key hk
    · exact hnew rfl hunknown
    · exact h.keys u k hold
  | edit ha hkey => exact ⟨h.keys, h.answers⟩
  | @shared action a wrapKey dek ms ha hdek hms =>
    obtain ⟨hloaded, _, hkeys⟩ := sealFor_eq s a.item dek ms v
    refine ⟨fun u k hk => ?_, ?_⟩
    · obtain ⟨hx, m, _, hkey⟩ | hold := hkeys x u k hk
      · obtain ⟨k', hk', _, rfl⟩ := opened_key hdek
        rw [memberKey_dek hkey]
        exact h.answers a ha hx k' hk'
      · exact h.keys u k hold
    · rw [hloaded]
      exact h.answers

/-- An item has one DEK, for whoever has a wrap of it. -/
def OneDEK (v : Vault) : Prop := ∀ x, ∃ dek, v.Wrapped x (· = dek)

theorem OneDEK.change (h : v.OneDEK) (hchange : v.Change s creator action v') : v'.OneDEK := by
  intro x
  obtain ⟨dek, hdek⟩ := h x
  by_cases hnew : (∃ now envelope session form draw,
      action = .create now envelope session form draw) ∧ v.Unknown x
  · obtain ⟨⟨now, envelope, session, form, draw, rfl⟩, hunknown⟩ := hnew
    have hnone : v.Wrapped x (· = draw.dek) := by
      refine ⟨fun u k hk => ?_, fun a ha hax => absurd hax (hunknown.2.2 a ha)⟩
      rw [hunknown.1 u] at hk
      cases hk
    refine ⟨draw.dek, hnone.change hchange fun heq _ => ?_⟩
    cases heq
    rfl
  · exact ⟨dek, hdek.change hchange fun heq hunknown =>
      absurd ⟨⟨_, _, _, _, _, heq⟩, hunknown⟩ hnew⟩

/-- All values are under this DEK. -/
def Under (es : List (Int × Secret)) (dek : Bytes) : Prop := ∀ e ∈ es, e.2.dek = dek

theorem under_secretsOf (dek : Bytes) (texts : List (Int × FieldText)) :
    Under (secretsOf dek texts) dek := by
  intro e he
  obtain ⟨t, _, rfl⟩ := List.mem_map.mp he
  rfl

theorem Under.shown {es : List (Int × Secret)} {dek : Bytes} (h : Under es dek) (dek' : Bytes) :
    shownUnder dek' es =
      if dek' = dek then es.map fun e => (e.1, e.2.text.text) else [] := by
  induction es with
  | nil => simp [shownUnder]
  | cons e es ih =>
    have hhead := h e List.mem_cons_self
    have htail := ih fun e' he' => h e' (List.mem_cons_of_mem e he')
    rw [shownUnder] at htail ⊢
    rw [List.filterMap_cons, htail, hhead]
    by_cases heq : dek' = dek
    · simp [heq]
    · simp [heq]

/-- The values of an item are under one DEK, in the table and in each answer. -/
structure ValuesTogether (v : Vault) : Prop where
  stored : ∀ x, ∃ dek, Under (v.secrets x) dek
  answers : ∀ a ∈ v.loaded, ∃ dek, Under a.secrets dek

theorem ValuesTogether.change (h : v.ValuesTogether) (hchange : v.Change s creator action v') :
    v'.ValuesTogether := by
  have hset : ∀ y dek texts, (v.setSecrets y (secretsOf dek texts)).ValuesTogether := by
    intro y dek texts
    refine ⟨fun x => ?_, h.answers⟩
    rw [setSecrets]
    dsimp only
    split
    · exact ⟨dek, under_secretsOf dek texts⟩
    · exact h.stored x
  cases hchange with
  | same => exact h
  | load =>
    refine ⟨h.stored, fun a ha => ?_⟩
    obtain ha | ha := List.mem_append.mp ha
    · exact h.answers a ha
    · rw [List.mem_singleton.mp ha]
      exact h.stored _
  | create hkey hunknown _ => exact ⟨(hset _ _ _).stored, h.answers⟩
  | edit ha hkey => exact hset _ _ _
  | @shared action a wrapKey dek ms ha hdek hms =>
    obtain ⟨hloaded, hsecrets, _⟩ := sealFor_eq s a.item dek ms v
    refine ⟨?_, ?_⟩
    · rw [hsecrets]
      exact h.stored
    · rw [hloaded]
      exact h.answers

end Vault

/-! ## What the pages make of it -/

section Pages

variable {svc : Service} {s : SubtleCrypto} {w : VaultWorld}

theorem FieldsHeld.ids {rows : List ItemField} {es : List (Int × Secret)}
    (h : FieldsHeld s rows es) : rows.map (·.output.fieldDefinitionID) = es.map Prod.fst := by
  have hheld := h.held
  clear h
  induction hheld with
  | nil => rfl
  | cons hrow _ ih =>
    rw [List.map_cons, List.map_cons, ih, ← hrow.id]
    rfl

/-- What the page decrypts is what the vault has under the DEK. -/
theorem AnswerHeld.decrypt (hs : s.Ideal) {resp : ItemResponse} {a : VaultAnswer}
    (h : AnswerHeld s resp a) {privateKey dek : Bytes}
    (hopened : resp.ownerDEK s privateKey = .opened dek) :
    decryptFields s dek (resp.fields.getD []) = shownUnder dek a.secrets ∧
      (∃ k, a.key = some k ∧ k.dek = dek) ∧
      (resp.fields.getD []).map (·.fieldDefinitionID) = a.secrets.map Prod.fst := by
  obtain ⟨k, hk, _, hdek⟩ := Vault.opened_key ((h.opened_iff hs privateKey dek).mp hopened)
  obtain ⟨rows, hrows, hheld⟩ := h.fields (by rw [hk]; rfl)
  rw [hrows, Option.getD_some]
  refine ⟨hheld.decrypt hs dek, ⟨k, hk, hdek⟩, ?_⟩
  rw [List.map_map]
  exact hheld.ids

/-- Whoever opens the item gets one DEK, and with it every stored value or none. -/
structure OpensAlike (svc : Service) (s : SubtleCrypto) (db : DB) : Prop where
  dek : ∀ now claims itemID resp privateKey dek now' claims' itemID' resp' privateKey' dek',
    (itemGet svc db now claims itemID).2 = .ok resp → resp.ownerDEK s privateKey = .opened dek →
    (itemGet svc db now' claims' itemID').2 = .ok resp' →
    resp'.ownerDEK s privateKey' = .opened dek' → resp.id = resp'.id → dek = dek'
  values : ∀ now claims itemID resp privateKey dek,
    (itemGet svc db now claims itemID).2 = .ok resp → resp.ownerDEK s privateKey = .opened dek →
    decryptFields s dek (resp.fields.getD []) = [] ∨
      (decryptFields s dek (resp.fields.getD [])).map Prod.fst =
        (resp.fields.getD []).map (·.fieldDefinitionID)

/-- The vault of a run, with what every step keeps of its DEKs. -/
structure VaultKept (s : SubtleCrypto) (w : VaultWorld) : Prop where
  held : VaultHeld s w
  wraps : w.vault.OneDEK
  values : w.vault.ValuesTogether

theorem VaultKept.start {db : DB} (hshares : db.itemShares = []) (hfields : db.itemFields = []) :
    VaultKept s (VaultWorld.start db) where
  held := VaultHeld.start hshares hfields
  wraps x := ⟨[], Vault.wrapped_empty x _⟩
  values := ⟨fun _ => ⟨[], fun _ he => absurd he List.not_mem_nil⟩,
    fun _ ha => absurd ha List.not_mem_nil⟩

theorem VaultKept.step (hs : s.Ideal) (h : VaultKept s w) (a : PageAction) :
    VaultKept s (w.step svc s a) :=
  ⟨h.held.step hs a, h.wraps.change (h.held.change a), h.values.change (h.held.change a)⟩

theorem VaultKept.opensAlike (hs : s.Ideal) (h : VaultKept s w) :
    OpensAlike svc s w.pages.db where
  dek now claims itemID resp privateKey dek now' claims' itemID' resp' privateKey' dek' hresp
      hopened hresp' hopened' hid := by
    obtain ⟨x, _, _, hanswer⟩ := h.held.itemGet hresp
    obtain ⟨x', _, _, hanswer'⟩ := h.held.itemGet hresp'
    have hsame : x = x' := by
      have htext : x.text = x'.text := by
        rw [hanswer.item, hanswer'.item] at hid
        exact hid
      exact Option.some.inj (by rw [← castUuid_text x, htext, castUuid_text])
    obtain ⟨common, hcommon⟩ := h.wraps x
    obtain ⟨_, ⟨k, hk, rfl⟩, _⟩ := hanswer.decrypt hs hopened
    obtain ⟨_, ⟨k', hk', rfl⟩, _⟩ := hanswer'.decrypt hs hopened'
    rw [hcommon.keys _ k hk, hcommon.keys _ k' (by rw [hsame]; exact hk')]
  values now claims itemID resp privateKey dek hresp hopened := by
    obtain ⟨x, _, _, hanswer⟩ := h.held.itemGet hresp
    obtain ⟨hshown, _, hids⟩ := hanswer.decrypt hs hopened
    obtain ⟨under, hunder⟩ := h.values.stored x
    have hunder' : Vault.Under (w.vault.answer x claims.subject).secrets under := hunder
    rw [hshown, hids, hunder'.shown]
    split
    · right
      rw [List.map_map]
      rfl
    · exact Or.inl rfl

/-- However the pages are used, the users of an item agree on its DEK, and no page shows
a part of the values. -/
theorem opensAlike_along_runs (svc : Service) {s : SubtleCrypto} (hs : s.Ideal) {db : DB}
    (hshares : db.itemShares = []) (hfields : db.itemFields = []) (as : List PageAction) :
    Runs.Along (VaultWorld.step svc s) (fun w => OpensAlike svc s w.pages.db) (.start db) as := by
  have hstep : ∀ w a, VaultKept s w → VaultKept s (VaultWorld.step svc s w a) :=
    fun _ a h => h.step hs a
  have halong := Runs.along_invariant hstep (VaultKept.start hshares hfields) as
  exact halong.mono fun w h => h.opensAlike hs

theorem opensAlike_along_pagesShared :
    Runs.Along (VaultWorld.step sampleService sampleSubtle)
      (fun w => OpensAlike sampleService sampleSubtle w.pages.db) (.start pagesState)
      pagesShared :=
  opensAlike_along_runs sampleService sampleSubtle_ideal rfl rfl pagesShared

end Pages

/-! ## After an edit -/

/-- The DEK that is drawn for a new item. -/
def PageAction.newDEK : PageAction → Option Bytes
  | .create _ _ _ _ draw => some draw.dek
  | _ => none

/-- An edit of this item that the server accepts. -/
def PageAction.Rewrites (svc : Service) (s : SubtleCrypto) (w : PageWorld) (x : Uuid)
    (a : PageAction) : Prop :=
  match a with
  | .edit _ _ session n _ _ => (a.outcome svc s w).isSome = true ∧
      (w.answer? session n).bind (fun resp => castUuid resp.id) = some x
  | _ => False

section Edit

variable {svc : Service} {s : SubtleCrypto} {w : VaultWorld} {x : Uuid}

theorem Vault.Change.mem_loaded {creator : Uuid → Option Uuid} {v v' : Vault} {action : PageAction}
    (h : v.Change s creator action v') {a : VaultAnswer} (ha : a ∈ v.loaded) : a ∈ v'.loaded := by
  cases h with
  | same => exact ha
  | load => exact List.mem_append_left _ ha
  | create => exact ha
  | edit => exact ha
  | @shared action b wrapKey dek ms hb hdek hms =>
    rw [(Vault.sealFor_eq s b.item dek ms v).1]
    exact ha

/-- The values of an item stay until an edit of it is accepted. -/
theorem VaultHeld.secrets_kept (h : VaultHeld s w) {a : VaultAnswer} (ha : a ∈ w.vault.loaded)
    {action : PageAction} (hquiet : ¬ action.Rewrites svc s w.pages a.item) :
    (w.step svc s action).vault.secrets a.item = w.vault.secrets a.item := by
  have hchange := @VaultHeld.change svc s w h action
  revert hchange
  generalize hv : (w.step svc s action).vault = v'
  intro hchange
  cases hchange with
  | same => rfl
  | load => rfl
  | @create now envelope session form draw privateKey y hkey hunknown _ =>
    rw [Vault.setKey_secrets, Vault.setSecrets]
    dsimp only
    rw [if_neg fun heq => hunknown.2.2 a ha heq.symm]
  | @edit now envelope session n form draw b privateKey hb hkey =>
    by_cases hsame : b.item = a.item
    · rw [VaultWorld.step] at hv
      dsimp only at hv
      cases houtcome : (PageAction.edit now envelope session n form draw).outcome svc s
          w.pages with
      | none => rw [houtcome] at hv; rw [← hv]
      | some written =>
        exfalso
        apply hquiet
        have houtcome' := houtcome
        simp only [PageAction.outcome, Option.bind_eq_bind, Option.bind_eq_some_iff] at houtcome'
        obtain ⟨resp, hresp, _⟩ := houtcome'
        obtain ⟨b', hb', hanswer⟩ := h.answer hresp
        rw [hb] at hb'
        obtain rfl := Option.some.inj hb'
        refine ⟨by rw [houtcome]; rfl, ?_⟩
        rw [hresp, Option.bind_some, hanswer.item, castUuid_text, hsame]
    · rw [Vault.setSecrets]
      dsimp only
      rw [if_neg hsame]
  | @shared action b wrapKey dek ms hb hdek hms =>
    rw [(Vault.sealFor_eq s b.item dek ms w.vault).2.1]

/-- What there is of an item whose values are left alone. -/
structure Rests (s : SubtleCrypto) (a : VaultAnswer) (P : Bytes → Prop)
    (es : List (Int × Secret)) (w : VaultWorld) : Prop where
  held : VaultHeld s w
  mem : a ∈ w.vault.loaded
  wraps : w.vault.Wrapped a.item P
  secrets : w.vault.secrets a.item = es

theorem Rests.step (hs : s.Ideal) {a : VaultAnswer} {P : Bytes → Prop}
    {es : List (Int × Secret)} (h : Rests s a P es w) {action : PageAction}
    (hquiet : ¬ action.Rewrites svc s w.pages a.item) : Rests s a P es (w.step svc s action) where
  held := h.held.step hs action
  mem := (h.held.change action).mem_loaded h.mem
  wraps := h.wraps.change (h.held.change action) fun _ hunknown =>
    absurd rfl (hunknown.2.2 a h.mem)
  secrets := (h.held.secrets_kept h.mem hquiet).trans h.secrets

theorem Rests.shown (hs : s.Ideal) {a : VaultAnswer} {P : Bytes → Prop}
    {es : List (Int × Secret)} (h : Rests s a P es w) {now : Time} {claims : Claims}
    {itemID : String} {resp : ItemResponse} {privateKey dek : Bytes}
    (hx : castUuid itemID = some a.item)
    (hresp : (itemGet svc w.pages.db now claims itemID).2 = .ok resp)
    (hopened : resp.ownerDEK s privateKey = .opened dek) :
    decryptFields s dek (resp.fields.getD []) = shownUnder dek es ∧ P dek := by
  obtain ⟨y, hy, _, hanswer⟩ := h.held.itemGet hresp
  obtain rfl : a.item = y := Option.some.inj (hx.symm.trans hy)
  obtain ⟨hshown, ⟨k, hk, rfl⟩, _⟩ := hanswer.decrypt hs hopened
  refine ⟨hshown.trans ?_, h.wraps.keys _ k hk⟩
  rw [← h.secrets]
  rfl

/-- A DEK that no new item has drawn is in no wrap. -/
theorem wrapped_ne_of_fresh (hs : s.Ideal) {db : DB} {dek : Bytes} (x : Uuid)
    (hshares : db.itemShares = []) (hfields : db.itemFields = []) {as : List PageAction}
    (hfresh : ∀ a ∈ as, a.newDEK ≠ some dek) :
    (Runs.run (VaultWorld.step svc s) (.start db) as).vault.Wrapped x (· ≠ dek) := by
  have hstep : ∀ w a, (VaultHeld s w ∧ w.vault.Wrapped x (· ≠ dek)) → a.newDEK ≠ some dek →
      VaultHeld s (w.step svc s a) ∧ (w.step svc s a).vault.Wrapped x (· ≠ dek) := by
    intro w a h ha
    refine ⟨h.1.step hs a, h.2.change (h.1.change a) ?_⟩
    rintro now envelope session form draw rfl _ rfl
    exact ha rfl
  have hstart : (VaultWorld.start db).vault.Wrapped x (· ≠ dek) := Vault.wrapped_empty x _
  have hall := (Runs.every_const (VaultWorld.step svc s) _ (VaultWorld.start db) as).mpr hfresh
  exact (Runs.along_of_every hstep ⟨VaultHeld.start hshares hfields, hstart⟩ hall).last.2

/-- Until the next edit of an item, whoever opens it sees the texts of the form if the
form had opened it, and otherwise nothing. -/
theorem values_after_edit (svc : Service) {s : SubtleCrypto} (hs : s.Ideal) {db : DB}
    (hshares : db.itemShares = []) (hfields : db.itemFields = []) (as bs : List PageAction)
    {now : Time} {envelope : EnvelopeDraw} {session : WebSession} {n : Nat} {form : EditForm}
    {draw : PageDraw} {resp : ItemResponse} {privateKey : Bytes} {x : Uuid}
    (hfresh : ∀ a ∈ as, a.newDEK ≠ some draw.dek)
    (hresp : (Runs.run (VaultWorld.step svc s) (.start db) as).pages.answer? session n = some resp)
    (hkey : session.privateKey = some privateKey) (hx : castUuid resp.id = some x)
    (haccepted : ((PageAction.edit now envelope session n form draw).outcome svc s
      (Runs.run (VaultWorld.step svc s) (.start db) as).pages).isSome = true)
    (hquiet : Runs.Every (VaultWorld.step svc s) (fun w a => ¬ a.Rewrites svc s w.pages x)
      (Runs.run (VaultWorld.step svc s) (.start db)
        (as ++ [.edit now envelope session n form draw])) bs) :
    ∀ now' claims' itemID' resp' privateKey' dek', castUuid itemID' = some x →
      (itemGet svc (Runs.run (VaultWorld.step svc s) (.start db)
        (as ++ .edit now envelope session n form draw :: bs)).pages.db now' claims' itemID').2 =
        .ok resp' →
      resp'.ownerDEK s privateKey' = .opened dek' →
      decryptFields s dek' (resp'.fields.getD []) =
        match form.editDEK s resp privateKey with
        | some dek =>
          (form.fields (some (decryptFields s dek (resp.fields.getD [])))).texts.map
            fun e => (e.1, e.2.text)
        | none => [] := by
  intro now' claims' itemID' resp' privateKey' dek' hx' hresp' hopened'
  have hstep : ∀ w a, VaultKept s w → VaultKept s (VaultWorld.step svc s w a) :=
    fun _ a h => h.step hs a
  have hkept := Runs.run_invariant hstep (VaultKept.start hshares hfields) as
  have hne := @wrapped_ne_of_fresh svc s hs db draw.dek x hshares hfields as hfresh
  rw [Runs.run_append, Runs.run_cons] at hresp'
  rw [Runs.run_append, Runs.run_cons, Runs.run_nil] at hquiet
  generalize Runs.run (VaultWorld.step svc s) (.start db) as = w at *
  obtain ⟨a, ha, hanswer⟩ := hkept.held.answer hresp
  obtain rfl : a.item = x := by
    rw [hanswer.item, castUuid_text] at hx
    exact Option.some.inj hx
  have hmem := List.mem_of_getElem? ha
  have hsecrets : (w.step svc s (.edit now envelope session n form draw)).vault.secrets a.item =
      a.edited form draw.dek (s.sha256 privateKey) := by
    obtain ⟨written, hwritten⟩ := Option.isSome_iff_exists.mp haccepted
    rw [VaultWorld.step, hwritten]
    simp [Vault.apply, ha, hkey, Vault.setSecrets]
  have hkeys : ∀ {P : Bytes → Prop}, w.vault.Wrapped a.item P →
      (w.step svc s (.edit now envelope session n form draw)).vault.Wrapped a.item P :=
    fun hP => hP.change (hkept.held.change _) fun heq _ => by cases heq
  have hrests : ∀ {P : Bytes → Prop}, w.vault.Wrapped a.item P → Rests s a P
      (a.edited form draw.dek (s.sha256 privateKey))
      (Runs.run (VaultWorld.step svc s)
        (w.step svc s (.edit now envelope session n form draw)) bs) := by
    intro P hP
    have hfirst : Rests s a P (a.edited form draw.dek (s.sha256 privateKey))
        (w.step svc s (.edit now envelope session n form draw)) :=
      ⟨hkept.held.step hs _, (hkept.held.change _).mem_loaded hmem, hkeys hP, hsecrets⟩
    exact (Runs.along_of_every (fun w b h hb => h.step hs hb) hfirst hquiet).last
  have hedited : a.edited form draw.dek (s.sha256 privateKey) =
      secretsOf ((form.editDEK s resp privateKey).getD draw.dek)
        (form.fields ((form.editDEK s resp privateKey).map fun dek =>
          decryptFields s dek (resp.fields.getD []))).texts := by
    rw [VaultAnswer.edited, hanswer.editDEK hs, hanswer.shown hs]
  cases hdek : form.editDEK s resp privateKey with
  | none =>
    rw [hdek, Option.map_none, Option.getD_none] at hedited
    have hlast := hrests hne
    obtain ⟨hshown, hdiff⟩ := hlast.shown hs hx' hresp' hopened'
    rw [hshown, hedited, (Vault.under_secretsOf _ _).shown, if_neg hdiff]
  | some dek =>
    rw [hdek, Option.map_some, Option.getD_some] at hedited
    have hlast := hrests (P := (· = dek)) ?_
    · obtain ⟨hshown, hsame⟩ := hlast.shown hs hx' hresp' hopened'
      rw [hshown, hedited, (Vault.under_secretsOf _ _).shown, if_pos hsame, secretsOf, List.map_map]
      rfl
    · obtain ⟨common, hcommon⟩ := hkept.wraps a.item
      rw [hanswer.editDEK hs, VaultAnswer.editDEK] at hdek
      obtain ⟨_, hopened⟩ := Option.ite_none_right_eq_some.mp hdek
      obtain ⟨k, hk, _, rfl⟩ := Vault.opened_key hopened
      rw [hcommon.answers a hmem rfl k hk]
      exact hcommon

/-- User 2, for whom the page does not open the item, saves a new password. -/
def pagesLost : PageAction :=
  .edit 1 pagesEnvelope (pagesSession 2) 1
    { name := "db", description := "", expiresAt := none, rotationIntervalDays := none
      ready := true, held := FieldMap.empty, suggested := none, defs := []
      typed := [(1, "new")] }
    (pagesDraw 8)

/-- What user 2 has of the item. -/
def guestAnswer : Option ItemResponse :=
  (Runs.run (VaultWorld.step sampleService sampleSubtle) (.start pagesState)
    pagesShared).pages.answer? (pagesSession 2) 1

set_option maxRecDepth 20000 in
/-- User 1 still opens the item, and there is nothing in it. -/
theorem values_after_edit_lost :
    (∀ now claims itemID resp privateKey dek, castUuid itemID = some (Uuid.ofNat 5) →
      (itemGet sampleService (Runs.run (VaultWorld.step sampleService sampleSubtle)
        (.start pagesState) (pagesShared ++ [pagesLost])).pages.db now claims itemID).2 =
        .ok resp →
      resp.ownerDEK sampleSubtle privateKey = .opened dek →
      decryptFields sampleSubtle dek (resp.fields.getD []) = []) ∧
    ((itemGet sampleService (Runs.run (VaultWorld.step sampleService sampleSubtle)
      (.start pagesState) (pagesShared ++ [pagesLost])).pages.db 2 ⟨Uuid.ofNat 1, [.write]⟩
      (Uuid.ofNat 5).text).2.toOption.map fun resp =>
        itemDetail sampleSubtle resp (some (sampleKeyOf (Uuid.ofNat 1)))) =
      some (.success []) := by
  refine ⟨fun now claims itemID resp privateKey dek hx hresp hopened => ?_, by decide⟩
  have hguest : guestAnswer = some (guestAnswer.get (by decide)) := (Option.some_get _).symm
  have h := values_after_edit sampleService sampleSubtle_ideal rfl rfl pagesShared []
    (by decide) hguest rfl (x := Uuid.ofNat 5) (by decide) (by decide) trivial now claims itemID
    resp privateKey dek hx hresp hopened
  exact h

end Edit

/-! ## Who can open a wrap -/

/-- Sessions hold the private keys of their users, and the pages seal for the public keys
the users have registered. -/
structure PageAction.Registered (s : SubtleCrypto) (keyOf : Uuid → Bytes) (a : PageAction) :
    Prop where
  session : ∀ {now envelope session form draw privateKey},
    a = .create now envelope session form draw → session.privateKey = some privateKey →
    privateKey = keyOf session.claims.subject
  recipients : ∀ m ∈ a.recipients, ∀ u, castUuid m.userID = some u →
    m.publicKey = s.publicKey (keyOf u)

/-- A key a creator has sealed for themselves. -/
def SealedKey.Own (s : SubtleCrypto) (privateKey : Bytes) (k : SealedKey) : Prop :=
  k.wrapKey = s.sha256 privateKey

/-- A key somebody has sealed for the owner of this private key. -/
def SealedKey.Shared (s : SubtleCrypto) (privateKey : Bytes) (k : SealedKey) : Prop :=
  s.deriveSharedBits privateKey k.front = some k.wrapKey

section Creators

variable {svc : Service} {s : SubtleCrypto} {w : VaultWorld}

/-- An item keeps its creator. -/
theorem creator_step {x u : Uuid} (h : w.pages.db.creator x = some u) (a : PageAction) :
    (w.step svc s a).pages.db.creator x = some u := by
  have hitems : ∀ {db : DB}, db.items = w.pages.db.items → db.creator x = some u := by
    intro db hsame
    rw [DB.creator, DB.item?, hsame]
    exact h
  simp only [VaultWorld.step, PageWorld.step]
  cases a with
  | load now claims itemID =>
    have hload := (@itemGet_tables svc w.pages.db now claims itemID).2.2
    dsimp only
    split
    · next db e hget => rw [hget] at hload; exact hitems hload
    · next db resp hget => rw [hget] at hload; exact hitems hload
  | create now envelope session form draw =>
    dsimp only
    split
    · exact h
    · split
      · exact h
      · next db resp hcreate =>
        obtain ⟨row, nonce, db₃, _, _, hfree, _, _, hfields, rfl⟩ := itemCreate_eq_ok hcreate
        obtain ⟨fs, n, vs, hframe⟩ := insertItemFields_frame hfields
        obtain ⟨item, hitem, rfl⟩ := Option.map_eq_some_iff.mp h
        have hkept : db₃.item? x = some item := by
          rw [hframe]
          show (w.pages.db.addItem row).item? x = some item
          rw [item?_addItem, hitem, Option.some_or]
        show (db₃.item? x).map Item.createdBy = some item.createdBy
        rw [hkept, Option.map_some]
  | edit now envelope session n form draw =>
    dsimp only
    split
    · exact h
    · split
      · exact h
      · split
        · exact h
        · next req _ _ db links hupdate =>
          obtain ⟨existing, c, db₂, _, _, hfields, rfl⟩ := itemUpdate_eq_ok hupdate
          have hids : ∀ r : Item, (r.set c now).id = r.id := fun _ => rfl
          obtain ⟨item, hitem, rfl⟩ := Option.map_eq_some_iff.mp h
          have hafter : Table.lookup Item.id x (Table.updateWhere (·.id = existing.id)
              (·.set c now) w.pages.db.items) =
              some (if item.id = existing.id then item.set c now else item) := by
            rw [DB.item?] at hitem
            rw [Table.lookup_updateWhere hids, hitem, Option.map_some]
            simp only [decide_eq_true_eq]
          have hkept : db₂.items =
              Table.updateWhere (·.id = existing.id) (·.set c now) w.pages.db.items := by
            cases hfs : req.fields with
            | none => rw [hfs] at hfields; cases hfields; rfl
            | some fs =>
              rw [hfs, replaceItemFields] at hfields
              obtain ⟨fs', n', vs', hframe⟩ := insertItemFields_frame hfields
              rw [hframe]
              rfl
          show (db₂.item? x).map Item.createdBy = some item.createdBy
          rw [DB.item?, hkept, hafter, Option.map_some]
          split <;> rfl
  | share now session n form =>
    dsimp only
    split
    · exact h
    · split
      · exact h
      · split
        · exact h
        · next db hshare =>
          obtain ⟨row, entry, _, rfl⟩ := share_eq_ok hshare
          exact hitems rfl
  | shareGroup now session n form =>
    dsimp only
    split
    · exact h
    · split
      · exact h
      · next req _ =>
        obtain ⟨db₁, ws, _, _, hdb₁, _, _, _, hdb, _⟩ :=
          shareGroup_tables w.pages.db now session.claims _ req
        obtain ⟨shares, hshares⟩ := putShares_frame ws db₁
        apply hitems
        rw [hdb, hshares, ← hdb₁]
  | unshare now claims itemID target =>
    dsimp only
    split
    · exact h
    · next db hunshare =>
      obtain rfl | ⟨item, user, entry, _, _, rfl⟩ := unshare_eq_ok hunshare
      · exact h
      · exact hitems rfl

theorem SealedKey.not_own_of_shared (k : SealedKey)
    (happart : ∀ k p b, s.deriveBits k p ≠ some (s.sha256 b)) (privateKey : Bytes)
    (h : k.Shared s privateKey) : ¬ k.Own s privateKey := by
  intro hown
  rw [SealedKey.Shared, SubtleCrypto.deriveSharedBits, hown,
    Option.ite_none_right_eq_some] at h
  exact happart _ _ _ h.2

theorem WrapHeld.of_some {wrap : Bytes × Nonce} {key : Option SealedKey}
    (h : WrapHeld s (some wrap) key) : ∃ k, key = some k ∧ Wraps s k wrap.1 wrap.2 := by
  cases h with
  | some hwraps => exact ⟨_, rfl, hwraps⟩

theorem VaultAnswer.key_of_page {a : VaultAnswer} {wrapKey : Bytes}
    {values : List (Int × String)} (h : a.page wrapKey = .success values) :
    ∃ k, a.key = some k ∧ wrapKey = k.wrapKey := by
  unfold VaultAnswer.page at h
  split at h
  · cases h
  · next k hk =>
    split at h
    · next heq => exact ⟨k, hk, heq⟩
    · cases h

/-- Whoever has a wrap has it as the creator, or from a share. -/
def FromSomewhere (s : SubtleCrypto) (keyOf : Uuid → Bytes) (w : VaultWorld) : Prop :=
  ∀ x u k, w.vault.key x u = some k →
    (k.Own s (keyOf u) ∧ w.pages.db.creator x = some u) ∨ k.Shared s (keyOf u)

theorem memberKey_shared (hs : s.Ideal) {keyOf : Uuid → Bytes} (hlen : ∀ u, (keyOf u).length = 32)
    {dek : Bytes} {m : MemberWrap} {u : Uuid} {k : SealedKey}
    (hpublic : ∀ u, castUuid m.userID = some u → m.publicKey = s.publicKey (keyOf u))
    (h : Vault.memberKey s dek m = some (u, k)) : k.Shared s (keyOf u) := by
  unfold Vault.memberKey at h
  split at h
  · next user bits huser hbits =>
    cases h
    rw [hpublic u huser] at hbits
    exact deriveSharedBits_recipient hs (hlen u) hbits
  · cases h

theorem FromSomewhere.step (hs : s.Ideal) {keyOf : Uuid → Bytes}
    (hlen : ∀ u, (keyOf u).length = 32) (hheld : VaultHeld s w) (h : FromSomewhere s keyOf w)
    {a : PageAction} (ha : a.Registered s keyOf) : FromSomewhere s keyOf (w.step svc s a) := by
  have hchange := @VaultHeld.change svc s w hheld a
  have hcreators : ∀ {x u}, w.pages.db.creator x = some u →
      (w.step svc s a).pages.db.creator x = some u := fun hx => creator_step hx a
  intro x u k hk
  generalize (w.step svc s a).pages.db.creator = creator at *
  generalize (w.step svc s a).vault = v at *
  have hold : w.vault.key x u = some k →
      (k.Own s (keyOf u) ∧ creator x = some u) ∨ k.Shared s (keyOf u) := fun hk =>
    (h x u k hk).imp_left fun hown => ⟨hown.1, hcreators hown.2⟩
  cases hchange with
  | same => exact hold hk
  | load => exact hold hk
  | create hkey hunknown hcreator =>
    obtain ⟨rfl, rfl, rfl⟩ | hk := Vault.setKey_key hk
    · exact Or.inl ⟨by rw [SealedKey.Own, ha.session rfl hkey], hcreator⟩
    · exact hold hk
  | edit => exact hold hk
  | @shared action b wrapKey dek ms hb hdek hms =>
    obtain ⟨_, _, hkeys⟩ := Vault.sealFor_eq s b.item dek ms w.vault
    obtain ⟨_, m, hm, hkey⟩ | hk := hkeys x u k hk
    · exact Or.inr (memberKey_shared hs hlen (ha.recipients m (hms m hm)) hkey)
    · exact hold hk

/-- A wrap opens in one of the two ways. The pages know the first one only. -/
structure OpensOneWay (svc : Service) (s : SubtleCrypto) (keyOf : Uuid → Bytes) (db : DB) :
    Prop where
  wraps : ∀ x u wrapped nonce, fetchCallerDEK db x u = some (wrapped, nonce) →
    ((openDEKWithKEK s wrapped nonce.bytes (keyOf u)).isSome = true ∧
        openDEK s wrapped nonce.bytes (keyOf u) = none ∧ db.creator x = some u) ∨
      (openDEKWithKEK s wrapped nonce.bytes (keyOf u) = none ∧
        (openDEK s wrapped nonce.bytes (keyOf u)).isSome = true)
  pages : ∀ now claims itemID resp values, (itemGet svc db now claims itemID).2 = .ok resp →
    itemDetail s resp (some (keyOf claims.subject)) = .success values →
    ∃ x, castUuid itemID = some x ∧ db.creator x = some claims.subject

/-- The detail page shows an item to its creator at most: what others have been given
opens as a sealed box and not as the page tries to. -/
theorem opensOneWay_along_runs (svc : Service) {s : SubtleCrypto} (hs : s.Ideal)
    {keyOf : Uuid → Bytes} (hlen : ∀ u, (keyOf u).length = 32)
    (happart : ∀ k p b, s.deriveBits k p ≠ some (s.sha256 b)) {db : DB}
    (hshares : db.itemShares = []) (hfields : db.itemFields = []) (as : List PageAction)
    (hregistered : ∀ a ∈ as, a.Registered s keyOf) :
    Runs.Along (VaultWorld.step svc s) (fun w => OpensOneWay svc s keyOf w.pages.db) (.start db)
      as := by
  have hstep : ∀ w a, VaultHeld s w ∧ FromSomewhere s keyOf w → a.Registered s keyOf →
      VaultHeld s (w.step svc s a) ∧ FromSomewhere s keyOf (w.step svc s a) :=
    fun w a h ha => ⟨h.1.step hs a, h.2.step hs hlen h.1 ha⟩
  have hstart : FromSomewhere s keyOf (VaultWorld.start db) := by
    intro x u k hk
    cases hk
  have hall := (Runs.every_const (VaultWorld.step svc s) _ (VaultWorld.start db) as).mpr
    hregistered
  have halong := Runs.along_of_every hstep ⟨VaultHeld.start hshares hfields, hstart⟩ hall
  refine halong.mono fun w h => ⟨?_, ?_⟩
  · intro x u wrapped nonce hfetch
    have hkey := h.1.keys x u
    rw [hfetch] at hkey
    obtain ⟨k, hk, hwraps⟩ := hkey.of_some
    rw [hwraps.openDEKWithKEK hs, hwraps.openDEK hs]
    have hne := k.not_own_of_shared happart (keyOf u)
    obtain ⟨hown, hcreator⟩ | hshared := h.2 x u k hk
    · left
      have hbits : ¬ s.deriveSharedBits (keyOf u) k.front = some k.wrapKey :=
        fun hshared => hne hshared hown
      rw [if_pos hown.symm, if_neg hbits]
      exact ⟨rfl, rfl, hcreator⟩
    · right
      have hbits : s.deriveSharedBits (keyOf u) k.front = some k.wrapKey := hshared
      rw [if_neg fun hown => hne hshared hown.symm, if_pos hbits]
      exact ⟨rfl, rfl⟩
  · intro now claims itemID resp values hresp hpage
    obtain ⟨x, hx, _, hanswer⟩ := h.1.itemGet hresp
    rw [hanswer.itemDetail hs] at hpage
    obtain ⟨k, hk, hown⟩ := VaultAnswer.key_of_page hpage
    obtain hcreated | hshared := h.2 x claims.subject k hk
    · exact ⟨x, hx, hcreated.2⟩
    · exact absurd hown.symm (k.not_own_of_shared happart _ hshared)

theorem registered_pagesShared : ∀ a ∈ pagesShared, a.Registered sampleSubtle sampleKeyOf := by
  have hload : ∀ now claims itemID,
      (PageAction.load now claims itemID).Registered sampleSubtle sampleKeyOf :=
    fun _ _ _ => ⟨fun heq => (by cases heq), fun _ hm => absurd hm List.not_mem_nil⟩
  intro a ha
  simp only [pagesShared, List.mem_cons, List.not_mem_nil, or_false] at ha
  obtain rfl | rfl | rfl | rfl := ha
  · refine ⟨fun heq hkey => ?_, fun _ hm => absurd hm List.not_mem_nil⟩
    cases heq
    exact (Option.some.inj hkey).symm
  · exact hload _ _ _
  · refine ⟨fun heq => (by cases heq), fun m hm u hu => ?_⟩
    rw [List.mem_singleton.mp hm] at hu ⊢
    rw [castUuid_text] at hu
    rw [← Option.some.inj hu]
    rfl
  · exact hload _ _ _

theorem opensOneWay_along_pagesShared :
    Runs.Along (VaultWorld.step sampleService sampleSubtle)
      (fun w => OpensOneWay sampleService sampleSubtle sampleKeyOf w.pages.db) (.start pagesState)
      pagesShared := by
  have hlen : ∀ u, (sampleKeyOf u).length = 32 := by
    intro u
    rw [sampleKeyOf, List.length_map, u.length_digits]
  exact opensOneWay_along_runs sampleService sampleSubtle_ideal hlen sampleSubtle_apart rfl rfl
    pagesShared registered_pagesShared

end Creators

end IronStock

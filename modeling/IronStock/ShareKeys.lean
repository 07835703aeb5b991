import IronStock.ApprovalGate
import IronStock.ItemLevels
import IronStock.ItemShares

/-!
# The wrapped key and the share it comes from

`Get` takes the caller's wrapped key from their row of `item_shares` without
looking at `revoked_at` or at the window, which the permission query does look
at. So the key follows the share only where the two agree.
-/
namespace IronStock

/-- The share row of `user` on `item` that is in force at `now`. -/
structure ShareInForce (db : DB) (now : Time) (item user : Uuid) (s : ItemShare) : Prop where
  mem : s ∈ db.itemShares
  item : s.itemId = item
  user : s.userId = user
  inForce : InForce s.revokedAt s.window now

/-- `Get` gives the caller the wrapped key of a share in force and no key
without one. -/
structure KeyFollowsShare (svc : Service) (db : DB) (now : Time) (claims : Claims)
    (itemID : String) (x : Uuid) : Prop where
  withheld : (∀ s, ¬ ShareInForce db now x claims.subject s) →
    ∀ resp, (itemGet svc db now claims itemID).2 = .ok resp → resp.ownerDEKWrapped = none
  given : ∀ s, ShareInForce db now x claims.subject s →
    ∃ resp, (itemGet svc db now claims itemID).2 = .ok resp ∧
      resp.ownerDEKWrapped = some s.e2eDekWrapped ∧
      resp.ownerWrapNonce = some s.wrapNonce.bytes

/-- `Get` has something to show the caller: the item exists, its name opens, and
the caller is an admin or has a source of permission. -/
def Shown (svc : Service) (db : DB) (now : Time) (claims : Claims) (x : Uuid) : Prop :=
  ∃ item, db.item? x = some item ∧
    (decryptItemName svc x.text item.serverDekWrapped item.nameEnc).isSome = true ∧
    (claims.hasRole .admin = true ∨ HasSource db now claims.subject item)

section Get

variable {svc : Service} {db : DB} {now : Time} {claims : Claims} {itemID : String} {x : Uuid}

theorem fetchItemFull_key {item : Item} {full : ItemResponse}
    (h : fetchItemFull svc db item claims.subject = some full) :
    full.ownerDEKWrapped = (fetchCallerDEK db item.id claims.subject).map Prod.fst ∧
      full.ownerWrapNonce = (fetchCallerDEK db item.id claims.subject).map (·.2.bytes) := by
  rw [fetchItemFull, Option.map_eq_some_iff] at h
  obtain ⟨name, _, rfl⟩ := h
  exact ⟨rfl, rfl⟩

/-- An answer of `Get` has the key of the caller's row; the gate withholds it
only where there is none. -/
theorem itemGet_key (hx : castUuid itemID = some x) {resp : ItemResponse}
    (h : (itemGet svc db now claims itemID).2 = .ok resp) :
    resp.ownerDEKWrapped = (fetchCallerDEK db x claims.subject).map Prod.fst ∧
      resp.ownerWrapNonce = (fetchCallerDEK db x claims.subject).map (·.2.bytes) := by
  unfold itemGet at h
  split at h
  · cases h
  · next y full hok =>
    obtain ⟨perm, item, full, _, hitem, hfetched, rfl, rfl⟩ := (itemGetFull_eq_ok hx).mp hok
    have hkey := fetchItemFull_key hfetched
    rw [(Table.lookup_eq_some hitem).2] at hkey
    split at h
    · next hgated =>
      simp only at h
      split at h
      · cases h
        exact hkey
      · cases h
        -- the gate is for callers without a row
        have hnone : fetchCallerDEK db y claims.subject = none := by
          simp only [ItemResponse.isGated, hkey.1, Bool.and_eq_true, Option.isNone_map,
            Option.isNone_iff_eq_none] at hgated
          exact hgated.2
        rw [hnone]
        exact ⟨rfl, rfl⟩
    · cases h
      exact hkey

theorem itemGet_isOk : (∃ resp, (itemGet svc db now claims itemID).2 = .ok resp) ↔
    ∃ y full, itemGetFull svc db now claims itemID = .ok (y, full) := by
  unfold itemGet
  split
  · next e he => simp [he]
  · next y full hok =>
    refine iff_of_true ?_ ⟨y, full, hok⟩
    split
    · simp only
      split <;> exact ⟨_, rfl⟩
    · exact ⟨_, rfl⟩

theorem readLevel_isOk (hkeys : ShareKeysUnique db) (hx : castUuid itemID = some x) {item : Item}
    (hitem : db.item? x = some item) :
    (∃ perm, readLevel db now claims itemID = .ok perm) ↔
      claims.hasRole .admin = true ∨ HasSource db now claims.subject item := by
  rw [← itemPermissionOf_allowsRead_iff hkeys hitem, readLevel, resolveItemPermission_of_cast hx]
  by_cases hadmin : claims.hasRole .admin = true
  · simp [hadmin]
  · simp only [hadmin, Bool.false_eq_true, if_false, false_or]
    cases itemPermissionOf db now claims.subject x with
    | error e => simp
    | ok p =>
      by_cases hp : p.allowsRead = true
      · simp [hp]
      · simp [hp]

theorem itemGet_isOk_iff_shown (hkeys : ShareKeysUnique db) (hx : castUuid itemID = some x) :
    (∃ resp, (itemGet svc db now claims itemID).2 = .ok resp) ↔ Shown svc db now claims x := by
  rw [itemGet_isOk]
  constructor
  · rintro ⟨y, full, h⟩
    obtain ⟨perm, item, full, hperm, hitem, hfull, rfl, rfl⟩ := (itemGetFull_eq_ok hx).mp h
    refine ⟨item, hitem, ?_, (readLevel_isOk hkeys hx hitem).mp ⟨perm, hperm⟩⟩
    rw [fetchItemFull, Option.map_eq_some_iff, (Table.lookup_eq_some hitem).2] at hfull
    obtain ⟨name, hname, _⟩ := hfull
    simp [hname]
  · rintro ⟨item, hitem, hname, hread⟩
    obtain ⟨perm, hperm⟩ := (readLevel_isOk hkeys hx hitem).mpr hread
    obtain ⟨name, hname⟩ := Option.isSome_iff_exists.mp hname
    have hfull : fetchItemFull svc db item claims.subject =
        some (item.response svc db claims.subject name) := by
      rw [fetchItemFull, (Table.lookup_eq_some hitem).2, hname]
      rfl
    exact ⟨x, _, (itemGetFull_eq_ok hx).mpr ⟨perm, item, _, hperm, hitem, hfull, rfl, rfl⟩⟩

/-- The row `fetchCallerDEK` finds is the only one of the item and the user. -/
theorem fetchCallerDEK_of_mem (hkeys : ShareKeysUnique db) {s : ItemShare}
    (hs : s ∈ db.itemShares) :
    fetchCallerDEK db s.itemId s.userId = some (s.e2eDekWrapped, s.wrapNonce) := by
  have hfind : (db.itemShares.find? fun r => r.itemId = s.itemId ∧ r.userId = s.userId) =
      some s := by
    cases h : db.itemShares.find? fun r => r.itemId = s.itemId ∧ r.userId = s.userId with
    | none =>
      have hnot := List.find?_eq_none.mp h s hs
      simp at hnot
    | some r =>
      have hr := List.mem_of_find?_eq_some h
      have hmatch := List.find?_some h
      simp only [decide_eq_true_eq] at hmatch
      have heq : r = s := List.inj_on_of_nodup_map hkeys hr hs (by rw [hmatch.1, hmatch.2])
      rw [heq]
  rw [fetchCallerDEK, hfind]
  rfl

end Get

/-- The key follows the share exactly where the caller has no row, or has one
and `Get` has something to show just when the row is in force. -/
theorem key_follows_share_iff (svc : Service) {db : DB} (hkeys : ShareKeysUnique db) (now : Time)
    (claims : Claims) {itemID : String} {x : Uuid} (hx : castUuid itemID = some x) :
    KeyFollowsShare svc db now claims itemID x ↔
      ∀ s ∈ db.itemShares, s.itemId = x → s.userId = claims.subject →
        (InForce s.revokedAt s.window now ↔ Shown svc db now claims x) := by
  constructor
  · intro hkey s hs hitem huser
    have hdek := fetchCallerDEK_of_mem hkeys hs
    rw [hitem, huser] at hdek
    constructor
    · intro hforce
      obtain ⟨resp, hresp, _⟩ := hkey.given s ⟨hs, hitem, huser, hforce⟩
      exact (itemGet_isOk_iff_shown hkeys hx).mp ⟨resp, hresp⟩
    · intro hshown
      by_contra hdead
      obtain ⟨resp, hresp⟩ := (itemGet_isOk_iff_shown hkeys hx).mpr hshown
      have hnone : resp.ownerDEKWrapped = none := by
        refine hkey.withheld ?_ resp hresp
        intro r hr
        have heq : r = s := List.inj_on_of_nodup_map hkeys hr.mem hs
          (by rw [hr.item, hr.user, hitem, huser])
        exact hdead (heq ▸ hr.inForce)
      rw [(itemGet_key hx hresp).1, hdek] at hnone
      cases hnone
  · intro hrow
    constructor
    · intro hdead resp hresp
      rw [(itemGet_key hx hresp).1, Option.map_eq_none_iff, fetchCallerDEK,
        Option.map_eq_none_iff, List.find?_eq_none]
      intro s hs hmatch
      simp only [decide_eq_true_eq] at hmatch
      have hshown := (itemGet_isOk_iff_shown hkeys hx).mp ⟨resp, hresp⟩
      exact hdead s ⟨hs, hmatch.1, hmatch.2, (hrow s hs hmatch.1 hmatch.2).mpr hshown⟩
    · intro s hs
      have hshown := (hrow s hs.mem hs.item hs.user).mp hs.inForce
      obtain ⟨resp, hresp⟩ := (itemGet_isOk_iff_shown hkeys hx).mpr hshown
      have hdek := fetchCallerDEK_of_mem hkeys hs.mem
      rw [hs.item, hs.user] at hdek
      have hkey := itemGet_key hx hresp
      rw [hdek] at hkey
      exact ⟨resp, hresp, hkey⟩

/-- User 2 with the share of item 5 in force. -/
theorem key_follows_share_iff_in_force :
    KeyFollowsShare sampleService gatedSharedState 0 ⟨Uuid.ofNat 2, [.read]⟩ (Uuid.ofNat 5).text
      (Uuid.ofNat 5) := by
  refine (key_follows_share_iff sampleService (by decide) 0 ⟨Uuid.ofNat 2, [.read]⟩
    (castUuid_text (Uuid.ofNat 5))).mpr ?_
  intro s hs hitem huser
  have hforce : InForce s.revokedAt s.window 0 := by
    rw [gatedSharedState, List.mem_singleton] at hs
    subst hs
    exact (inForce_iff _ _ _).mp rfl
  have hlevel : ItemLevel gatedSharedState 0 (Uuid.ofNat 2) gatedItem (.ofGrant s.permission) :=
    .direct hs hitem huser hforce
  exact iff_of_true hforce
    ⟨gatedItem, rfl, by decide, .inr (.inr ⟨.root (by decide), _, .inl hlevel⟩)⟩

/-- The same state after the share has been revoked. -/
def gatedRevokedState : DB := gatedSharedState.revokeShare 0 (Uuid.ofNat 5) (Uuid.ofNat 2)

/-- User 2 still reads the folder and is handed the key of the revoked share. -/
theorem key_outlives_share :
    ¬ ∀ (svc : Service) (db : DB) (now : Time) (claims : Claims) (itemID : String) (x : Uuid),
      ShareKeysUnique db → castUuid itemID = some x →
        KeyFollowsShare svc db now claims itemID x := by
  intro h
  have hkey := h sampleService gatedRevokedState 1 ⟨Uuid.ofNat 2, [.read]⟩ (Uuid.ofNat 5).text
    (Uuid.ofNat 5) (by decide) (castUuid_text _)
  have hdead : ∀ s, ¬ ShareInForce gatedRevokedState 1 (Uuid.ofNat 5) (Uuid.ofNat 2) s := by
    intro s hs
    have hmem : s.revokedAt = some 0 := by
      obtain ⟨r, hr, rfl⟩ := Table.mem_updateWhere.mp hs.mem
      rw [gatedSharedState, List.mem_singleton] at hr
      subst hr
      rfl
    have hnull := hs.inForce.unrevoked
    rw [hmem] at hnull
    cases hnull
  have hdek : (itemGet sampleService gatedRevokedState 1 ⟨Uuid.ofNat 2, [.read]⟩
      (Uuid.ofNat 5).text).2.toOption.bind ItemResponse.ownerDEKWrapped = some [9] := by decide
  cases hresp : (itemGet sampleService gatedRevokedState 1 ⟨Uuid.ofNat 2, [.read]⟩
      (Uuid.ofNat 5).text).2 with
  | error e =>
    rw [hresp] at hdek
    cases hdek
  | ok resp =>
    have hnone := hkey.withheld hdead resp hresp
    rw [hresp] at hdek
    have hsome : resp.ownerDEKWrapped = some [9] := hdek
    rw [hnone] at hsome
    cases hsome

end IronStock

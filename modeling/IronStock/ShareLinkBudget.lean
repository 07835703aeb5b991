import IronStock.ShareLinks

/-!
# The view budget of a share link

Every view is counted by the statement that also checks the budget and the
expiry, so the history of a run is a lawful history of vouchers, and the
answers that show a link are no more than the views counted for it.
-/
namespace IronStock

open Interleaving

/-! ## What one statement does -/

/-- The link whose key a call has in hand or has answered with. -/
def heldLink : LinkCall ⊕ LinkAnswer → Option Nat
  | .inl (.readItem view) => some view.link
  | .inr (.viewed view _) => some view.link
  | _ => none

/-- The effects a statement of the handlers can have. -/
inductive LinkEffect (svc : Service) (s : LinkTable) :
    LinkCall → LinkTable × (LinkCall ⊕ LinkAnswer) → Prop
  | silent {call : LinkCall} {c : LinkCall ⊕ LinkAnswer} (hheld : heldLink c = none) :
      LinkEffect svc s call (s, c)
  | inserted {call : LinkCall} {db : DB} {new : NewShareLink} {item : Uuid} {now : Time}
      {s' : LinkTable} {response : CreateShareLinkResponse}
      (h : s.insertLink db (new.row item now) = some s') :
      LinkEffect svc s call (s', .inr (.created response))
  | deleted {call : LinkCall} {link item : Uuid} {s' : LinkTable}
      (h : s.deleteLink link item = some s') : LinkEffect svc s call (s', .inr .revoked)
  | granted {call : LinkCall} {view : GrantedView} {tokenHash : Digest} {s' : LinkTable}
      (hheld : heldLink (.inl call) = none)
      (hhash : hashShareToken svc view.token = some tokenHash)
      (h : s.takeView view.time tokenHash = (s', some (view.link, view.row))) :
      LinkEffect svc s call (s', .inl (.readItem view))
  | shown {view : GrantedView} {response : ShareLinkViewResponse}
      (hkey : response.dekWrapped = view.row.dekWrapped) :
      LinkEffect svc s (.readItem view) (s, .inr (.viewed view response))

theorem takeView_none {s s' : LinkTable} {now : Time} {tokenHash : Digest}
    (h : s.takeView now tokenHash = (s', none)) : s' = s := by
  unfold LinkTable.takeView at h
  split at h
  · cases h
    rfl
  · cases h

theorem LinkCall.exec_effect (svc : Service) (base64 : Base64) (m : LinkMoment) (s : LinkTable)
    (call : LinkCall) : LinkEffect svc s call (call.exec svc base64 m s) := by
  cases call with
  | request r =>
    cases r with
    | create claims itemID req draw =>
      simp only [LinkCall.exec, LinkRequest.exec]
      split <;> exact .silent rfl
    | revoke claims itemID linkID =>
      simp only [LinkCall.exec, LinkRequest.exec]
      split <;> exact .silent rfl
    | view token =>
      simp only [LinkCall.exec, LinkRequest.exec]
      split
      · exact .silent rfl
      · next tokenHash hhash =>
        split
        · next s' hnone =>
          rw [takeView_none hnone]
          exact .silent rfl
        · next s' link row hsome => exact .granted rfl hhash hsome
  | insertLink token itemID link =>
    simp only [LinkCall.exec]
    split
    · exact .silent rfl
    · split
      · exact .silent rfl
      · next h => exact .inserted h
  | deleteLink itemID linkID =>
    simp only [LinkCall.exec]
    split
    · split
      · exact .silent rfl
      · next h => exact .deleted h
    · exact .silent rfl
  | readItem view =>
    simp only [LinkCall.exec]
    split
    · exact .silent rfl
    · exact .shown rfl

/-! ## The table and its history -/

/-- The same link, views aside. -/
structure SameLink (l l' : ItemShareLink) : Prop where
  tokenHash : l.tokenHash = l'.tokenHash
  dekWrapped : l.dekWrapped = l'.dekWrapped
  terms : l.terms = l'.terms

/-- What the table keeps of the link created as number `n`. -/
structure LinkRowOk (s : LinkTable) (n : Nat) (row : ItemShareLink) : Prop where
  created : ∃ l, s.created[n]? = some l ∧ SameLink row l
  notWithdrawn : .withdrawn n ∉ s.history
  counted : Vouchers.uses n s.history ≤ row.viewCount

structure LinkTableOk (s : LinkTable) : Prop where
  lawful : Vouchers.Lawful s.history
  issued : ∀ (n : Nat) l, s.created[n]? = some l → .issued n l.terms ∈ s.history
  onlyIssued : ∀ n terms, .issued n terms ∈ s.history → n < s.created.length
  onlyWithdrawn : ∀ n, .withdrawn n ∈ s.history → n < s.created.length
  rows : ∀ r ∈ s.links, LinkRowOk s r.1 r.2
  numbers : (s.links.map Prod.fst).Nodup

/-- Links stay created and events stay in the history. -/
structure LinkTableGrows (s s' : LinkTable) : Prop where
  created : ∀ (n : Nat) l, s.created[n]? = some l → s'.created[n]? = some l
  history : s.history ⊆ s'.history

theorem LinkRowOk.lt {s : LinkTable} {n : Nat} {row : ItemShareLink} (h : LinkRowOk s n row) :
    n < s.created.length := by
  obtain ⟨l, hl, _⟩ := h.created
  exact (List.getElem?_eq_some_iff.mp hl).1

theorem linkTableOk_empty : LinkTableOk {} where
  lawful := .nil
  issued n l h := by simp at h
  onlyIssued n terms h := by simp at h
  onlyWithdrawn n h := by simp at h
  rows r h := by simp at h
  numbers := List.nodup_nil

section Statements

variable {s s' : LinkTable}

theorem insertLink_eq {db : DB} {l : ItemShareLink} (h : s.insertLink db l = some s') :
    s' = { links := s.links ++ [(s.created.length, l)]
           created := s.created ++ [l]
           history := .issued s.created.length l.terms :: s.history } := by
  unfold LinkTable.insertLink at h
  split at h
  · cases h
    rfl
  · cases h

theorem insertLink_grows {db : DB} {l : ItemShareLink} (h : s.insertLink db l = some s') :
    LinkTableGrows s s' := by
  rw [insertLink_eq h]
  refine ⟨fun n l' hl' => ?_, List.subset_cons_self _ _⟩
  rw [List.getElem?_append_left (List.getElem?_eq_some_iff.mp hl').1]
  exact hl'

theorem insertLink_ok {db : DB} {new : NewShareLink} {item : Uuid} {now : Time}
    (hs : LinkTableOk s) (h : s.insertLink db (new.row item now) = some s') : LinkTableOk s' := by
  have hgrows := insertLink_grows h
  rw [insertLink_eq h] at hgrows ⊢
  have hfresh : ∀ terms, .issued s.created.length terms ∉ s.history := by
    intro terms hmem
    have hlt := hs.onlyIssued _ _ hmem
    omega
  constructor
  · exact .issued hs.lawful hfresh
  · intro n l hl
    rw [List.getElem?_append] at hl
    split at hl
    · exact List.mem_cons_of_mem _ (hs.issued n l hl)
    · have hn : n = s.created.length := by
        have hlt := (List.getElem?_eq_some_iff.mp hl).1
        simp only [List.length_singleton] at hlt
        omega
      subst hn
      simp only [Nat.sub_self, List.getElem?_cons_zero, Option.some.injEq] at hl
      exact hl ▸ List.mem_cons_self
  · intro n terms hmem
    rw [List.length_append, List.length_singleton]
    rcases List.mem_cons.mp hmem with heq | hmem
    · cases heq
      omega
    · have hlt := hs.onlyIssued n terms hmem
      omega
  · intro n hmem
    have hlt := hs.onlyWithdrawn n (by simpa using hmem)
    rw [List.length_append, List.length_singleton]
    omega
  · intro r hr
    rcases List.mem_append.mp hr with hr | hr
    · obtain ⟨⟨l, hl, hsame⟩, hopen, hcount⟩ := hs.rows r hr
      exact ⟨⟨l, hgrows.created _ l hl, hsame⟩, by simpa using hopen, by simpa using hcount⟩
    · rw [List.mem_singleton] at hr
      subst hr
      refine ⟨⟨new.row item now, by simp, rfl, rfl, rfl⟩, ?_, ?_⟩
      · intro hmem
        have hlt := hs.onlyWithdrawn _ (by simpa using hmem)
        exact absurd hlt (lt_irrefl _)
      · -- nothing has been counted for a number that was not issued
        have hzero : Vouchers.uses s.created.length s.history = 0 := by
          rw [Vouchers.uses_eq_zero]
          intro t ht
          obtain ⟨terms, hmem, _⟩ := hs.lawful.used_in_time ht
          exact hfresh terms hmem
        simp [hzero, NewShareLink.row]
  · rw [List.map_append, List.map_cons, List.map_nil, List.nodup_append]
    refine ⟨hs.numbers, List.nodup_singleton _, ?_⟩
    intro n hn m hm
    obtain ⟨r, hr, rfl⟩ := List.mem_map.mp hn
    rw [List.mem_singleton] at hm
    have hlt := (hs.rows r hr).lt
    omega

theorem deleteLink_eq {link item : Uuid} (h : s.deleteLink link item = some s') :
    ∃ r ∈ s.links, r.2.id = link ∧ r.2.itemId = item ∧
      s' = { s with
        links := Table.deleteWhere (fun r => r.2.id = link ∧ r.2.itemId = item) s.links
        history := .withdrawn r.1 :: s.history } := by
  unfold LinkTable.deleteLink at h
  split at h
  · cases h
  · next r hfind =>
    cases h
    have hmatch := List.find?_some hfind
    simp only [decide_eq_true_eq] at hmatch
    exact ⟨r, List.mem_of_find?_eq_some hfind, hmatch.1, hmatch.2, rfl⟩

theorem deleteLink_grows {link item : Uuid} (h : s.deleteLink link item = some s') :
    LinkTableGrows s s' := by
  obtain ⟨r, _, _, _, rfl⟩ := deleteLink_eq h
  exact ⟨fun _ _ hl => hl, List.subset_cons_self _ _⟩

theorem deleteLink_ok {link item : Uuid} (hs : LinkTableOk s)
    (h : s.deleteLink link item = some s') : LinkTableOk s' := by
  obtain ⟨r, hr, hid, hitem, rfl⟩ := deleteLink_eq h
  refine ⟨.withdrawn hs.lawful, ?_, ?_, ?_, ?_, ?_⟩
  · intro n l hl
    exact List.mem_cons_of_mem _ (hs.issued n l hl)
  · intro n terms hmem
    exact hs.onlyIssued n terms (by simpa using hmem)
  · intro n hmem
    rcases List.mem_cons.mp hmem with heq | hmem
    · cases heq
      exact (hs.rows r hr).lt
    · exact hs.onlyWithdrawn n hmem
  · intro q hq
    rw [Table.mem_deleteWhere] at hq
    obtain ⟨hq, hkept⟩ := hq
    obtain ⟨hcreated, hopen, hcount⟩ := hs.rows q hq
    refine ⟨hcreated, ?_, by simpa using hcount⟩
    intro hmem
    rcases List.mem_cons.mp hmem with heq | hmem
    · -- the deleted row was the only one with its number
      have hnumber : q.1 = r.1 := by simpa using heq
      have hqr : q = r := List.inj_on_of_nodup_map hs.numbers hq hr hnumber
      simp [hqr, hid, hitem] at hkept
    · exact hopen hmem
  · exact hs.numbers.sublist (List.filter_sublist.map _)

theorem takeView_eq {now : Time} {tokenHash : Digest} {n : Nat} {row : ItemShareLink}
    (h : s.takeView now tokenHash = (s', some (n, row))) :
    ∃ r ∈ s.links, r.2.isViewable now tokenHash = true ∧ n = r.1 ∧ row = r.2.countView ∧
      s' = { s with
        links := Table.updateWhere (fun r => r.2.isViewable now tokenHash)
          (fun r => (r.1, r.2.countView)) s.links
        history := .used r.1 now :: s.history } := by
  unfold LinkTable.takeView at h
  split at h
  · cases h
  · next r hfind =>
    cases h
    have hmatch : r.2.isViewable now tokenHash = true := by simpa using List.find?_some hfind
    exact ⟨r, List.mem_of_find?_eq_some hfind, hmatch, rfl, rfl, rfl⟩

theorem takeView_grows {now : Time} {tokenHash : Digest} {n : Nat} {row : ItemShareLink}
    (h : s.takeView now tokenHash = (s', some (n, row))) : LinkTableGrows s s' := by
  obtain ⟨r, _, _, _, _, rfl⟩ := takeView_eq h
  exact ⟨fun _ _ hl => hl, List.subset_cons_self _ _⟩

theorem sameLink_countView {l l' : ItemShareLink} (h : SameLink l l') : SameLink l.countView l' :=
  ⟨h.tokenHash, h.dekWrapped, h.terms⟩

theorem takeView_ok {now : Time} {tokenHash : Digest} {n : Nat} {row : ItemShareLink}
    (hs : LinkTableOk s) (h : s.takeView now tokenHash = (s', some (n, row))) :
    LinkTableOk s' := by
  obtain ⟨r, hr, hview, _, _, rfl⟩ := takeView_eq h
  obtain ⟨⟨l, hl, hsame⟩, hopen, hcount⟩ := hs.rows r hr
  have hmatch := hview
  simp only [ItemShareLink.isViewable, decide_eq_true_eq] at hmatch
  obtain ⟨_, htime, hleft⟩ := hmatch
  have hterms : r.2.terms = l.terms := hsame.terms
  constructor
  · refine .used hs.lawful (hs.issued _ l hl) hopen ?_ ?_
    · rw [← hterms]
      exact htime
    · rw [← hterms]
      show Vouchers.uses r.1 s.history < r.2.viewLimit.toNat
      omega
  · intro m l' hl'
    exact List.mem_cons_of_mem _ (hs.issued m l' hl')
  · intro m terms hmem
    exact hs.onlyIssued m terms (by simpa using hmem)
  · intro m hmem
    exact hs.onlyWithdrawn m (by simpa using hmem)
  · intro q hq
    obtain ⟨q₀, hq₀, rfl⟩ := Table.mem_updateWhere.mp hq
    obtain ⟨⟨l', hl', hsame'⟩, hopen', hcount'⟩ := hs.rows q₀ hq₀
    by_cases hcounted : q₀.2.isViewable now tokenHash = true
    · rw [if_pos hcounted]
      refine ⟨⟨l', hl', sameLink_countView hsame'⟩, by simpa using hopen', ?_⟩
      show (Vouchers.uses q₀.1 (.used r.1 now :: s.history) : Int) ≤ q₀.2.viewCount + 1
      by_cases hqr : q₀.1 = r.1
      · rw [hqr, Vouchers.uses_used_self, ← hqr]
        omega
      · rw [Vouchers.uses_used_of_ne hqr]
        omega
    · rw [if_neg hcounted]
      refine ⟨⟨l', hl', hsame'⟩, by simpa using hopen', ?_⟩
      -- the row that was counted is another one
      have hqr : q₀.1 ≠ r.1 := by
        intro heq
        exact hcounted (List.inj_on_of_nodup_map hs.numbers hq₀ hr heq ▸ hview)
      rw [Vouchers.uses_used_of_ne hqr]
      exact hcount'
  · have hsame : (Table.updateWhere (fun r => r.2.isViewable now tokenHash)
        (fun r => (r.1, r.2.countView)) s.links).map Prod.fst = s.links.map Prod.fst := by
      rw [Table.updateWhere, List.map_map]
      refine List.map_congr_left fun q _ => ?_
      show (if q.2.isViewable now tokenHash = true then (q.1, q.2.countView) else q).1 = q.1
      split <;> rfl
    rw [hsame]
    exact hs.numbers

end Statements

/-! ## The calls -/

/-- A view that the table granted: in time, for a link with the token's hash. -/
def GrantedView.Ok (svc : Service) (s : LinkTable) (view : GrantedView) : Prop :=
  ∃ l, s.created[view.link]? = some l ∧ SameLink view.row l ∧
    hashShareToken svc view.token = some l.tokenHash ∧ view.time < l.expiresAt ∧
    .used view.link view.time ∈ s.history

/-- What a call in hand of a key, or an answer with one, can rely on. -/
def LinkCallOk (svc : Service) (s : LinkTable) : LinkCall ⊕ LinkAnswer → Prop
  | .inl (.readItem view) => view.Ok svc s
  | .inr (.viewed view response) => view.Ok svc s ∧ response.dekWrapped = view.row.dekWrapped
  | _ => True

theorem LinkTableGrows.viewOk {svc : Service} {s s' : LinkTable} (h : LinkTableGrows s s')
    {view : GrantedView} (hview : view.Ok svc s) : view.Ok svc s' := by
  obtain ⟨l, hl, hsame, hhash, htime, hused⟩ := hview
  exact ⟨l, h.created _ l hl, hsame, hhash, htime, h.history hused⟩

theorem LinkTableGrows.callOk {svc : Service} {s s' : LinkTable} (h : LinkTableGrows s s')
    {c : LinkCall ⊕ LinkAnswer} (hc : LinkCallOk svc s c) : LinkCallOk svc s' c := by
  cases c with
  | inl call =>
    cases call with
    | readItem view => exact h.viewOk hc
    | _ => trivial
  | inr answer =>
    cases answer with
    | viewed view response => exact ⟨h.viewOk hc.1, hc.2⟩
    | _ => trivial

theorem linkCallOk_of_not_held {svc : Service} {s : LinkTable} {c : LinkCall ⊕ LinkAnswer}
    (h : heldLink c = none) : LinkCallOk svc s c := by
  cases c with
  | inl call => cases call <;> trivial
  | inr answer => cases answer <;> trivial

/-- The view the table has just granted. -/
theorem takeView_viewOk {svc : Service} {s s' : LinkTable} {view : GrantedView}
    {tokenHash : Digest} (hs : LinkTableOk s)
    (hhash : hashShareToken svc view.token = some tokenHash)
    (h : s.takeView view.time tokenHash = (s', some (view.link, view.row))) :
    view.Ok svc s' := by
  obtain ⟨r, hr, hmatch, hlink, hrow, rfl⟩ := takeView_eq h
  obtain ⟨⟨l, hl, hsame⟩, _, _⟩ := hs.rows r hr
  simp only [ItemShareLink.isViewable, decide_eq_true_eq] at hmatch
  obtain ⟨htoken, htime, _⟩ := hmatch
  have hdeadline : r.2.terms = l.terms := hsame.terms
  refine ⟨l, hlink ▸ hl, hrow ▸ sameLink_countView hsame, ?_, ?_, ?_⟩
  · rw [hhash, ← htoken, hsame.tokenHash]
  · calc
      view.time < r.2.terms.deadline := htime
      _ = l.expiresAt := by rw [hdeadline]; rfl
  · rw [hlink]
    exact List.mem_cons_self

/-- A statement keeps the table and gives its call what it relies on. -/
theorem linkEffect_keeps {svc : Service} {s : LinkTable} {call : LinkCall}
    {r : LinkTable × (LinkCall ⊕ LinkAnswer)} (hs : LinkTableOk s)
    (hcall : LinkCallOk svc s (.inl call)) (h : LinkEffect svc s call r) :
    Program.Keeps LinkTableOk (LinkCallOk svc) s r := by
  cases h with
  | silent hheld => exact ⟨hs, linkCallOk_of_not_held hheld, fun _ hc => hc⟩
  | inserted h => exact ⟨insertLink_ok hs h, trivial, fun _ hc => (insertLink_grows h).callOk hc⟩
  | deleted h => exact ⟨deleteLink_ok hs h, trivial, fun _ hc => (deleteLink_grows h).callOk hc⟩
  | granted _ hhash h =>
    exact ⟨takeView_ok hs h, takeView_viewOk hs hhash h, fun _ hc => (takeView_grows h).callOk hc⟩
  | shown hkey => exact ⟨hs, ⟨hcall, hkey⟩, fun _ hc => hc⟩

/-- One for a call that holds the key of link `n`. -/
def holdsLink (n : Nat) (c : LinkCall ⊕ LinkAnswer) : Bool := heldLink c = some n

/-- A call gets hold of a key only with the event that counts it. -/
theorem linkEffect_pays {svc : Service} {s : LinkTable} {call : LinkCall}
    {r : LinkTable × (LinkCall ⊕ LinkAnswer)} (h : LinkEffect svc s call r) (n : Nat) :
    (if holdsLink n r.2 then 1 else 0) + Vouchers.uses n s.history ≤
      (if holdsLink n (.inl call) then 1 else 0) + Vouchers.uses n r.1.history := by
  cases h with
  | silent hheld => simp [holdsLink, hheld]
  | inserted h =>
    rw [insertLink_eq h]
    simp [holdsLink, heldLink]
  | deleted h =>
    obtain ⟨_, _, _, _, rfl⟩ := deleteLink_eq h
    simp [holdsLink, heldLink]
  | @granted _ view _ s' hheld _ h =>
    obtain ⟨q, _, _, hlink, _, rfl⟩ := takeView_eq h
    have hbefore : ∀ n, holdsLink n (.inl call) = false := fun n => by simp [holdsLink, hheld]
    by_cases hn : n = view.link
    · subst hn
      have hafter : holdsLink view.link (.inl (.readItem view)) = true := by
        simp [holdsLink, heldLink]
      rw [hbefore, hafter, ← hlink, Vouchers.uses_used_self]
      simp only [if_true, Bool.false_eq_true, if_false]
      omega
    · have hafter : holdsLink n (.inl (.readItem view)) = false := by
        simp [holdsLink, heldLink, Ne.symm hn]
      rw [hbefore, hafter, ← hlink, Vouchers.uses_used_of_ne hn]
  | shown => exact le_refl _

/-! ## Runs -/

/-- The answer shows the key of link `n`. -/
def showsLink (n : Nat) : LinkCall ⊕ LinkAnswer → Bool
  | .inr (.viewed view _) => view.link = n
  | _ => false

/-- What holds of the links and of the answers given so far. The payload of a
link leaves the table in the `UPDATE` of the view, which is what a view is
dated by. -/
structure ViewBudgetKept (svc : Service) (s : System LinkTable LinkCall LinkAnswer) : Prop where
  limitRange : ∀ (n : Nat) (l : ItemShareLink), s.shared.created[n]? = some l →
    1 ≤ l.viewLimit ∧ l.viewLimit ≤ 10
  budget : ∀ (n : Nat) (l : ItemShareLink), s.shared.created[n]? = some l →
    (s.calls.countP (showsLink n) : Int) ≤ l.viewLimit
  answers : ∀ view response, .inr (.viewed view response) ∈ s.calls →
    ∃ l, s.shared.created[view.link]? = some l ∧ response.dekWrapped = l.dekWrapped ∧
      hashShareToken svc view.token = some l.tokenHash ∧ view.time < l.expiresAt ∧
      .used view.link view.time ∈ s.shared.history
  revoked : ∀ n later earlier, s.shared.history = later ++ .withdrawn n :: earlier →
    ∀ t, .used n t ∉ later

/-- What the handlers keep at every move. -/
structure LinkSystemOk (svc : Service) (s : System LinkTable LinkCall LinkAnswer) : Prop where
  holds : Program.Holds LinkTableOk (LinkCallOk svc) s
  paid : ∀ n, Program.weight (fun c => if holdsLink n c then 1 else 0) s.calls ≤
    Vouchers.uses n s.shared.history

theorem linkSystemOk_step (svc : Service) (base64 : Base64)
    (s : System LinkTable LinkCall LinkAnswer) (m : Move LinkRequest LinkMoment)
    (hs : LinkSystemOk svc s) : LinkSystemOk svc ((shareLinkHandlers svc base64).step s m) := by
  have heffect := fun t k => LinkCall.exec_effect svc base64 t s.shared k
  constructor
  · refine Program.holds_step _ s m hs.holds (fun _ _ => trivial) ?_
    intro i t k _ hk
    have hcall := hs.holds.calls _ (List.mem_of_getElem? hk)
    exact linkEffect_keeps hs.holds.shared hcall (heffect t k)
  · intro n
    refine Program.weight_le_step _ _ (fun x => Vouchers.uses n x.history) s m (hs.paid n) ?_ ?_
    · intro r _
      rfl
    · intro i t k _ _
      exact linkEffect_pays (heffect t k) n

theorem LinkSystemOk.budgetKept {svc : Service} {s : System LinkTable LinkCall LinkAnswer}
    (hs : LinkSystemOk svc s) : ViewBudgetKept svc s where
  limitRange _ l _ := l.limitRange
  budget n l hl := by
    have hshown : s.calls.countP (showsLink n) ≤ s.calls.countP (holdsLink n) := by
      refine List.countP_mono_left fun c _ hc => ?_
      cases c with
      | inl call => cases hc
      | inr answer =>
        cases answer with
        | viewed view response => simpa [showsLink, holdsLink, heldLink] using hc
        | _ => cases hc
    have hpaid := hs.paid n
    rw [Program.weight_eq_countP] at hpaid
    have huses := hs.holds.shared.lawful.uses_le (hs.holds.shared.issued n l hl)
    have hlimit : l.terms.limit = l.viewLimit.toNat := rfl
    have hrange := l.limitRange
    omega
  answers view response hmem := by
    obtain ⟨⟨l, hl, hsame, hhash, htime, hused⟩, hkey⟩ := hs.holds.calls _ hmem
    exact ⟨l, hl, hkey.trans hsame.dekWrapped, hhash, htime, hused⟩
  revoked n later earlier hhistory t := by
    have hlawful := hs.holds.shared.lawful
    rw [hhistory] at hlawful
    exact hlawful.not_used_after

/-- Along every run the answers that show a link are within its view limit, and
each was granted before the expiry, before any revocation, and to a token with
the hash of the link. -/
theorem share_link_view_budget (svc : Service) (base64 : Base64)
    (ms : List (Move LinkRequest LinkMoment)) :
    Runs.Along (shareLinkHandlers svc base64).step (ViewBudgetKept svc) ⟨{}, []⟩ ms := by
  have hempty : LinkSystemOk svc ⟨{}, []⟩ :=
    ⟨⟨linkTableOk_empty, fun c hc => by cases hc⟩, fun n => le_refl 0⟩
  have halong := Runs.along_invariant (linkSystemOk_step svc base64) hempty ms
  exact halong.mono fun s hs => hs.budgetKept

end IronStock

import IronStock.AuditConditions
import IronStock.Lib.PartialFold
import Mathlib.Data.List.Forall2

/-!
# The pages of the audit log

What the query answers is a slice of the matching rows by descending id, and each entry is its row.
The details are what `bytea` makes of their text: they have the value that was written exactly if
no string and no key among them has a character that is printed with a backslash.
-/
namespace IronStock

open AuditSQL
open JsonText (Node)
open TimestampText (SessionZone)

/-! ## Slices by descending id -/

theorem newestFirst_perm (rows : List AuditLogRow) : (newestFirst rows).Perm rows :=
  List.mergeSort_perm rows _

theorem mem_newestFirst {rows : List AuditLogRow} {row : AuditLogRow} :
    row ∈ newestFirst rows ↔ row ∈ rows := List.mem_mergeSort

/-- Ids descend. -/
theorem newestFirst_pairwise (rows : List AuditLogRow) :
    (newestFirst rows).Pairwise fun a b => b.id ≤ a.id := by
  have hpair : (newestFirst rows).Pairwise fun a b => decide (b.id ≤ a.id) = true := by
    apply List.pairwise_mergeSort
    · intro a b c hab hbc
      rw [decide_eq_true_eq] at hab hbc ⊢
      exact Int.le_trans hbc hab
    · intro a b
      rw [Bool.or_eq_true, decide_eq_true_eq, decide_eq_true_eq]
      exact Int.le_total b.id a.id
  exact hpair.imp of_decide_eq_true

/-- A slice of sorted rows is sorted. -/
theorem newestFirst_slice (rows : List AuditLogRow) (limit offset : Nat) :
    newestFirst (((newestFirst rows).drop offset).take limit) =
      ((newestFirst rows).drop offset).take limit := by
  apply List.mergeSort_of_pairwise
  have hsub : (((newestFirst rows).drop offset).take limit).Sublist (newestFirst rows) :=
    (List.take_sublist ..).trans (List.drop_sublist ..)
  exact ((newestFirst_pairwise rows).sublist hsub).imp decide_eq_true

namespace AuditFilter

variable (f : AuditFilter) (table : AuditTable)

/-- The matching rows from position `offset` by descending id, at most `limit` of them. -/
def page (limit offset : Nat) : List AuditLogRow :=
  ((newestFirst (f.matching table)).drop offset).take limit

theorem mem_of_mem_page {limit offset : Nat} {row : AuditLogRow}
    (h : row ∈ f.page table limit offset) : row ∈ table.rows := by
  have hmem := List.mem_of_mem_drop (List.mem_of_mem_take h)
  exact (List.mem_filter.mp (mem_newestFirst.mp hmem)).1

end AuditFilter

/-! ## The statements -/

section Statements

variable {f : AuditFilter} (table : AuditTable)
variable (hvalid : f.resourceType = [] ∨ validResourceType f.resourceType = true)

include hvalid

theorem countRows_eq :
    countRows table f =
      if f.castable then some (f.micros.matching table).length else none := by
  have hselect := selectWhere_eq table (whereClause f) []
  rw [List.append_nil, selects_whereClause f hvalid] at hselect
  rw [countRows]
  simp only [hselect]
  cases f.castable <;> rfl

theorem selectPage_eq (limit offset : Nat) :
    selectPage table f limit offset =
      if f.castable then some (f.micros.page table limit offset) else none := by
  have hselect := selectWhere_eq table (whereClause f) [Arg.int limit, Arg.int offset]
  rw [selects_whereClause f hvalid] at hselect
  have hlimit : parameter ((whereClause f).2 ++ [Arg.int limit, Arg.int offset])
      (((whereClause f).2 ++ [Arg.int limit, Arg.int offset]).length - 1) = some (.int limit) := by
    rw [List.length_append]
    exact parameter_length _ _ _
  have hoffset : parameter ((whereClause f).2 ++ [Arg.int limit, Arg.int offset])
      ((whereClause f).2 ++ [Arg.int limit, Arg.int offset]).length = some (.int offset) := by
    have := parameter_length ((whereClause f).2 ++ [Arg.int limit]) [] (.int offset)
    simpa using this
  rw [selectPage]
  simp only [hselect, hlimit, hoffset]
  cases f.castable <;> rfl

end Statements

/-! ## Entries -/

/-- The entry of a row with these details. An empty text is left out like a missing one. -/
def AuditLogRow.entry (zone : SessionZone) (row : AuditLogRow) (details : Bytes) :
    AuditLogEntry where
  id := row.id
  actorUserID := row.actorUserID.map Uuid.text
  action := row.action
  resourceType := row.resourceType.filter (· ≠ "")
  resourceID := row.resourceID.map Uuid.text
  details := details
  ipAddress := row.ipAddress.filter (· ≠ "")
  userAgent := row.userAgent.filter (· ≠ "")
  createdAt := createdAtText zone row.createdAt

theorem emptyToNil_getD (o : Option String) : emptyToNil (o.getD "") = o.filter (· ≠ "") := by
  cases o with
  | none => rfl
  | some s =>
    by_cases h : s = ""
    · simp [emptyToNil, h, Option.filter_some]
    · simp [emptyToNil, h, Option.filter_some]

theorem uuidText_ne_empty (u : Uuid) : u.text ≠ "" := by
  intro h
  have hcast := castUuid_text u
  have hnone : castUuid "" = none := by decide
  rw [h, hnone] at hcast
  cases hcast

theorem emptyToNil_uuid (o : Option Uuid) :
    emptyToNil ((o.map Uuid.text).getD "") = o.map Uuid.text := by
  cases o with
  | none => rfl
  | some u => exact if_neg (uuidText_ne_empty u)

theorem forall₂_of_mapM {α β : Type} {f : α → Option β} {l : List α} {bs : List β}
    (h : l.mapM f = some bs) : List.Forall₂ (fun a b => f a = some b) l bs := by
  induction l generalizing bs with
  | nil =>
    obtain rfl : [] = bs := Option.some.inj h
    exact .nil
  | cons a l ih =>
    obtain ⟨b, rest, hb, hrest, rfl⟩ := PartialFold.mapM_cons_eq_some.mp h
    exact .cons hb (ih hrest)

/-- The arrays line up: the entry at a place is put together from the row there. -/
theorem pageEntries_get (zone : SessionZone) {page : List AuditLogRow} {details : List Bytes}
    (hlength : page.length = details.length) {i : Nat} (hi : i < page.length)
    (hi' : i < (pageEntries (pageArrays zone page details)).length) :
    (pageEntries (pageArrays zone page details)).get ⟨i, hi'⟩ =
      (page.get ⟨i, hi⟩).entry zone (details.get ⟨i, hlength ▸ hi⟩) := by
  have hdetails : i < details.length := hlength ▸ hi
  simp only [pageEntries, pageArrays, List.get_eq_getElem, List.getElem_map, List.getElem_zipIdx,
    Nat.zero_add, List.getD_eq_getElem?_getD, List.getElem?_map, List.getElem?_eq_getElem hi,
    List.getElem?_eq_getElem hdetails, Option.map_some, Option.getD_some]
  simp only [emptyToNil_uuid]
  simp only [emptyToNil_getD, AuditLogRow.entry]

theorem pageEntries_forall₂ (zone : SessionZone) {page : List AuditLogRow} {details : List Bytes}
    (h : page.mapM detailBytes = some details) :
    List.Forall₂ (fun row e => ∃ bytes, detailBytes row = some bytes ∧ e = row.entry zone bytes)
      page (pageEntries (pageArrays zone page details)) := by
  have hall := forall₂_of_mapM h
  have hlength := hall.length_eq
  refine List.forall₂_iff_get.mpr ⟨by simp [pageEntries, pageArrays], fun i hi hi' => ?_⟩
  exact ⟨_, hall.get hi (hlength ▸ hi), pageEntries_get zone hlength hi hi'⟩

/-! ## A request -/

theorem buildAuditFilter_valid {q : AuditQuery} {f : AuditFilter}
    (h : buildAuditFilter q = .ok f) :
    f.resourceType = [] ∨ validResourceType f.resourceType = true := by
  rw [buildAuditFilter] at h
  split at h
  · cases h
  · next hrt =>
    split at h
    · cases h
    · cases h
    · split at h
      · cases h
      · obtain rfl := Except.ok.inj h
        by_cases hnil : Runes.trimSpace q.resourceType = []
        · exact .inl hnil
        · exact .inr (by simpa [hnil] using hrt)

/-- The answer to a request, and when it is one. -/
theorem queryAuditLog_ok_iff (zone : SessionZone) (table : AuditTable) {q : AuditQuery}
    {f : AuditFilter} (hf : buildAuditFilter q = .ok f) {resp : AuditLogResponse} :
    queryAuditLog zone table q = .ok resp ↔
      f.castable = true ∧ ∃ details,
        (f.micros.page table q.limitValue q.offsetValue).mapM detailBytes = some details ∧
        resp = ⟨pageEntries (pageArrays zone (f.micros.page table q.limitValue q.offsetValue)
          details), (f.micros.matching table).length, q.limitValue, q.offsetValue⟩ := by
  have hvalid := buildAuditFilter_valid hf
  have hslice : newestFirst (f.micros.page table q.limitValue q.offsetValue) =
      f.micros.page table q.limitValue q.offsetValue := newestFirst_slice _ _ _
  rw [queryAuditLog, hf]
  simp only [countRows_eq table hvalid, selectPage_eq table hvalid]
  cases hcast : f.castable with
  | false => simp
  | true =>
    simp only [if_true, Option.bind_some, aggregatePage, hslice, true_and]
    cases (f.micros.page table q.limitValue q.offsetValue).mapM detailBytes with
    | none => simp
    | some details => simp [eq_comm]

/-- The entry is the row, and its details have the value of the details that were written. -/
def RowShown (zone : SessionZone) (row : AuditLogRow) (e : AuditLogEntry) : Prop :=
  ∃ bytes, e = row.entry zone bytes ∧ ByteaText.Denotes bytes (Node.object row.details)

/-- The request is answered with the number of matching rows and its page of them. -/
def Returns (zone : SessionZone) (table : AuditTable) (q : AuditQuery) (f : AuditFilter) : Prop :=
  ∃ resp, queryAuditLog zone table q = .ok resp ∧
    resp.total = (f.matching table).length ∧
    resp.limit = q.limitValue ∧ resp.offset = q.offsetValue ∧
    List.Forall₂ (RowShown zone) (f.page table q.limitValue q.offsetValue) resp.entries

/-- The parameters are accepted, cutting the bounds to microseconds changes neither the number of
matching rows nor the page, and no string and no key in the details of the page has a quote, a
backslash or a control character. -/
structure Returnable (table : AuditTable) (q : AuditQuery) (f : AuditFilter) : Prop where
  castable : f.castable = true
  total : (f.micros.matching table).length = (f.matching table).length
  page : f.micros.page table q.limitValue q.offsetValue = f.page table q.limitValue q.offsetValue
  bare : ∀ row ∈ f.page table q.limitValue q.offsetValue, row.details.bare = true

/-- Rows of the table are told apart by their ids. -/
theorem eq_of_map_id {table : AuditTable} {l l' : List AuditLogRow}
    (hl : ∀ row ∈ l, row ∈ table.rows) (hl' : ∀ row ∈ l', row ∈ table.rows)
    (h : l.map AuditLogRow.id = l'.map AuditLogRow.id) : l = l' := by
  induction l generalizing l' with
  | nil => exact (List.map_eq_nil_iff.mp h.symm).symm
  | cons a l ih =>
    cases l' with
    | nil => cases h
    | cons b l' =>
      obtain ⟨hid, hrest⟩ := List.cons.inj h
      have hab : a = b := List.inj_on_of_nodup_map table.ids_nodup (hl a (List.mem_cons_self ..))
        (hl' b (List.mem_cons_self ..)) hid
      rw [hab, ih (fun row hrow => hl row (List.mem_cons_of_mem _ hrow))
        (fun row hrow => hl' row (List.mem_cons_of_mem _ hrow)) hrest]

theorem map_id_of_forall₂ {l : List AuditLogRow} {entries : List AuditLogEntry}
    {R : AuditLogRow → AuditLogEntry → Prop} (hR : ∀ row e, R row e → e.id = row.id)
    (h : List.Forall₂ R l entries) : entries.map AuditLogEntry.id = l.map AuditLogRow.id := by
  induction h with
  | nil => rfl
  | cons hhead htail ih => rw [List.map_cons, List.map_cons, hR _ _ hhead, ih]

theorem forall_of_forall₂ {R S : AuditLogRow → AuditLogEntry → Prop} {P : AuditLogRow → Prop}
    (hP : ∀ row e, R row e → S row e → P row) {l : List AuditLogRow}
    {entries : List AuditLogEntry} (hR : List.Forall₂ R l entries)
    (hS : List.Forall₂ S l entries) : ∀ row ∈ l, P row := by
  induction hR with
  | nil => simp
  | cons hhead htail ih =>
    cases hS with
    | cons hhead' htail' =>
      intro row hrow
      rcases List.mem_cons.mp hrow with rfl | hrow
      · exact hP _ _ hhead hhead'
      · exact ih htail' row hrow

theorem forall₂_imp {R S : AuditLogRow → AuditLogEntry → Prop} {l : List AuditLogRow}
    {entries : List AuditLogEntry} (h : ∀ row ∈ l, ∀ e, R row e → S row e)
    (hR : List.Forall₂ R l entries) : List.Forall₂ S l entries := by
  induction hR with
  | nil => exact .nil
  | cons hhead htail ih =>
    exact .cons (h _ (List.mem_cons_self ..) _ hhead)
      (ih fun row hrow => h row (List.mem_cons_of_mem _ hrow))

/-- `details::text::bytea` keeps the value exactly of bare details. -/
theorem detailBytes_denotes_iff (row : AuditLogRow) :
    (∃ bytes, detailBytes row = some bytes ∧
        ByteaText.Denotes bytes (Node.object row.details)) ↔ row.details.bare = true :=
  ByteaText.byteain_render_iff (Node.object row.details)

theorem returns_iff (zone : SessionZone) (table : AuditTable) {q : AuditQuery} {f : AuditFilter}
    (hf : buildAuditFilter q = .ok f) : Returns zone table q f ↔ Returnable table q f := by
  constructor
  · rintro ⟨resp, hok, htotal, -, -, hshows⟩
    obtain ⟨hcast, details, hdetails, rfl⟩ := (queryAuditLog_ok_iff zone table hf).mp hok
    have hprinted := pageEntries_forall₂ zone hdetails
    have hids := map_id_of_forall₂ (fun row e h => by
      obtain ⟨bytes, rfl, -⟩ := h
      rfl) hshows
    have hids' := map_id_of_forall₂ (fun row e h => by
      obtain ⟨bytes, -, rfl⟩ := h
      rfl) hprinted
    have hpage := eq_of_map_id (fun row => f.micros.mem_of_mem_page table)
      (fun row => f.mem_of_mem_page table) (hids'.symm.trans hids)
    refine ⟨hcast, htotal, hpage, ?_⟩
    have hshown : List.Forall₂ (RowShown zone) (f.page table q.limitValue q.offsetValue)
        (pageEntries (pageArrays zone (f.micros.page table q.limitValue q.offsetValue) details)) :=
      hshows
    rw [hpage] at hshown hprinted
    refine forall_of_forall₂ (fun row e hshow hprint => ?_) hshown hprinted
    obtain ⟨bytes, rfl, hdenotes⟩ := hshow
    obtain ⟨bytes', hbytes, heq⟩ := hprint
    obtain rfl : bytes = bytes' := congrArg AuditLogEntry.details heq
    exact (detailBytes_denotes_iff row).mp ⟨bytes, hbytes, hdenotes⟩
  · rintro ⟨hcast, htotal, hpage, hbare⟩
    have hread : ∀ row ∈ f.micros.page table q.limitValue q.offsetValue,
        (detailBytes row).isSome = true := by
      intro row hrow
      obtain ⟨bytes, hbytes, -⟩ := (detailBytes_denotes_iff row).mpr (hbare row (hpage ▸ hrow))
      exact Option.isSome_of_eq_some hbytes
    obtain ⟨details, hdetails⟩ := PartialFold.mapM_eq_some_of_forall hread
    refine ⟨_, (queryAuditLog_ok_iff zone table hf).mpr ⟨hcast, details, hdetails, rfl⟩, htotal,
      rfl, rfl, ?_⟩
    have hprinted := pageEntries_forall₂ zone hdetails
    rw [hpage] at hprinted ⊢
    refine forall₂_imp (fun row hrow e hprint => ?_) hprinted
    obtain ⟨bytes, hbytes, rfl⟩ := hprint
    obtain ⟨bytes', hbytes', hdenotes⟩ := (detailBytes_denotes_iff row).mpr (hbare row hrow)
    obtain rfl : bytes = bytes' := Option.some.inj (hbytes.symm.trans hbytes')
    exact ⟨bytes, rfl, hdenotes⟩

/-! ## Consecutive pages -/

/-- The same request for another position. -/
def AuditQuery.atOffset (q : AuditQuery) (offset : Runes.Text) : AuditQuery :=
  { q with offset := offset }

/-- Requests whose pages follow one another from `start`. -/
def Consecutive (q : AuditQuery) : Nat → List Runes.Text → Prop
  | _, [] => True
  | start, offset :: offsets =>
    (q.atOffset offset).offsetValue = start ∧ Consecutive q (start + q.limitValue) offsets

/-- One after the other the pages enumerate the matching rows from `start`. -/
def Enumerates (zone : SessionZone) (table : AuditTable) (q : AuditQuery) (f : AuditFilter)
    (start : Nat) (offsets : List Runes.Text) : Prop :=
  ∃ resps : List AuditLogResponse,
    List.Forall₂ (fun offset resp => queryAuditLog zone table (q.atOffset offset) = .ok resp)
      offsets resps ∧
    List.Forall₂ (RowShown zone)
      (((newestFirst (f.matching table)).drop start).take (offsets.length * q.limitValue))
      (resps.flatMap AuditLogResponse.entries)

theorem enumerates_of_returns (zone : SessionZone) (table : AuditTable) {q : AuditQuery}
    {f : AuditFilter} {start : Nat} {offsets : List Runes.Text}
    (hoffsets : Consecutive q start offsets)
    (h : ∀ offset ∈ offsets, Returns zone table (q.atOffset offset) f) :
    Enumerates zone table q f start offsets := by
  induction offsets generalizing start with
  | nil =>
    refine ⟨[], .nil, ?_⟩
    rw [List.length_nil, Nat.zero_mul, List.take_zero]
    exact .nil
  | cons offset offsets ih =>
    obtain ⟨hstart, hrest⟩ := hoffsets
    obtain ⟨resps, hresps, hshows⟩ :=
      ih hrest fun offset hmem => h offset (List.mem_cons_of_mem _ hmem)
    obtain ⟨resp, hok, -, -, -, hpage⟩ := h offset (List.mem_cons_self ..)
    rw [hstart] at hpage
    refine ⟨resp :: resps, .cons hok hresps, ?_⟩
    -- the page, then what follows it
    have hsplit : ((newestFirst (f.matching table)).drop start).take
        ((offset :: offsets).length * q.limitValue) =
        f.page table q.limitValue start ++
          ((newestFirst (f.matching table)).drop (start + q.limitValue)).take
            (offsets.length * q.limitValue) := by
      rw [List.length_cons, Nat.succ_mul, Nat.add_comm, List.take_add, List.drop_drop]
      rfl
    rw [hsplit, List.flatMap_cons]
    exact List.rel_append hpage hshows

/-- Over an unchanged table consecutive requests return what was written, each its own page and all
together the matching rows without gap or repetition, exactly if each of them is returnable. -/
theorem audit_query_iff (zone : SessionZone) (table : AuditTable) {q : AuditQuery}
    {f : AuditFilter} (hf : buildAuditFilter q = .ok f) {start : Nat}
    {offsets : List Runes.Text} (hoffsets : Consecutive q start offsets) :
    ((∀ offset ∈ offsets, Returns zone table (q.atOffset offset) f) ∧
        Enumerates zone table q f start offsets) ↔
      ∀ offset ∈ offsets, Returnable table (q.atOffset offset) f := by
  constructor
  · rintro ⟨h, -⟩ offset hmem
    exact (returns_iff zone table (q := q.atOffset offset) hf).mp (h offset hmem)
  · intro h
    have hreturns : ∀ offset ∈ offsets, Returns zone table (q.atOffset offset) f :=
      fun offset hmem => (returns_iff zone table (q := q.atOffset offset) hf).mpr (h offset hmem)
    exact ⟨hreturns, enumerates_of_returns zone table hoffsets hreturns⟩

/-! ## A row with a quote in its details -/

/-- A log of one row, whose details are `{"name": …}`. -/
def oneRow (name : String) : AuditTable where
  rows := [⟨1, none, "item.create", none, none,
    .member "name".toList (.string name.toList) .noMembers, none, none, 0⟩]
  ids_nodup := List.nodup_singleton _

def noFilter : AuditFilter := ⟨[], [], [], [], none, none⟩

theorem page_oneRow (name : String) :
    noFilter.page (oneRow name) ({} : AuditQuery).limitValue ({} : AuditQuery).offsetValue =
      (oneRow name).rows := by
  have hlimit : ({} : AuditQuery).limitValue = 50 := by decide
  have hoffset : ({} : AuditQuery).offsetValue = 0 := by decide
  have hmatching : noFilter.matching (oneRow name) = (oneRow name).rows := rfl
  rw [AuditFilter.page, hmatching, hlimit, hoffset, newestFirst, oneRow, List.mergeSort_singleton]
  rfl

theorem auditQuery_bare :
    ∃ zone : SessionZone,
      (∀ offset ∈ [([] : Runes.Text)],
        Returns zone (oneRow "a") (({} : AuditQuery).atOffset offset) noFilter) ∧
      Enumerates zone (oneRow "a") {} noFilter 0 [[]] := by
  obtain ⟨zone, -⟩ := TimestampText.exists_sessionZone (fun _ => 0) (fun _ => by decide)
  have hoffsets : Consecutive {} 0 [[]] := ⟨by decide, trivial⟩
  refine ⟨zone, (audit_query_iff zone (oneRow "a") rfl hoffsets).mpr ?_⟩
  intro offset hmem
  obtain rfl := List.mem_singleton.mp hmem
  refine ⟨by decide, by decide, rfl, ?_⟩
  intro row hrow
  have hrow : row ∈ (oneRow "a").rows := page_oneRow "a" ▸ hrow
  obtain rfl := List.mem_singleton.mp hrow
  decide

theorem auditQuery_quote :
    ∃ zone : SessionZone,
      queryAuditLog zone (oneRow "a\"b") {} = .error (internalError "Audit log okunamadı.") ∧
      ¬ Returns zone (oneRow "a\\b") {} noFilter := by
  obtain ⟨zone, -⟩ := TimestampText.exists_sessionZone (fun _ => 0) (fun _ => by decide)
  refine ⟨zone, ?_, fun hreturns => ?_⟩
  · have hfilter : buildAuditFilter {} = .ok noFilter := rfl
    have hvalid := buildAuditFilter_valid hfilter
    have hrefused : ((oneRow "a\"b").rows).mapM detailBytes = none := by decide
    have hpage : noFilter.micros.page (oneRow "a\"b") ({} : AuditQuery).limitValue
        ({} : AuditQuery).offsetValue = (oneRow "a\"b").rows := page_oneRow "a\"b"
    have hsorted : newestFirst (oneRow "a\"b").rows = (oneRow "a\"b").rows :=
      List.mergeSort_singleton _
    have haggregate : aggregatePage zone (oneRow "a\"b").rows = none := by
      rw [aggregatePage, hsorted, hrefused]
      rfl
    rw [queryAuditLog, hfilter]
    simp only [countRows_eq _ hvalid, selectPage_eq _ hvalid, hpage]
    rw [if_pos (by decide), if_pos (by decide), Option.bind_some, haggregate]
  · have hbare := ((returns_iff zone (oneRow "a\\b") rfl).mp hreturns).bare
    rw [page_oneRow] at hbare
    exact absurd (hbare _ (List.mem_singleton_self _)) (by decide)

end IronStock

import IronStock.Http
import IronStock.Lib.CsvText
import Mathlib.Data.List.Nodup

/-!
# The preview of a CSV file

`POST /api/v1/import/csv/preview`. The header is read first; after it the loop
reads records until the end of the file or until it has `maxPreviewRows` rows,
and passes over every record that comes with an error. The number of fields of
the header is what the reader expects of every record, so that a shorter or
longer row is an error.
-/
namespace IronStock

open Runes (Rune Text ofString)
open Csv (Stream Reader Document)

/-- What the request brings: `ParseMultipartForm` may fail, and the form may have no file. -/
inductive Upload
  | unparsed
  | noFile
  | file (s : Stream)

structure CSVPreviewRequest where
  claims : Option Claims
  upload : Upload

/-- A Go map from headers to values, keyed by distinct headers. -/
abbrev RawData := List (Text × Text)

def RawData.set (m : RawData) (k v : Text) : RawData :=
  if k ∈ m.map Prod.fst then m.map fun e => if e.1 = k then (k, v) else e else m ++ [(k, v)]

structure CSVPreviewRow where
  index : Nat
  rawData : RawData
deriving DecidableEq

structure CSVPreviewResponse where
  headers : List Text
  rows : List CSVPreviewRow
  total : Nat
deriving DecidableEq

def maxPreviewRows : Nat := 500

/-- The byte order mark, `\xef\xbb\xbf`. -/
def bom : Rune := .char '\uFEFF'

/-- `strings.TrimSpace(strings.TrimPrefix(h, "\xef\xbb\xbf"))`. -/
def headerName (h : Text) : Text :=
  Runes.trimSpace (if h.head? = some bom then h.tail else h)

/-- The map of a row: a header beyond the record has the empty string. -/
def rowMap (headers record : List Text) : RawData :=
  headers.zipIdx.foldl
    (fun m h => m.set h.1 (if h.2 < record.length then record.getD h.2 [] else [])) []

/-- The loop of `CSVPreview`; `none` if it has not ended after `fuel` rounds. -/
def previewLoop (headers : List Text) :
    Nat → Reader → List CSVPreviewRow → Nat → Option (List CSVPreviewRow × Nat)
  | 0, _, _, _ => none
  | fuel + 1, reader, rows, idx =>
    match reader.read with
    | (.error .eof, _) => some (rows, idx)
    | (.error _, reader) => previewLoop headers fuel reader rows (idx + 1)
    | (.ok record, reader) =>
      let rows := rows ++ [⟨idx, rowMap headers record⟩]
      if rows.length ≥ maxPreviewRows then some (rows, idx + 1)
      else previewLoop headers fuel reader rows (idx + 1)

/-- `CSVPreview`, with a loop of at most `fuel` rounds. -/
def csvPreview (fuel : Nat) (req : CSVPreviewRequest) : Option (Reply CSVPreviewResponse) :=
  match req.claims with
  | none => some (.error ⟨401, errCodeUnauthorized, "Token gerekli."⟩)
  | some _ =>
    match req.upload with
    | .unparsed => some (.error (badRequest "Multipart parse hatası (max 10MB)."))
    | .noFile => some (.error (badRequest "'file' alanı bulunamadı."))
    | .file s =>
      match (Csv.newReader s).read with
      | (.error _, _) => some (.error (badRequest "CSV header okunamadı."))
      | (.ok headers, reader) =>
        let headers := headers.map headerName
        (previewLoop headers fuel reader [] 0).map fun p => .ok ⟨headers, p.1, p.2⟩

/-- The handler answers: its loop ends. -/
def PreviewAnswers (req : CSVPreviewRequest) (reply : Reply CSVPreviewResponse) : Prop :=
  ∃ fuel, csvPreview fuel req = some reply

def PreviewEnds (req : CSVPreviewRequest) : Prop := ∃ reply, PreviewAnswers req reply

/-! ## What a preview shows -/

/-- Every header with the field below it, or with the empty string. -/
def rowShown (names record : List Text) : RawData :=
  names.zipIdx.map fun h => (h.1, record.getD h.2 [])

/-- The first rows of a file, in order, and the number of all its rows. -/
def preview (header : List Text) (rows : List (List Text)) : CSVPreviewResponse :=
  let names := header.map headerName
  ⟨names, (rows.take maxPreviewRows).zipIdx.map fun r => ⟨r.2, rowShown names r.1⟩, rows.length⟩

theorem RawData.set_of_not_mem {m : RawData} {k : Text} (h : k ∉ m.map Prod.fst) (v : Text) :
    m.set k v = m ++ [(k, v)] := if_neg h

theorem foldl_set {l : List (Text × Nat)} {m : RawData} (value : Nat → Text)
    (h : (m.map Prod.fst ++ l.map Prod.fst).Nodup) :
    l.foldl (fun m h => m.set h.1 (value h.2)) m = m ++ l.map fun h => (h.1, value h.2) := by
  induction l generalizing m with
  | nil => exact (List.append_nil m).symm
  | cons e l ih =>
    rw [List.map_cons] at h
    have hnot : e.1 ∉ m.map Prod.fst := by
      intro hmem
      exact (List.nodup_append.mp h).2.2 _ hmem _ (List.mem_cons_self ..) rfl
    rw [List.foldl_cons, RawData.set_of_not_mem hnot, ih, List.append_assoc]
    · rfl
    · rw [List.map_append, List.append_assoc]
      exact h

theorem rowMap_eq {names : List Text} (h : names.Nodup) (record : List Text) :
    rowMap names record = rowShown names record := by
  have hkeys : (([] : RawData).map Prod.fst ++ names.zipIdx.map Prod.fst).Nodup := by
    rw [List.zipIdx_map_fst]
    exact h
  have hvalue : ∀ j, (if j < record.length then record.getD j [] else []) = record.getD j [] := by
    intro j
    split
    · rfl
    · next hj => simp [Nat.le_of_not_lt hj]
  rw [rowMap, foldl_set (fun j => if j < record.length then record.getD j [] else []) hkeys,
    rowShown, List.nil_append]
  exact List.map_congr_left fun e _ => by rw [hvalue]

/-! ## The loop -/

/-- What the loop makes of what the reader returns. -/
def collect (headers : List Text) :
    List (Except Csv.Err (List Text)) → List CSVPreviewRow → Nat → List CSVPreviewRow × Nat
  | [], rows, idx => (rows, idx)
  | .error _ :: outcomes, rows, idx => collect headers outcomes rows (idx + 1)
  | .ok record :: outcomes, rows, idx =>
    let rows := rows ++ [⟨idx, rowMap headers record⟩]
    if rows.length ≥ maxPreviewRows then (rows, idx + 1)
    else collect headers outcomes rows (idx + 1)

attribute [local simp] collect

/-- The check of the number of fields, once the reader knows it. -/
def checked (n : Nat) (record : List Text) : Except Csv.Err (List Text) :=
  if record.length = n then .ok record else .error .fieldCount

section Loop

variable {headers : List Text}

theorem previewLoop_unique {fuel₁ fuel₂ : Nat} {reader : Reader} {rows : List CSVPreviewRow}
    {idx : Nat} {p q : List CSVPreviewRow × Nat}
    (hp : previewLoop headers fuel₁ reader rows idx = some p)
    (hq : previewLoop headers fuel₂ reader rows idx = some q) : p = q := by
  induction fuel₁ generalizing fuel₂ reader rows idx with
  | zero => cases hp
  | succ fuel₁ ih =>
    cases fuel₂ with
    | zero => cases hq
    | succ fuel₂ =>
      rw [previewLoop] at hp hq
      split at hp
      · next hread =>
        simp only [hread] at hq
        exact Option.some.inj (hp.symm.trans hq)
      · next hread =>
        simp only [hread] at hq
        exact ih hp hq
      · next hread =>
        simp only [hread] at hq hp
        split at hp
        · next hfull =>
          rw [if_pos hfull] at hq
          exact Option.some.inj (hp.symm.trans hq)
        · next hfull =>
          rw [if_neg hfull] at hq
          exact ih hp hq

/-- Over the lines of a document the loop collects the records, checked against the header. -/
theorem previewLoop_document {lines : List (List Csv.Cell)} {recs : List (List Text)}
    (hrecords : Csv.records lines = recs) {reader : Reader}
    (hfailing : reader.keepsFailing = false) (hfields : reader.fieldsPerRecord ≠ 0)
    (hunread : Csv.Unread (Csv.layout lines) reader.events) (rows : List CSVPreviewRow)
    (idx : Nat) :
    ∃ fuel, previewLoop headers fuel reader rows idx =
      some (collect headers (recs.map (checked reader.fieldsPerRecord)) rows idx) := by
  induction recs generalizing lines reader rows idx with
  | nil =>
    refine ⟨1, ?_⟩
    have hread := Csv.read_eof hrecords hfailing hunread
    rw [previewLoop]
    cases hr : reader.read with
    | mk outcome next =>
      rw [hr] at hread
      obtain rfl : outcome = .error .eof := hread
      rfl
  | cons record recs ih =>
    obtain ⟨rest, lines', hread, hrest, hmore, -⟩ := Csv.read_record hrecords hfailing hunread
    simp only [hfields, false_or, if_false] at hread
    let next : Reader := ⟨rest, false, reader.fieldsPerRecord⟩
    have hnext := fun rows idx => @ih lines' hmore next rfl hfields hrest rows idx
    simp only [List.map_cons, checked]
    by_cases hlen : record.length = reader.fieldsPerRecord
    · rw [if_pos hlen] at hread ⊢
      by_cases hfull : (rows ++ [(⟨idx, rowMap headers record⟩ : CSVPreviewRow)]).length ≥
          maxPreviewRows
      · refine ⟨1, ?_⟩
        simp only [previewLoop, hread, collect, if_pos hfull]
      · obtain ⟨fuel, hloop⟩ := hnext (rows ++ [⟨idx, rowMap headers record⟩]) (idx + 1)
        refine ⟨fuel + 1, ?_⟩
        simp only [previewLoop, hread, collect, if_neg hfull]
        exact hloop
    · rw [if_neg hlen] at hread ⊢
      obtain ⟨fuel, hloop⟩ := hnext rows (idx + 1)
      refine ⟨fuel + 1, ?_⟩
      simp only [previewLoop, hread, collect]
      exact hloop

/-- Rows that pass the check are all collected, as long as there is room. -/
theorem collect_ok (recs : List (List Text)) (rows : List CSVPreviewRow) (idx : Nat)
    (hroom : rows.length + recs.length ≤ maxPreviewRows) :
    collect headers (recs.map .ok) rows idx =
      (rows ++ (recs.zipIdx idx).map fun r => ⟨r.2, rowMap headers r.1⟩, idx + recs.length) := by
  induction recs generalizing rows idx with
  | nil => simp [collect]
  | cons record recs ih =>
    rw [List.length_cons] at hroom
    rw [List.map_cons, collect, List.length_append]
    split
    · next hfull =>
      -- the last row there is room for
      have hnil : recs = [] := List.eq_nil_of_length_eq_zero (by simp at hfull; omega)
      simp [hnil]
    · rw [ih _ _ (by simp; omega)]
      simp [List.append_assoc, Nat.add_assoc, Nat.add_comm 1]

/-- What is collected later is numbered later. -/
theorem collect_extends (headers : List Text) 
    (outcomes : List (Except Csv.Err (List Text))) (rows : List CSVPreviewRow) (idx : Nat) :
    ∃ more, (collect headers outcomes rows idx).1 = rows ++ more ∧ ∀ e ∈ more, idx ≤ e.index := by
  induction outcomes generalizing rows idx with
  | nil => exact ⟨[], (List.append_nil rows).symm, by simp⟩
  | cons o outcomes ih =>
    cases o with
    | error e =>
      obtain ⟨more, heq, hmore⟩ := ih rows (idx + 1)
      exact ⟨more, heq, fun e he => Nat.le_of_succ_le (hmore e he)⟩
    | ok record =>
      rw [collect]
      split
      · exact ⟨[⟨idx, rowMap headers record⟩], rfl, by simp⟩
      · obtain ⟨more, heq, hmore⟩ := ih (rows ++ [⟨idx, rowMap headers record⟩]) (idx + 1)
        refine ⟨⟨idx, rowMap headers record⟩ :: more, ?_, ?_⟩
        · rw [heq, List.append_assoc]
          rfl
        · intro e he
          rcases List.mem_cons.mp he with rfl | he
          · exact Nat.le_refl _
          · exact Nat.le_of_succ_le (hmore e he)

/-- If every collected row stands at its own number and none is missing, every record has passed
the check and there was room for all. -/
theorem collect_complete (headers : List Text) {n : Nat} {recs : List (List Text)} {rows : List CSVPreviewRow}
    (hroom : rows.length < maxPreviewRows)
    (hnumbered : ∀ i (e : CSVPreviewRow),
      (collect headers (recs.map (checked n)) rows rows.length).1[i]? = some e → e.index = i)
    (hlength : (collect headers (recs.map (checked n)) rows rows.length).1.length =
      min maxPreviewRows (rows.length + recs.length))
    (htotal : (collect headers (recs.map (checked n)) rows rows.length).2 =
      rows.length + recs.length) :
    (∀ record ∈ recs, record.length = n) ∧ rows.length + recs.length ≤ maxPreviewRows := by
  induction recs generalizing rows with
  | nil => exact ⟨by simp, Nat.le_of_lt hroom⟩
  | cons record recs ih =>
    rw [List.map_cons, checked] at hnumbered hlength htotal
    by_cases hlen : record.length = n
    · rw [if_pos hlen, collect] at hnumbered hlength htotal
      have hrows : (rows ++ [(⟨rows.length, rowMap headers record⟩ : CSVPreviewRow)]).length =
          rows.length + 1 := List.length_append
      rw [hrows] at hnumbered hlength htotal
      split at htotal
      · next hfull =>
        simp only [List.length_cons] at htotal
        obtain rfl : recs = [] := List.eq_nil_of_length_eq_zero (by omega)
        exact ⟨by simpa using hlen, hroom⟩
      · next hfull =>
        rw [if_neg hfull] at hnumbered hlength
        have hroom' : (rows ++ [(⟨rows.length, rowMap headers record⟩ : CSVPreviewRow)]).length <
            maxPreviewRows := by
          rw [hrows]
          omega
        have hrest := ih hroom' (by rw [hrows]; exact hnumbered)
          (by rw [hrows, hlength, List.length_cons]; congr 1; omega)
          (by rw [hrows, htotal, List.length_cons]; omega)
        rw [hrows] at hrest
        refine ⟨?_, by rw [List.length_cons]; omega⟩
        intro r hr
        rcases List.mem_cons.mp hr with rfl | hr
        · exact hlen
        · exact hrest.1 r hr
    · -- the record is passed over, and the next row is numbered too high
      rw [if_neg hlen, collect] at hnumbered hlength
      obtain ⟨more, heq, hmore⟩ :=
        collect_extends headers (recs.map (checked n)) rows (rows.length + 1)
      rw [heq] at hnumbered hlength
      cases more with
      | nil =>
        rw [List.append_nil, List.length_cons] at hlength
        omega
      | cons e more =>
        have hindex := hnumbered rows.length e (by simp)
        have := hmore e (List.mem_cons_self ..)
        omega

end Loop

/-! ## The answers -/

theorem previewAnswers_file {claims : Claims} {s : Stream} {reply : Reply CSVPreviewResponse}
    {headers : List Text} {reader : Reader}
    (hread : (Csv.newReader s).read = (.ok headers, reader)) :
    PreviewAnswers ⟨some claims, .file s⟩ reply ↔
      ∃ fuel p, previewLoop (headers.map headerName) fuel reader [] 0 = some p ∧
        reply = .ok ⟨headers.map headerName, p.1, p.2⟩ := by
  simp only [PreviewAnswers, csvPreview, hread, Option.map_eq_some_iff]
  exact exists_congr fun fuel => exists_congr fun p => and_congr_right fun _ => eq_comm

/-- A document with distinct header names is previewed row for row exactly if every row has as
many fields as the header and there are no more than 500. -/
theorem previewAnswers_document (claims : Claims) {d : Document} {header : List Text}
    {rows : List (List Text)} (hrecords : d.records = header :: rows)
    (hnames : (header.map headerName).Nodup) :
    PreviewAnswers ⟨some claims, .file (.ofText d.text)⟩ (.ok (preview header rows)) ↔
      (∀ row ∈ rows, row.length = header.length) ∧ rows.length ≤ maxPreviewRows := by
  have hunread : Csv.Unread (Csv.layout d.lines) (Csv.newReader (.ofText d.text)).events :=
    ⟨d.text, rfl, d.unix⟩
  obtain ⟨rest, lines, hread, hrest, hrows, hne⟩ := Csv.read_record hrecords rfl hunread
  have hfirst : (Csv.newReader (.ofText d.text)).fieldsPerRecord = 0 := rfl
  simp only [hfirst, true_or, if_true] at hread
  have hfields : header.length ≠ 0 := fun h => hne (List.eq_nil_of_length_eq_zero h)
  let next : Reader := ⟨rest, false, header.length⟩
  obtain ⟨fuel, hloop⟩ :=
    @previewLoop_document (header.map headerName) lines rows hrows next rfl hfields hrest [] 0
  rw [previewAnswers_file hread]
  constructor
  · rintro ⟨fuel', p, hp, hreply⟩
    obtain rfl := previewLoop_unique hloop hp
    have hresponse := Except.ok.inj hreply
    have hcollected := congrArg CSVPreviewResponse.rows hresponse
    have htotal := congrArg CSVPreviewResponse.total hresponse
    simp only [preview] at hcollected htotal
    have hcomplete : (∀ row ∈ rows, row.length = header.length) ∧
        ([] : List CSVPreviewRow).length + rows.length ≤ maxPreviewRows := by
      apply collect_complete (header.map headerName) (by decide)
      · intro i e he
        rw [List.length_nil, ← hcollected, List.getElem?_map] at he
        obtain ⟨r, hr, rfl⟩ := Option.map_eq_some_iff.mp he
        rw [List.getElem?_zipIdx] at hr
        obtain ⟨record, -, rfl⟩ := Option.map_eq_some_iff.mp hr
        exact Nat.zero_add i
      · rw [List.length_nil, ← hcollected]
        simp
      · rw [List.length_nil, ← htotal, Nat.zero_add]
    simpa using hcomplete
  · rintro ⟨hlength, hroom⟩
    refine ⟨fuel, _, hloop, ?_⟩
    have hchecked : rows.map (checked header.length) = rows.map .ok :=
      List.map_congr_left fun row hrow => if_pos (hlength row hrow)
    rw [hchecked, collect_ok rows [] 0 (by simpa using hroom), preview,
      List.take_of_length_le hroom]
    simp only [List.nil_append, Nat.zero_add]
    congr 2
    exact List.map_congr_left fun r _ => by rw [rowMap_eq hnames]

/-! ## Streams -/

/-- The records with as many fields as the header that a stream holds behind its header. -/
def goodRows (s : Stream) : Nat :=
  ((Csv.newReader s).read.2.outcomes.filter Except.isOk).length

section Streams

variable {headers : List Text}

theorem previewLoop_eof {reader : Reader} (h : reader.read.1 = .error .eof) (fuel : Nat)
    (rows : List CSVPreviewRow) (idx : Nat) :
    previewLoop headers (fuel + 1) reader rows idx = some (rows, idx) := by
  rw [previewLoop]
  cases hr : reader.read with
  | mk outcome next =>
    rw [hr] at h
    obtain rfl : outcome = .error .eof := h
    rfl

theorem previewLoop_error {reader : Reader} {e : Csv.Err} (h : reader.read.1 = .error e)
    (he : e ≠ .eof) (fuel : Nat) (rows : List CSVPreviewRow) (idx : Nat) :
    previewLoop headers (fuel + 1) reader rows idx =
      previewLoop headers fuel reader.read.2 rows (idx + 1) := by
  rw [previewLoop]
  cases hr : reader.read with
  | mk outcome next =>
    rw [hr] at h
    obtain rfl : outcome = .error e := h
    cases e with
    | eof => contradiction
    | fault => rfl
    | fieldCount => rfl

theorem previewLoop_ok {reader : Reader} {record : List Text} (h : reader.read.1 = .ok record)
    (fuel : Nat) (rows : List CSVPreviewRow) (idx : Nat) :
    previewLoop headers (fuel + 1) reader rows idx =
      if rows.length + 1 ≥ maxPreviewRows then
        some (rows ++ [⟨idx, rowMap headers record⟩], idx + 1)
      else previewLoop headers fuel reader.read.2 (rows ++ [⟨idx, rowMap headers record⟩])
        (idx + 1) := by
  rw [previewLoop]
  cases hr : reader.read with
  | mk outcome next =>
    rw [hr] at h
    obtain rfl : outcome = .ok record := h
    simp only [List.length_append, List.length_singleton]

/-- The loop ends with the stream. -/
theorem previewLoop_ends_of_eof {reader : Reader} (hfailing : reader.keepsFailing = false)
    (rows : List CSVPreviewRow) (idx : Nat) :
    ∃ fuel p, previewLoop headers fuel reader rows idx = some p := by
  induction hn : reader.events.length using Nat.strongRecOn generalizing reader rows idx with
  | _ n ih =>
    subst hn
    by_cases hnil : reader.events = []
    · have hread := (Reader.read_of_nil hnil).1
      rw [hfailing] at hread
      exact ⟨1, _, previewLoop_eof hread 0 rows idx⟩
    · have hrest := ih _ (Reader.read_events hnil) ((reader.read_keepsFailing).trans hfailing)
      cases hread : reader.read.1 with
      | error e =>
        by_cases he : e = .eof
        · exact ⟨1, _, previewLoop_eof (he ▸ hread) 0 rows idx⟩
        · obtain ⟨fuel, p, hp⟩ := hrest rows (idx + 1) rfl
          exact ⟨fuel + 1, p, (previewLoop_error hread he fuel rows idx).trans hp⟩
      | ok record =>
        obtain ⟨fuel, p, hp⟩ := hrest (rows ++ [⟨idx, rowMap headers record⟩]) (idx + 1) rfl
        by_cases hfull : rows.length + 1 ≥ maxPreviewRows
        · exact ⟨1, _, (previewLoop_ok hread 0 rows idx).trans (if_pos hfull)⟩
        · exact ⟨fuel + 1, p, (previewLoop_ok hread fuel rows idx).trans ((if_neg hfull).trans hp)⟩

/-- A reader with events left has one more outcome. -/
theorem outcomes_cons {reader : Reader} (h : reader.events ≠ []) :
    reader.outcomes = reader.read.1 :: reader.read.2.outcomes := by
  rw [Reader.outcomes, if_neg h]

theorem outcomes_nil {reader : Reader} (h : reader.events = []) : reader.outcomes = [] := by
  rw [Reader.outcomes, if_pos h]

/-- The loop ends with the last row there is room for. -/
theorem previewLoop_ends_of_good {reader : Reader} (rows : List CSVPreviewRow) (idx : Nat)
    (hroom : rows.length < maxPreviewRows)
    (hgood : maxPreviewRows ≤ rows.length + (reader.outcomes.filter Except.isOk).length) :
    ∃ fuel p, previewLoop headers fuel reader rows idx = some p := by
  induction hn : reader.events.length using Nat.strongRecOn generalizing reader rows idx with
  | _ n ih =>
    subst hn
    by_cases hnil : reader.events = []
    · rw [outcomes_nil hnil] at hgood
      exact absurd hgood (Nat.not_le_of_lt hroom)
    · have hrest := fun rows idx hroom hgood =>
        ih _ (Reader.read_events hnil) rows idx hroom hgood rfl
      rw [outcomes_cons hnil] at hgood
      cases hread : reader.read.1 with
      | error e =>
        rw [hread] at hgood
        by_cases he : e = .eof
        · exact ⟨1, _, previewLoop_eof (he ▸ hread) 0 rows idx⟩
        · obtain ⟨fuel, p, hp⟩ := hrest rows (idx + 1) hroom hgood
          exact ⟨fuel + 1, p, (previewLoop_error hread he fuel rows idx).trans hp⟩
      | ok record =>
        by_cases hfull : rows.length + 1 ≥ maxPreviewRows
        · exact ⟨1, _, (previewLoop_ok hread 0 rows idx).trans (if_pos hfull)⟩
        · rw [hread, List.filter_cons_of_pos rfl, List.length_cons] at hgood
          obtain ⟨fuel, p, hp⟩ := hrest (rows ++ [⟨idx, rowMap headers record⟩]) (idx + 1)
            (by rw [List.length_append, List.length_singleton]; omega)
            (by rw [List.length_append, List.length_singleton]; omega)
          exact ⟨fuel + 1, p, (previewLoop_ok hread fuel rows idx).trans ((if_neg hfull).trans hp)⟩

/-- A stream that keeps failing before there are enough rows is read for ever. -/
theorem previewLoop_none {reader : Reader} (hfailing : reader.keepsFailing = true) (fuel : Nat)
    (rows : List CSVPreviewRow) (idx : Nat)
    (hfew : rows.length + (reader.outcomes.filter Except.isOk).length < maxPreviewRows) :
    previewLoop headers fuel reader rows idx = none := by
  induction fuel generalizing reader rows idx with
  | zero => rfl
  | succ fuel ih =>
    have hnext := ih (reader.read_keepsFailing.trans hfailing)
    by_cases hnil : reader.events = []
    · obtain ⟨hread, hrest⟩ := Reader.read_of_nil hnil
      rw [hfailing] at hread
      rw [outcomes_nil hnil] at hfew
      rw [previewLoop_error hread (by decide)]
      exact hnext rows (idx + 1) (by rwa [outcomes_nil hrest])
    · rw [outcomes_cons hnil] at hfew
      cases hread : reader.read.1 with
      | error e =>
        have he : e ≠ .eof := by
          rintro rfl
          exact Reader.read_ne_eof hfailing hread
        rw [hread] at hfew
        rw [previewLoop_error hread he]
        exact hnext rows (idx + 1) hfew
      | ok record =>
        rw [hread, List.filter_cons_of_pos rfl, List.length_cons] at hfew
        rw [previewLoop_ok hread, if_neg (by omega)]
        apply hnext
        rw [List.length_append, List.length_singleton]
        omega

end Streams

/-- The handler comes to an end exactly if the stream does, or if there is no header, or if there
are enough rows before the stream keeps failing. -/
theorem previewEnds_iff (claims : Claims) (s : Stream) :
    PreviewEnds ⟨some claims, .file s⟩ ↔
      s.keepsFailing = false ∨ (∃ e, (Csv.newReader s).read.1 = .error e) ∨
        maxPreviewRows ≤ goodRows s := by
  have hkeeps : (Csv.newReader s).read.2.keepsFailing = s.keepsFailing :=
    Reader.read_keepsFailing _
  cases hread : (Csv.newReader s).read with
  | mk outcome reader =>
    rw [hread] at hkeeps
    rw [goodRows, hread]
    cases outcome with
    | error e =>
      have hreply : csvPreview 0 ⟨some claims, .file s⟩ =
          some (.error (badRequest "CSV header okunamadı.")) := by
        simp only [csvPreview, hread]
      exact ⟨fun _ => .inr (.inl ⟨e, rfl⟩), fun _ => ⟨_, 0, hreply⟩⟩
    | ok headers =>
      have hends : PreviewEnds ⟨some claims, .file s⟩ ↔
          ∃ fuel p, previewLoop (headers.map headerName) fuel reader [] 0 = some p := by
        simp only [PreviewEnds, previewAnswers_file hread]
        constructor
        · rintro ⟨_, fuel, p, hp, -⟩
          exact ⟨fuel, p, hp⟩
        · rintro ⟨fuel, p, hp⟩
          exact ⟨_, fuel, p, hp, rfl⟩
      rw [hends]
      constructor
      · rintro ⟨fuel, p, hp⟩
        by_contra hnot
        simp only [not_or, Bool.not_eq_false, Nat.not_le] at hnot
        have hnone : previewLoop (headers.map headerName) fuel reader [] 0 = none :=
          previewLoop_none (hkeeps.trans hnot.1) fuel [] 0 (by simpa using hnot.2.2)
        rw [hnone] at hp
        cases hp
      · rintro (hfailing | ⟨e, he⟩ | hgood)
        · exact previewLoop_ends_of_eof (hkeeps.trans hfailing) [] 0
        · cases he
        · exact previewLoop_ends_of_good [] 0 (by decide) (by simpa using hgood)

/-! ## The preview of any file -/

/-- A document with distinct header names is previewed row for row, with the number of its rows,
exactly if every row has as many fields as the header and there are no more than 500; and the
handler comes to an end exactly if the stream does, or has no header, or brings 500 rows before it
keeps failing. -/
theorem csvPreview_iff (claims : Claims) {d : Document} {header : List Text}
    {rows : List (List Text)} (hrecords : d.records = header :: rows)
    (hnames : (header.map headerName).Nodup) (s : Stream) :
    (PreviewAnswers ⟨some claims, .file (.ofText d.text)⟩ (.ok (preview header rows)) ↔
      (∀ row ∈ rows, row.length = header.length) ∧ rows.length ≤ maxPreviewRows) ∧
    (PreviewEnds ⟨some claims, .file s⟩ ↔
      s.keepsFailing = false ∨ (∃ e, (Csv.newReader s).read.1 = .error e) ∨
        maxPreviewRows ≤ goodRows s) :=
  ⟨previewAnswers_document claims hrecords hnames, previewEnds_iff claims s⟩

/-! ## A row without its last field -/

def cellOf (s : String)
    (h : (ofString s).all fun c => c ≠ Csv.quote ∧ c ≠ Csv.comma ∧ c ≠ Csv.lf) : Csv.Cell :=
  .plain (ofString s) fun c hc => by simpa using List.all_eq_true.1 h c hc

def previewCaller : Claims := ⟨Uuid.ofNat 7, [.read]⟩

/-- The text `a,b`, a line end, and a row of the fields of `cells`. -/
def twoLines (cells : List Csv.Cell)
    (ends : (Csv.rowText cells).getLast? ≠ some Csv.cr) : Document :=
  ⟨[⟨[cellOf "a" (by decide), cellOf "b" (by decide)], false, by decide⟩],
    ⟨cells, false, fun _ => ends⟩⟩

theorem csvPreview_two_fields :
    PreviewAnswers ⟨some previewCaller, .file (.ofText (ofString "a,b\n1,2"))⟩
      (.ok (preview [ofString "a", ofString "b"] [[ofString "1", ofString "2"]])) := by
  have hrecords : (twoLines [cellOf "1" (by decide), cellOf "2" (by decide)] (by decide)).records =
      [ofString "a", ofString "b"] :: [[ofString "1", ofString "2"]] := by decide
  exact (csvPreview_iff previewCaller hrecords (by decide) (.ofText [])).1.2
    ⟨by decide, by decide⟩

theorem csvPreview_short_row :
    ¬ PreviewAnswers ⟨some previewCaller, .file (.ofText (ofString "a,b\n1"))⟩
        (.ok (preview [ofString "a", ofString "b"] [[ofString "1"]])) ∧
      ¬ PreviewEnds ⟨some previewCaller, .file ⟨(ofString "a\n").map .rune, true⟩⟩ := by
  constructor
  · have hrecords : (twoLines [cellOf "1" (by decide)] (by decide)).records =
        [ofString "a", ofString "b"] :: [[ofString "1"]] := by decide
    intro hanswers
    exact absurd ((previewAnswers_document previewCaller hrecords (by decide)).1 hanswers).1
      (by decide)
  · have hread : (Csv.newReader ⟨(ofString "a\n").map .rune, true⟩).read =
        (.ok [ofString "a"], ⟨[], true, 1⟩) := by
      have hline : Csv.nextLine true ((ofString "a\n").map .rune) = ⟨ofString "a\n", none, []⟩ := by
        rw [Csv.nextLine]
        rfl
      have hscan : Csv.parseField true [] none (ofString "a\n") [] = ⟨[ofString "a"], none, []⟩ := by
        rw [Csv.parseField]
        rfl
      have hreader : Csv.newReader ⟨(ofString "a\n").map .rune, true⟩ =
          ⟨(ofString "a\n").map .rune, true, 0⟩ := rfl
      rw [hreader, Reader.read]
      simp only [hline, hscan]
      rfl
    rw [previewEnds_iff, goodRows, hread]
    rintro (h | ⟨e, h⟩ | h)
    · cases h
    · cases h
    · rw [outcomes_nil rfl] at h
      exact absurd h (by decide)

end IronStock

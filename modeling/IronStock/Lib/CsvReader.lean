import IronStock.Lib.Runes

/-!
# A reader of comma separated values

Go's `encoding/csv` Reader over a buffered stream, with its default comma, no
comment character, `LazyQuotes` and `TrimLeadingSpace`: `readLine`, the loop
over the fields of a record and the check of the number of fields. The stream
answers every read, with a rune, with a fault or, after its last rune, for ever
with its ending.
-/
namespace Csv

open Runes

abbrev quote : Rune := .char '"'
abbrev comma : Rune := .char ','
abbrev lf : Rune := .char '\n'
abbrev cr : Rune := .char '\r'

/-- The errors of `Read`: the end of the file, a read that failed, and
`ErrFieldCount`. -/
inductive Err
  | eof
  | fault
  | fieldCount
deriving DecidableEq

/-! ## The stream -/

inductive Event
  | rune (c : Rune)
  | fault
deriving DecidableEq

structure Stream where
  events : List Event
  /-- after the last event every read fails, instead of reporting the end -/
  keepsFailing : Bool

def Stream.ofText (text : Text) : Stream := ⟨text.map .rune, false⟩

/-- What is returned once the events are used up. -/
def ending (keepsFailing : Bool) : Err := if keepsFailing then .fault else .eof

structure Line where
  text : Text
  err : Option Err
  rest : List Event

/-- `bufio.Reader.ReadSlice('\n')`, until the buffer no longer fills up. -/
def readSlice (keepsFailing : Bool) : List Event → Line
  | [] => ⟨[], some (ending keepsFailing), []⟩
  | .fault :: events => ⟨[], some .fault, events⟩
  | .rune c :: events =>
    if c = lf then ⟨[lf], none, events⟩
    else
      let line := readSlice keepsFailing events
      { line with text := c :: line.text }

/-- A line that ends with `\r\n` ends with `\n`. -/
def normalizeLine (line : Text) : Text :=
  match line.reverse with
  | n :: r :: before => if r = cr ∧ n = lf then (lf :: before).reverse else line
  | _ => line

/-- `readLine`. -/
def readLine (keepsFailing : Bool) (events : List Event) : Line :=
  let line := readSlice keepsFailing events
  if line.text ≠ [] ∧ line.err = some .eof then
    -- the last line needs no newline, and a `\r` before the end is dropped
    ⟨if line.text.getLast? = some cr then line.text.dropLast else line.text, none, line.rest⟩
  else { line with text := normalizeLine line.text }

theorem readSlice_rest (keepsFailing : Bool) {events : List Event} (h : events ≠ []) :
    (readSlice keepsFailing events).rest.length < events.length := by
  induction events with
  | nil => contradiction
  | cons e events ih =>
    cases e with
    | fault => exact Nat.lt_succ_self _
    | rune c =>
      rw [readSlice]
      split
      · exact Nat.lt_succ_self _
      · by_cases hnil : events = []
        · rw [hnil]
          exact Nat.lt_succ_self _
        · exact Nat.lt_succ_of_lt (ih hnil)

theorem readLine_nil (keepsFailing : Bool) :
    readLine keepsFailing [] = ⟨[], some (ending keepsFailing), []⟩ := rfl

theorem readLine_rest (keepsFailing : Bool) {events : List Event} (h : events ≠ []) :
    (readLine keepsFailing events).rest.length < events.length := by
  have hrest : (readLine keepsFailing events).rest = (readSlice keepsFailing events).rest := by
    rw [readLine]
    split <;> rfl
  rw [hrest]
  exact readSlice_rest keepsFailing h

theorem readLine_rest_le (keepsFailing : Bool) (events : List Event) :
    (readLine keepsFailing events).rest.length ≤ events.length := by
  by_cases h : events = []
  · rw [h]
    exact Nat.le_refl 0
  · exact Nat.le_of_lt (readLine_rest keepsFailing h)

/-! ## Records -/

/-- The loop of `readRecord` that skips empty lines. -/
def nextLine (keepsFailing : Bool) (events : List Event) : Line :=
  let line := readLine keepsFailing events
  if line.err = none ∧ (line.text = [] ∨ line.text = [lf]) then nextLine keepsFailing line.rest
  else line
termination_by events.length
decreasing_by
  rename_i h
  apply readLine_rest
  rintro rfl
  exact absurd h.1 (Option.some_ne_none _)

/-- A line without its newline. -/
def chomp (line : Text) : Text := if line.getLast? = some lf then line.dropLast else line

/-- The text in front of the first `c`, and the text behind it. -/
def before (c : Rune) (line : Text) : Text := line.takeWhile fun x => x ≠ c

def behind (c : Rune) (line : Text) : Text := (line.dropWhile fun x => x ≠ c).tail

theorem length_behind {c : Rune} {line : Text} (h : c ∈ line) :
    (behind c line).length < line.length := by
  induction line with
  | nil => contradiction
  | cons x line ih =>
    by_cases hx : x = c
    · simp [behind, hx]
    · have hmem : c ∈ line := (List.mem_cons.mp h).resolve_left (Ne.symm hx)
      simpa [behind, hx] using Nat.lt_succ_of_lt (ih hmem)

theorem length_trim (line : Text) : (line.dropWhile Rune.isSpace).length ≤ line.length :=
  (List.dropWhile_sublist Rune.isSpace).length_le

theorem length_tail {α : Type*} {c : α} {line : List α} (h : line.head? = some c) :
    line.tail.length < line.length := by
  cases line with
  | nil => cases h
  | cons x line => exact Nat.lt_succ_self _

/-- The fields of a record with the pending error and what is left to read. -/
structure Scan where
  fields : List Text
  err : Option Err
  rest : List Event

mutual

/-- The loop `parseField` of `readRecord`. -/
def parseField (keepsFailing : Bool) (fields : List Text) (err : Option Err) (line : Text)
    (events : List Event) : Scan :=
  let trimmed := line.dropWhile Rune.isSpace
  if trimmed.head? = some quote then
    quotedField keepsFailing fields err [] trimmed.tail events
  else if comma ∈ trimmed then
    parseField keepsFailing (fields ++ [before comma trimmed]) err (behind comma trimmed) events
  else ⟨fields ++ [chomp trimmed], err, events⟩
termination_by (events.length, line.length)
decreasing_by
  · exact Prod.Lex.right _ (Nat.lt_of_lt_of_le (length_tail ‹_›) (length_trim line))
  · exact Prod.Lex.right _ (Nat.lt_of_lt_of_le (length_behind ‹_›) (length_trim line))

/-- The loop over a quoted field. -/
def quotedField (keepsFailing : Bool) (fields : List Text) (err : Option Err) (field : Text)
    (line : Text) (events : List Event) : Scan :=
  if quote ∈ line then
    -- the next quote
    let text := field ++ before quote line
    let after := behind quote line
    if after.head? = some quote then
      quotedField keepsFailing fields err (text ++ [quote]) after.tail events
    else if after.head? = some comma then
      parseField keepsFailing (fields ++ [text]) err after.tail events
    else if after = [] ∨ after = [lf] then ⟨fields ++ [text], err, events⟩
    else quotedField keepsFailing fields err (text ++ [quote]) after events
  else if line = [] then ⟨fields ++ [field], err, events⟩
  else if err ≠ none then ⟨fields, err, events⟩
  else
    -- the end of the line, the field goes on
    let next := readLine keepsFailing events
    quotedField keepsFailing fields (if next.err = some .eof then none else next.err)
      (field ++ line) next.text next.rest
termination_by (events.length, line.length)
decreasing_by
  · exact Prod.Lex.right _ (Nat.lt_trans (length_tail ‹_›) (length_behind ‹_›))
  · exact Prod.Lex.right _ (Nat.lt_trans (length_tail ‹_›) (length_behind ‹_›))
  · exact Prod.Lex.right _ (length_behind ‹_›)
  · by_cases h : events = []
    · subst h
      exact Prod.Lex.right _ (List.length_pos_of_ne_nil ‹_›)
    · exact Prod.Lex.left _ _ (readLine_rest keepsFailing h)

end

structure Reader where
  events : List Event
  keepsFailing : Bool
  /-- 0 until the first record is read -/
  fieldsPerRecord : Nat

/-- `csv.NewReader`. -/
def newReader (s : Stream) : Reader := ⟨s.events, s.keepsFailing, 0⟩

/-- `Read`. -/
def Reader.read (r : Reader) : Except Err (List Text) × Reader :=
  let line := nextLine r.keepsFailing r.events
  if line.err = some .eof then (.error .eof, { r with events := line.rest })
  else
    let record := parseField r.keepsFailing [] line.err line.text line.rest
    let expected := if r.fieldsPerRecord = 0 then record.fields.length else r.fieldsPerRecord
    (match record.err with
      | some err => .error err
      | none => if record.fields.length = expected then .ok record.fields else .error .fieldCount,
      { r with events := record.rest, fieldsPerRecord := expected })

/-! ## Progress -/

theorem readLine_err (events : List Event) : (readLine true events).err ≠ some .eof := by
  have hslice : (readSlice true events).err ≠ some .eof := by
    induction events with
    | nil => simp [readSlice, ending]
    | cons e events ih =>
      cases e with
      | fault => simp [readSlice]
      | rune c =>
        rw [readSlice]
        split
        · simp
        · exact ih
  rw [readLine, if_neg fun h => hslice h.2]
  exact hslice

theorem nextLine_nil (keepsFailing : Bool) :
    nextLine keepsFailing [] = ⟨[], some (ending keepsFailing), []⟩ := by
  rw [nextLine, readLine_nil]
  exact if_neg fun h => Option.some_ne_none _ h.1

theorem nextLine_rest (keepsFailing : Bool) {events : List Event} (h : events ≠ []) :
    (nextLine keepsFailing events).rest.length < events.length := by
  induction hn : events.length using Nat.strongRecOn generalizing events with
  | _ n ih =>
    subst hn
    have hlt := readLine_rest keepsFailing h
    rw [nextLine]
    split
    · by_cases hnil : (readLine keepsFailing events).rest = []
      · rw [hnil, nextLine_nil]
        exact List.length_pos_of_ne_nil h
      · exact Nat.lt_trans (ih _ hlt hnil rfl) hlt
    · exact hlt

theorem nextLine_err (events : List Event) : (nextLine true events).err ≠ some .eof := by
  induction hn : events.length using Nat.strongRecOn generalizing events with
  | _ n ih =>
    subst hn
    rw [nextLine]
    split
    · next hskip =>
      have hne : events ≠ [] := by
        rintro rfl
        exact Option.some_ne_none _ hskip.1
      exact ih _ (readLine_rest true hne) _ rfl
    · exact readLine_err events

/-- The loops over the fields only read on, and the end of the file is no error of theirs. -/
def Scan.Keeps (events : List Event) (s : Scan) : Prop :=
  s.err ≠ some .eof ∧ s.rest.length ≤ events.length

theorem parseField_keeps (keepsFailing : Bool) (fields : List Text) (err : Option Err)
    (line : Text) (events : List Event) (h : err ≠ some .eof) :
    (parseField keepsFailing fields err line events).Keeps events := by
  revert h
  apply (parseField.mutual_induct keepsFailing
    (fun fields err line events => err ≠ some .eof →
      (parseField keepsFailing fields err line events).Keeps events)
    (fun fields err field line events => err ≠ some .eof →
      (quotedField keepsFailing fields err field line events).Keeps events)
    ?_ ?_ ?_ ?_ ?_ ?_ ?_ ?_ ?_ ?_).1
  · intro fields err line events trimmed hquote ih h
    rw [parseField, if_pos hquote]
    exact ih h
  · intro fields err line events trimmed hquote hcomma ih h
    rw [parseField, if_neg hquote, if_pos hcomma]
    exact ih h
  · intro fields err line events trimmed hquote hcomma h
    rw [parseField, if_neg hquote, if_neg hcomma]
    exact ⟨h, Nat.le_refl _⟩
  · intro fields err field line events hquote text after hdouble ih h
    rw [quotedField, if_pos hquote, if_pos hdouble]
    exact ih h
  · intro fields err field line events hquote text after hdouble hcomma ih h
    rw [quotedField, if_pos hquote, if_neg hdouble, if_pos hcomma]
    exact ih h
  · intro fields err field line events hquote after hdouble hcomma hend h
    rw [quotedField, if_pos hquote, if_neg hdouble, if_neg hcomma, if_pos hend]
    exact ⟨h, Nat.le_refl _⟩
  · intro fields err field line events hquote text after hdouble hcomma hend ih h
    rw [quotedField, if_pos hquote, if_neg hdouble, if_neg hcomma, if_neg hend]
    exact ih h
  · intro fields err field events hquote h
    rw [quotedField, if_neg hquote, if_pos rfl]
    exact ⟨h, Nat.le_refl _⟩
  · intro fields err field line events hquote hline herr h
    rw [quotedField, if_neg hquote, if_neg hline, if_pos herr]
    exact ⟨h, Nat.le_refl _⟩
  · intro fields err field line events hquote hline herr next ih h
    rw [quotedField, if_neg hquote, if_neg hline, if_neg herr]
    have hnext : (if next.err = some .eof then none else next.err) ≠ some .eof := by
      split
      · simp
      · assumption
    have hkeeps := ih hnext
    exact ⟨hkeeps.1, Nat.le_trans hkeeps.2 (readLine_rest_le keepsFailing events)⟩

/-- While there are events, a record uses some up. -/
theorem Reader.read_events {r : Reader} (h : r.events ≠ []) :
    r.read.2.events.length < r.events.length := by
  have hnext := nextLine_rest r.keepsFailing h
  rw [Reader.read]
  split
  · exact hnext
  · next herr => exact Nat.lt_of_le_of_lt (parseField_keeps _ _ _ _ _ herr).2 hnext

theorem Reader.read_keepsFailing (r : Reader) : r.read.2.keepsFailing = r.keepsFailing := by
  rw [Reader.read]
  split <;> rfl

/-- A stream that keeps failing never ends. -/
theorem Reader.read_ne_eof {r : Reader} (h : r.keepsFailing = true) :
    r.read.1 ≠ .error .eof := by
  have hnext : (nextLine r.keepsFailing r.events).err ≠ some .eof := by
    rw [h]
    exact nextLine_err r.events
  have hscan := (parseField_keeps r.keepsFailing [] _
    (nextLine r.keepsFailing r.events).text (nextLine r.keepsFailing r.events).rest hnext).1
  rw [Reader.read, if_neg hnext]
  cases herr : (parseField r.keepsFailing [] (nextLine r.keepsFailing r.events).err
      (nextLine r.keepsFailing r.events).text (nextLine r.keepsFailing r.events).rest).err with
  | some e =>
    rw [herr] at hscan
    simpa [herr] using hscan
  | none =>
    simp only [herr]
    split_ifs <;> simp

/-- After its last event a stream is read for ever with its ending. -/
theorem Reader.read_of_nil {r : Reader} (h : r.events = []) :
    r.read.1 = .error (ending r.keepsFailing) ∧ r.read.2.events = [] := by
  rw [Reader.read, h, nextLine_nil]
  cases r.keepsFailing with
  | false => exact ⟨rfl, rfl⟩
  | true =>
    rw [if_neg (by decide)]
    have hscan : parseField true [] (some .fault) [] [] = ⟨[[]], some .fault, []⟩ := by
      rw [parseField]
      rfl
    simp [hscan, ending]

/-- What the reader returns until the events are used up. -/
def Reader.outcomes (r : Reader) : List (Except Err (List Text)) :=
  if r.events = [] then [] else r.read.1 :: r.read.2.outcomes
termination_by r.events.length
decreasing_by exact Reader.read_events ‹_›

end Csv

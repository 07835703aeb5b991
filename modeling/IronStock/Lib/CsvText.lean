import IronStock.Lib.CsvReader

/-!
# Comma separated texts with correct quoting

A document is written line by line; a cell is plain or quoted, and a line of one
empty plain cell is blank. The reader returns the records of a document, one for
each line that is not blank, as long as they have as many fields as the first.
-/
namespace Csv

open Runes

/-! ## Line ends -/

/-- The text with `\n` for `\r\n`; with `final`, without a `\r` at the very end. -/
def unixLines (final : Bool) : Text → Text
  | [] => []
  | c :: text =>
    if c = cr ∧ (text.head? = some lf ∨ (final = true ∧ text = [])) then unixLines final text
    else c :: unixLines final text

attribute [local simp] unixLines

/-- The first line with its newline, and what follows it. -/
def firstLine : Text → Text
  | [] => []
  | c :: text => if c = lf then [lf] else c :: firstLine text

def afterLine : Text → Text
  | [] => []
  | c :: text => if c = lf then text else afterLine text

def dropCR (line : Text) : Text := if line.getLast? = some cr then line.dropLast else line

@[simp] theorem firstLine_lf (text : Text) : firstLine (lf :: text) = [lf] := rfl
@[simp] theorem afterLine_lf (text : Text) : afterLine (lf :: text) = text := rfl

theorem firstLine_cons {c : Rune} (h : c ≠ lf) (text : Text) :
    firstLine (c :: text) = c :: firstLine text := if_neg h

theorem afterLine_cons {c : Rune} (h : c ≠ lf) (text : Text) :
    afterLine (c :: text) = afterLine text := if_neg h

theorem firstLine_append {a : Text} (h : lf ∉ a) (text : Text) :
    firstLine (a ++ text) = a ++ firstLine text := by
  induction a with
  | nil => rfl
  | cons c a ih =>
    rw [List.mem_cons, not_or] at h
    rw [List.cons_append, firstLine_cons (Ne.symm h.1), ih h.2, List.cons_append]

theorem afterLine_append {a : Text} (h : lf ∉ a) (text : Text) :
    afterLine (a ++ text) = afterLine text := by
  induction a with
  | nil => rfl
  | cons c a ih =>
    rw [List.mem_cons, not_or] at h
    rw [List.cons_append, afterLine_cons (Ne.symm h.1), ih h.2]

theorem firstLine_of_not_mem {a : Text} (h : lf ∉ a) : firstLine a = a := by
  have := firstLine_append h []
  simpa [firstLine] using this

theorem afterLine_of_not_mem {a : Text} (h : lf ∉ a) : afterLine a = [] := by
  have := afterLine_append h []
  simpa [afterLine] using this

theorem firstLine_ne_nil {text : Text} (h : text ≠ []) : firstLine text ≠ [] := by
  cases text with
  | nil => contradiction
  | cons c text =>
    rw [firstLine]
    split <;> exact List.cons_ne_nil _ _

@[simp] theorem dropCR_nil : dropCR [] = [] := rfl

theorem dropCR_cons_cons (c d : Rune) (line : Text) :
    dropCR (c :: d :: line) = c :: dropCR (d :: line) := by
  simp only [dropCR, List.getLast?_cons_cons, List.dropLast_cons_cons]
  split <;> rfl

theorem not_mem_dropCR {c : Rune} {line : Text} (h : c ∉ line) : c ∉ dropCR line := by
  rw [dropCR]
  split
  · exact fun hmem => h ((List.dropLast_sublist line).subset hmem)
  · exact h

/-- The end of a line, or of the text, takes the `\r` in front of it away. -/
theorem unixLines_line (final : Bool) {a : Text} (h : lf ∉ a) (text : Text) :
    unixLines final (a ++ lf :: text) = dropCR a ++ lf :: unixLines final text := by
  induction a with
  | nil => simp [unixLines]
  | cons c a ih =>
    rw [List.mem_cons, not_or] at h
    cases a with
    | nil =>
      by_cases hc : c = cr
      · simp [unixLines, dropCR, hc]
      · simp [unixLines, dropCR, hc]
    | cons d a =>
      have hd : d ≠ lf := fun hd => h.2 (by rw [hd]; exact List.mem_cons_self ..)
      rw [List.cons_append, unixLines, if_neg (by simp [hd]), ih h.2, dropCR_cons_cons,
        List.cons_append]

theorem unixLines_of_not_mem {a : Text} (h : lf ∉ a) : unixLines true a = dropCR a := by
  induction a with
  | nil => rfl
  | cons c a ih =>
    rw [List.mem_cons, not_or] at h
    cases a with
    | nil =>
      by_cases hc : c = cr
      · simp [unixLines, dropCR, hc]
      · simp [unixLines, dropCR, hc]
    | cons d a =>
      have hd : d ≠ lf := fun hd => h.2 (by rw [hd]; exact List.mem_cons_self ..)
      rw [unixLines, if_neg (by simp [hd]), ih h.2, dropCR_cons_cons]

theorem unixLines_append (final : Bool) {a b : Text} (hb : b ≠ [])
    (h : a.getLast? ≠ some cr ∨ b.head? ≠ some lf) :
    unixLines final (a ++ b) = unixLines false a ++ unixLines final b := by
  induction a with
  | nil => rfl
  | cons c a ih =>
    rw [List.cons_append, unixLines, unixLines]
    cases a with
    | nil =>
      have hne : ¬ (c = cr ∧ (b.head? = some lf ∨ final = true ∧ b = [])) := by
        rintro ⟨rfl, hlf | ⟨-, hnil⟩⟩
        · rcases h with h | h
          · exact h rfl
          · exact h hlf
        · exact hb hnil
      simp [hne, unixLines]
    | cons d a =>
      have ih := ih (by rwa [List.getLast?_cons_cons] at h)
      rw [List.cons_append] at ih ⊢
      rw [ih]
      simp only [List.head?_cons, reduceCtorEq, and_false, or_false]
      split <;> rfl

theorem normalizeLine_lf (a : Text) : normalizeLine (a ++ [lf]) = dropCR a ++ [lf] := by
  rcases List.eq_nil_or_concat a with rfl | ⟨a, r, rfl⟩
  · rfl
  · by_cases hr : r = cr
    · simp [normalizeLine, dropCR, hr]
    · simp [normalizeLine, dropCR, hr]

theorem readSlice_line {a : Text} (h : lf ∉ a) (keepsFailing : Bool) (events : List Event) :
    readSlice keepsFailing (a.map .rune ++ .rune lf :: events) = ⟨a ++ [lf], none, events⟩ := by
  induction a with
  | nil => simp [readSlice]
  | cons c a ih =>
    rw [List.mem_cons, not_or] at h
    rw [List.map_cons, List.cons_append, readSlice, if_neg (Ne.symm h.1), ih h.2]
    rfl

theorem readSlice_of_not_mem {a : Text} (h : lf ∉ a) (keepsFailing : Bool) :
    readSlice keepsFailing (a.map .rune) = ⟨a, some (ending keepsFailing), []⟩ := by
  induction a with
  | nil => rfl
  | cons c a ih =>
    rw [List.mem_cons, not_or] at h
    rw [List.map_cons, readSlice, if_neg (Ne.symm h.1), ih h.2]

/-- What is left of the text, as the reader sees it: `events` are some text whose line ends
are read as those of `text`. -/
def Unread (text : Text) (events : List Event) : Prop :=
  ∃ raw : Text, events = raw.map .rune ∧ unixLines true raw = text

theorem readLine_unread {text : Text} {events : List Event} (h : Unread text events)
    (hne : text ≠ []) :
    ∃ rest, readLine false events = ⟨firstLine text, none, rest⟩ ∧ Unread (afterLine text) rest := by
  obtain ⟨raw, rfl, rfl⟩ := h
  by_cases hlf : lf ∈ raw
  · obtain ⟨a, raw, rfl, ha⟩ := List.eq_append_cons_of_mem hlf
    refine ⟨raw.map .rune, ?_, raw, rfl, ?_⟩
    · rw [readLine, List.map_append, List.map_cons, readSlice_line ha, if_neg (by simp),
        unixLines_line true ha, firstLine_append (not_mem_dropCR ha), firstLine_lf,
        normalizeLine_lf]
    · rw [unixLines_line true ha, afterLine_append (not_mem_dropCR ha), afterLine_lf]
  · have hraw : raw ≠ [] := by
      rintro rfl
      exact hne rfl
    refine ⟨[], ?_, [], rfl, ?_⟩
    · rw [readLine, readSlice_of_not_mem hlf, if_pos ⟨hraw, rfl⟩, unixLines_of_not_mem hlf,
        firstLine_of_not_mem (not_mem_dropCR hlf)]
      rfl
    · rw [unixLines_of_not_mem hlf, afterLine_of_not_mem (not_mem_dropCR hlf)]
      rfl

/-! ## Cells -/

/-- A cell as it is written. A quote opens a cell at its first character that is no space. -/
inductive Cell
  | plain (text : Text) (bare : ∀ c ∈ text, c ≠ quote ∧ c ≠ comma ∧ c ≠ lf)
  | quoted (space : Text) (blank : ∀ c ∈ space, c.isSpace = true ∧ c ≠ lf) (content : Text)

/-- The content of a quoted cell with its quotes doubled. -/
def escape (content : Text) : Text := content.flatMap fun c => if c = quote then [c, c] else [c]

def Cell.text : Cell → Text
  | .plain text _ => text
  | .quoted space _ content => space ++ quote :: (escape content ++ [quote])

/-- The field of a cell: leading space is not part of it, what stands between quotes is. -/
def Cell.value : Cell → Text
  | .plain text _ => text.dropWhile Rune.isSpace
  | .quoted _ _ content => unixLines false content

def rowText : List Cell → Text
  | [] => []
  | [cell] => cell.text
  | cell :: cells => cell.text ++ comma :: rowText cells

@[simp] theorem escape_nil : escape [] = [] := rfl

theorem escape_quote (content : Text) :
    escape (quote :: content) = quote :: quote :: escape content := rfl

theorem escape_cons {c : Rune} (h : c ≠ quote) (content : Text) :
    escape (c :: content) = c :: escape content := by
  rw [escape, List.flatMap_cons, if_neg h]
  rfl

/-- Doubling the quotes leaves the line ends alone. -/
theorem unixLines_escape (content : Text) :
    unixLines false (escape content) = escape (unixLines false content) := by
  induction content with
  | nil => rfl
  | cons c content ih =>
    by_cases hc : c = quote
    · subst hc
      have hstep : ∀ text, unixLines false (quote :: text) = quote :: unixLines false text :=
        fun text => if_neg (by simp)
      rw [escape_quote, hstep, hstep, hstep, ih, escape_quote]
    · rw [escape_cons hc, unixLines, unixLines, ih]
      have hhead : (escape content).head? = some lf ↔ content.head? = some lf := by
        cases content with
        | nil => rfl
        | cons d content =>
          by_cases hd : d = quote
          · subst hd
            simp [escape_quote]
          · rw [escape_cons hd]
            rfl
      simp only [hhead, Bool.false_eq_true, false_and, or_false]
      split
      · rfl
      · rw [escape_cons hc]

theorem unixLines_of_bare {text : Text} (h : lf ∉ text) : unixLines false text = text := by
  induction text with
  | nil => rfl
  | cons c text ih =>
    rw [List.mem_cons, not_or] at h
    have hhead : text.head? ≠ some lf := fun hh => h.2 (List.mem_of_head? hh)
    rw [unixLines, if_neg (by simp [hhead]), ih h.2]

theorem Cell.not_mem_space {space : Text} (h : ∀ c ∈ space, c.isSpace = true ∧ c ≠ lf) :
    lf ∉ space := fun hmem => (h lf hmem).2 rfl

theorem Cell.unix_quoted {space : Text} (h : ∀ c ∈ space, c.isSpace = true ∧ c ≠ lf)
    (content : Text) :
    unixLines false (Cell.quoted space h content).text =
      space ++ quote :: (escape (unixLines false content) ++ [quote]) := by
  have hquote : unixLines false (quote :: (escape content ++ [quote])) =
      quote :: unixLines false (escape content ++ [quote]) := if_neg (by simp)
  have htext := unixLines_append false (a := space) (b := quote :: (escape content ++ [quote]))
    (List.cons_ne_nil _ _) (.inr (by simp))
  have hlast := unixLines_append false (a := escape content) (b := [quote])
    (List.cons_ne_nil _ _) (.inr (by simp))
  rw [Cell.text, htext, hquote, hlast, unixLines_of_bare (Cell.not_mem_space h),
    unixLines_escape]
  rfl

/-! ## Reading a record -/

/-- The reader stands in a line: the rest of the line, and what is left after it. -/
def At (text line : Text) (events : List Event) : Prop :=
  line = firstLine text ∧ Unread (afterLine text) events

theorem At.cons {c : Rune} {text line : Text} {events : List Event}
    (h : At (c :: text) line events) (hc : c ≠ lf) :
    ∃ line', line = c :: line' ∧ At text line' events := by
  refine ⟨firstLine text, ?_, rfl, ?_⟩
  · rw [h.1, firstLine_cons hc]
  · rw [← afterLine_cons hc text]
    exact h.2

theorem At.append {a text line : Text} {events : List Event} (h : At (a ++ text) line events)
    (ha : lf ∉ a) : ∃ line', line = a ++ line' ∧ At text line' events := by
  refine ⟨firstLine text, ?_, rfl, ?_⟩
  · rw [h.1, firstLine_append ha]
  · rw [← afterLine_append ha text]
    exact h.2

theorem before_append {c : Rune} {a : Text} (h : c ∉ a) (line : Text) :
    before c (a ++ c :: line) = a := by
  have hall : ∀ x ∈ a, decide (x ≠ c) = true :=
    fun x hx => decide_eq_true fun hxc => h (hxc ▸ hx)
  rw [before, List.takeWhile_append_of_pos hall]
  simp

theorem behind_append {c : Rune} {a : Text} (h : c ∉ a) (line : Text) :
    behind c (a ++ c :: line) = line := by
  have hall : ∀ x ∈ a, decide (x ≠ c) = true :=
    fun x hx => decide_eq_true fun hxc => h (hxc ▸ hx)
  rw [behind, List.dropWhile_append_of_pos hall]
  simp

theorem trim_append {c : Rune} (hc : c.isSpace = false) (a line : Text) :
    (a ++ c :: line).dropWhile Rune.isSpace = a.dropWhile Rune.isSpace ++ c :: line := by
  induction a with
  | nil => simp [hc]
  | cons d a ih =>
    rw [List.cons_append, List.dropWhile_cons, List.dropWhile_cons, ih]
    split <;> rfl

theorem trim_space {space : Text} (h : ∀ c ∈ space, c.isSpace = true ∧ c ≠ lf) (line : Text) :
    (space ++ quote :: line).dropWhile Rune.isSpace = quote :: line := by
  rw [List.dropWhile_append_of_pos fun c hc => (h c hc).1, List.dropWhile_cons_of_neg]
  decide

/-- Inside quotes a character of the line is one of the field. -/
theorem quotedField_cons {c : Rune} (hc : c ≠ quote) {line : Text} (hline : line ≠ [])
    (fields : List Text) (field : Text) (events : List Event) :
    quotedField false fields none field (c :: line) events =
      quotedField false fields none (field ++ [c]) line events := by
  have hbefore : before quote (c :: line) = c :: before quote line := by simp [before, hc]
  have hbehind : behind quote (c :: line) = behind quote line := by simp [behind, hc]
  conv_lhs => rw [quotedField]
  conv_rhs => rw [quotedField]
  simp only [List.mem_cons, Ne.symm hc, false_or, hbefore, hbehind, hline, reduceCtorEq, if_false,
    List.append_assoc, List.singleton_append]

theorem quotedField_content (content : Text) {text line : Text} {events : List Event}
    (fields : List Text) (field : Text)
    (h : At (escape content ++ quote :: text) line events) :
    ∃ line' events', quotedField false fields none field line events =
        quotedField false fields none (field ++ content) line' events' ∧
      At (quote :: text) line' events' := by
  induction content generalizing field line events with
  | nil => exact ⟨line, events, by rw [List.append_nil], h⟩
  | cons c content ih =>
    by_cases hq : c = quote
    · -- a doubled quote
      subst hq
      obtain ⟨line₁, rfl, h₁⟩ := At.cons h (by decide)
      obtain ⟨line₂, rfl, h₂⟩ := At.cons h₁ (by decide)
      obtain ⟨line', events', heq, hat⟩ := ih (field ++ [quote]) h₂
      refine ⟨line', events', ?_, hat⟩
      rw [quotedField, if_pos (List.mem_cons_self ..)]
      simp only [before, behind, List.takeWhile_cons, List.dropWhile_cons, ne_eq,
        not_true_eq_false, decide_false, Bool.false_eq_true, if_false, List.append_nil,
        List.tail_cons, List.head?_cons, if_true]
      rw [heq, List.append_assoc]
      rfl
    · rw [escape_cons hq, List.cons_append] at h
      by_cases hl : c = lf
      · -- the field goes on in the next line
        subst hl
        have hne : escape content ++ quote :: text ≠ [] := by simp
        obtain ⟨rest, hread, hunread⟩ := readLine_unread h.2 hne
        obtain ⟨line', events', heq, hat⟩ := ih (field ++ [lf]) ⟨rfl, hunread⟩
        refine ⟨line', events', ?_, hat⟩
        rw [h.1, firstLine_lf, quotedField, if_neg (by simp), if_neg (by simp),
          if_neg (by simp), hread]
        simp only [reduceCtorEq, if_false, afterLine_lf]
        rw [heq, List.append_assoc]
        rfl
      · obtain ⟨line₁, rfl, h₁⟩ := At.cons h hl
        have hne : line₁ ≠ [] := by
          rw [h₁.1]
          exact firstLine_ne_nil (by simp)
        obtain ⟨line', events', heq, hat⟩ := ih (field ++ [c]) h₁
        refine ⟨line', events', ?_, hat⟩
        rw [quotedField_cons hq hne, heq, List.append_assoc]
        rfl

/-- What may stand behind the last cell of a line. -/
def RecordEnd (tail : Text) : Prop := tail = [] ∨ ∃ text, tail = lf :: text

theorem RecordEnd.afterLine {tail : Text} (h : RecordEnd tail) : afterLine tail = tail.tail := by
  rcases h with rfl | ⟨text, rfl⟩ <;> rfl

theorem RecordEnd.firstLine {tail : Text} (h : RecordEnd tail) :
    firstLine tail = [] ∨ firstLine tail = [lf] := by
  rcases h with rfl | ⟨text, rfl⟩
  · exact .inl rfl
  · exact .inr rfl

theorem quotedField_comma {text line : Text} {events : List Event} (fields : List Text)
    (field : Text) (h : At (quote :: comma :: text) line events) :
    ∃ line', quotedField false fields none field line events =
        parseField false (fields ++ [field]) none line' events ∧ At text line' events := by
  obtain ⟨line₁, rfl, h₁⟩ := At.cons h (by decide)
  obtain ⟨line', rfl, hat⟩ := At.cons h₁ (by decide)
  refine ⟨line', ?_, hat⟩
  rw [quotedField, if_pos (List.mem_cons_self ..)]
  simp [before, behind]

theorem quotedField_last {tail line : Text} {events : List Event} (fields : List Text)
    (field : Text) (htail : RecordEnd tail) (h : At (quote :: tail) line events) :
    quotedField false fields none field line events = ⟨fields ++ [field], none, events⟩ ∧
      Unread tail.tail events := by
  obtain ⟨line', rfl, hline, hunread⟩ := At.cons h (by decide)
  rw [htail.afterLine] at hunread
  refine ⟨?_, hunread⟩
  have hend : line' = [] ∨ line' = [lf] := hline ▸ htail.firstLine
  rw [quotedField, if_pos (List.mem_cons_self ..)]
  rcases hend with rfl | rfl
  · simp [before, behind]
  · simp [before, behind]

theorem not_mem_trim {c : Rune} {text : Text} (h : c ∉ text) :
    c ∉ text.dropWhile Rune.isSpace :=
  fun hmem => h ((List.dropWhile_sublist _).subset hmem)

theorem head_ne_of_not_mem {c : Rune} {text : Text} (h : c ∉ text) : text.head? ≠ some c :=
  fun hhead => h (List.mem_of_head? hhead)

theorem chomp_of_not_mem {line : Text} (h : lf ∉ line) : chomp line = line :=
  if_neg fun hlast => h (List.mem_of_getLast? hlast)

theorem chomp_lf (line : Text) : chomp (line ++ [lf]) = line := by simp [chomp]

/-- A line of nothing but space loses its newline with it. -/
theorem trim_recordEnd {t line : Text} (h : line = [] ∨ line = [lf]) :
    (t ++ line).dropWhile Rune.isSpace = t.dropWhile Rune.isSpace ∨
      (t ++ line).dropWhile Rune.isSpace = t.dropWhile Rune.isSpace ++ [lf] := by
  rcases h with rfl | rfl
  · exact .inl (by rw [List.append_nil])
  · rw [List.dropWhile_append]
    cases htrim : t.dropWhile Rune.isSpace with
    | nil => exact .inl (by decide)
    | cons c rest => exact .inr rfl

section Plain

variable {t : Text} (bare : ∀ c ∈ t, c ≠ quote ∧ c ≠ comma ∧ c ≠ lf)

include bare

theorem bare_quote : quote ∉ t := fun h => (bare _ h).1 rfl

theorem bare_comma : comma ∉ t := fun h => (bare _ h).2.1 rfl

theorem bare_lf : lf ∉ t := fun h => (bare _ h).2.2 rfl

theorem parseField_plain_comma {text line : Text} {events : List Event} (fields : List Text)
    (h : At (t ++ comma :: text) line events) :
    ∃ line', parseField false fields none line events =
        parseField false (fields ++ [t.dropWhile Rune.isSpace]) none line' events ∧
      At text line' events := by
  obtain ⟨line₁, rfl, h₁⟩ := At.append h (bare_lf bare)
  obtain ⟨line', rfl, hat⟩ := At.cons h₁ (by decide)
  refine ⟨line', ?_, hat⟩
  have hcomma := not_mem_trim (bare_comma bare)
  have hhead : (t.dropWhile Rune.isSpace ++ comma :: line').head? ≠ some quote := by
    have hquote := head_ne_of_not_mem (not_mem_trim (bare_quote bare))
    cases htrim : t.dropWhile Rune.isSpace with
    | nil => simp
    | cons d rest =>
      rw [htrim] at hquote
      exact hquote
  conv_lhs => rw [parseField, trim_append (by decide)]
  simp only [hhead, if_false, List.mem_append, List.mem_cons, true_or, or_true, if_true,
    before_append hcomma, behind_append hcomma]

theorem parseField_plain_last {tail line : Text} {events : List Event} (fields : List Text)
    (htail : RecordEnd tail) (h : At (t ++ tail) line events) :
    parseField false fields none line events =
        ⟨fields ++ [t.dropWhile Rune.isSpace], none, events⟩ ∧
      Unread tail.tail events := by
  obtain ⟨line', rfl, hline, hunread⟩ := At.append h (bare_lf bare)
  rw [htail.afterLine] at hunread
  refine ⟨?_, hunread⟩
  have hend : line' = [] ∨ line' = [lf] := hline ▸ htail.firstLine
  have hquote := not_mem_trim (bare_quote bare)
  have hcomma := not_mem_trim (bare_comma bare)
  have hlf := not_mem_trim (bare_lf bare)
  rw [parseField]
  rcases trim_recordEnd (t := t) hend with htrim | htrim
  · simp only [htrim, head_ne_of_not_mem hquote, hcomma, if_false, chomp_of_not_mem hlf]
  · have hhead : (t.dropWhile Rune.isSpace ++ [lf]).head? ≠ some quote :=
      head_ne_of_not_mem fun hmem =>
        (List.mem_append.mp hmem).elim hquote (by simp)
    have hmem : comma ∉ t.dropWhile Rune.isSpace ++ [lf] := fun hmem =>
      (List.mem_append.mp hmem).elim hcomma (by simp)
    simp only [htrim, hhead, hmem, if_false, chomp_lf]

end Plain

theorem parseField_comma (cell : Cell) {text line : Text} {events : List Event}
    (fields : List Text) (h : At (unixLines false cell.text ++ comma :: text) line events) :
    ∃ line' events', parseField false fields none line events =
        parseField false (fields ++ [cell.value]) none line' events' ∧
      At text line' events' := by
  cases cell with
  | plain t bare =>
    rw [Cell.text, unixLines_of_bare (bare_lf bare)] at h
    obtain ⟨line', heq, hat⟩ := parseField_plain_comma bare fields h
    exact ⟨line', events, heq, hat⟩
  | quoted space blank content =>
    rw [Cell.unix_quoted, List.append_assoc, List.cons_append, List.append_assoc,
      List.singleton_append] at h
    obtain ⟨line₁, rfl, h₁⟩ := At.append h (Cell.not_mem_space blank)
    obtain ⟨line₂, rfl, h₂⟩ := At.cons h₁ (by decide)
    obtain ⟨line₃, events', heq, h₃⟩ := quotedField_content _ fields [] h₂
    obtain ⟨line', hclose, hat⟩ := quotedField_comma fields _ h₃
    refine ⟨line', events', ?_, hat⟩
    conv_lhs => rw [parseField, trim_space blank]
    simp only [List.head?_cons, List.tail_cons, if_true]
    rw [heq, hclose]
    rfl

theorem parseField_last (cell : Cell) {tail line : Text} {events : List Event}
    (fields : List Text) (htail : RecordEnd tail)
    (h : At (unixLines false cell.text ++ tail) line events) :
    ∃ rest, parseField false fields none line events = ⟨fields ++ [cell.value], none, rest⟩ ∧
      Unread tail.tail rest := by
  cases cell with
  | plain t bare =>
    rw [Cell.text, unixLines_of_bare (bare_lf bare)] at h
    exact ⟨events, parseField_plain_last bare fields htail h⟩
  | quoted space blank content =>
    rw [Cell.unix_quoted, List.append_assoc, List.cons_append, List.append_assoc,
      List.singleton_append] at h
    obtain ⟨line₁, rfl, h₁⟩ := At.append h (Cell.not_mem_space blank)
    obtain ⟨line₂, rfl, h₂⟩ := At.cons h₁ (by decide)
    obtain ⟨line₃, rest, heq, h₃⟩ := quotedField_content _ fields [] h₂
    obtain ⟨hclose, hunread⟩ := quotedField_last fields _ htail h₃
    refine ⟨rest, ?_, hunread⟩
    conv_lhs => rw [parseField, trim_space blank]
    simp only [List.head?_cons, List.tail_cons, if_true]
    rw [heq, hclose]
    rfl

theorem unixLines_rowText (cell : Cell) {cells : List Cell} (h : cells ≠ []) :
    unixLines false (rowText (cell :: cells)) =
      unixLines false cell.text ++ comma :: unixLines false (rowText cells) := by
  cases cells with
  | nil => contradiction
  | cons next cells =>
    have hcomma : unixLines false (comma :: rowText (next :: cells)) =
        comma :: unixLines false (rowText (next :: cells)) := if_neg (by simp)
    change unixLines false (cell.text ++ comma :: rowText (next :: cells)) = _
    rw [unixLines_append false (List.cons_ne_nil _ _) (.inr (by simp)), hcomma]

theorem parseField_row {cells : List Cell} (hcells : cells ≠ []) {tail line : Text}
    {events : List Event} (fields : List Text) (htail : RecordEnd tail)
    (h : At (unixLines false (rowText cells) ++ tail) line events) :
    ∃ rest, parseField false fields none line events =
        ⟨fields ++ cells.map Cell.value, none, rest⟩ ∧ Unread tail.tail rest := by
  induction cells generalizing fields line events with
  | nil => contradiction
  | cons cell cells ih =>
    by_cases hnil : cells = []
    · subst hnil
      exact parseField_last cell fields htail h
    · rw [unixLines_rowText cell hnil, List.append_assoc, List.cons_append] at h
      obtain ⟨line', events', hcell, hat⟩ := parseField_comma cell fields h
      obtain ⟨rest, hrow, hunread⟩ := ih hnil (fields ++ [cell.value]) hat
      refine ⟨rest, ?_, hunread⟩
      rw [hcell, hrow, List.append_assoc]
      rfl

/-! ## Documents -/

/-- A line of a document: its cells, and whether a `\r` stands before its end. -/
structure Row where
  cells : List Cell
  crlf : Bool
  /-- a `\r` at the end of the last cell would be one of the line end -/
  ends : crlf = false → (rowText cells).getLast? ≠ some cr

def Row.text (row : Row) : Text := rowText row.cells ++ if row.crlf then [cr] else []

/-- Lines that end with a newline, and what is written after the last newline. -/
structure Document where
  rows : List Row
  last : Row

def Document.text (d : Document) : Text :=
  (d.rows.flatMap fun row => row.text ++ [lf]) ++ d.last.text

/-- The fields of the lines that are not blank. -/
def records (lines : List (List Cell)) : List (List Text) :=
  (lines.filter fun cells => rowText cells ≠ []).map fun cells => cells.map Cell.value

def Document.lines (d : Document) : List (List Cell) :=
  (d.rows ++ [d.last]).map Row.cells

def Document.records (d : Document) : List (List Text) := Csv.records d.lines

/-- The text of lines whose line ends are newlines; the last line has none. -/
def layout : List (List Cell) → Text
  | [] => []
  | [cells] => unixLines false (rowText cells)
  | cells :: lines => unixLines false (rowText cells) ++ lf :: layout lines

theorem layout_cons (cells : List Cell) {lines : List (List Cell)} (h : lines ≠ []) :
    layout (cells :: lines) = unixLines false (rowText cells) ++ lf :: layout lines := by
  cases lines with
  | nil => contradiction
  | cons next lines => rfl

theorem unixLines_final {text : Text} (h : text.getLast? ≠ some cr) :
    unixLines true text = unixLines false text := by
  induction text with
  | nil => rfl
  | cons c text ih =>
    rw [unixLines, unixLines]
    cases text with
    | nil =>
      have hc : c ≠ cr := fun hc => h (by rw [hc]; rfl)
      simp [hc, unixLines]
    | cons d text =>
      rw [ih (by rwa [List.getLast?_cons_cons] at h)]
      simp

theorem Row.unix_last (row : Row) :
    unixLines true row.text = unixLines false (rowText row.cells) := by
  rw [Row.text]
  cases hcr : row.crlf with
  | true =>
    rw [if_pos rfl, unixLines_append true (List.cons_ne_nil _ _) (.inr (by simp))]
    exact List.append_nil _
  | false => rw [if_neg Bool.false_ne_true, List.append_nil, unixLines_final (row.ends hcr)]

theorem Row.unix_line (row : Row) (text : Text) :
    unixLines true (row.text ++ lf :: text) =
      unixLines false (rowText row.cells) ++ lf :: unixLines true text := by
  rw [Row.text]
  cases hcr : row.crlf with
  | true =>
    rw [if_pos rfl, List.append_assoc, List.singleton_append,
      unixLines_append true (List.cons_ne_nil _ _) (.inr (by simp))]
    rfl
  | false =>
    rw [if_neg Bool.false_ne_true, List.append_nil,
      unixLines_append true (List.cons_ne_nil _ _) (.inl (row.ends hcr))]
    rfl

theorem Document.unix (d : Document) : unixLines true d.text = layout d.lines := by
  obtain ⟨rows, last⟩ := d
  simp only [Document.text, Document.lines]
  induction rows with
  | nil => exact last.unix_last
  | cons row rows ih =>
    rw [List.flatMap_cons, List.append_assoc, List.append_assoc, List.singleton_append,
      row.unix_line, ih, List.cons_append, List.map_cons, layout_cons]
    simp

/-! ## Reading a document -/

theorem unixLines_eq_nil {text : Text} (h : unixLines false text = []) : text = [] := by
  cases text with
  | nil => rfl
  | cons c text =>
    rw [unixLines] at h
    split at h
    · next hcr =>
      cases text with
      | nil => simp at hcr
      | cons d text =>
        have hd : d = lf := by simpa using hcr.2
        subst hd
        cases h
    · cases h

theorem unixLines_head (cells : List Cell) :
    (unixLines false (rowText cells)).head? ≠ some lf := by
  have hcell : ∀ (cell : Cell) (tail : Text), tail.head? ≠ some lf →
      (unixLines false cell.text ++ tail).head? ≠ some lf := by
    intro cell tail htail
    cases cell with
    | plain t bare =>
      rw [Cell.text, unixLines_of_bare (bare_lf bare)]
      cases t with
      | nil => exact htail
      | cons c t => simpa using (bare c (List.mem_cons_self ..)).2.2
    | quoted space blank content =>
      rw [Cell.unix_quoted]
      cases space with
      | nil => simp
      | cons c space => simpa using (blank c (List.mem_cons_self ..)).2
  cases cells with
  | nil => simp [rowText, unixLines]
  | cons cell cells =>
    by_cases hnil : cells = []
    · subst hnil
      have := hcell cell [] (by simp)
      rwa [List.append_nil] at this
    · rw [unixLines_rowText cell hnil]
      exact hcell cell _ (by simp)

/-- What stands behind the first line. -/
def tailOf (lines : List (List Cell)) : Text := if lines = [] then [] else lf :: layout lines

theorem recordEnd_tailOf (lines : List (List Cell)) : RecordEnd (tailOf lines) := by
  rw [tailOf]
  split
  · exact .inl rfl
  · exact .inr ⟨_, rfl⟩

theorem tailOf_tail (lines : List (List Cell)) : (tailOf lines).tail = layout lines := by
  rw [tailOf]
  split
  · next hnil =>
    rw [hnil]
    rfl
  · rfl

theorem layout_tailOf (cells : List Cell) (lines : List (List Cell)) :
    layout (cells :: lines) = unixLines false (rowText cells) ++ tailOf lines := by
  by_cases h : lines = []
  · subst h
    exact (List.append_nil _).symm
  · rw [layout_cons cells h, tailOf, if_neg h]

theorem nextLine_eof {events : List Event} (h : Unread [] events) :
    nextLine false events = ⟨[], some .eof, []⟩ := by
  obtain ⟨raw, rfl, hraw⟩ := h
  have hnil : nextLine false [] = ⟨[], some .eof, []⟩ := by
    rw [nextLine, readLine_nil]
    rfl
  cases raw with
  | nil => exact hnil
  | cons c raw =>
    -- a lone `\r`
    rw [unixLines] at hraw
    split at hraw
    · next hcr =>
      cases raw with
      | nil =>
        rw [hcr.1, nextLine, if_pos ⟨rfl, .inl rfl⟩]
        exact hnil
      | cons d raw =>
        have hd : d = lf := by simpa using hcr.2
        subst hd
        cases hraw
    · cases hraw

theorem nextLine_blank {lines : List (List Cell)} (hlines : lines ≠ []) {cells : List Cell}
    (hblank : rowText cells = []) {events : List Event}
    (h : Unread (layout (cells :: lines)) events) :
    ∃ rest, nextLine false events = nextLine false rest ∧ Unread (layout lines) rest := by
  rw [layout_cons cells hlines, hblank] at h
  obtain ⟨rest, hread, hunread⟩ := readLine_unread h (List.cons_ne_nil _ _)
  refine ⟨rest, ?_, hunread⟩
  conv_lhs => rw [nextLine, hread]
  exact if_pos ⟨rfl, .inr rfl⟩

theorem nextLine_row {cells : List Cell} (hcells : rowText cells ≠ []) {tail : Text}
    {events : List Event} (h : Unread (unixLines false (rowText cells) ++ tail) events) :
    ∃ line rest, nextLine false events = ⟨line, none, rest⟩ ∧
      At (unixLines false (rowText cells) ++ tail) line rest := by
  have hne : unixLines false (rowText cells) ≠ [] := fun hnil => hcells (unixLines_eq_nil hnil)
  have htext : unixLines false (rowText cells) ++ tail ≠ [] := by simp [hne]
  obtain ⟨rest, hread, hunread⟩ := readLine_unread h htext
  refine ⟨_, rest, ?_, rfl, hunread⟩
  have hhead := unixLines_head cells
  have hline : firstLine (unixLines false (rowText cells) ++ tail) ≠ [lf] := by
    cases hx : unixLines false (rowText cells) with
    | nil => exact absurd hx hne
    | cons c x =>
      rw [hx] at hhead
      rw [List.cons_append, firstLine_cons (by simpa using hhead)]
      intro heq
      exact hhead (congrArg List.head? heq)
  rw [nextLine, hread]
  exact if_neg fun hskip => hskip.2.elim (firstLine_ne_nil htext) hline

theorem records_cons_blank {cells : List Cell} (h : rowText cells = [])
    (lines : List (List Cell)) : records (cells :: lines) = records lines := by
  simp [records, h]

theorem records_cons_row {cells : List Cell} (h : rowText cells ≠ [])
    (lines : List (List Cell)) :
    records (cells :: lines) = cells.map Cell.value :: records lines := by
  simp [records, h]

/-- At the end of the records the reader reports the end of the file. -/
theorem read_eof {lines : List (List Cell)} (hrecords : records lines = []) {r : Reader}
    (hfailing : r.keepsFailing = false) (h : Unread (layout lines) r.events) :
    r.read.1 = .error .eof := by
  have hnext : (nextLine r.keepsFailing r.events).err = some .eof := by
    rw [hfailing]
    generalize r.events = events at h
    induction lines generalizing events with
    | nil => rw [nextLine_eof h]
    | cons cells lines ih =>
      have hblank : rowText cells = [] := by
        by_contra hrow
        rw [records_cons_row hrow] at hrecords
        cases hrecords
      rw [records_cons_blank hblank] at hrecords
      by_cases hlines : lines = []
      · subst hlines
        rw [layout, hblank] at h
        rw [nextLine_eof h]
      · obtain ⟨rest, hskip, hrest⟩ := nextLine_blank hlines hblank h
        rw [hskip]
        exact ih hrecords rest hrest
  rw [Reader.read, if_pos hnext]

theorem nextLine_record {lines : List (List Cell)} {record : List Text}
    {more : List (List Text)} (hrecords : records lines = record :: more) {events : List Event}
    (h : Unread (layout lines) events) :
    ∃ line rest cells lines', nextLine false events = ⟨line, none, rest⟩ ∧
      At (unixLines false (rowText cells) ++ tailOf lines') line rest ∧ cells ≠ [] ∧
      cells.map Cell.value = record ∧ records lines' = more := by
  induction lines generalizing events with
  | nil => cases hrecords
  | cons cells lines ih =>
    by_cases hblank : rowText cells = []
    · rw [records_cons_blank hblank] at hrecords
      have hlines : lines ≠ [] := by
        rintro rfl
        cases hrecords
      obtain ⟨rest, hskip, hrest⟩ := nextLine_blank hlines hblank h
      rw [hskip]
      exact ih hrecords hrest
    · rw [records_cons_row hblank] at hrecords
      rw [layout_tailOf] at h
      obtain ⟨line, rest, hnext, hat⟩ := nextLine_row hblank h
      have hcells : cells ≠ [] := by
        rintro rfl
        exact hblank rfl
      exact ⟨line, rest, cells, lines, hnext, hat, hcells, (List.cons.inj hrecords).1,
        (List.cons.inj hrecords).2⟩

/-- A record that is read as the first, or with as many fields as the first, is
returned; another one is an error, after which the reader goes on with the next. -/
theorem read_record {lines : List (List Cell)} {record : List Text} {more : List (List Text)}
    (hrecords : records lines = record :: more) {r : Reader} (hfailing : r.keepsFailing = false)
    (h : Unread (layout lines) r.events) :
    ∃ rest lines', r.read =
        (if r.fieldsPerRecord = 0 ∨ record.length = r.fieldsPerRecord then .ok record
          else .error .fieldCount,
          ⟨rest, false, if r.fieldsPerRecord = 0 then record.length else r.fieldsPerRecord⟩) ∧
      Unread (layout lines') rest ∧ records lines' = more ∧ record ≠ [] := by
  obtain ⟨line, events, cells, lines', hnext, hat, hcells, rfl, hmore⟩ :=
    nextLine_record hrecords h
  obtain ⟨rest, hrow, hunread⟩ := parseField_row hcells [] (recordEnd_tailOf lines') hat
  rw [tailOf_tail] at hunread
  refine ⟨rest, lines', ?_, hunread, hmore, by simpa using hcells⟩
  rw [Reader.read, hfailing, hnext]
  simp only [reduceCtorEq, if_false, hrow, List.nil_append]
  by_cases hfirst : r.fieldsPerRecord = 0
  · simp [hfirst]
  · simp [hfirst]

end Csv

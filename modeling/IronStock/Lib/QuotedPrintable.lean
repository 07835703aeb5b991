import IronStock.Lib.PartialFold
import Mathlib.Data.List.DropRight

/-!
# Quoted-printable

A reader of quoted-printable text, and the texts it gives back as they are. The reader
takes the lines one by one, drops the blanks at the end of each, joins a line that ends in
`=` to the next one and reads `=` with two hexadecimal digits as an octet. It is lenient:
`=` before another character and octets from 128 on stand for themselves, and a line may end
in LF alone.
-/
namespace QuotedPrintable

abbrev Octets := List UInt8

def hexValue (b : UInt8) : Option UInt8 :=
  if 48 ≤ b ∧ b ≤ 57 then some (b - 48)
  else if 65 ≤ b ∧ b ≤ 70 then some (b - 55)
  else if 97 ≤ b ∧ b ≤ 102 then some (b - 87)
  else none

/-- The octet that two hexadecimal digits spell after a `=`, and what follows them. -/
def escaped : Octets → Option (UInt8 × Octets)
  | c :: d :: rest =>
    match hexValue c, hexValue d with
    | some x, some y => some (x * 16 + y, rest)
    | _, _ => none
  | _ => none

theorem escaped_length {text rest : Octets} {b : UInt8} (h : escaped text = some (b, rest)) :
    rest.length + 2 = text.length := by
  unfold escaped at h
  split at h
  · split at h
    · cases h
      rfl
    · cases h
  · cases h

/-- The octets that may stand for themselves: a tab, those of a line end, and what is no
control character. -/
def isPlain (b : UInt8) : Bool := b = 9 || b = 10 || b = 13 || (32 ≤ b && b ≠ 127)

/-- What may follow a `=` that is no escape. -/
def goesOn : Octets → Bool
  | [] => false
  | b :: _ => b ≠ 13 && b ≠ 10

/-- The octets of a line that has no soft break. -/
def readOctets : Octets → Option Octets
  | [] => some []
  | b :: rest =>
    if b = 61 then
      match h : escaped rest with
      | some (x, tail) =>
        have := escaped_length h
        (readOctets tail).map (x :: ·)
      | none => if goesOn rest then (readOctets rest).map (b :: ·) else none
    else if isPlain b then (readOctets rest).map (b :: ·)
    else none
termination_by text => text.length
decreasing_by all_goals simp_all <;> omega

/-! ## Lines -/

def isBlank (b : UInt8) : Bool := b = 32 || b = 9 || b = 13 || b = 10

/-- The lines of a text, each with the LF at its end. -/
def lines : Octets → List Octets
  | [] => []
  | b :: rest =>
    if b = 10 then [b] :: lines rest
    else
      match lines rest with
      | [] => [[b]]
      | line :: more => (b :: line) :: more

/-- CRLF or LF at the end of a line. -/
def lineEnd (line : Octets) : Octets :=
  if [13, 10].isSuffixOf line then [13, 10] else if [10].isSuffixOf line then [10] else []

def readLine (line : Octets) : Option Octets :=
  let text := line.rdropWhile isBlank
  let rest := line.drop text.length
  if text.getLast? = some 61 then
    if [10].isPrefixOf rest ∨ [13, 10].isPrefixOf rest ∨ (rest = [] ∧ text.dropLast ≠ []) then
      readOctets text.dropLast
    else none
  else readOctets (text ++ lineEnd line)

/-- The octets a text stands for, if it is quoted-printable. -/
def decode (text : Octets) : Option Octets := ((lines text).mapM readLine).map List.flatten

/-! ## Runs that stand for themselves -/

/-- No octet needs an escape, and no `=` begins one or ends the line. -/
structure Unescaped (text : Octets) : Prop where
  plain : ∀ b ∈ text, isPlain b = true
  bare : ∀ pre post, text = pre ++ 61 :: post → escaped post = none ∧ goesOn post = true

theorem unescaped_nil : Unescaped [] where
  plain _ hb := absurd hb List.not_mem_nil
  bare pre post h :=
    absurd h.symm (List.append_ne_nil_of_right_ne_nil pre (List.cons_ne_nil 61 post))

theorem unescaped_cons {b : UInt8} {text : Octets} :
    Unescaped (b :: text) ↔
      isPlain b = true ∧ (b = 61 → escaped text = none ∧ goesOn text = true) ∧
        Unescaped text := by
  constructor
  · intro h
    refine ⟨h.plain b List.mem_cons_self, ?_, ?_, ?_⟩
    · rintro rfl
      exact h.bare [] text rfl
    · exact fun c hc => h.plain c (List.mem_cons_of_mem b hc)
    · intro pre post htext
      exact h.bare (b :: pre) post (congrArg (b :: ·) htext)
  · rintro ⟨hplain, hbare, h⟩
    constructor
    · intro c hc
      rcases List.mem_cons.mp hc with rfl | hc
      · exact hplain
      · exact h.plain c hc
    · intro pre post htext
      cases pre with
      | nil =>
        obtain ⟨rfl, rfl⟩ := List.cons.inj htext
        exact hbare rfl
      | cons c pre => exact h.bare pre post (List.cons.inj htext).2

/-- An octet is read from one octet or from three. -/
theorem readOctets_length_le {text out : Octets} (h : readOctets text = some out) :
    out.length ≤ text.length := by
  fun_induction readOctets text generalizing out with
  | case1 =>
    obtain rfl := Option.some.inj h
    exact Nat.le_refl 0
  | case2 rest x tail hesc hlen ih =>
    obtain ⟨u, hu, rfl⟩ := Option.map_eq_some_iff.mp h
    have := ih hu
    simp only [List.length_cons]
    omega
  | case3 rest hesc hgo ih =>
    obtain ⟨u, hu, rfl⟩ := Option.map_eq_some_iff.mp h
    exact Nat.succ_le_succ (ih hu)
  | case4 rest hesc hgo => cases h
  | case5 b rest hb hplain ih =>
    obtain ⟨u, hu, rfl⟩ := Option.map_eq_some_iff.mp h
    exact Nat.succ_le_succ (ih hu)
  | case6 b rest hb hplain => cases h

theorem map_cons_eq_some {b : UInt8} {o : Option Octets} {text : Octets} :
    o.map (b :: ·) = some (b :: text) ↔ o = some text := by
  cases o with
  | none => simp
  | some u => simp

/-- A run is read as itself exactly if it is unescaped. -/
theorem readOctets_eq_self_iff (text : Octets) : readOctets text = some text ↔ Unescaped text := by
  fun_induction readOctets text with
  | case1 => exact iff_of_true rfl unescaped_nil
  | case2 rest x tail hesc hlen ih =>
    constructor
    · intro h
      obtain ⟨u, hu, hcons⟩ := Option.map_eq_some_iff.mp h
      have hle := readOctets_length_le hu
      have htail := congrArg List.length hcons
      simp only [List.length_cons] at htail
      omega
    · intro h
      have hnone := ((unescaped_cons.mp h).2.1 rfl).1
      rw [hesc] at hnone
      cases hnone
  | case3 rest hesc hgo ih =>
    rw [map_cons_eq_some, ih, unescaped_cons]
    exact ⟨fun h => ⟨rfl, fun _ => ⟨hesc, hgo⟩, h⟩, fun h => h.2.2⟩
  | case4 rest hesc hgo =>
    constructor
    · intro h
      cases h
    · intro h
      exact absurd ((unescaped_cons.mp h).2.1 rfl).2 hgo
  | case5 b rest hb hplain ih =>
    rw [map_cons_eq_some, ih, unescaped_cons]
    exact ⟨fun h => ⟨hplain, fun he => absurd he hb, h⟩, fun h => h.2.2⟩
  | case6 b rest hb hplain =>
    constructor
    · intro h
      cases h
    · intro h
      exact absurd (unescaped_cons.mp h).1 hplain

/-! ## Lines that stand for themselves -/

/-- The line without its end. -/
def content (line : Octets) : Octets := line.take (line.length - (lineEnd line).length)

theorem content_append_lineEnd (line : Octets) : content line ++ lineEnd line = line := by
  have hsuffix : lineEnd line <:+ line := by
    unfold lineEnd
    split
    · next h => exact List.isSuffixOf_iff_suffix.mp h
    · split
      · next h => exact List.isSuffixOf_iff_suffix.mp h
      · exact List.nil_suffix
  obtain ⟨front, hfront⟩ := hsuffix
  have hlen := congrArg List.length hfront
  rw [List.length_append] at hlen
  have hcontent : content line = front := by
    have hkeep : line.length - (lineEnd line).length = front.length := by omega
    rw [content, hkeep]
    conv_lhs => rw [← hfront]
    exact List.take_left
  rw [hcontent, hfront]

theorem lineEnd_cases (line : Octets) :
    lineEnd line = [13, 10] ∨ lineEnd line = [10] ∨ lineEnd line = [] := by
  unfold lineEnd
  split
  · exact Or.inl rfl
  · split
    · exact Or.inr (Or.inl rfl)
    · exact Or.inr (Or.inr rfl)

/-- The blanks a line is cut by reach over its end. -/
theorem rdropWhile_line (line : Octets) :
    line.rdropWhile isBlank = (content line).rdropWhile isBlank := by
  conv_lhs => rw [← content_append_lineEnd line]
  rcases lineEnd_cases line with h | h | h
  · rw [h, ← List.singleton_append, ← List.append_assoc,
      List.rdropWhile_concat_pos _ _ _ (by decide), List.rdropWhile_concat_pos _ _ _ (by decide)]
  · rw [h, List.rdropWhile_concat_pos _ _ _ (by decide)]
  · rw [h, List.append_nil]

/-- The line has no blank before its end, and all of it is unescaped. -/
structure Literal (line : Octets) : Prop where
  unescaped : Unescaped line
  trimmed : ∀ b, (content line).getLast? = some b → isBlank b = false

theorem trimmed_iff (text : Octets) :
    text.rdropWhile isBlank = text ↔ ∀ b, text.getLast? = some b → isBlank b = false := by
  rw [List.rdropWhile_eq_self_iff]
  constructor
  · intro h b hb
    obtain ⟨hne, hlast⟩ := List.mem_getLast?_eq_getLast hb
    rw [hlast]
    exact Bool.eq_false_iff.mpr (h hne)
  · intro h hne
    exact Bool.eq_false_iff.mp (h _ (List.getLast?_eq_some_getLast hne))

theorem readLine_cases {line out : Octets} (h : readLine line = some out) :
    out.length < line.length ∨
      readOctets (line.rdropWhile isBlank ++ lineEnd line) = some out := by
  have hle := (List.rdropWhile_prefix isBlank (l := line)).length_le
  simp only [readLine] at h
  split at h
  · next hsoft =>
    left
    split at h
    · have hout := readOctets_length_le h
      have hne : line.rdropWhile isBlank ≠ [] := by
        intro hnil
        rw [hnil] at hsoft
        cases hsoft
      have hpos := List.length_pos_of_ne_nil hne
      rw [List.length_dropLast] at hout
      omega
    · cases h
  · exact Or.inr h

theorem readLine_length_le {line out : Octets} (h : readLine line = some out) :
    out.length ≤ line.length := by
  rcases readLine_cases h with hlt | hread
  · exact Nat.le_of_lt hlt
  · have hout := readOctets_length_le hread
    have hle := (List.rdropWhile_prefix isBlank (l := content line)).length_le
    have hline := congrArg List.length (content_append_lineEnd line)
    rw [rdropWhile_line, List.length_append] at hout
    rw [List.length_append] at hline
    omega

theorem readLine_eq_self_iff (line : Octets) : readLine line = some line ↔ Literal line := by
  have hline := content_append_lineEnd line
  constructor
  · intro h
    rcases readLine_cases h with hlt | hread
    · exact absurd hlt (Nat.lt_irrefl _)
    · rw [rdropWhile_line] at hread
      have hout := readOctets_length_le hread
      have hprefix := List.rdropWhile_prefix isBlank (l := content line)
      have hlen := congrArg List.length hline
      rw [List.length_append] at hout hlen
      have hself : (content line).rdropWhile isBlank = content line :=
        hprefix.eq_of_length_le (by omega)
      rw [hself, hline] at hread
      exact ⟨(readOctets_eq_self_iff line).mp hread, (trimmed_iff _).mp hself⟩
  · intro h
    have hself := (trimmed_iff (content line)).mpr h.trimmed
    have hsoft : (content line).getLast? ≠ some 61 := by
      intro hlast
      obtain ⟨front, hfront⟩ := List.getLast?_eq_some_iff.mp hlast
      have hsplit : line = front ++ 61 :: lineEnd line := by
        conv_lhs => rw [← hline, hfront, List.append_assoc, List.singleton_append]
      have hgo := (h.unescaped.bare front (lineEnd line) hsplit).2
      rcases lineEnd_cases line with hend | hend | hend
      all_goals
        rw [hend] at hgo
        exact absurd hgo (by decide)
    rw [readLine, rdropWhile_line, hself]
    simp only [if_neg hsoft, hline]
    exact (readOctets_eq_self_iff line).mpr h.unescaped

/-! ## Texts that stand for themselves -/

theorem lines_flatten (text : Octets) : (lines text).flatten = text := by
  induction text with
  | nil => rfl
  | cons b rest ih =>
    rw [lines]
    split
    · rw [List.flatten_cons, ih, List.singleton_append]
    · cases hrest : lines rest with
      | nil =>
        rw [hrest] at ih
        rw [← ih]
        rfl
      | cons line more =>
        rw [hrest, List.flatten_cons] at ih
        simp only [List.flatten_cons, List.cons_append, ih]

/-- The octets of lines are no more than the lines have, and as many only if every line is
read as itself. -/
theorem readLines_eq {ls outs : List Octets} (h : ls.mapM readLine = some outs) :
    outs.flatten.length ≤ ls.flatten.length ∧
      (outs.flatten = ls.flatten → ∀ line ∈ ls, Literal line) := by
  induction ls generalizing outs with
  | nil =>
    obtain rfl : [] = outs := Option.some.inj h
    exact ⟨Nat.le_refl _, fun _ line hline => absurd hline List.not_mem_nil⟩
  | cons line ls ih =>
    obtain ⟨out, rest, hout, hrest, rfl⟩ := PartialFold.mapM_cons_eq_some.mp h
    obtain ⟨hle, hall⟩ := ih hrest
    have hfirst := readLine_length_le hout
    simp only [List.flatten_cons, List.length_append]
    refine ⟨Nat.add_le_add hfirst hle, ?_⟩
    intro hsame
    have hlen := congrArg List.length hsame
    rw [List.length_append, List.length_append] at hlen
    obtain ⟨rfl, hflat⟩ := List.append_inj hsame (by omega)
    intro l hl
    rcases List.mem_cons.mp hl with rfl | hl
    · exact (readLine_eq_self_iff l).mp hout
    · exact hall hflat l hl

theorem readLines_literal {ls : List Octets} (h : ∀ line ∈ ls, Literal line) :
    ls.mapM readLine = some ls := by
  induction ls with
  | nil => rfl
  | cons line ls ih =>
    have hline := (readLine_eq_self_iff line).mpr (h line List.mem_cons_self)
    have hrest := ih fun l hl => h l (List.mem_cons_of_mem _ hl)
    exact PartialFold.mapM_cons_eq_some.mpr ⟨line, ls, hline, hrest, rfl⟩

/-- A text is read as itself exactly if all of its lines are. -/
theorem decode_eq_self_iff (text : Octets) :
    decode text = some text ↔ ∀ line ∈ lines text, Literal line := by
  constructor
  · intro h
    obtain ⟨outs, hread, hflat⟩ := Option.map_eq_some_iff.mp h
    exact (readLines_eq hread).2 (by rw [hflat, lines_flatten])
  · intro h
    rw [decode, readLines_literal h, Option.map_some, lines_flatten]

theorem lines_append {text : Octets} (hne : text ≠ []) (h : 10 ∉ text) (post : Octets) :
    ∃ rest more, lines (text ++ post) = (text ++ rest) :: more := by
  induction text with
  | nil => exact absurd rfl hne
  | cons b text ih =>
    obtain ⟨hb, htext⟩ := not_or.mp (mt List.mem_cons.mpr h)
    rw [List.cons_append, lines, if_neg (Ne.symm hb)]
    by_cases hnil : text = []
    · subst hnil
      cases hpost : lines ([] ++ post) with
      | nil => exact ⟨[], [], rfl⟩
      | cons line more => exact ⟨line, more, rfl⟩
    · obtain ⟨rest, more, hlines⟩ := ih hnil htext
      rw [hlines]
      exact ⟨rest, more, rfl⟩

/-- A run without a line end lies in one line. -/
theorem exists_line {text : Octets} (hne : text ≠ []) (h : 10 ∉ text) (pre post : Octets) :
    ∃ line ∈ lines (pre ++ (text ++ post)), ∃ front rest, line = front ++ (text ++ rest) := by
  induction pre with
  | nil =>
    obtain ⟨rest, more, hlines⟩ := lines_append hne h post
    rw [List.nil_append, hlines]
    exact ⟨_, List.mem_cons_self, [], rest, rfl⟩
  | cons b pre ih =>
    obtain ⟨line, hline, front, rest, heq⟩ := ih
    rw [List.cons_append, lines]
    split
    · exact ⟨line, List.mem_cons_of_mem _ hline, front, rest, heq⟩
    · cases hlines : lines (pre ++ (text ++ post)) with
      | nil =>
        rw [hlines] at hline
        cases hline
      | cons first more =>
        rw [hlines] at hline
        rcases List.mem_cons.mp hline with rfl | hline
        · exact ⟨b :: line, List.mem_cons_self, b :: front, rest, congrArg (b :: ·) heq⟩
        · exact ⟨line, List.mem_cons_of_mem _ hline, front, rest, heq⟩

theorem ne_lf_of_hexValue {b x : UInt8} (h : hexValue b = some x) : b ≠ 10 := by
  rintro rfl
  cases h

/-- A text with `=` and two hexadecimal digits somewhere in it is not read as itself. -/
theorem decode_ne_self_of_escape {c d x y : UInt8} (hc : hexValue c = some x)
    (hd : hexValue d = some y) (pre post : Octets) :
    decode (pre ++ ([61, c, d] ++ post)) ≠ some (pre ++ ([61, c, d] ++ post)) := by
  intro h
  have hlf : (10 : UInt8) ∉ [61, c, d] := by
    have hc' := ne_lf_of_hexValue hc
    have hd' := ne_lf_of_hexValue hd
    simp [hc'.symm, hd'.symm]
  obtain ⟨line, hline, front, rest, rfl⟩ := exists_line (List.cons_ne_nil 61 [c, d]) hlf pre post
  have hliteral := (decode_eq_self_iff _).mp h _ hline
  have hnone := (hliteral.unescaped.bare front (c :: d :: rest) rfl).1
  rw [escaped, hc, hd] at hnone
  cases hnone

end QuotedPrintable

import Mathlib.Data.List.TakeWhile

/-!
# Filter expressions over resources

The filter language of directory protocols: attributes that are present or
compared with a literal, filters on the elements of an attribute, negation,
conjunction and disjunction. An expression carries its spelling, so that it has
one text; its meaning does not depend on the spelling.
-/
namespace FilterLanguage

/-! ## Words and literals -/

def isLetter (c : Char) : Bool :=
  65 ≤ c.toNat ∧ c.toNat ≤ 90 ∨ 97 ≤ c.toNat ∧ c.toNat ≤ 122

def isPathChar (c : Char) : Bool :=
  33 ≤ c.toNat ∧ c.toNat ≤ 126 ∧ c ∉ ['"', '\'', '(', ')', '[', ']']

def isQuote (c : Char) : Bool := c = '"' ∨ c = '\''

/-- A word of the language, in any case. -/
structure Word (word : String) where
  text : List Char
  letters : text.all isLetter = true
  spells : text.map Char.toLower = word.toList

/-- The path of an attribute, in any case. -/
structure AttrPath where
  text : List Char
  starts : (text.head?.any isLetter) = true
  pathChars : text.all isPathChar = true

theorem Word.mem_letters {w : String} (word : Word w) {c : Char} (hc : c ∈ word.text) :
    isLetter c = true := List.all_eq_true.1 word.letters c hc

theorem AttrPath.mem_pathChars (a : AttrPath) {c : Char} (hc : c ∈ a.text) :
    isPathChar c = true := List.all_eq_true.1 a.pathChars c hc

/-- Paths that differ in case are one attribute. -/
def AttrPath.name (a : AttrPath) : List Char := a.text.map Char.toLower

inductive CompareOp
  | eq | ne | co | sw | ew | gt | lt | ge | le
deriving DecidableEq

def CompareOp.word : CompareOp → String
  | eq => "eq" | ne => "ne" | co => "co" | sw => "sw" | ew => "ew"
  | gt => "gt" | lt => "lt" | ge => "ge" | le => "le"

def hexDigit (c : Char) : Option Nat :=
  if 48 ≤ c.toNat ∧ c.toNat ≤ 57 then some (c.toNat - 48)
  else if 97 ≤ c.toNat ∧ c.toNat ≤ 102 then some (c.toNat - 87)
  else if 65 ≤ c.toNat ∧ c.toNat ≤ 70 then some (c.toNat - 55)
  else none

/-- The number four hex digits write. -/
def hexUnit : List Char → Option Nat
  | [a, b, c, d] =>
    match hexDigit a, hexDigit b, hexDigit c, hexDigit d with
    | some a, some b, some c, some d => some (((a * 16 + b) * 16 + c) * 16 + d)
    | _, _, _, _ => none
  | _ => none

/-- What the letter after a backslash stands for. -/
def escapes : List (Char × Char) :=
  [('"', '"'), ('\\', '\\'), ('/', '/'), ('b', '\x08'), ('f', '\x0c'), ('n', '\n'), ('r', '\r'),
    ('t', '\t')]

/-- `Spelled raw chars`: what stands between the quotes, and the string it
denotes. -/
inductive Spelled : List Char → List Char → Prop
  | nil : Spelled [] []
  | plain {c : Char} {raw chars : List Char} (hquote : c ≠ '"') (hslash : c ≠ '\\')
      (rest : Spelled raw chars) : Spelled (c :: raw) (c :: chars)
  | escaped {e c : Char} {raw chars : List Char} (he : (e, c) ∈ escapes)
      (rest : Spelled raw chars) : Spelled ('\\' :: e :: raw) (c :: chars)
  | unit {digits raw chars : List Char} {n : Nat} (hn : hexUnit digits = some n)
      (hvalid : n.isValidChar) (rest : Spelled raw chars) :
      Spelled ('\\' :: 'u' :: (digits ++ raw)) (Char.ofNat n :: chars)
  | pair {high low raw chars : List Char} {m n : Nat} (hm : hexUnit high = some m)
      (hn : hexUnit low = some n) (hhigh : 0xd800 ≤ m ∧ m < 0xdc00)
      (hlow : 0xdc00 ≤ n ∧ n < 0xe000) (rest : Spelled raw chars) :
      Spelled ('\\' :: 'u' :: (high ++ '\\' :: 'u' :: (low ++ raw)))
        (Char.ofNat (0x10000 + (m - 0xd800) * 0x400 + (n - 0xdc00)) :: chars)

/-- A string literal: what stands between its quotes, and its characters. -/
structure QuotedText where
  raw : List Char
  chars : List Char
  spelled : Spelled raw chars

/-- A quote or a backslash behind a backslash, every other character itself. -/
def escapeChar (c : Char) : List Char := if c = '"' ∨ c = '\\' then ['\\', c] else [c]

def escape (chars : List Char) : List Char := chars.flatMap escapeChar

theorem spelled_escape (chars : List Char) : Spelled (escape chars) chars := by
  induction chars with
  | nil => exact .nil
  | cons c chars ih =>
    rw [escape, List.flatMap_cons, escapeChar]
    by_cases hquote : c = '"'
    · subst hquote
      exact .escaped (by decide) ih
    · by_cases hslash : c = '\\'
      · subst hslash
        exact .escaped (by decide) ih
      · simp only [hquote, hslash, or_self, if_false]
        exact .plain hquote hslash ih

def QuotedText.ofChars (chars : List Char) : QuotedText :=
  ⟨escape chars, chars, spelled_escape chars⟩

inductive Value
  | null
  | bool (b : Bool)
  | number (text : List Char)
  | string (chars : List Char)
deriving DecidableEq

inductive Literal
  | null
  | bool (b : Bool)
  | number (text : List Char) (digits : ∀ c ∈ text, c ∈ "0123456789+-.eE".toList)
  | string (s : QuotedText)

namespace Literal

def value : Literal → Value
  | null => .null
  | bool b => .bool b
  | number text _ => .number text
  | string s => .string s.chars

def text : Literal → List Char
  | null => "null".toList
  | bool b => (if b then "true" else "false").toList
  | number text _ => text
  | string s => '"' :: (s.raw ++ ['"'])

/-- What stands between the quotes of a string. -/
def raw? : Literal → Option (List Char)
  | string s => some s.raw
  | _ => none

end Literal

/-! ## Expressions -/

inductive FilterExpr
  | present (attr : AttrPath) (word : Word "pr")
  | compare (attr : AttrPath) (op : CompareOp) (word : Word op.word) (value : Literal)
  | valuePath (attr : AttrPath) (f : FilterExpr)
  | paren (f : FilterExpr)
  | not (word : Word "not") (blanks : Nat) (f : FilterExpr)
  | and (f : FilterExpr) (word : Word "and") (g : FilterExpr)
  | or (f : FilterExpr) (word : Word "or") (g : FilterExpr)

/-- What the attributes of a resource are; the elements of an attribute are
resources of their own. -/
structure Semantics (ρ : Type) where
  present : (attr : List Char) → ρ → Bool
  compare : (attr : List Char) → CompareOp → Value → ρ → Bool
  elements : (attr : List Char) → ρ → List ρ

namespace FilterExpr

def isOr : FilterExpr → Bool
  | or .. => true
  | _ => false

def enclose (t : List Char) : List Char := '(' :: (t ++ [')'])

/-- The text. `and` binds more tightly than `or`: a disjunction under it stands
in parentheses. -/
def text : FilterExpr → List Char
  | present attr word => attr.text ++ ' ' :: word.text
  | compare attr _ word value => attr.text ++ ' ' :: (word.text ++ ' ' :: value.text)
  | valuePath attr f => attr.text ++ '[' :: (f.text ++ [']'])
  | paren f => enclose f.text
  | not word blanks f => word.text ++ (List.replicate blanks ' ' ++ enclose f.text)
  | and f word g =>
    (if f.isOr then enclose f.text else f.text) ++
      ' ' :: (word.text ++ ' ' :: if g.isOr then enclose g.text else g.text)
  | or f word g => f.text ++ ' ' :: (word.text ++ ' ' :: g.text)

def toText (F : FilterExpr) : String := String.ofList F.text

def eval {ρ : Type} (S : Semantics ρ) : FilterExpr → ρ → Bool
  | present attr _, r => S.present attr.name r
  | compare attr op _ value, r => S.compare attr.name op value.value r
  | valuePath attr f, r => (S.elements attr.name r).any fun e => f.eval S e
  | paren f, r => f.eval S r
  | not _ _ f, r => !f.eval S r
  | and f _ g, r => f.eval S r && g.eval S r
  | or f _ g, r => f.eval S r || g.eval S r

/-- The attribute of the comparison by `eq` that the text begins with. -/
def leading : FilterExpr → Option (List Char)
  | compare attr op _ _ => if op = .eq then some attr.name else none
  | and f _ _ => if f.isOr then none else f.leading
  | or f _ _ => f.leading
  | _ => none

/-- What stands between the quotes of the first string in the text. -/
def firstString : FilterExpr → Option (List Char)
  | present .. => none
  | compare _ _ _ value => value.raw?
  | valuePath _ f | paren f | not _ _ f => f.firstString
  | and f _ g | or f _ g => f.firstString.or g.firstString

end FilterExpr

/-! ## Where the quotes stand -/

theorem isQuote_eq_false_of_isLetter {c : Char} (h : isLetter c = true) : isQuote c = false := by
  by_contra hc
  simp only [isQuote, decide_eq_false_iff_not, not_not] at hc
  obtain rfl | rfl := hc <;> exact absurd h (by decide)

theorem isQuote_eq_false_of_isPathChar {c : Char} (h : isPathChar c = true) :
    isQuote c = false := by
  by_contra hc
  simp only [isQuote, decide_eq_false_iff_not, not_not] at hc
  obtain rfl | rfl := hc <;> exact absurd h (by decide)

theorem isQuote_eq_false_of_all {s : List Char} (h : (s.all fun c => !isQuote c) = true) :
    ∀ c ∈ s, isQuote c = false := fun c hc => by simpa using List.all_eq_true.1 h c hc

/-- A text up to its first quote of either kind. -/
def upToQuote (text : List Char) : List Char := text.takeWhile fun c => !isQuote c

/-- A text without quotes, or one whose first quoted string is `raw`. -/
def Quoting (text : List Char) : Option (List Char) → Prop
  | none => ∀ c ∈ text, isQuote c = false
  | some raw => ∃ before after, text = before ++ '"' :: (raw ++ '"' :: after) ∧
      ∀ c ∈ before, isQuote c = false

namespace Quoting

variable {s t : List Char} {raw other : Option (List Char)}

theorem of_no_quote (h : ∀ c ∈ s, isQuote c = false) : Quoting s none := h

theorem append_left (hs : ∀ c ∈ s, isQuote c = false) (ht : Quoting t raw) :
    Quoting (s ++ t) raw := by
  cases raw with
  | none =>
    intro c hc
    exact (List.mem_append.1 hc).elim (hs c) (ht c)
  | some raw =>
    obtain ⟨before, after, rfl, hbefore⟩ := ht
    refine ⟨s ++ before, after, by simp, fun c hc => ?_⟩
    exact (List.mem_append.1 hc).elim (hs c) (hbefore c)

theorem append (hs : Quoting s raw) (ht : Quoting t other) : Quoting (s ++ t) (raw.or other) := by
  cases raw with
  | none => exact append_left hs ht
  | some raw =>
    obtain ⟨before, after, rfl, hbefore⟩ := hs
    exact ⟨before, after ++ t, by simp, hbefore⟩

theorem append_right (hs : Quoting s raw) (ht : ∀ c ∈ t, isQuote c = false) :
    Quoting (s ++ t) raw := by
  have h := append hs (of_no_quote ht)
  rwa [Option.or_none] at h

theorem enclose (h : Quoting s raw) : Quoting (FilterExpr.enclose s) raw :=
  append_left (s := ['(']) (isQuote_eq_false_of_all (by decide))
    (append_right (t := [')']) h (isQuote_eq_false_of_all (by decide)))

end Quoting

theorem Literal.quoting (l : Literal) : Quoting l.text l.raw? := by
  cases l with
  | null => exact isQuote_eq_false_of_all (by decide)
  | bool b => cases b <;> exact isQuote_eq_false_of_all (by decide)
  | number text digits =>
    intro c hc
    exact isQuote_eq_false_of_all (s := "0123456789+-.eE".toList) (by decide) c (digits c hc)
  | string s => exact ⟨[], [], by simp [Literal.text], by simp⟩

theorem FilterExpr.quoting (F : FilterExpr) : Quoting F.text F.firstString := by
  have hpath (a : AttrPath) : ∀ c ∈ a.text, isQuote c = false := fun c hc =>
    isQuote_eq_false_of_isPathChar (a.mem_pathChars hc)
  have hword {w : String} (word : Word w) : ∀ c ∈ word.text, isQuote c = false := fun c hc =>
    isQuote_eq_false_of_isLetter (word.mem_letters hc)
  have hblank := isQuote_eq_false_of_all (s := [' ']) (by decide)
  have henclose (f : FilterExpr) (hf : Quoting f.text f.firstString) :
      Quoting (if f.isOr then enclose f.text else f.text) f.firstString := by
    split
    · exact hf.enclose
    · exact hf
  have hjoin {w : String} (word : Word w) {s t : List Char} {raw other : Option (List Char)}
      (hs : Quoting s raw) (ht : Quoting t other) :
      Quoting (s ++ ' ' :: (word.text ++ ' ' :: t)) (raw.or other) :=
    hs.append (Quoting.append_left hblank
      (Quoting.append_left (hword word) (Quoting.append_left hblank ht)))
  induction F with
  | present attr word =>
    exact Quoting.append_left (hpath attr) (Quoting.append_left hblank (hword word))
  | compare attr op word value =>
    exact Quoting.append_left (hpath attr) (Quoting.append_left hblank
      (Quoting.append_left (hword word) (Quoting.append_left hblank value.quoting)))
  | valuePath attr f ih =>
    exact Quoting.append_left (hpath attr) (Quoting.append_left (s := ['['])
      (isQuote_eq_false_of_all (by decide))
      (Quoting.append_right (t := [']']) ih (isQuote_eq_false_of_all (by decide))))
  | paren f ih => exact ih.enclose
  | not word blanks f ih =>
    refine Quoting.append_left (hword word) (Quoting.append_left (fun c hc => ?_) ih.enclose)
    rw [List.eq_of_mem_replicate hc]
    decide
  | and f word g ihf ihg => exact hjoin word (henclose f ihf) (henclose g ihg)
  | or f word g ihf ihg => exact hjoin word ihf ihg

/-! ## Strings cut at a quote -/

theorem isQuote_of_mem_upToQuote {text : List Char} {c : Char} (hc : c ∈ upToQuote text) :
    isQuote c = false := by
  simpa using List.mem_takeWhile_imp hc

/-- A string that is its own escaped text, without an apostrophe. -/
def Plain (chars : List Char) : Prop := ∀ c ∈ chars, c ∉ ['"', '\'', '\\']

instance (chars : List Char) : Decidable (Plain chars) :=
  List.decidableBAll (fun c => c ∉ ['"', '\'', '\\']) chars

theorem escape_cons (c : Char) (chars : List Char) :
    escape (c :: chars) = escapeChar c ++ escape chars := rfl

theorem upToQuote_escape_of_plain {chars : List Char} (h : Plain chars) :
    upToQuote (escape chars) = chars := by
  induction chars with
  | nil => rfl
  | cons c chars ih =>
    have hc := h c List.mem_cons_self
    have hrest := ih fun d hd => h d (List.mem_cons_of_mem _ hd)
    simp only [List.mem_cons, List.not_mem_nil, or_false, not_or] at hc
    have hesc : escapeChar c = [c] := by simp [escapeChar, hc]
    have hquote : isQuote c = false := by simp [isQuote, hc]
    rw [escape_cons, hesc, upToQuote, List.cons_append,
      List.takeWhile_cons_of_pos (by simp [hquote])]
    exact congrArg (c :: ·) hrest

/-- Behind a backslash stands another one. -/
theorem count_escape {chars : List Char} (h : '"' ∉ chars) :
    (escape chars).count '\\' = 2 * chars.count '\\' := by
  induction chars with
  | nil => rfl
  | cons c chars ih =>
    simp only [List.mem_cons, not_or] at h
    have hrest := ih h.2
    rw [escape_cons, List.count_append, hrest, List.count_cons]
    by_cases hc : c = '\\'
    · simp [escapeChar, hc]
      omega
    · simp [escapeChar, hc, Ne.symm h.1]

theorem upToQuote_eq_self {text : List Char} (h : ∀ c ∈ text, isQuote c = false) :
    upToQuote text = text :=
  List.takeWhile_eq_self_iff.2 fun c hc => by simp [h c hc]

theorem isQuote_escape {chars : List Char} (h : ∀ c ∈ chars, isQuote c = false) :
    ∀ c ∈ escape chars, isQuote c = false := by
  intro c hc
  obtain ⟨d, hd, hcd⟩ := List.mem_flatMap.1 hc
  rw [escapeChar] at hcd
  split at hcd
  · simp only [List.mem_cons, List.not_mem_nil, or_false] at hcd
    obtain rfl | rfl := hcd
    · decide
    · exact h c hd
  · rw [List.mem_singleton.1 hcd]
    exact h d hd

/-- A string that is not plain loses a quote or an apostrophe, or has another
number of backslashes. -/
theorem count_upToQuote_escape_ne {chars : List Char} (h : ¬ Plain chars) :
    ∃ c ∈ ['"', '\'', '\\'], (upToQuote (escape chars)).count c ≠ chars.count c := by
  by_cases hquote : ∀ c ∈ chars, isQuote c = false
  · have hslash : '\\' ∈ chars := by
      by_contra hslash
      refine h fun c hc hmem => ?_
      have hcq := hquote c hc
      simp only [List.mem_cons, List.not_mem_nil, or_false] at hmem
      obtain rfl | rfl | rfl := hmem
      · exact absurd hcq (by decide)
      · exact absurd hcq (by decide)
      · exact hslash hc
    have hpos : 0 < chars.count '\\' := List.count_pos_iff.2 hslash
    refine ⟨'\\', by simp, ?_⟩
    rw [upToQuote_eq_self (isQuote_escape hquote),
      count_escape fun hmem => absurd (hquote _ hmem) (by decide)]
    omega
  · simp only [not_forall, Bool.not_eq_false] at hquote
    obtain ⟨c, hc, hcq⟩ := hquote
    refine ⟨c, ?_, ?_⟩
    · simp only [isQuote, decide_eq_true_eq] at hcq
      obtain rfl | rfl := hcq <;> simp
    · have hnot : c ∉ upToQuote (escape chars) := fun hmem => by
        simp [isQuote_of_mem_upToQuote hmem] at hcq
      have hpos : 0 < chars.count c := List.count_pos_iff.2 hc
      rw [List.count_eq_zero_of_not_mem hnot]
      omega

/-! ## What an expression begins with -/

/-- Two texts with the same separator agree up to it and after it. -/
theorem prefix_iff_of_separator {p : Char → Bool} {a b x y : List Char} {s t : Char}
    (ha : ∀ c ∈ a, p c = true) (hb : ∀ c ∈ b, p c = true) (hs : p s = false) (ht : p t = false) :
    a ++ s :: x <+: b ++ t :: y ↔ a = b ∧ s = t ∧ x <+: y := by
  induction a generalizing b with
  | nil =>
    cases b with
    | nil => simp [List.cons_prefix_cons]
    | cons d b =>
      have hne : s ≠ d := fun h => by simp [h, hb d List.mem_cons_self] at hs
      simp [List.cons_prefix_cons, hne]
  | cons c a ih =>
    cases b with
    | nil =>
      have hne : c ≠ t := fun h => by simp [← h, ha c List.mem_cons_self] at ht
      simp [List.cons_prefix_cons, hne]
    | cons d b =>
      have htail := ih (fun c hc => ha c (List.mem_cons_of_mem _ hc))
        (fun c hc => hb c (List.mem_cons_of_mem _ hc))
      simp [List.cons_prefix_cons, htail, and_assoc]

theorem isLetter_lt {c : Char} (h : isLetter c = true) : c.toNat < 128 := by
  simp only [isLetter, decide_eq_true_eq] at h
  omega

theorem isPathChar_lt {c : Char} (h : isPathChar c = true) : c.toNat < 128 := by
  simp only [isPathChar, decide_eq_true_eq] at h
  omega

theorem isPathChar_toLower {c : Char} (h : isPathChar c = true) : isPathChar c.toLower = true := by
  have hall : ∀ n < 128, isPathChar (Char.ofNat n) = true →
      isPathChar (Char.ofNat n).toLower = true := by decide
  have hc := hall c.toNat (isPathChar_lt h)
  rw [Char.ofNat_toNat] at hc
  exact hc h

/-- A mapping of characters that sends the ASCII ones to lower case. -/
def LowersAscii (lower : Char → Char) : Prop := ∀ c, c.toNat < 128 → lower c = c.toLower

section
variable {lower : Char → Char} (hlower : LowersAscii lower)
include hlower

theorem AttrPath.map_lower (a : AttrPath) : a.text.map lower = a.name :=
  List.map_congr_left fun c hc => hlower c (isPathChar_lt (a.mem_pathChars hc))

theorem Word.map_lower {w : String} (word : Word w) : word.text.map lower = w.toList := by
  rw [← word.spells]
  exact List.map_congr_left fun c hc => hlower c (isLetter_lt (word.mem_letters hc))

end

theorem AttrPath.pathChars_name (a : AttrPath) : ∀ c ∈ a.name, isPathChar c = true := by
  intro c hc
  obtain ⟨d, hd, rfl⟩ := List.mem_map.1 hc
  exact isPathChar_toLower (a.mem_pathChars hd)

theorem CompareOp.word_pathChars (op : CompareOp) : ∀ c ∈ op.word.toList, isPathChar c = true := by
  have hall : op.word.toList.all isPathChar = true := by cases op <;> decide
  exact List.all_eq_true.1 hall

theorem CompareOp.word_toList_eq {op : CompareOp} : op.word.toList = ['e', 'q'] ↔ op = .eq := by
  cases op <;> decide

namespace FilterExpr

/-- The beginning of a comparison of `key` by `eq`. -/
def comparison (key : List Char) : List Char := key ++ ' ' :: ['e', 'q', ' ']

variable {key : List Char} (hkey : ∀ c ∈ key, isPathChar c = true)
include hkey

theorem not_comparison_prefix_enclose (t : List Char) : ¬ comparison key <+: '(' :: t := by
  intro h
  exact absurd ((prefix_iff_of_separator (b := []) hkey (by simp) (by decide) (by decide)).1 h).2.1
    (by decide)

variable {lower : Char → Char} (hlower : LowersAscii lower)
include hlower

/-- The text in lower case begins with a comparison by `eq` exactly if the
expression does; the induction is over what stands behind the text as well. -/
theorem comparison_prefix_iff (F : FilterExpr) (tail : List Char) :
    comparison key <+: (F.text ++ tail).map lower ↔ F.leading = some key := by
  have hblank : lower ' ' = ' ' := hlower ' ' (by decide)
  have hparen : lower '(' = '(' := hlower '(' (by decide)
  have hbracket : lower '[' = '[' := hlower '[' (by decide)
  have henclosed (t tail : List Char) : ¬ comparison key <+: (enclose t ++ tail).map lower := by
    rw [enclose, List.cons_append, List.map_cons, hparen]
    exact not_comparison_prefix_enclose hkey _
  have hpath (a : AttrPath) {s : Char} (hs : isPathChar s = false) (t : List Char) :
      comparison key <+: a.name ++ s :: t ↔ key = a.name ∧ ' ' = s ∧ ['e', 'q', ' '] <+: t :=
    prefix_iff_of_separator hkey a.pathChars_name (by decide) hs
  induction F generalizing tail with
  | present attr word =>
    simp only [text, List.append_assoc, List.cons_append, List.map_append, List.map_cons, hblank,
      attr.map_lower hlower, word.map_lower hlower]
    rw [hpath attr (by decide)]
    simp [leading, List.cons_prefix_cons]
  | compare attr op word value =>
    simp only [text, List.append_assoc, List.cons_append, List.map_append, List.map_cons, hblank,
      attr.map_lower hlower, word.map_lower hlower]
    rw [hpath attr (by decide), show ['e', 'q', ' '] = ['e', 'q'] ++ ' ' :: [] from rfl,
      prefix_iff_of_separator (List.all_eq_true.1 (by decide)) op.word_pathChars (by decide) (by decide),
      eq_comm (b := op.word.toList), CompareOp.word_toList_eq]
    by_cases hop : op = .eq <;> simp [leading, hop, eq_comm]
  | valuePath attr f ih =>
    simp only [text, List.append_assoc, List.cons_append, List.map_append, List.map_cons, hbracket,
      attr.map_lower hlower]
    rw [hpath attr (by decide)]
    simp [leading]
  | paren f ih => exact iff_of_false (henclosed f.text tail) (by simp [leading])
  | not word blanks f ih =>
    have hchars : ∀ c ∈ "not".toList, isPathChar c = true := List.all_eq_true.1 (by decide)
    simp only [text, List.append_assoc, List.map_append, word.map_lower hlower,
      List.map_replicate, hblank, enclose, List.cons_append, List.map_cons, hparen, leading]
    cases blanks with
    | zero =>
      simp only [List.replicate_zero, List.nil_append, comparison]
      rw [prefix_iff_of_separator hkey hchars (by decide) (by decide)]
      simp
    | succ blanks =>
      simp only [List.replicate_succ, List.cons_append, comparison]
      rw [prefix_iff_of_separator hkey hchars (by decide) (by decide)]
      cases blanks <;> simp [List.replicate_succ, List.cons_prefix_cons]
  | and f word g ihf ihg =>
    rw [text, List.append_assoc, leading]
    split
    · exact iff_of_false (henclosed f.text _) (by simp)
    · exact ihf _
  | or f word g ihf ihg =>
    rw [text, List.append_assoc]
    exact ihf _

end FilterExpr

end FilterLanguage

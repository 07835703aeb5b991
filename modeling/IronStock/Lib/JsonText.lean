import IronStock.Lib.Decimals
import IronStock.Lib.IpText
import Mathlib.Data.Rat.Defs
import Mathlib.Algebra.Order.Field.Rat

/-!
# JSON texts

A value, the text that a `jsonb` column prints for it, and every text that reads as it: strings
may be escaped in several ways, numbers written with an exponent, and space stand between the
tokens. No text of a value has fewer backslashes and letters `u` together than the printed one.
-/
namespace JsonText

open Decimals

/-! ## Values -/

/-- A decimal as it is stored, by its digits. -/
structure Decimal where
  negative : Bool
  whole : List Char
  frac : List Char
  whole_digits : ∀ c ∈ whole, c.isDigit = true
  frac_digits : ∀ c ∈ frac, c.isDigit = true
  whole_ne : whole ≠ []
  /-- no zero leads another digit -/
  whole_head : whole.head? = some '0' → whole = ['0']

def Decimal.text (d : Decimal) : List Char :=
  (if d.negative then ['-'] else []) ++ (d.whole ++ if d.frac = [] then [] else '.' :: d.frac)

def Decimal.value (d : Decimal) : ℚ :=
  (if d.negative then -1 else 1) * number (d.whole ++ d.frac) / 10 ^ d.frac.length

structure Exponent where
  mark : Char
  sign : List Char
  digits : List Char
  mark_mem : mark ∈ ['e', 'E']
  sign_mem : sign ∈ [[], ['+'], ['-']]
  digits_ne : digits ≠ []
  digits_digits : ∀ c ∈ digits, c.isDigit = true

def Exponent.text (e : Exponent) : List Char := e.mark :: (e.sign ++ e.digits)

def Exponent.value (e : Exponent) : Int :=
  if e.sign = ['-'] then -(number e.digits) else number e.digits

inductive Kind
  | value
  | elements
  | members

/-- A value, or what stands between the brackets of an array or of an object. -/
inductive Node : Kind → Type
  | null : Node .value
  | bool (b : Bool) : Node .value
  | number (d : Decimal) : Node .value
  | string (s : List Char) : Node .value
  | array (xs : Node .elements) : Node .value
  | object (ms : Node .members) : Node .value
  | noElements : Node .elements
  | element (x : Node .value) (xs : Node .elements) : Node .elements
  | noMembers : Node .members
  | member (key : List Char) (x : Node .value) (ms : Node .members) : Node .members

/-- Equal up to the order of the members of objects. -/
inductive Same : {k : Kind} → Node k → Node k → Prop
  | refl {k : Kind} (n : Node k) : Same n n
  | trans {k : Kind} {n m l : Node k} : Same n m → Same m l → Same n l
  | array {xs ys : Node .elements} : Same xs ys → Same (.array xs) (.array ys)
  | object {ms ns : Node .members} : Same ms ns → Same (.object ms) (.object ns)
  | element {x y : Node .value} {xs ys : Node .elements} :
      Same x y → Same xs ys → Same (.element x xs) (.element y ys)
  | member (key : List Char) {x y : Node .value} {ms ns : Node .members} :
      Same x y → Same ms ns → Same (.member key x ms) (.member key y ns)
  | swap (key key' : List Char) (x x' : Node .value) (ms : Node .members) :
      Same (.member key x (.member key' x' ms)) (.member key' x' (.member key x ms))

theorem Same.symm {k : Kind} {m n : Node k} (h : Same m n) : Same n m := by
  induction h with
  | refl n => exact .refl n
  | trans h h' ih ih' => exact ih'.trans ih
  | array h ih => exact .array ih
  | object h ih => exact .object ih
  | element h h' ih ih' => exact .element ih ih'
  | member key h h' ih ih' => exact .member key ih ih'
  | swap key key' x x' ms => exact .swap key' key x' x ms

/-! ## The printed text -/

/-- The escapes of one letter that are printed. -/
def outEscapes : List (Char × Char) :=
  [('"', '"'), ('\\', '\\'), ('\x08', 'b'), ('\x0c', 'f'), ('\n', 'n'), ('\r', 'r'), ('\t', 't')]

def hex4 (n : Nat) : List Char :=
  [Nat.digitChar (n / 4096 % 16), Nat.digitChar (n / 256 % 16), Nat.digitChar (n / 16 % 16),
    Nat.digitChar (n % 16)]

/-- `escape_json` of one character. -/
def escapeChar (c : Char) : List Char :=
  match outEscapes.lookup c with
  | some e => ['\\', e]
  | none => if c.toNat < 32 then '\\' :: 'u' :: hex4 c.toNat else [c]

def quoted (s : List Char) : List Char := '"' :: (s.flatMap escapeChar ++ ['"'])

/-- What is printed between an element or a member and the next one. -/
def Node.separator : {k : Kind} → Node k → List Char
  | _, .noElements => []
  | _, .noMembers => []
  | _, _ => [',', ' ']

/-- `jsonb_out`. -/
def Node.render : {k : Kind} → Node k → List Char
  | _, .null => "null".toList
  | _, .bool true => "true".toList
  | _, .bool false => "false".toList
  | _, .number d => d.text
  | _, .string s => quoted s
  | _, .array xs => '[' :: (xs.render ++ [']'])
  | _, .object ms => '\x7b' :: (ms.render ++ ['\x7d'])
  | _, .noElements => []
  | _, .element x xs => x.render ++ (xs.separator ++ xs.render)
  | _, .noMembers => []
  | _, .member key x ms => quoted key ++ (':' :: ' ' :: x.render ++ (ms.separator ++ ms.render))

attribute [local simp] Node.render

/-! ## Texts that are read -/

def isWs (c : Char) : Bool := c = ' ' ∨ c = '\t' ∨ c = '\n' ∨ c = '\r'

/-- The escapes of one letter that are read. -/
def inEscapes : List (Char × Char) := ('/', '/') :: outEscapes

/-- The value of hex digits. -/
def hexNumber (ds : List Char) : Option Nat :=
  (ds.mapM IpText.hexValue).map fun vs => vs.foldl (fun n v => 16 * n + v) 0

/-- The text between the quotes, for a string. -/
inductive Spells : List Char → List Char → Prop
  | nil : Spells [] []
  | plain (c : Char) {s t : List Char} (bare : c ≠ '"' ∧ c ≠ '\\' ∧ 32 ≤ c.toNat) :
      Spells s t → Spells (c :: s) (c :: t)
  | escape (c e : Char) {s t : List Char} (known : (c, e) ∈ inEscapes) :
      Spells s t → Spells (c :: s) ('\\' :: e :: t)
  | unicode (c : Char) (ds : List Char) {s t : List Char} (four : ds.length = 4)
      (value : hexNumber ds = some c.toNat) :
      Spells s t → Spells (c :: s) ('\\' :: 'u' :: (ds ++ t))
  | surrogates (c : Char) (ds es : List Char) (high low : Nat) {s t : List Char}
      (four : ds.length = 4 ∧ es.length = 4)
      (value : hexNumber ds = some (0xD800 + high) ∧ hexNumber es = some (0xDC00 + low))
      (pair : high < 1024 ∧ low < 1024 ∧ c.toNat = 0x10000 + high * 1024 + low) :
      Spells s t → Spells (c :: s) ('\\' :: 'u' :: (ds ++ '\\' :: 'u' :: (es ++ t)))

/-- The texts of a value, after RFC 8259. -/
inductive Reads : {k : Kind} → Node k → List Char → Prop
  | space {k : Kind} {n : Node k} {text : List Char} (pre post : List Char)
      (blank : (∀ c ∈ pre, isWs c = true) ∧ ∀ c ∈ post, isWs c = true) :
      Reads n text → Reads n (pre ++ (text ++ post))
  | null : Reads .null "null".toList
  | bool_true : Reads (.bool true) "true".toList
  | bool_false : Reads (.bool false) "false".toList
  | integral (d d' : Decimal) (equal : d'.value = d.value) : Reads (.number d) d'.text
  | exponential (d d' : Decimal) (e : Exponent)
      (equal : d'.value * (10 : ℚ) ^ e.value = d.value) : Reads (.number d) (d'.text ++ e.text)
  | string (s : List Char) {t : List Char} : Spells s t → Reads (.string s) ('"' :: (t ++ ['"']))
  | array {xs : Node .elements} {text : List Char} :
      Reads xs text → Reads (.array xs) ('[' :: (text ++ [']']))
  | object {ms : Node .members} {text : List Char} :
      Reads ms text → Reads (.object ms) ('\x7b' :: (text ++ ['\x7d']))
  | noElements : Reads .noElements []
  | lastElement {x : Node .value} {text : List Char} :
      Reads x text → Reads (.element x .noElements) text
  | element {x y : Node .value} {ys : Node .elements} {text rest : List Char} :
      Reads x text → Reads (.element y ys) rest →
        Reads (.element x (.element y ys)) (text ++ ',' :: rest)
  | noMembers : Reads .noMembers []
  | lastMember (key : List Char) {t pre text : List Char} {x : Node .value}
      (blank : ∀ c ∈ pre, isWs c = true) : Spells key t → Reads x text →
        Reads (.member key x .noMembers) ('"' :: (t ++ '"' :: (pre ++ ':' :: text)))
  | member (key key' : List Char) {t pre text rest : List Char} {x y : Node .value}
      {ms : Node .members} (blank : ∀ c ∈ pre, isWs c = true) : Spells key t → Reads x text →
        Reads (.member key' y ms) rest →
        Reads (.member key x (.member key' y ms))
          ('"' :: (t ++ '"' :: (pre ++ ':' :: (text ++ ',' :: rest))))

/-- A text read as JSON has the value. -/
def Denotes {k : Kind} (text : List Char) (n : Node k) : Prop := ∃ m, Same m n ∧ Reads m text

/-! ## The printed text is read back -/

theorem mem_of_lookup {l : List (Char × Char)} {c e : Char} (h : l.lookup c = some e) :
    (c, e) ∈ l := by
  induction l with
  | nil => cases h
  | cons p l ih =>
    obtain ⟨d, f⟩ := p
    rw [List.lookup_cons] at h
    split at h
    · next heq =>
      obtain rfl := Option.some.inj h
      rw [eq_of_beq heq]
      exact List.mem_cons_self ..
    · exact List.mem_cons_of_mem _ (ih h)

theorem hexNumber_hex4 : ∀ n : Fin 32, hexNumber (hex4 n) = some n.val := by decide

/-- The characters that are printed as they are. -/
def bare (c : Char) : Bool := (outEscapes.lookup c).isNone && 32 ≤ c.toNat

theorem escapeChar_of_bare {c : Char} (h : bare c = true) : escapeChar c = [c] := by
  rw [bare, Bool.and_eq_true, Option.isNone_iff_eq_none, decide_eq_true_eq] at h
  rw [escapeChar, h.1]
  exact if_neg (Nat.not_lt_of_le h.2)

theorem ne_of_lookup_none {c : Char} (h : outEscapes.lookup c = none) : c ≠ '"' ∧ c ≠ '\\' := by
  constructor
  · rintro rfl
    cases h
  · rintro rfl
    cases h

theorem spells_escapeChar (c : Char) {s t : List Char} (h : Spells s t) :
    Spells (c :: s) (escapeChar c ++ t) := by
  rw [escapeChar]
  cases hc : outEscapes.lookup c with
  | some e => exact .escape c e (List.mem_cons_of_mem _ (mem_of_lookup hc)) h
  | none =>
    by_cases hlt : c.toNat < 32
    · rw [if_pos hlt]
      exact .unicode c (hex4 c.toNat) rfl (hexNumber_hex4 ⟨c.toNat, hlt⟩) h
    · rw [if_neg hlt]
      have hne := ne_of_lookup_none hc
      exact .plain c ⟨hne.1, hne.2, Nat.le_of_not_lt hlt⟩ h

theorem spells_flatMap (s : List Char) : Spells s (s.flatMap escapeChar) := by
  induction s with
  | nil => exact .nil
  | cons c s ih => exact spells_escapeChar c ih

theorem Reads.lead {k : Kind} {n : Node k} {text : List Char} (h : Reads n text) :
    Reads n (' ' :: text) := by
  have := Reads.space [' '] [] ⟨by simp [isWs], by simp⟩ h
  rwa [List.append_nil] at this

theorem reads_render {k : Kind} (n : Node k) : Reads n n.render := by
  induction n with
  | null => exact .null
  | bool b =>
    cases b with
    | true => exact .bool_true
    | false => exact .bool_false
  | number d => exact .integral d d rfl
  | string s => exact .string s (spells_flatMap s)
  | array xs ih => exact .array ih
  | object ms ih => exact .object ih
  | noElements => exact .noElements
  | element x xs ihx ihxs =>
    cases xs with
    | noElements =>
      have htext : (Node.element x .noElements).render = x.render := List.append_nil _
      rw [htext]
      exact .lastElement ihx
    | element y ys => exact .element ihx ihxs.lead
  | noMembers => exact .noMembers
  | member key x ms ihx ihms =>
    have hnone : ∀ c ∈ ([] : List Char), isWs c = true := by simp
    have hquoted : ∀ rest, quoted key ++ rest = '"' :: (key.flatMap escapeChar ++ '"' :: rest) := by
      intro rest
      rw [quoted, List.cons_append, List.append_assoc]
      rfl
    cases ms with
    | noMembers =>
      have htext : (Node.member key x .noMembers).render =
          quoted key ++ ':' :: ' ' :: x.render :=
        congrArg _ (List.append_nil _)
      rw [htext, hquoted]
      exact .lastMember key hnone (spells_flatMap key) ihx.lead
    | member key' y ms =>
      have htext : (Node.member key x (.member key' y ms)).render =
          quoted key ++ ':' :: (' ' :: x.render ++ ',' :: ' ' :: (Node.member key' y ms).render) :=
        rfl
      rw [htext, hquoted]
      exact .member key key' hnone (spells_flatMap key) ihx.lead ihms.lead

/-! ## The weight of a text -/

/-- The number of its backslashes and letters `u`. -/
def weight (cs : List Char) : Nat := cs.count '\\' + cs.count 'u'

@[simp] theorem weight_nil : weight [] = 0 := rfl

theorem weight_append (a b : List Char) : weight (a ++ b) = weight a + weight b := by
  simp only [weight, List.count_append]
  omega

theorem weight_cons (c : Char) (cs : List Char) :
    weight (c :: cs) = weight [c] + weight cs := weight_append [c] cs

theorem weight_eq_zero {cs : List Char} (h : ∀ c ∈ cs, c ≠ '\\' ∧ c ≠ 'u') : weight cs = 0 := by
  rw [weight, List.count_eq_zero_of_not_mem fun hmem => (h _ hmem).1 rfl,
    List.count_eq_zero_of_not_mem fun hmem => (h _ hmem).2 rfl]

theorem isDigit_ne {c : Char} (h : c.isDigit = true) : c ≠ '\\' ∧ c ≠ 'u' := by
  constructor
  · rintro rfl
    cases h
  · rintro rfl
    cases h

theorem Decimal.mem_text {d : Decimal} {c : Char} (h : c ∈ d.text) :
    c = '-' ∨ c = '.' ∨ c.isDigit = true := by
  rw [Decimal.text, List.mem_append, List.mem_append] at h
  rcases h with h | h | h
  · split at h
    · exact .inl (List.mem_singleton.mp h)
    · cases h
  · exact .inr (.inr (d.whole_digits c h))
  · split at h
    · cases h
    · rcases List.mem_cons.mp h with rfl | h
      · exact .inr (.inl rfl)
      · exact .inr (.inr (d.frac_digits c h))

theorem Decimal.text_ne {d : Decimal} {c : Char} (h : c ∈ d.text) : c ≠ '\\' ∧ c ≠ 'u' := by
  rcases d.mem_text h with rfl | rfl | h
  · decide
  · decide
  · exact isDigit_ne h

theorem Decimal.weight_text (d : Decimal) : weight d.text = 0 := weight_eq_zero fun _ => text_ne

theorem weight_hex4 : ∀ n : Fin 32, weight (hex4 n) = 0 := by decide

/-- A character weighs in its printed text at most what a backslash and a letter `u` do. -/
theorem weight_escapeChar_le (c : Char) : weight (escapeChar c) ≤ 2 := by
  rw [escapeChar]
  cases hc : outEscapes.lookup c with
  | some e =>
    rw [weight_cons, weight_cons e]
    have hmem := mem_of_lookup hc
    have he : weight [e] ≤ 1 := by
      simp only [outEscapes, List.mem_cons, Prod.mk.injEq, List.not_mem_nil, or_false] at hmem
      rcases hmem with ⟨-, rfl⟩ | ⟨-, rfl⟩ | ⟨-, rfl⟩ | ⟨-, rfl⟩ | ⟨-, rfl⟩ | ⟨-, rfl⟩ | ⟨-, rfl⟩ <;>
        decide
    have hslash : weight ['\\'] = 1 := by decide
    rw [weight_nil]
    omega
  | none =>
    by_cases hlt : c.toNat < 32
    · rw [if_pos hlt, weight_cons, weight_cons 'u', weight_hex4 ⟨c.toNat, hlt⟩]
      decide
    · rw [if_neg hlt, weight]
      have := List.count_le_length (a := '\\') (l := [c])
      have := List.count_le_length (a := 'u') (l := [c])
      simp only [List.length_singleton] at *
      omega

/-- An escape of one letter is no lighter than what is printed. -/
theorem weight_escapeChar_of_mem {c e : Char} (h : (c, e) ∈ inEscapes) :
    weight (escapeChar c) ≤ weight ['\\', e] := by
  simp only [inEscapes, outEscapes, List.mem_cons, Prod.mk.injEq, List.not_mem_nil,
    or_false] at h
  rcases h with ⟨rfl, rfl⟩ | ⟨rfl, rfl⟩ | ⟨rfl, rfl⟩ | ⟨rfl, rfl⟩ | ⟨rfl, rfl⟩ | ⟨rfl, rfl⟩ |
    ⟨rfl, rfl⟩ | ⟨rfl, rfl⟩ <;> decide

theorem weight_unicode (t : List Char) : weight ('\\' :: 'u' :: t) = 2 + weight t := by
  rw [weight_cons, weight_cons 'u' t, ← Nat.add_assoc]
  rfl

theorem bare_of_plain {c : Char} (h : c ≠ '"' ∧ c ≠ '\\' ∧ 32 ≤ c.toNat) : bare c = true := by
  have hlookup : outEscapes.lookup c = none := by
    cases hc : outEscapes.lookup c with
    | none => rfl
    | some e =>
      have hmem := mem_of_lookup hc
      simp only [outEscapes, List.mem_cons, Prod.mk.injEq, List.not_mem_nil, or_false] at hmem
      rcases hmem with ⟨rfl, -⟩ | ⟨rfl, -⟩ | ⟨rfl, -⟩ | ⟨rfl, -⟩ | ⟨rfl, -⟩ | ⟨rfl, -⟩ | ⟨rfl, -⟩
      · exact absurd rfl h.1
      · exact absurd rfl h.2.1
      all_goals exact absurd h.2.2 (by decide)
  rw [bare, hlookup, Option.isNone_none, Bool.true_and]
  exact decide_eq_true h.2.2

/-- However a string is written, its text is no lighter than the printed one. -/
theorem Spells.weight_le {s t : List Char} (h : Spells s t) :
    weight (s.flatMap escapeChar) ≤ weight t := by
  induction h with
  | nil => exact Nat.le_refl _
  | @plain c s t bare h ih =>
    rw [List.flatMap_cons, escapeChar_of_bare (bare_of_plain bare), List.singleton_append,
      weight_cons c (s.flatMap escapeChar), weight_cons c t]
    exact Nat.add_le_add_left ih _
  | @escape c e s t known h ih =>
    have hsplit : weight ('\\' :: e :: t) = weight ['\\', e] + weight t := weight_append ['\\', e] t
    rw [List.flatMap_cons, weight_append, hsplit]
    exact Nat.add_le_add (weight_escapeChar_of_mem known) ih
  | unicode c ds four value h ih =>
    rw [List.flatMap_cons, weight_append, weight_unicode, weight_append]
    have := weight_escapeChar_le c
    omega
  | surrogates c ds es high low four value pair h ih =>
    rw [List.flatMap_cons, weight_append, weight_unicode, weight_append, weight_unicode,
      weight_append]
    have := weight_escapeChar_le c
    omega

theorem Node.weight_separator {k : Kind} (n : Node k) : weight n.separator = 0 := by
  cases n <;> rfl

theorem weight_light {c : Char} (h : c ≠ '\\' ∧ c ≠ 'u') (cs : List Char) :
    weight (c :: cs) = weight cs := by
  rw [weight, weight, List.count_cons_of_ne h.1, List.count_cons_of_ne h.2]

theorem weight_quoted (t rest : List Char) :
    weight ('"' :: (t ++ '"' :: rest)) = weight t + weight rest := by
  rw [weight_light (by decide), weight_append, weight_light (by decide)]

theorem weight_element (x : Node .value) (xs : Node .elements) :
    weight (Node.element x xs).render = weight x.render + weight xs.render := by
  rw [Node.render, weight_append, weight_append, Node.weight_separator, Nat.zero_add]

theorem weight_member (key : List Char) (x : Node .value) (ms : Node .members) :
    weight (Node.member key x ms).render =
      weight (key.flatMap escapeChar) + (weight x.render + weight ms.render) := by
  have htext : (Node.member key x ms).render = '"' :: (key.flatMap escapeChar ++
      '"' :: (':' :: ' ' :: (x.render ++ (ms.separator ++ ms.render)))) := by
    rw [Node.render, quoted, List.cons_append, List.append_assoc]
    rfl
  rw [htext, weight_quoted, weight_light (by decide), weight_light (by decide), weight_append,
    weight_append, Node.weight_separator, Nat.zero_add]

/-- No text of a value is lighter than the printed one. -/
theorem Reads.weight_le {k : Kind} {n : Node k} {text : List Char} (h : Reads n text) :
    weight n.render ≤ weight text := by
  induction h with
  | space pre post blank h ih =>
    rw [weight_append, weight_append]
    omega
  | null => exact Nat.le_refl _
  | bool_true => exact Nat.le_refl _
  | bool_false => exact Nat.le_refl _
  | integral d d' equal =>
    rw [Node.render, d.weight_text]
    exact Nat.zero_le _
  | exponential d d' e equal =>
    rw [Node.render, d.weight_text]
    exact Nat.zero_le _
  | string s h =>
    rw [Node.render, quoted, weight_quoted, weight_quoted]
    exact Nat.add_le_add_right h.weight_le _
  | array h ih =>
    rw [Node.render, weight_light (by decide), weight_light (by decide), weight_append,
      weight_append]
    exact Nat.add_le_add_right ih _
  | object h ih =>
    rw [Node.render, weight_light (by decide), weight_light (by decide), weight_append,
      weight_append]
    exact Nat.add_le_add_right ih _
  | noElements => exact Nat.le_refl _
  | lastElement h ih =>
    rw [weight_element]
    exact ih
  | element h h' ih ih' =>
    rw [weight_element, weight_append, weight_light (by decide)]
    exact Nat.add_le_add ih ih'
  | noMembers => exact Nat.le_refl _
  | lastMember key blank hkey h ih =>
    rw [weight_member, weight_quoted, weight_append, weight_light (by decide)]
    have hkey := hkey.weight_le
    have hnone : weight Node.noMembers.render = 0 := rfl
    omega
  | member key key' blank hkey h h' ih ih' =>
    rw [weight_member, weight_quoted, weight_append, weight_light (by decide), weight_append,
      weight_light (by decide)]
    have hkey := hkey.weight_le
    omega

/-- The order of members has no weight. -/
theorem Same.weight_eq {k : Kind} {m n : Node k} (h : Same m n) :
    weight m.render = weight n.render := by
  induction h with
  | refl n => rfl
  | trans h h' ih ih' => exact ih.trans ih'
  | array h ih =>
    rw [Node.render, Node.render, weight_light (by decide), weight_light (by decide),
      weight_append, weight_append, ih]
  | object h ih =>
    rw [Node.render, Node.render, weight_light (by decide), weight_light (by decide),
      weight_append, weight_append, ih]
  | element h h' ih ih' => rw [weight_element, weight_element, ih, ih']
  | member key h h' ih ih' => rw [weight_member, weight_member, ih, ih']
  | swap key key' x x' ms =>
    rw [weight_member, weight_member, weight_member, weight_member]
    omega

theorem Denotes.weight_le {k : Kind} {n : Node k} {text : List Char} (h : Denotes text n) :
    weight n.render ≤ weight text := by
  obtain ⟨m, hsame, hreads⟩ := h
  exact Nat.le_trans (Nat.le_of_eq hsame.weight_eq.symm) hreads.weight_le

theorem denotes_render {k : Kind} (n : Node k) : Denotes n.render n :=
  ⟨n, .refl n, reads_render n⟩

/-! ## Texts without escapes -/

/-- Every string and every key is printed as it is. -/
def Node.bare : {k : Kind} → Node k → Bool
  | _, .string s => s.all JsonText.bare
  | _, .array xs => xs.bare
  | _, .object ms => ms.bare
  | _, .element x xs => x.bare && xs.bare
  | _, .member key x ms => key.all JsonText.bare && (x.bare && ms.bare)
  | _, _ => true

theorem escapeChar_cases (c : Char) :
    bare c = true ∧ escapeChar c = [c] ∧ c ≠ '\\' ∨
      bare c = false ∧ ∃ e rest, escapeChar c = '\\' :: e :: rest ∧
        (e = 'u' ∨ e ∈ outEscapes.map Prod.snd) ∧ '\\' ∉ rest := by
  cases hc : outEscapes.lookup c with
  | some e =>
    refine .inr ⟨by simp [bare, hc], e, [], by rw [escapeChar, hc], .inr ?_, by simp⟩
    exact List.mem_map.mpr ⟨(c, e), mem_of_lookup hc, rfl⟩
  | none =>
    by_cases hlt : c.toNat < 32
    · refine .inr ⟨?_, 'u', hex4 c.toNat, ?_, .inl rfl, ?_⟩
      · simp [bare, Nat.not_le_of_lt hlt]
      · simp only [escapeChar, hc, if_pos hlt]
      · intro hmem
        have hzero := weight_hex4 ⟨c.toNat, hlt⟩
        rw [weight, Nat.add_eq_zero_iff, List.count_eq_zero] at hzero
        exact hzero.1 hmem
    · have hbare : bare c = true := by simp [bare, hc, Nat.le_of_not_lt hlt]
      exact .inl ⟨hbare, escapeChar_of_bare hbare, (ne_of_lookup_none hc).2⟩

theorem not_mem_flatMap_escapeChar {s : List Char} :
    '\\' ∉ s.flatMap escapeChar ↔ s.all bare = true := by
  induction s with
  | nil => simp
  | cons c s ih =>
    rw [List.flatMap_cons, List.mem_append, not_or, ih, List.all_cons, Bool.and_eq_true]
    apply and_congr_left'
    rcases escapeChar_cases c with ⟨hbare, htext, hne⟩ | ⟨hbare, e, rest, htext, -⟩
    · rw [htext, hbare]
      simpa using hne.symm
    · rw [htext, hbare]
      simp

theorem not_mem_quoted {s : List Char} : '\\' ∉ quoted s ↔ s.all bare = true := by
  rw [quoted, List.mem_cons, List.mem_append, not_or, not_or, not_mem_flatMap_escapeChar]
  simp

theorem Node.not_mem_separator {k : Kind} (n : Node k) : '\\' ∉ n.separator := by
  intro hmem
  have hzero := n.weight_separator
  rw [weight, Nat.add_eq_zero_iff, List.count_eq_zero] at hzero
  exact hzero.1 hmem

/-- There is a backslash in the printed text exactly if some string or key is not bare. -/
theorem not_mem_render {k : Kind} (n : Node k) : '\\' ∉ n.render ↔ n.bare = true := by
  induction n with
  | null => decide
  | bool b => cases b <;> decide
  | number d => simpa [Node.render, Node.bare] using fun h => (d.text_ne h).1 rfl
  | string s => exact not_mem_quoted
  | array xs ih => simpa [Node.render, Node.bare] using ih
  | object ms ih => simpa [Node.render, Node.bare] using ih
  | noElements => decide
  | element x xs ihx ihxs =>
    simp [Node.render, Node.bare, Node.not_mem_separator, ihx, ihxs]
  | noMembers => decide
  | member key x ms ihx ihms =>
    simp [Node.render, Node.bare, Node.not_mem_separator, ihx, ihms, -List.all_eq_true,
      ← not_mem_quoted]

end JsonText

import Mathlib.Data.List.Basic

/-!
# Base64 in the browser

`btoa`, `atob` and the URL alphabet without padding. `atob` drops spaces, accepts a
text without its padding and does not look at the bits behind the last byte.
-/
namespace Base64Text

/-! ## Six bits at a time -/

def digits : List UInt8 → List Nat
  | [] => []
  | [a] => [a.toNat / 4, a.toNat % 4 * 16]
  | [a, b] => [a.toNat / 4, a.toNat % 4 * 16 + b.toNat / 16, b.toNat % 16 * 4]
  | a :: b :: c :: rest =>
    a.toNat / 4 :: (a.toNat % 4 * 16 + b.toNat / 16) :: (b.toNat % 16 * 4 + c.toNat / 64) ::
      c.toNat % 64 :: digits rest

def bytes : List Nat → List UInt8
  | a :: b :: c :: d :: rest =>
    UInt8.ofNat (a * 4 + b / 16) :: UInt8.ofNat (b % 16 * 16 + c / 4) ::
      UInt8.ofNat (c % 4 * 64 + d) :: bytes rest
  | [a, b, c] => [UInt8.ofNat (a * 4 + b / 16), UInt8.ofNat (b % 16 * 16 + c / 4)]
  | [a, b] => [UInt8.ofNat (a * 4 + b / 16)]
  | _ => []

attribute [local simp] digits bytes

theorem ofNat_eq {n : Nat} {b : UInt8} (h : n = b.toNat) : UInt8.ofNat n = b := by
  rw [h, UInt8.ofNat_toNat]

@[simp] theorem bytes_digits (bs : List UInt8) : bytes (digits bs) = bs := by
  induction bs using digits.induct with
  | case1 => rfl
  | case2 a =>
    have ha := a.toNat_lt
    rw [digits, bytes, ofNat_eq (b := a) (by omega)]
  | case3 a b =>
    have ha := a.toNat_lt
    have hb := b.toNat_lt
    rw [digits, bytes, ofNat_eq (b := a) (by omega), ofNat_eq (b := b) (by omega)]
  | case4 a b c rest ih =>
    have ha := a.toNat_lt
    have hb := b.toNat_lt
    have hc := c.toNat_lt
    rw [digits, bytes, ih, ofNat_eq (b := a) (by omega), ofNat_eq (b := b) (by omega),
      ofNat_eq (b := c) (by omega)]

theorem lt_of_mem_digits (bs : List UInt8) : ∀ n ∈ digits bs, n < 64 := by
  induction bs using digits.induct with
  | case1 => simp
  | case2 a =>
    have ha := a.toNat_lt
    simp only [digits, List.mem_cons, List.not_mem_nil, or_false]
    omega
  | case3 a b =>
    have ha := a.toNat_lt
    have hb := b.toNat_lt
    simp only [digits, List.mem_cons, List.not_mem_nil, or_false]
    omega
  | case4 a b c rest ih =>
    have ha := a.toNat_lt
    have hb := b.toNat_lt
    have hc := c.toNat_lt
    intro n hn
    simp only [digits, List.mem_cons] at hn
    rcases hn with hn | hn | hn | hn | hn
    · omega
    · omega
    · omega
    · omega
    · exact ih n hn

theorem length_digits (bs : List UInt8) :
    (digits bs).length = bs.length + (bs.length + 2) / 3 := by
  induction bs using digits.induct with
  | case1 => rfl
  | case2 a => simp
  | case3 a b => simp
  | case4 a b c rest ih =>
    simp only [digits, List.length_cons]
    omega

/-! ## Alphabet -/

def digit (n : Nat) : Char :=
  if n < 26 then Char.ofNat (n + 65)
  else if n < 52 then Char.ofNat (n + 71)
  else if n < 62 then Char.ofNat (n - 4)
  else if n = 62 then '+'
  else '/'

def value (c : Char) : Option Nat :=
  if 65 ≤ c.toNat ∧ c.toNat ≤ 90 then some (c.toNat - 65)
  else if 97 ≤ c.toNat ∧ c.toNat ≤ 122 then some (c.toNat - 71)
  else if 48 ≤ c.toNat ∧ c.toNat ≤ 57 then some (c.toNat + 4)
  else if c = '+' then some 62
  else if c = '/' then some 63
  else none

theorem toNat_ofNat {n : Nat} (h : n < 0xD800) : (Char.ofNat n).toNat = n := by
  have hvalid : n.isValidChar := Or.inl h
  rw [Char.ofNat, dif_pos hvalid]
  rfl

/-- Which character a digit is. -/
theorem digit_cases {n : Nat} (h : n < 64) :
    (digit n).toNat = n + 65 ∧ n < 26 ∨ (digit n).toNat = n + 71 ∧ 26 ≤ n ∧ n < 52 ∨
      (digit n).toNat = n - 4 ∧ 52 ≤ n ∧ n < 62 ∨ digit n = '+' ∧ n = 62 ∨
      digit n = '/' ∧ n = 63 := by
  unfold digit
  split
  · exact Or.inl ⟨toNat_ofNat (by omega), by omega⟩
  · split
    · exact Or.inr (Or.inl ⟨toNat_ofNat (by omega), by omega, by omega⟩)
    · split
      · exact Or.inr (Or.inr (Or.inl ⟨toNat_ofNat (by omega), by omega, by omega⟩))
      · split
        · exact Or.inr (Or.inr (Or.inr (Or.inl ⟨rfl, by omega⟩)))
        · exact Or.inr (Or.inr (Or.inr (Or.inr ⟨rfl, by omega⟩)))

theorem value_digit {n : Nat} (h : n < 64) : value (digit n) = some n := by
  unfold value
  rcases digit_cases h with ⟨hc, hn⟩ | ⟨hc, hn⟩ | ⟨hc, hn⟩ | ⟨hc, rfl⟩ | ⟨hc, rfl⟩
  · rw [hc, if_pos (by omega)]
    congr 1
  · rw [hc, if_neg (by omega), if_pos (by omega)]
    congr 1
  · rw [hc, if_neg (by omega), if_neg (by omega), if_pos (by omega)]
    congr 1
    omega
  · rw [hc]
    rfl
  · rw [hc]
    rfl

/-- No digit is a character of the padding or of the URL alphabet, or a space. -/
theorem digit_ne {n : Nat} (h : n < 64) {c : Char}
    (hc : value c = none) : digit n ≠ c := by
  rintro rfl
  rw [value_digit h] at hc
  cases hc

/-! ## `btoa` and `atob` -/

/-- `=` until the length is a multiple of four. -/
def padding (length : Nat) : List Char := List.replicate ((4 - length % 4) % 4) '='

def encode (bs : List UInt8) : List Char :=
  (digits bs).map digit ++ padding (digits bs).length

def isAsciiSpace (c : Char) : Bool := c = '\t' ∨ c = '\n' ∨ c = '\x0C' ∨ c = '\r' ∨ c = ' '

/-- One or two `=` at the end of a text of whole groups. -/
def dropPadding (cs : List Char) : List Char :=
  if cs.length % 4 = 0 then
    if ['=', '='].isSuffixOf cs then cs.take (cs.length - 2)
    else if ['='].isSuffixOf cs then cs.take (cs.length - 1)
    else cs
  else cs

def decode (text : List Char) : Option (List UInt8) :=
  let cs := dropPadding (text.filter fun c => !isAsciiSpace c)
  if cs.length % 4 = 1 then none
  else (cs.mapM value).map bytes

theorem mapM_value {ns : List Nat} (h : ∀ n ∈ ns, n < 64) :
    (ns.map digit).mapM value = some ns := by
  induction ns with
  | nil => rfl
  | cons n ns ih =>
    rw [List.map_cons, List.mapM_cons, value_digit (h n List.mem_cons_self),
      ih fun m hm => h m (List.mem_cons_of_mem n hm)]
    rfl

theorem value_space {c : Char} (h : isAsciiSpace c = true) : value c = none := by
  simp only [isAsciiSpace, decide_eq_true_eq] at h
  rcases h with rfl | rfl | rfl | rfl | rfl <;> rfl

theorem value_pad : value '=' = none := rfl

theorem mem_encode {bs : List UInt8} {c : Char} (h : c ∈ encode bs) :
    (∃ n < 64, c = digit n) ∨ c = '=' := by
  rw [encode, List.mem_append, List.mem_map] at h
  rcases h with ⟨n, hn, rfl⟩ | h
  · exact Or.inl ⟨n, lt_of_mem_digits bs n hn, rfl⟩
  · exact Or.inr (List.eq_of_mem_replicate h)

theorem filter_encode (bs : List UInt8) :
    (encode bs).filter (fun c => !isAsciiSpace c) = encode bs := by
  rw [List.filter_eq_self]
  intro c hc
  rw [Bool.not_eq_true', Bool.eq_false_iff]
  intro hspace
  have hvalue := value_space hspace
  rcases mem_encode hc with ⟨n, hn, rfl⟩ | rfl
  · rw [value_digit hn] at hvalue
    cases hvalue
  · exact absurd hspace (by decide)

theorem length_encode (bs : List UInt8) : (encode bs).length % 4 = 0 := by
  rw [encode, padding, List.length_append, List.length_map, List.length_replicate]
  omega

/-- Digits end with no padding. -/
theorem not_isSuffixOf_digits {ns : List Nat} (h : ∀ n ∈ ns, n < 64) :
    ['='].isSuffixOf (ns.map digit) = false := by
  rw [Bool.eq_false_iff]
  intro hsuffix
  have hmem : '=' ∈ ns.map digit := (List.isSuffixOf_iff_suffix.mp hsuffix).subset (by simp)
  obtain ⟨n, hn, heq⟩ := List.mem_map.mp hmem
  exact digit_ne (h n hn) value_pad heq

theorem dropPadding_encode (bs : List UInt8) :
    dropPadding (encode bs) = (digits bs).map digit := by
  have hlt := lt_of_mem_digits bs
  have hnot := not_isSuffixOf_digits hlt
  have hlen := length_digits bs
  rw [dropPadding, if_pos (length_encode bs)]
  have hcases : padding (digits bs).length = [] ∨ padding (digits bs).length = ['='] ∨
      padding (digits bs).length = ['=', '='] := by
    have hrest : (4 - (digits bs).length % 4) % 4 = 0 ∨ (4 - (digits bs).length % 4) % 4 = 1 ∨
        (4 - (digits bs).length % 4) % 4 = 2 := by omega
    rcases hrest with h | h | h
    · exact Or.inl (by rw [padding, h]; rfl)
    · exact Or.inr (Or.inl (by rw [padding, h]; rfl))
    · exact Or.inr (Or.inr (by rw [padding, h]; rfl))
  have hsingle : ∀ ds : List Char, ['='].isSuffixOf ds = false →
      ['=', '='].isSuffixOf ds = false := by
    intro ds hds
    rw [Bool.eq_false_iff] at hds ⊢
    intro htwo
    have hone : ['='] <:+ ['=', '='] := ⟨['='], rfl⟩
    exact hds (List.isSuffixOf_iff_suffix.mpr
      (hone.trans (List.isSuffixOf_iff_suffix.mp htwo)))
  rw [encode]
  rcases hcases with h | h | h
  · rw [h, List.append_nil, hsingle _ hnot, hnot]
    rfl
  · have htwo : ['=', '='].isSuffixOf ((digits bs).map digit ++ ['=']) = false := by
      rw [Bool.eq_false_iff]
      intro h2
      obtain ⟨ds, hds⟩ := List.isSuffixOf_iff_suffix.mp h2
      have heq : ds ++ ['='] = (digits bs).map digit :=
        List.append_cancel_right (by rw [List.append_assoc]; exact hds)
      rw [Bool.eq_false_iff] at hnot
      exact hnot (List.isSuffixOf_iff_suffix.mpr ⟨ds, heq⟩)
    have hone : ['='].isSuffixOf ((digits bs).map digit ++ ['=']) = true :=
      List.isSuffixOf_iff_suffix.mpr ⟨_, rfl⟩
    rw [h, htwo, hone]
    simp
  · have htwo : ['=', '='].isSuffixOf ((digits bs).map digit ++ ['=', '=']) = true :=
      List.isSuffixOf_iff_suffix.mpr ⟨_, rfl⟩
    rw [h, htwo]
    simp

@[simp] theorem decode_encode (bs : List UInt8) : decode (encode bs) = some bs := by
  have hlt := lt_of_mem_digits bs
  have hlen := length_digits bs
  have hrest : ¬ ((digits bs).map digit).length % 4 = 1 := by
    rw [List.length_map]
    omega
  rw [decode, filter_encode, dropPadding_encode, if_neg hrest, mapM_value hlt, Option.map_some,
    bytes_digits]

/-! ## The URL alphabet -/

def toUrlChar (c : Char) : Char := if c = '+' then '-' else if c = '/' then '_' else c

def ofUrlChar (c : Char) : Char := if c = '-' then '+' else if c = '_' then '/' else c

/-- `.replace(/\+/g, '-').replace(/\//g, '_').replace(/=+$/, '')`. -/
def encodeUrl (bs : List UInt8) : List Char :=
  (((encode bs).map toUrlChar).reverse.dropWhile (· = '=')).reverse

/-- The other way, padded up to a multiple of four. -/
def decodeUrl (text : List Char) : Option (List UInt8) :=
  decode (text.map ofUrlChar ++ padding text.length)

theorem ofUrlChar_toUrlChar {n : Nat} (h : n < 64) :
    ofUrlChar (toUrlChar (digit n)) = digit n := by
  have hminus : digit n ≠ '-' := digit_ne h rfl
  have hlow : digit n ≠ '_' := digit_ne h rfl
  by_cases hplus : digit n = '+'
  · rw [hplus]
    rfl
  · by_cases hslash : digit n = '/'
    · rw [hslash]
      rfl
    · rw [toUrlChar, if_neg hplus, if_neg hslash, ofUrlChar, if_neg hminus, if_neg hlow]

theorem toUrlChar_ne_pad {n : Nat} (h : n < 64) : toUrlChar (digit n) ≠ '=' := by
  have hpad : digit n ≠ '=' := digit_ne h rfl
  unfold toUrlChar
  split
  · decide
  · split
    · decide
    · exact hpad

theorem dropWhile_replicate_append {α : Type*} [DecidableEq α] (a : α) (n : Nat) {xs : List α}
    (h : ∀ x ∈ xs, x ≠ a) : (List.replicate n a ++ xs).dropWhile (· = a) = xs := by
  induction n with
  | zero =>
    cases xs with
    | nil => rfl
    | cons x xs => simp [h x List.mem_cons_self]
  | succ n ih =>
    rw [List.replicate_succ, List.cons_append, List.dropWhile_cons_of_pos (by simp), ih]

theorem encodeUrl_eq (bs : List UInt8) :
    encodeUrl bs = ((digits bs).map digit).map toUrlChar := by
  have hpad : (padding (digits bs).length).map toUrlChar = padding (digits bs).length := by
    rw [padding, List.map_replicate]
    rfl
  have hne : ∀ c ∈ (((digits bs).map digit).map toUrlChar).reverse, c ≠ '=' := by
    intro c hc
    rw [List.mem_reverse, List.map_map, List.mem_map] at hc
    obtain ⟨n, hn, rfl⟩ := hc
    exact toUrlChar_ne_pad (lt_of_mem_digits bs n hn)
  rw [encodeUrl, encode, List.map_append, hpad, List.reverse_append, padding,
    List.reverse_replicate, dropWhile_replicate_append '=' _ hne, List.reverse_reverse]

@[simp] theorem decodeUrl_encodeUrl (bs : List UInt8) : decodeUrl (encodeUrl bs) = some bs := by
  have hback : (((digits bs).map digit).map toUrlChar).map ofUrlChar = (digits bs).map digit := by
    rw [List.map_map, List.map_map]
    refine List.map_congr_left fun n hn => ?_
    exact ofUrlChar_toUrlChar (lt_of_mem_digits bs n hn)
  rw [decodeUrl, encodeUrl_eq, hback, List.length_map, List.length_map]
  exact decode_encode bs

end Base64Text

import Mathlib.Data.List.Basic

/-!
# Addresses and their texts

An address is read from dotted decimal of four fields, or from hex groups between
colons with at most one ellipsis and maybe dotted decimal at the end. A text with
a zone is not an address.
-/
namespace IpText

/-- An address in its sixteen-byte form. -/
abbrev Address := BitVec 128

/-- A four-byte address in the sixteen-byte form. -/
def ofV4 (w : BitVec 32) : Address := 0xffff#96 ++ w

/-- The four bytes of an address that has the four-byte form. -/
def to4 (a : Address) : Option (BitVec 32) :=
  if a.extractLsb' 32 96 = 0xffff#96 then some (a.setWidth 32) else none

/-! ## Dotted decimal -/

/-- The loop over the fields: the fields before this one with their number, and
the digits of this one with their value. -/
def ipv4Fields (acc : BitVec 32) (pos : Nat) : (digLen val : Nat) → List Char → Option (BitVec 32)
  | _, val, [] => if pos < 3 then none else some (acc <<< 8 ||| BitVec.ofNat 32 val)
  | digLen, val, c :: s =>
    if c.isDigit then
      if digLen = 1 ∧ val = 0 then none
      else if 255 < 10 * val + (c.toNat - 48) then none
      else ipv4Fields acc pos (digLen + 1) (10 * val + (c.toNat - 48)) s
    else if c = '.' then
      if digLen = 0 ∨ s = [] ∨ pos = 3 then none
      else ipv4Fields (acc <<< 8 ||| BitVec.ofNat 32 val) (pos + 1) 0 0 s
    else none

def parseIPv4 (s : List Char) : Option (BitVec 32) := ipv4Fields 0 0 0 0 s

/-! ## Groups of hex digits -/

def hexValue (c : Char) : Option Nat :=
  if '0' ≤ c ∧ c ≤ '9' then some (c.toNat - 48)
  else if 'a' ≤ c ∧ c ≤ 'f' then some (c.toNat - 87)
  else if 'A' ≤ c ∧ c ≤ 'F' then some (c.toNat - 55)
  else none

/-- The digits at the start of a text, at most four: their number, their value
and what is after them. -/
def hexDigits (off acc : Nat) : List Char → Option (Nat × Nat × List Char)
  | [] => some (off, acc, [])
  | c :: s =>
    match hexValue c with
    | none => some (off, acc, c :: s)
    | some d => if 3 < off then none else hexDigits (off + 1) (16 * acc + d) s

/-- The groups that are read, the place of the ellipsis among them, and the text
that is left. -/
abbrev Reading := List (BitVec 16) × Option Nat × List Char

/-- The loop over the groups, with room for some more. -/
def ipv6Groups : (room : Nat) → List (BitVec 16) → Option Nat → List Char → Option Reading
  | 0, groups, ellipsis, s => some (groups, ellipsis, s)
  | room + 1, groups, ellipsis, s =>
    match hexDigits 0 0 s with
    | none => none
    | some (off, acc, rest) =>
      if off = 0 then none
      else
        match rest with
        | [] => some (groups ++ [BitVec.ofNat 16 acc], ellipsis, [])
        | '.' :: _ =>
          -- dotted decimal takes the place of the last two groups
          if (ellipsis = none ∧ groups.length ≠ 6) ∨ room = 0 then none
          else (parseIPv4 s).map fun w =>
            (groups ++ [w.extractLsb' 16 16, w.extractLsb' 0 16], ellipsis, [])
        | [':'] => none
        | ':' :: ':' :: s' =>
          if ellipsis.isSome then none
          else if s' = [] then
            some (groups ++ [BitVec.ofNat 16 acc], some (groups.length + 1), [])
          else
            ipv6Groups room (groups ++ [BitVec.ofNat 16 acc]) (some (groups.length + 1)) s'
        | ':' :: s' => ipv6Groups room (groups ++ [BitVec.ofNat 16 acc]) ellipsis s'
        | _ => none

def ofGroups (groups : List (BitVec 16)) : Address :=
  groups.foldl (fun a g => a <<< 16 ||| g.setWidth 128) 0

/-- All of the text is read, and the ellipsis stands for at least one group. -/
def ofReading : Reading → Option Address
  | (groups, ellipsis, rest) =>
    if rest ≠ [] then none
    else if groups.length < 8 then
      ellipsis.map fun e =>
        ofGroups (groups.take e ++ List.replicate (8 - groups.length) 0 ++ groups.drop e)
    else if ellipsis.isSome then none
    else some (ofGroups groups)

def parseIPv6 : List Char → Option Address
  | [':', ':'] => some 0
  | ':' :: ':' :: s => (ipv6Groups 8 [] (some 0) s).bind ofReading
  | s => (ipv6Groups 8 [] none s).bind ofReading

/-! ## Either -/

/-- An address as its text has it, in four bytes or in sixteen. -/
inductive Addr
  | v4 (w : BitVec 32)
  | v6 (a : Address)

def Addr.as16 : Addr → Address
  | v4 w => ofV4 w
  | v6 a => a

/-- The first dot, colon or percent sign tells the form. -/
def parseAddr (s : List Char) : Option Addr :=
  match s.find? fun c => c = '.' ∨ c = ':' ∨ c = '%' with
  | some '.' => (parseIPv4 s).map Addr.v4
  | some ':' => (parseIPv6 s).map Addr.v6
  | _ => none

def parseIP (s : List Char) : Option Address := (parseAddr s).map Addr.as16

example : parseIP "::ffff:192.0.2.7".toList = parseIP "192.0.2.7".toList := by decide
example : parseIP "1:2:3:4:5:6:7:8::".toList = none := by decide

/-! ## Ranges -/

/-- A network number and its mask. -/
inductive Network
  | v4 (number mask : BitVec 32)
  | v6 (number mask : BitVec 128)

/-- As many ones as the prefix is long. -/
def cidrMask (w n : Nat) : BitVec w := BitVec.allOnes w <<< (w - n)

/-- Digits and nothing else. -/
def prefixLength (s : List Char) : Option Nat :=
  if s ≠ [] ∧ s.all Char.isDigit then
    some (s.foldl (fun n c => 10 * n + (c.toNat - 48)) 0)
  else none

/-- A network of sixteen bytes whose number has the four-byte form is one of four bytes. -/
def network6 (number mask : BitVec 128) : Network :=
  match to4 number with
  | some w => .v4 w (mask.setWidth 32)
  | none => .v6 number mask

def parseCIDR (s : List Char) : Option Network :=
  if '/' ∈ s then
    match parseAddr (s.takeWhile (· ≠ '/')), prefixLength ((s.dropWhile (· ≠ '/')).drop 1) with
    | some (.v4 w), some n =>
      if 32 < n then none else some (.v4 (w &&& cidrMask 32 n) (cidrMask 32 n))
    | some (.v6 a), some n =>
      if 128 < n then none else some (network6 (a &&& cidrMask 128 n) (cidrMask 128 n))
    | _, _ => none
  else none

/-- An address that could not be read is in no network. -/
def Network.contains (n : Network) (ip : Option Address) : Bool :=
  match n, ip with
  | _, none => false
  | .v4 number mask, some a => (to4 a).any fun w => w &&& mask = number &&& mask
  | .v6 number mask, some a => (to4 a).isNone && (a &&& mask = number &&& mask)

example : (parseCIDR "::ffff:10.0.0.0/104".toList).map (·.contains (parseIP "10.1.2.3".toList)) =
    some true := by decide

/-! ## What the texts are made of -/

theorem ipv4Fields_chars {acc : BitVec 32} {pos digLen val : Nat} {s : List Char} {w : BitVec 32}
    (h : ipv4Fields acc pos digLen val s = some w) : ∀ c ∈ s, c.isDigit = true ∨ c = '.' := by
  induction s generalizing acc pos digLen val with
  | nil => exact fun c hc => absurd hc List.not_mem_nil
  | cons c s ih =>
    rw [ipv4Fields] at h
    rw [List.forall_mem_cons]
    split_ifs at h with hdigit hzero hbig hdot hempty
    · exact ⟨.inl hdigit, ih h⟩
    · exact ⟨.inr hdot, ih h⟩

/-- Dotted decimal has no colon. -/
theorem colon_not_mem_of_parseIPv4 {s : List Char} {w : BitVec 32} (h : parseIPv4 s = some w) :
    ':' ∉ s := by
  intro hmem
  obtain hdigit | hdot := ipv4Fields_chars h ':' hmem
  · exact absurd hdigit (by decide)
  · exact absurd hdot (by decide)

theorem hexDigits_suffix {off acc n v : Nat} {s rest : List Char}
    (h : hexDigits off acc s = some (n, v, rest)) : rest <:+ s := by
  induction s generalizing off acc with
  | nil =>
    simp only [hexDigits, Option.some.injEq, Prod.mk.injEq] at h
    obtain ⟨-, -, rfl⟩ := h
    exact List.suffix_rfl
  | cons c s ih =>
    rw [hexDigits] at h
    split at h
    · simp only [Option.some.injEq, Prod.mk.injEq] at h
      obtain ⟨-, -, rfl⟩ := h
      exact List.suffix_rfl
    · split_ifs at h
      exact (ih h).trans (List.suffix_cons c s)

/-- Before the ellipsis is seen every group but the last of eight has its colon. -/
theorem two_le_colons_of_ipv6Groups {room : Nat} {groups g : List (BitVec 16)}
    {e : Option Nat} {s rest : List Char}
    (h : ipv6Groups room groups none s = some (g, e, rest))
    (hroom : groups.length + room = 8) (hfull : e = none → 8 ≤ g.length) :
    2 ≤ s.count ':' + groups.length := by
  induction room generalizing groups s with
  | zero => omega
  | succ room ih =>
    rw [ipv6Groups] at h
    split at h
    · exact nomatch h
    · next off acc left hdigits =>
      have hcount : left.count ':' ≤ s.count ':' :=
        (hexDigits_suffix hdigits).sublist.count_le ':'
      by_cases hoff : off = 0
      · rw [if_pos hoff] at h
        exact nomatch h
      rw [if_neg hoff] at h
      split at h
      · simp only [Option.some.injEq, Prod.mk.injEq] at h
        obtain ⟨rfl, rfl, -⟩ := h
        have hlen := hfull rfl
        simp only [List.length_append, List.length_singleton] at hlen
        omega
      · split_ifs at h with hplace
        have hlast : groups.length = 6 := by
          by_contra hne
          exact hplace (.inl ⟨rfl, hne⟩)
        omega
      · exact nomatch h
      · simp only [List.count_cons_self] at hcount
        omega
      · have hrest := ih h (by simp only [List.length_append, List.length_singleton]; omega)
        simp only [List.length_append, List.length_singleton] at hrest
        simp only [List.count_cons_self] at hcount
        omega
      · exact nomatch h

theorem full_of_ofReading {g : List (BitVec 16)} {e : Option Nat} {rest : List Char} {a : Address}
    (h : ofReading (g, e, rest) = some a) (he : e = none) : 8 ≤ g.length := by
  subst he
  simp only [ofReading] at h
  split_ifs at h with hrest hshort
  · exact nomatch h
  · omega

/-- Groups of hex digits need two colons, side by side or not. -/
theorem two_le_colons_of_parseIPv6 {s : List Char} {a : Address} (h : parseIPv6 s = some a) :
    2 ≤ s.count ':' := by
  unfold parseIPv6 at h
  split at h
  · decide
  · simp only [List.count_cons_self]
    omega
  · obtain ⟨⟨g, e, rest⟩, hgroups, hread⟩ := Option.bind_eq_some_iff.mp h
    have hcount := two_le_colons_of_ipv6Groups hgroups rfl (full_of_ofReading hread)
    simpa using hcount

theorem parseAddr_cases {s : List Char} {a : Addr} (h : parseAddr s = some a) :
    (∃ w, a = .v4 w ∧ parseIPv4 s = some w) ∨ ∃ b, a = .v6 b ∧ parseIPv6 s = some b := by
  unfold parseAddr at h
  split at h
  · obtain ⟨w, hw, rfl⟩ := Option.map_eq_some_iff.mp h
    exact .inl ⟨w, rfl, hw⟩
  · obtain ⟨b, hb, rfl⟩ := Option.map_eq_some_iff.mp h
    exact .inr ⟨b, rfl, hb⟩
  · exact nomatch h

/-- The colon tells the forms apart, and where there is one there are two. -/
theorem two_le_colons_of_parseAddr {s : List Char} {a : Addr} (h : parseAddr s = some a)
    (hcolon : ':' ∈ s) : 2 ≤ s.count ':' := by
  obtain ⟨w, -, hw⟩ | ⟨b, -, hb⟩ := parseAddr_cases h
  · exact absurd hcolon (colon_not_mem_of_parseIPv4 hw)
  · exact two_le_colons_of_parseIPv6 hb

/-- A bracket starts neither form. -/
theorem parseIP_bracket (s : List Char) : parseIP ('[' :: s) = none := by
  cases h : parseAddr ('[' :: s) with
  | none => rw [parseIP, h, Option.map_none]
  | some a =>
    obtain ⟨w, -, hw⟩ | ⟨b, -, hb⟩ := parseAddr_cases h
    · have hchar := ipv4Fields_chars hw '[' List.mem_cons_self
      exact absurd hchar (by decide)
    · exact nomatch (show (none : Option Address) = some b from hb)

/-! ## Characters of no address -/

/-- No digit, no dot and no colon. -/
def Foreign (c : Char) : Prop := hexValue c = none ∧ c.isDigit = false ∧ c ≠ '.' ∧ c ≠ ':'

instance (c : Char) : Decidable (Foreign c) := inferInstanceAs (Decidable (_ ∧ _))

section Foreign

variable {x : Char} (hx : Foreign x)

include hx

theorem hexDigits_foreign {off acc n v : Nat} {s rest : List Char}
    (h : hexDigits off acc s = some (n, v, rest)) (hmem : x ∈ s) : x ∈ rest := by
  induction s generalizing off acc with
  | nil => cases hmem
  | cons c s ih =>
    rw [hexDigits] at h
    split at h
    · cases h
      exact hmem
    · next d hd =>
      split_ifs at h
      have hne : x ≠ c := by
        rintro rfl
        rw [hx.1] at hd
        cases hd
      exact ih h ((List.mem_cons.1 hmem).resolve_left hne)

theorem foreign_not_mem_of_parseIPv4 {s : List Char} {w : BitVec 32} (h : parseIPv4 s = some w) :
    x ∉ s := by
  intro hmem
  obtain hdigit | hdot := ipv4Fields_chars h x hmem
  · rw [hx.2.1] at hdigit
    cases hdigit
  · exact hx.2.2.1 hdot

/-- A foreign character is never read by the loop over the groups. -/
theorem ipv6Groups_foreign {room : Nat} {groups g : List (BitVec 16)} {e e' : Option Nat}
    {s rest : List Char} (h : ipv6Groups room groups e s = some (g, e', rest)) (hmem : x ∈ s) :
    x ∈ rest := by
  have hcolon := hx.2.2.2
  induction room generalizing groups e s with
  | zero =>
    cases h
    exact hmem
  | succ room ih =>
    rw [ipv6Groups] at h
    split at h
    · cases h
    · next off acc left hdigits =>
      have hleft := hexDigits_foreign hx hdigits hmem
      by_cases hoff : off = 0
      · rw [if_pos hoff] at h
        cases h
      rw [if_neg hoff] at h
      split at h
      · cases hleft
      · split_ifs at h
        obtain ⟨w, hw, -⟩ := Option.map_eq_some_iff.1 h
        exact absurd hmem (foreign_not_mem_of_parseIPv4 hx hw)
      · cases h
      · split_ifs at h with hnone hnil
        · subst hnil
          exact absurd hleft (by simp [hcolon])
        · exact ih h (by simpa [hcolon] using hleft)
      · exact ih h (by simpa [hcolon] using hleft)
      · cases h

theorem foreign_not_mem_of_parseIPv6 {s : List Char} {a : Address} (h : parseIPv6 s = some a) :
    x ∉ s := by
  have hcolon := hx.2.2.2
  have hread {groups : List (BitVec 16)} {e : Option Nat} {t : List Char}
      (ht : (ipv6Groups 8 groups e t).bind ofReading = some a) : x ∉ t := by
    obtain ⟨⟨g, e', rest⟩, hgroups, hrest⟩ := Option.bind_eq_some_iff.1 ht
    intro hmem
    have hleft := ipv6Groups_foreign hx hgroups hmem
    rw [ofReading, if_pos (List.ne_nil_of_mem hleft)] at hrest
    cases hrest
  unfold parseIPv6 at h
  split at h
  · simpa using hcolon
  · simpa [hcolon] using hread h
  · exact hread h

theorem foreign_not_mem_of_parseAddr {s : List Char} {a : Addr} (h : parseAddr s = some a) :
    x ∉ s := by
  obtain ⟨w, -, hw⟩ | ⟨b, -, hb⟩ := parseAddr_cases h
  · exact foreign_not_mem_of_parseIPv4 hx hw
  · exact foreign_not_mem_of_parseIPv6 hx hb

end Foreign

/-- A comma is neither in the address nor in the length of a range. -/
theorem parseCIDR_comma {s : List Char} (hcomma : ',' ∈ s) : parseCIDR s = none := by
  have hafter : ∀ l : List Char, ',' ∈ l.dropWhile (· ≠ '/') →
      ',' ∈ (l.dropWhile (· ≠ '/')).drop 1 := by
    intro l
    induction l with
    | nil => exact id
    | cons c l ih =>
      by_cases hc : c = '/'
      · rw [List.dropWhile_cons_of_neg (by simp [hc]), hc]
        simp
      · rw [List.dropWhile_cons_of_pos (by simp [hc])]
        exact ih
  unfold parseCIDR
  split
  · rw [← List.takeWhile_append_dropWhile (p := (· ≠ '/')) (l := s), List.mem_append] at hcomma
    rcases hcomma with haddr | hprefix
    · cases hparse : parseAddr (s.takeWhile (· ≠ '/')) with
      | none => rfl
      | some a => exact absurd haddr (foreign_not_mem_of_parseAddr (by decide) hparse)
    · have hdigits : prefixLength ((s.dropWhile (· ≠ '/')).drop 1) = none := by
        apply if_neg
        rintro ⟨-, hall⟩
        exact absurd (List.all_eq_true.1 hall _ (hafter s hprefix)) (by decide)
      rw [hdigits]
      split
      · next heq => cases heq
      · next heq => cases heq
      · rfl
  · rfl

/-! ## The range of one address -/

theorem to4_eq_some_iff {a : Address} {w : BitVec 32} : to4 a = some w ↔ a = ofV4 w := by
  have hlow (x : Address) : x.setWidth 32 = x.extractLsb' 0 32 :=
    BitVec.setWidth_eq_extractLsb' (by decide)
  have hsplit : a.extractLsb' 32 96 ++ a.extractLsb' 0 32 = a :=
    BitVec.extractLsb'_append_extractLsb'
  unfold to4 ofV4
  rw [hlow]
  constructor
  · intro h
    split_ifs at h with hhigh
    rw [← Option.some.inj h, ← hhigh, hsplit]
  · rintro rfl
    rw [if_pos BitVec.extractLsb'_append_eq_left, BitVec.extractLsb'_append_eq_right]

theorem cidrMask_full (w : Nat) : cidrMask w w = BitVec.allOnes w := by simp [cidrMask]

/-- The range of all bits of an address holds that address alone. -/
theorem contains_full {s : List Char} {a b : Address} (hslash : '/' ∉ s)
    (h : parseIP s = some b) :
    (parseCIDR (s ++ (if ':' ∈ s then "/128".toList else "/32".toList))).any
      (·.contains (some a)) = true ↔ a = b := by
  have hne : ∀ c ∈ s, decide (c ≠ '/') = true := by
    intro c hc
    rw [decide_eq_true_eq]
    rintro rfl
    exact hslash hc
  have hbefore (n : List Char) : (s ++ '/' :: n).takeWhile (· ≠ '/') = s := by
    rw [List.takeWhile_append_of_pos hne]
    simp
  have hafter (n : List Char) : ((s ++ '/' :: n).dropWhile (· ≠ '/')).drop 1 = n := by
    rw [List.dropWhile_append_of_pos hne]
    simp
  have hmem (n : List Char) : '/' ∈ s ++ '/' :: n := by simp
  obtain ⟨addr, haddr, rfl⟩ := Option.map_eq_some_iff.1 h
  obtain ⟨w, rfl, hw⟩ | ⟨b, rfl, hb⟩ := parseAddr_cases haddr
  · have hlen : prefixLength "32".toList = some 32 := by decide
    rw [if_neg (colon_not_mem_of_parseIPv4 hw)]
    change (parseCIDR (s ++ '/' :: "32".toList)).any _ = true ↔ _
    simp only [parseCIDR, hmem, if_true, hbefore, hafter, haddr, hlen, Nat.lt_irrefl, if_false,
      cidrMask_full, BitVec.and_allOnes, Option.any_some, Network.contains, Option.any_eq_true,
      decide_eq_true_eq, to4_eq_some_iff, Addr.as16]
    constructor
    · rintro ⟨y, rfl, rfl⟩
      rfl
    · rintro rfl
      exact ⟨w, rfl, rfl⟩
  · have hlen : prefixLength "128".toList = some 128 := by decide
    rw [if_pos (List.count_pos_iff.1 (Nat.lt_of_lt_of_le Nat.zero_lt_two
      (two_le_colons_of_parseIPv6 hb)))]
    change (parseCIDR (s ++ '/' :: "128".toList)).any _ = true ↔ _
    simp only [parseCIDR, hmem, if_true, hbefore, hafter, haddr, hlen, Nat.lt_irrefl, if_false,
      cidrMask_full, BitVec.and_allOnes, Option.any_some, network6, Addr.as16]
    cases h4 : to4 b with
    | none =>
      simp only [Network.contains, BitVec.and_allOnes, Bool.and_eq_true, decide_eq_true_eq,
        Option.isNone_iff_eq_none, and_iff_right_iff_imp]
      rintro rfl
      exact h4
    | some w =>
      have hmask : BitVec.setWidth 32 (BitVec.allOnes 128) = BitVec.allOnes 32 := by decide
      simp only [hmask, Network.contains, BitVec.and_allOnes, Option.any_eq_true,
        decide_eq_true_eq, to4_eq_some_iff]
      rw [to4_eq_some_iff.1 h4]
      constructor
      · rintro ⟨y, rfl, rfl⟩
        rfl
      · rintro rfl
        exact ⟨w, rfl, rfl⟩

end IpText

import IronStock.Lib.UrlText
import Mathlib.Tactic.IntervalCases

/-!
# Texts of hosts

A host is an address or a name, and either has many texts. A resolver reads a name
without regard to the case of its letters and to a dot at its end, an address with or
without a zone, and an address of four bytes from one to four numbers, each of them
decimal, octal or hex.
-/
namespace HostText

open IpText (Address Addr ofV4 to4 parseIPv4 parseIPv6 parseIP ipv4Fields hexValue)

/-! ## Kinds of addresses -/

/-- `IP.IsLoopback`. -/
def isLoopback (a : Address) : Bool :=
  match to4 a with
  | some w => w.extractLsb' 24 8 = 127#8
  | none => a = 1#128

/-- `IP.IsLinkLocalUnicast`. -/
def isLinkLocalUnicast (a : Address) : Bool :=
  match to4 a with
  | some w => w.extractLsb' 16 16 = 0xa9fe#16
  | none => a.extractLsb' 118 10 = 0x3fa#10

/-- `IP.IsLinkLocalMulticast`. -/
def isLinkLocalMulticast (a : Address) : Bool :=
  match to4 a with
  | some w => w.extractLsb' 8 24 = 0xe00000#24
  | none => a.extractLsb' 120 8 = 0xff#8 && a.extractLsb' 112 4 = 2#4

/-- `IP.IsUnspecified`. -/
def isUnspecified (a : Address) : Bool := a = 0#128 || a = ofV4 0#32

/-- The addresses of the host itself and of its links. -/
def isLocal (a : Address) : Bool :=
  isLoopback a || isLinkLocalUnicast a || isLinkLocalMulticast a || isUnspecified a

/-! ## Numbers -/

def digitsValue (base : Nat) (s : List Char) : Nat :=
  s.foldl (fun n c => base * n + (hexValue c).getD 0) 0

/-- The digits of a number, below its base. -/
def digits (base : Nat) (s : List Char) : Option Nat :=
  if s.all fun c => (hexValue c).any (· < base) then some (digitsValue base s) else none

/-- A number is hex behind `0x`, octal behind `0`, decimal else. -/
def number : List Char → Option Nat
  | [] => none
  | ['0'] => some 0
  | '0' :: c :: s =>
    if c = 'x' ∨ c = 'X' then if s = [] then none else digits 16 s else digits 8 (c :: s)
  | s => digits 10 s

/-- Each number but the last is a byte, and the last one fills what is left. -/
def combine : (width acc : Nat) → List Nat → Option Nat
  | 0, _, _ => none
  | _, _, [] => none
  | width + 1, acc, [n] =>
    if n < 256 ^ (width + 1) then some (acc * 256 ^ (width + 1) + n) else none
  | width + 1, acc, n :: ns => if n < 256 then combine width (acc * 256 + n) ns else none

/-- `inet_aton`: one to four numbers between dots. -/
def aton (s : List Char) : Option (BitVec 32) :=
  ((s.splitOn '.').mapM number).bind fun ns => (combine 4 0 ns).map (BitVec.ofNat 32)

example : aton "127.1".toList = some 0x7f000001#32 ∧
    aton "0x7f.0.0.01".toList = some 0x7f000001#32 ∧ aton "1.2.3.4.0".toList = none := by decide

/-! ## Readings -/

/-- A dot at the end of a name is of no account. -/
def stripDot (s : List Char) : List Char :=
  if s.getLast? = some '.' ∧ s ≠ ['.'] then s.dropLast else s

/-- The address a text stands for: with colons one of sixteen bytes, maybe with a
zone, and without one of four. -/
def address (s : List Char) : Option Address :=
  if ':' ∈ s then parseIPv6 (s.takeWhile (· ≠ '%')) else (aton (stripDot s)).map ofV4

/-- The name a text stands for. -/
def name (s : List Char) : List Char := stripDot (s.map Char.toLower)

/-! ## Dotted decimal -/

theorem shiftLeft_or (n v : Nat) (hv : v < 256) :
    BitVec.ofNat 32 n <<< 8 ||| BitVec.ofNat 32 v = BitVec.ofNat 32 (n * 256 + v) := by
  apply BitVec.eq_of_toNat_eq
  have hmod : (n % 2 ^ 32) <<< 8 % 2 ^ 32 = 2 ^ 8 * (n % 2 ^ 24) := by
    rw [Nat.shiftLeft_eq]
    omega
  rw [BitVec.toNat_or, BitVec.toNat_shiftLeft, BitVec.toNat_ofNat, BitVec.toNat_ofNat,
    BitVec.toNat_ofNat, hmod, Nat.mod_eq_of_lt (show v < 2 ^ 32 by omega),
    ← Nat.two_pow_add_eq_or_of_lt (show v < 2 ^ 8 by omega)]
  omega

theorem toNat_digit {c : Char} (h : c.isDigit = true) : 48 ≤ c.toNat ∧ c.toNat < 58 := by
  simp only [Char.isDigit, ge_iff_le, Bool.and_eq_true, decide_eq_true_eq, UInt32.le_iff_toNat_le,
    Char.toNat_val] at h
  exact ⟨h.1, Nat.lt_succ_of_le h.2⟩

theorem hexValue_digit {c : Char} (h : c.isDigit = true) : hexValue c = some (c.toNat - 48) := by
  obtain ⟨hle, hlt⟩ := toNat_digit h
  have hc := Char.ofNat_toNat c
  interval_cases c.toNat <;> subst hc <;> decide

/-- The digits of a field that have been read: without a zero in front. -/
structure FieldDigits (d : List Char) (val : Nat) : Prop where
  digits : ∀ c ∈ d, c.isDigit = true
  value : digitsValue 10 d = val
  noZero : d.head? = some '0' → d = ['0']

theorem FieldDigits.nil : FieldDigits [] 0 where
  digits c hc := absurd hc List.not_mem_nil
  value := rfl
  noZero h := by cases h

theorem FieldDigits.number {d : List Char} {val : Nat} (h : FieldDigits d val) (hd : d ≠ []) :
    number d = some val := by
  have hall : (d.all fun c => (hexValue c).any (· < 10)) = true := by
    rw [List.all_eq_true]
    intro c hc
    have hdigit := h.digits c hc
    have := toNat_digit hdigit
    rw [hexValue_digit hdigit, Option.any_some, decide_eq_true_eq]
    omega
  unfold HostText.number
  split
  · exact absurd rfl hd
  · rw [← h.value]
    rfl
  · next c s =>
    have hd := h.noZero rfl
    cases hd
  · rw [HostText.digits, if_pos hall, h.value]

theorem FieldDigits.snoc {d : List Char} {val : Nat} (h : FieldDigits d val) {c : Char}
    (hc : c.isDigit = true) (hzero : ¬ (d.length = 1 ∧ val = 0)) :
    FieldDigits (d ++ [c]) (10 * val + (c.toNat - 48)) where
  digits := by
    intro x hx
    rcases List.mem_append.mp hx with hx | hx
    · exact h.digits x hx
    · exact List.mem_singleton.mp hx ▸ hc
  value := by
    have hvalue := h.value
    unfold digitsValue at hvalue ⊢
    rw [List.foldl_append, hvalue, List.foldl_cons, List.foldl_nil, hexValue_digit hc,
      Option.getD_some]
  noZero := by
    intro hhead
    cases d with
    | nil => simpa using hhead
    | cons x d =>
      have hx : (x :: d) = ['0'] := h.noZero (by simpa using hhead)
      have hval := h.value
      rw [hx] at hval hzero
      exact absurd ⟨rfl, hval.symm⟩ hzero

/-- The fields of dotted decimal are the numbers of the looser reading. -/
theorem aton_of_ipv4Fields {s : List Char} {n pos val : Nat} {d : List Char} {w : BitVec 32}
    (hd : FieldDigits d val) (hval : val < 256) (hpos : pos < 4) (hend : d = [] → s = [] → False)
    (h : ipv4Fields (BitVec.ofNat 32 n) pos d.length val s = some w) :
    ∃ ns m, ((d ++ s).splitOn '.').mapM number = some ns ∧ ns ≠ [] ∧
      combine (4 - pos) n ns = some m ∧ w = BitVec.ofNat 32 m := by
  induction s generalizing n pos val d with
  | nil =>
    rw [ipv4Fields] at h
    split_ifs at h with hlast
    cases h
    have hnd : '.' ∉ d := fun hmem => absurd (hd.digits '.' hmem) (by decide)
    have hpos3 : 4 - pos = 1 := by omega
    refine ⟨[val], n * 256 + val, ?_, List.cons_ne_nil _ _, ?_, shiftLeft_or n val hval⟩
    · rw [List.append_nil, List.splitOn_eq_singleton hnd]
      simp [hd.number fun hnil => hend hnil rfl]
    · rw [hpos3, combine]
      simp [hval]
  | cons c s ih =>
    rw [ipv4Fields] at h
    split_ifs at h with hdigit hzero hbig hdot hempty
    · have hlen : d.length + 1 = (d ++ [c]).length := by simp
      rw [hlen] at h
      obtain ⟨ns, m, hns, hne, hm, hw⟩ := ih (hd.snoc hdigit hzero) (by omega) hpos
        (fun hnil => absurd hnil (by simp)) h
      rw [List.append_assoc, List.singleton_append] at hns
      exact ⟨ns, m, hns, hne, hm, hw⟩
    · subst hdot
      rw [not_or, not_or] at hempty
      obtain ⟨hlen, hs, hpos3⟩ := hempty
      rw [shiftLeft_or n val hval] at h
      obtain ⟨ns, m, hns, hne, hm, hw⟩ := ih FieldDigits.nil (by omega) (by omega) (fun _ => hs) h
      have hnd : '.' ∉ d := fun hmem => absurd (hd.digits '.' hmem) (by decide)
      refine ⟨val :: ns, m, ?_, List.cons_ne_nil _ _, ?_, hw⟩
      · rw [List.splitOn_append_cons_self_of_not_mem hnd, List.mapM_cons,
          hd.number (fun hnil => hlen (by rw [hnil]; rfl))]
        rw [List.nil_append] at hns
        rw [hns]
        rfl
      · obtain ⟨x, ns, rfl⟩ := List.exists_cons_of_ne_nil hne
        have hwidth : 4 - pos = (4 - (pos + 1)) + 1 := by omega
        rw [hwidth, combine, if_pos hval]
        · exact hm
        · exact List.cons_ne_nil _ _

theorem aton_of_parseIPv4 {s : List Char} {w : BitVec 32} (h : parseIPv4 s = some w) :
    aton s = some w := by
  have hs : s ≠ [] := by
    rintro rfl
    cases h
  obtain ⟨ns, m, hns, _, hm, rfl⟩ :=
    aton_of_ipv4Fields (n := 0) FieldDigits.nil (by omega) (by omega) (fun _ => hs) h
  rw [List.nil_append] at hns
  rw [aton, hns, Option.bind_some, hm, Option.map_some]

theorem dot_of_ipv4Fields {acc : BitVec 32} {pos digLen val : Nat} {s : List Char} {w : BitVec 32}
    (h : ipv4Fields acc pos digLen val s = some w) : pos < 3 → '.' ∈ s := by
  induction s generalizing acc pos digLen val with
  | nil =>
    intro hpos
    rw [ipv4Fields, if_pos hpos] at h
    cases h
  | cons c s ih =>
    intro hpos
    rw [ipv4Fields] at h
    split_ifs at h with hdigit hzero hbig hdot hempty
    · exact List.mem_cons_of_mem c (ih h hpos)
    · exact hdot ▸ List.mem_cons_self

theorem getLast_of_ipv4Fields {acc : BitVec 32} {pos digLen val : Nat} {s : List Char}
    {w : BitVec 32} (h : ipv4Fields acc pos digLen val s = some w) : s.getLast? ≠ some '.' := by
  induction s generalizing acc pos digLen val with
  | nil => exact nofun
  | cons c s ih =>
    rw [ipv4Fields] at h
    split_ifs at h with hdigit hzero hbig hdot hempty
    · have hs := ih h
      cases s with
      | nil =>
        rintro hlast
        cases hlast
        exact absurd hdigit (by decide)
      | cons x s => rwa [List.getLast?_cons_cons]
    · have hs := ih h
      cases s with
      | nil => exact absurd (.inr (.inl rfl)) hempty
      | cons x s => rwa [List.getLast?_cons_cons]

/-- Dotted decimal is an address of its own. -/
theorem parseIP_of_parseIPv4 {s : List Char} {w : BitVec 32} (h : parseIPv4 s = some w) :
    parseIP s = some (ofV4 w) := by
  have hfind : (s.find? fun c => c = '.' ∨ c = ':' ∨ c = '%') = some '.' := by
    have hdot : '.' ∈ s := dot_of_ipv4Fields h (by omega)
    cases hf : s.find? fun c => c = '.' ∨ c = ':' ∨ c = '%' with
    | none =>
      have := List.find?_eq_none.mp hf '.' hdot
      simp at this
    | some c =>
      have hmark := List.find?_some hf
      rcases IpText.ipv4Fields_chars h c (List.mem_of_find?_eq_some hf) with hdigit | rfl
      · simp only [decide_eq_true_eq] at hmark
        rcases hmark with rfl | rfl | rfl <;> exact absurd hdigit (by decide)
      · rfl
  simp only [parseIP, IpText.parseAddr, hfind, h, Option.map_some, Addr.as16]

theorem stripDot_of_parseIPv4 {s : List Char} {w : BitVec 32} (h : parseIPv4 s = some w) :
    stripDot s = s :=
  if_neg fun hs => getLast_of_ipv4Fields h hs.1

/-! ## Groups of hex digits -/

/-- The digits of a group are no marks. -/
theorem find_of_hexDigits {off acc n v : Nat} {s rest : List Char}
    (h : IpText.hexDigits off acc s = some (n, v, rest)) :
    (s.find? fun c => c = '.' ∨ c = ':' ∨ c = '%') =
      rest.find? fun c => c = '.' ∨ c = ':' ∨ c = '%' := by
  induction s generalizing off acc with
  | nil =>
    cases h
    rfl
  | cons c s ih =>
    rw [IpText.hexDigits] at h
    split at h
    · cases h
      rfl
    · next d hd =>
      split_ifs at h
      have hc : ¬ (c = '.' ∨ c = ':' ∨ c = '%') := by
        intro hmark
        have hnone : hexValue c = none := by
          rcases hmark with rfl | rfl | rfl <;> decide
        rw [hnone] at hd
        cases hd
      rw [List.find?_cons_of_neg (by simpa using hc)]
      exact ih h

/-- The first mark of an address of sixteen bytes is a colon. -/
theorem parseIP_of_parseIPv6 {s : List Char} {a : Address} (h : parseIPv6 s = some a) :
    parseIP s = some a := by
  have hfind : (s.find? fun c => c = '.' ∨ c = ':' ∨ c = '%') = some ':' := by
    unfold parseIPv6 at h
    split at h
    · rfl
    · rfl
    · obtain ⟨⟨g, e, rest⟩, hgroups, hread⟩ := Option.bind_eq_some_iff.mp h
      rw [IpText.ipv6Groups] at hgroups
      split at hgroups
      · cases hgroups
      · next off acc left hdigits =>
        rw [find_of_hexDigits hdigits]
        by_cases hoff : off = 0
        · rw [if_pos hoff] at hgroups
          cases hgroups
        rw [if_neg hoff] at hgroups
        split at hgroups
        · cases hgroups
          cases hread
        · rw [if_pos (Or.inl ⟨rfl, by decide⟩)] at hgroups
          cases hgroups
        · cases hgroups
        · rfl
        · rfl
        · cases hgroups
  simp only [parseIP, IpText.parseAddr, hfind, h, Option.map_some, Addr.as16]

/-- A host that is an address in its own notation stands for it. -/
theorem address_of_parseIP {s : List Char} {a : Address} (h : parseIP s = some a) :
    address s = some a := by
  obtain ⟨b, hb, rfl⟩ := Option.map_eq_some_iff.mp h
  obtain ⟨w, rfl, hw⟩ | ⟨a, rfl, ha⟩ := IpText.parseAddr_cases hb
  · rw [address, if_neg (IpText.colon_not_mem_of_parseIPv4 hw), stripDot_of_parseIPv4 hw,
      aton_of_parseIPv4 hw]
    rfl
  · have hcolon : ':' ∈ s := by
      have := IpText.two_le_colons_of_parseIPv6 ha
      exact List.count_pos_iff.mp (by omega)
    have hzone : '%' ∉ s := IpText.foreign_not_mem_of_parseIPv6 (by decide) ha
    have hwhole : s.takeWhile (· ≠ '%') = s :=
      congrArg Prod.fst (UrlText.cut_of_not_mem hzone)
    rw [address, if_pos hcolon, hwhole, ha]
    rfl

end HostText

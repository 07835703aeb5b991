import IronStock.Lib.UrlPaths

/-!
# Paths that are kept escaped

A request line holds a path as a client wrote it. A server keeps the decoded path, and
the written one beside it unless that is how it would escape the path itself. What a
segment says is decoded by whoever reads it, from bytes that may be decoded already.
-/
namespace UrlText

open IpText (hexValue)

/-! ## Decoding bytes -/

def byteValue (b : UInt8) : Option Nat := hexValue (Char.ofNat b.toNat)

/-- `decode` of a text that is given by its bytes. -/
def decodeBytes : Bytes → Option Bytes
  | [] => some []
  | b :: s =>
    if b = 37 then
      match s with
      | x :: y :: s =>
        match byteValue x, byteValue y with
        | some a, some b => (decodeBytes s).map (UInt8.ofNat (16 * a + b) :: ·)
        | _, _ => none
      | _ => none
    else (decodeBytes s).map (b :: ·)

theorem decodeBytes_cons {b : UInt8} (hb : b ≠ 37) (s : Bytes) :
    decodeBytes (b :: s) = (decodeBytes s).map (b :: ·) := by
  rw [decodeBytes.eq_def]
  simp only [if_neg hb]

theorem decodeBytes_escape (x y : UInt8) (s : Bytes) :
    decodeBytes (37 :: x :: y :: s) =
      match byteValue x, byteValue y with
      | some a, some b => (decodeBytes s).map (UInt8.ofNat (16 * a + b) :: ·)
      | _, _ => none := by
  rw [decodeBytes, if_pos rfl]

theorem decodeBytes_append {a : Bytes} (ha : 37 ∉ a) (s : Bytes) :
    decodeBytes (a ++ s) = (decodeBytes s).map (a ++ ·) := by
  induction a with
  | nil => simp
  | cons b a ih =>
    rw [List.mem_cons, not_or] at ha
    rw [List.cons_append, decodeBytes_cons (Ne.symm ha.1), ih ha.2, Option.map_map]
    rfl

theorem percent_not_mem {c : Char} (hc : c ≠ '%') : 37 ∉ String.utf8EncodeChar c := by
  intro h
  by_cases hlt : c.toNat < 0x80
  · rw [utf8EncodeChar_of_lt hlt, List.mem_singleton] at h
    have hnat : c.toNat = 37 := by
      have h' := congrArg UInt8.toNat h
      rw [UInt8.toNat_ofNat'] at h'
      change 37 = _ at h'
      omega
    exact hc (by rw [← Char.ofNat_toNat c, hnat])
  · exact absurd (le_of_mem_utf8EncodeChar (Nat.le_of_not_lt hlt) h) (by decide)

theorem byteValue_of_lt {c : Char} (h : c.toNat < 0x80) :
    byteValue (UInt8.ofNat c.toNat) = hexValue c := by
  rw [byteValue, UInt8.toNat_ofNat', Nat.mod_eq_of_lt (by omega), Char.ofNat_toNat]

theorem hexValue_of_le {c : Char} (h : 0x80 ≤ c.toNat) : hexValue c = none := by
  have hgt {d : Char} (hd : d.toNat < 0x80) : ¬ c ≤ d := by
    intro hle
    have hnat : c.toNat ≤ d.toNat := hle
    omega
  rw [hexValue, if_neg (fun hc => hgt (by decide) hc.2), if_neg (fun hc => hgt (by decide) hc.2),
    if_neg (fun hc => hgt (by decide) hc.2)]

/-- No byte of a character that is not ASCII is a digit. -/
theorem byteValue_of_le {b : UInt8} (h : 0x80 ≤ b.toNat) : byteValue b = none := by
  have hvalid : b.toNat.isValidChar := .inl (by have := b.toNat_lt; omega)
  have hnat : (Char.ofNat b.toNat).toNat = b.toNat := by
    rw [Char.ofNat, dif_pos hvalid]
    rfl
  exact hexValue_of_le (by rw [hnat]; exact h)

/-- The bytes of a character: one, which has the value of the character as a digit, or
several, of which none has one. -/
theorem utf8EncodeChar_digits (c : Char) :
    (∃ b, String.utf8EncodeChar c = [b] ∧ byteValue b = hexValue c) ∨
      ∃ b b' bs, String.utf8EncodeChar c = b :: b' :: bs ∧ byteValue b = none ∧
        hexValue c = none := by
  by_cases hlt : c.toNat < 0x80
  · exact .inl ⟨_, utf8EncodeChar_of_lt hlt, byteValue_of_lt hlt⟩
  · have hle := Nat.le_of_not_lt hlt
    have hlength : 2 ≤ (String.utf8EncodeChar c).length := by
      simp only [String.utf8EncodeChar, Char.toNat_val, if_neg (show ¬ c.toNat ≤ 127 by omega)]
      split
      · simp
      · split <;> simp
    match hbytes : String.utf8EncodeChar c with
    | [] | [_] => simp [hbytes] at hlength
    | b :: b' :: bs =>
      have hb : 0x80 ≤ b.toNat := le_of_mem_utf8EncodeChar hle (by simp [hbytes])
      exact .inr ⟨b, b', bs, rfl, byteValue_of_le hb, hexValue_of_le hle⟩

theorem decodeBytes_encode (s : List Char) : decodeBytes (encode s) = decode s := by
  induction s using decode_cases with
  | nil => rfl
  | char c s hc ih =>
    rw [encode_cons, decodeBytes_append (percent_not_mem hc), ih, decode_cons hc]
  | escape x y s ih =>
    rw [decode_escape]
    have hpercent : encode ('%' :: x :: y :: s) =
        37 :: (String.utf8EncodeChar x ++ (String.utf8EncodeChar y ++ encode s)) := rfl
    rw [hpercent]
    rcases utf8EncodeChar_digits x with ⟨a, hx, ha⟩ | ⟨a, a', as, hx, ha, hnone⟩
    · rw [hx, ← ha]
      rcases utf8EncodeChar_digits y with ⟨b, hy, hb⟩ | ⟨b, b', bs, hy, hb, hnone⟩
      · rw [hy, ← hb, ← ih]
        exact decodeBytes_escape a b (encode s)
      · rw [hy, hnone]
        refine (decodeBytes_escape a b _).trans ?_
        rw [hb]
        cases byteValue a <;> rfl
    · rw [hx, hnone]
      refine (decodeBytes_escape a a' _).trans ?_
      rw [ha]
  | percent => decide
  | one x =>
    have hpercent : encode ['%', x] = 37 :: (String.utf8EncodeChar x ++ []) := rfl
    rw [decode_percent_one, hpercent]
    rcases utf8EncodeChar_digits x with ⟨a, hx, -⟩ | ⟨a, a', as, hx, ha, -⟩
    · rw [hx]
      rfl
    · rw [hx]
      refine (decodeBytes_escape a a' _).trans ?_
      rw [ha]

/-! ## Escaping a path -/

/-- The marks that a path may hold as they are. -/
def pathMarks : List Char :=
  ['-', '_', '.', '~', '$', '&', '+', ',', '/', ':', ';', '=', '@']

def pathChar (c : Char) : Bool := c.isAlphanum || pathMarks.contains c

def upperDigit (n : Nat) : Char := Char.ofNat (if n < 10 then 48 + n else 55 + n)

def escapeByte (b : UInt8) : List Char :=
  if b.toNat < 0x80 ∧ pathChar (Char.ofNat b.toNat) then [Char.ofNat b.toNat]
  else ['%', upperDigit (b.toNat / 16), upperDigit (b.toNat % 16)]

/-- A path as the server itself would write it. -/
def escapePath (b : Bytes) : List Char := b.flatMap escapeByte

/-- The two paths of a URL; the written one is empty where it is the default. -/
structure KeptPath where
  path : Bytes
  rawPath : List Char

def keepPath (s : List Char) : Option KeptPath :=
  (decode s).map fun path => ⟨path, if s = escapePath path then [] else s⟩

/-- The bytes of the path that is routed: the written one if it is there. -/
def KeptPath.routed (p : KeptPath) : Bytes := if p.rawPath = [] then p.path else encode p.rawPath

@[simp] theorem escapePath_append (a b : Bytes) :
    escapePath (a ++ b) = escapePath a ++ escapePath b := List.flatMap_append

theorem plain_of_all {s : List Char}
    (h : s.all (fun c => c.toNat < 0x80 ∧ pathChar c = true) = true) :
    ∀ c ∈ s, c.toNat < 0x80 ∧ pathChar c = true :=
  fun c hc => of_decide_eq_true (List.all_eq_true.mp h c hc)

/-- A text of characters that a path may hold is escaped to itself. -/
theorem escapePath_encode {s : List Char} (h : ∀ c ∈ s, c.toNat < 0x80 ∧ pathChar c = true) :
    escapePath (encode s) = s := by
  induction s with
  | nil => rfl
  | cons c s ih =>
    obtain ⟨hlt, hchar⟩ := h c List.mem_cons_self
    have hnat : (UInt8.ofNat c.toNat).toNat = c.toNat := by
      rw [UInt8.toNat_ofNat', Nat.mod_eq_of_lt (by omega)]
    have hbyte : escapePath (String.utf8EncodeChar c) = [c] := by
      rw [utf8EncodeChar_of_lt hlt, escapePath, List.flatMap_singleton, escapeByte, hnat,
        Char.ofNat_toNat, if_pos ⟨hlt, hchar⟩]
    rw [encode_cons, escapePath_append, hbyte, ih fun d hd => h d (List.mem_cons_of_mem c hd)]
    rfl

theorem slash_mem_escapePath {b : Bytes} (h : 47 ∈ b) : '/' ∈ escapePath b :=
  List.mem_flatMap.mpr ⟨47, h, by decide⟩

theorem encode_ne_nil {s : List Char} (h : s ≠ []) : encode s ≠ [] := by
  obtain ⟨c, s, rfl⟩ := List.exists_cons_of_ne_nil h
  exact List.ne_nil_of_length_pos (length_encode_pos c s)

/-- What is decoded does not depend on the slashes that are written. -/
theorem keepPath_append {s e : List Char} {k : Bytes}
    (hs : ∀ c ∈ s, c.toNat < 0x80 ∧ pathChar c = true) (he : decode e = some k) :
    keepPath (s ++ e) =
      some ⟨encode s ++ k, if e = escapePath k then [] else s ++ e⟩ := by
  have hpercent : '%' ∉ s := by
    intro hmem
    exact absurd (hs _ hmem).2 (by decide)
  have hsame : s ++ e = escapePath (encode s ++ k) ↔ e = escapePath k := by
    rw [escapePath_append, escapePath_encode hs, List.append_cancel_left_eq]
  rw [keepPath, decode_append (decode_of_not_mem hpercent), he, Option.map_some, Option.map_some]
  simp only [hsame]

end UrlText

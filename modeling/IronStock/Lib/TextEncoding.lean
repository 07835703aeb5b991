import Mathlib.Data.List.Basic

/-!
# UTF-8 as browsers read and write it

The encoder and the decoder of the Encoding standard. The decoder never fails: what
is not UTF-8 becomes U+FFFD, and a byte order mark in front is dropped.
-/
namespace TextEncoding

def replacement : Char := '\uFFFD'
def byteOrderMark : Char := '\uFEFF'

/-- `new TextEncoder().encode`. -/
def encode (s : String) : List UInt8 := s.toList.flatMap String.utf8EncodeChar

/-! ## Decoder -/

/-- A character whose last bytes are still to come: its code point so far, and
between which bounds the next byte is. -/
structure Pending where
  codePoint : Nat
  bytesNeeded : Nat
  lower : Nat
  upper : Nat

/-- A byte in front of a character: the characters it completes, and what it begins. -/
def lead (byte : Nat) : List Char × Option Pending :=
  if byte ≤ 0x7F then ([Char.ofNat byte], none)
  else if 0xC2 ≤ byte ∧ byte ≤ 0xDF then ([], some ⟨byte % 0x20, 1, 0x80, 0xBF⟩)
  else if 0xE0 ≤ byte ∧ byte ≤ 0xEF then
    ([], some ⟨byte % 0x10, 2, if byte = 0xE0 then 0xA0 else 0x80,
      if byte = 0xED then 0x9F else 0xBF⟩)
  else if 0xF0 ≤ byte ∧ byte ≤ 0xF4 then
    ([], some ⟨byte % 0x08, 3, if byte = 0xF0 then 0x90 else 0x80,
      if byte = 0xF4 then 0x8F else 0xBF⟩)
  else ([replacement], none)

/-- One more byte. A byte out of bounds is an error, and then read again. -/
def step (pending : Option Pending) (byte : Nat) : List Char × Option Pending :=
  match pending with
  | none => lead byte
  | some p =>
    if p.lower ≤ byte ∧ byte ≤ p.upper then
      let codePoint := p.codePoint * 0x40 + byte % 0x40
      if p.bytesNeeded = 1 then ([Char.ofNat codePoint], none)
      else ([], some ⟨codePoint, p.bytesNeeded - 1, 0x80, 0xBF⟩)
    else (replacement :: (lead byte).1, (lead byte).2)

def decodeFrom : Option Pending → List UInt8 → List Char
  | none, [] => []
  | some _, [] => [replacement]
  | pending, b :: bs =>
    (step pending b.toNat).1 ++ decodeFrom (step pending b.toNat).2 bs

def dropMark : List Char → List Char
  | [] => []
  | c :: cs => if c = byteOrderMark then cs else c :: cs

/-- `new TextDecoder().decode`. -/
def decode (bytes : List UInt8) : String := String.ofList (dropMark (decodeFrom none bytes))

/-! ## Round trip -/

attribute [local simp] decodeFrom

theorem toNat_ofNat {n : Nat} (h : n < 256) : (UInt8.ofNat n).toNat = n := by
  rw [UInt8.toNat_ofNat']
  omega

theorem isValid_toNat (c : Char) : c.toNat < 0xD800 ∨ 0xDFFF < c.toNat ∧ c.toNat < 0x110000 :=
  c.valid

theorem step_more {codePoint needed lower upper byte : Nat} (hlow : lower ≤ byte)
    (hup : byte ≤ upper) (hmore : needed ≠ 1) :
    step (some ⟨codePoint, needed, lower, upper⟩) byte =
      ([], some ⟨codePoint * 0x40 + byte % 0x40, needed - 1, 0x80, 0xBF⟩) := by
  simp [step, hlow, hup, hmore]

theorem step_last {codePoint lower upper byte : Nat} (hlow : lower ≤ byte)
    (hup : byte ≤ upper) :
    step (some ⟨codePoint, 1, lower, upper⟩) byte =
      ([Char.ofNat (codePoint * 0x40 + byte % 0x40)], none) := by
  simp [step, hlow, hup]

theorem decodeFrom_one {v : Nat} (hv : v ≤ 0x7F) (rest : List UInt8) :
    decodeFrom none (UInt8.ofNat v :: rest) = Char.ofNat v :: decodeFrom none rest := by
  rw [decodeFrom, toNat_ofNat (by omega)]
  simp [step, lead, hv]

theorem decodeFrom_two {v : Nat} (hlow : 0x7F < v) (hup : v ≤ 0x7FF) (rest : List UInt8) :
    decodeFrom none (UInt8.ofNat (v / 64 % 0x20 + 0xC0) :: UInt8.ofNat (v % 0x40 + 0x80) :: rest) =
      Char.ofNat v :: decodeFrom none rest := by
  have hlead : lead (v / 64 % 0x20 + 0xC0) = ([], some ⟨v / 64, 1, 0x80, 0xBF⟩) := by
    rw [lead, if_neg (by omega), if_pos (by omega)]
    congr
    omega
  have hlast := @step_last (v / 64) 0x80 0xBF (v % 0x40 + 0x80) (by omega) (by omega)
  have hvalue : v / 64 * 0x40 + (v % 0x40 + 0x80) % 0x40 = v := by omega
  rw [decodeFrom, toNat_ofNat (by omega), step, hlead, decodeFrom, toNat_ofNat (by omega), hlast,
    hvalue]
  rfl

theorem decodeFrom_three {v : Nat} (hlow : 0x7FF < v) (hup : v ≤ 0xFFFF)
    (hvalid : v < 0xD800 ∨ 0xDFFF < v) (rest : List UInt8) :
    decodeFrom none (UInt8.ofNat (v / 4096 % 0x10 + 0xE0) :: UInt8.ofNat (v / 64 % 0x40 + 0x80) ::
        UInt8.ofNat (v % 0x40 + 0x80) :: rest) =
      Char.ofNat v :: decodeFrom none rest := by
  -- the bounds of the second byte leave out what is too long and what is a surrogate
  have hlead : ∃ lower upper, lead (v / 4096 % 0x10 + 0xE0) =
      ([], some ⟨v / 4096, 2, lower, upper⟩) ∧ lower ≤ v / 64 % 0x40 + 0x80 ∧
        v / 64 % 0x40 + 0x80 ≤ upper := by
    rw [lead, if_neg (by omega), if_neg (by omega), if_pos (by omega)]
    have hcode : (v / 4096 % 0x10 + 0xE0) % 0x10 = v / 4096 := by omega
    rw [hcode]
    refine ⟨_, _, rfl, ?_, ?_⟩
    · split <;> omega
    · split <;> omega
  obtain ⟨lower, upper, hlead, hlo, hhi⟩ := hlead
  have hmore := @step_more (v / 4096) 2 lower upper (v / 64 % 0x40 + 0x80) hlo hhi (by decide)
  have hcode : v / 4096 * 0x40 + (v / 64 % 0x40 + 0x80) % 0x40 = v / 64 := by omega
  rw [hcode] at hmore
  have hlast := @step_last (v / 64) 0x80 0xBF (v % 0x40 + 0x80) (by omega) (by omega)
  have hvalue : v / 64 * 0x40 + (v % 0x40 + 0x80) % 0x40 = v := by omega
  rw [decodeFrom, toNat_ofNat (by omega), step, hlead, decodeFrom, toNat_ofNat (by omega), hmore,
    decodeFrom, toNat_ofNat (by omega), hlast, hvalue]
  rfl

theorem decodeFrom_four {v : Nat} (hlow : 0xFFFF < v) (hup : v < 0x110000) (rest : List UInt8) :
    decodeFrom none (UInt8.ofNat (v / 262144 % 0x08 + 0xF0) ::
        UInt8.ofNat (v / 4096 % 0x40 + 0x80) :: UInt8.ofNat (v / 64 % 0x40 + 0x80) ::
        UInt8.ofNat (v % 0x40 + 0x80) :: rest) =
      Char.ofNat v :: decodeFrom none rest := by
  have hlead : ∃ lower upper, lead (v / 262144 % 0x08 + 0xF0) =
      ([], some ⟨v / 262144, 3, lower, upper⟩) ∧ lower ≤ v / 4096 % 0x40 + 0x80 ∧
        v / 4096 % 0x40 + 0x80 ≤ upper := by
    rw [lead, if_neg (by omega), if_neg (by omega), if_neg (by omega), if_pos (by omega)]
    have hcode : (v / 262144 % 0x08 + 0xF0) % 0x08 = v / 262144 := by omega
    rw [hcode]
    refine ⟨_, _, rfl, ?_, ?_⟩
    · split <;> omega
    · split <;> omega
  obtain ⟨lower, upper, hlead, hlo, hhi⟩ := hlead
  have hfirst := @step_more (v / 262144) 3 lower upper (v / 4096 % 0x40 + 0x80) hlo hhi (by decide)
  have hcode : v / 262144 * 0x40 + (v / 4096 % 0x40 + 0x80) % 0x40 = v / 4096 := by omega
  rw [hcode] at hfirst
  have hsecond := @step_more (v / 4096) 2 0x80 0xBF (v / 64 % 0x40 + 0x80) (by omega) (by omega)
    (by decide)
  have hcode' : v / 4096 * 0x40 + (v / 64 % 0x40 + 0x80) % 0x40 = v / 64 := by omega
  rw [hcode'] at hsecond
  have hlast := @step_last (v / 64) 0x80 0xBF (v % 0x40 + 0x80) (by omega) (by omega)
  have hvalue : v / 64 * 0x40 + (v % 0x40 + 0x80) % 0x40 = v := by omega
  rw [decodeFrom, toNat_ofNat (by omega), step, hlead, decodeFrom, toNat_ofNat (by omega), hfirst,
    decodeFrom, toNat_ofNat (by omega), hsecond, decodeFrom, toNat_ofNat (by omega), hlast, hvalue]
  rfl

theorem decodeFrom_char (c : Char) (rest : List UInt8) :
    decodeFrom none (String.utf8EncodeChar c ++ rest) = c :: decodeFrom none rest := by
  have hvalid := isValid_toNat c
  have hc : Char.ofNat c.val.toNat = c := Char.ofNat_toNat c
  have hv : c.val.toNat = c.toNat := rfl
  unfold String.utf8EncodeChar
  dsimp only
  split
  · next h =>
    exact (decodeFrom_one h rest).trans (by rw [hc])
  · next h₁ =>
    split
    · next h₂ =>
      exact (decodeFrom_two (by omega) h₂ rest).trans (by rw [hc])
    · next h₂ =>
      split
      · next h₃ =>
        exact (decodeFrom_three (by omega) h₃ (by omega) rest).trans (by rw [hc])
      · next h₃ =>
        exact (decodeFrom_four (by omega) (by omega) rest).trans (by rw [hc])

theorem decodeFrom_encode (cs : List Char) :
    decodeFrom none (cs.flatMap String.utf8EncodeChar) = cs := by
  induction cs with
  | nil => rfl
  | cons c cs ih => rw [List.flatMap_cons, decodeFrom_char, ih]

/-- What was encoded is decoded, but for a byte order mark. -/
theorem decode_encode (s : String) : decode (encode s) = String.ofList (dropMark s.toList) := by
  rw [decode, encode, decodeFrom_encode]

theorem decode_encode_of_head {s : String} (h : s.toList.head? ≠ some byteOrderMark) :
    decode (encode s) = s := by
  rw [decode_encode]
  cases hs : s.toList with
  | nil => rw [dropMark, ← hs, String.ofList_toList]
  | cons c cs =>
    rw [hs] at h
    have hc : c ≠ byteOrderMark := by simpa using h
    rw [dropMark, if_neg hc, ← hs, String.ofList_toList]

end TextEncoding

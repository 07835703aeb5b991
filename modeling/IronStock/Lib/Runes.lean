import Mathlib.Data.List.Basic

/-!
# Texts of runes

A Go string, or a line of a file, need not be UTF-8. `utf8.DecodeRune` reads it as
characters and as the bytes that begin none.
-/
namespace Runes

inductive Rune
  | char (c : Char)
  | byte (b : UInt8)
deriving DecidableEq

abbrev Text := List Rune

/-- `unicode.IsSpace`. -/
def Rune.isSpace : Rune → Bool
  | .char c =>
    [9, 10, 11, 12, 13, 0x20, 0x85, 0xA0, 0x1680, 0x2028, 0x2029, 0x202F, 0x205F,
      0x3000].contains c.toNat || (0x2000 ≤ c.toNat && c.toNat ≤ 0x200A)
  | .byte _ => false

/-- `strings.TrimSpace`. -/
def trimSpace (t : Text) : Text :=
  (((t.dropWhile Rune.isSpace).reverse).dropWhile Rune.isSpace).reverse

def ofString (s : String) : Text := s.toList.map .char

def Rune.char? : Rune → Option Char
  | .char c => some c
  | .byte _ => none

/-- The characters of a text that is UTF-8. -/
def toString? (t : Text) : Option String := (t.mapM Rune.char?).map String.ofList

theorem mapM_char? (cs : List Char) : (cs.map Rune.char).mapM Rune.char? = some cs := by
  induction cs with
  | nil => rfl
  | cons c cs ih =>
    rw [List.map_cons, List.mapM_cons, ih]
    rfl

@[simp] theorem toString?_ofString (s : String) : toString? (ofString s) = some s := by
  rw [toString?, ofString, mapM_char?, Option.map_some, String.ofList_toList]

theorem eq_of_mapM_char? {t : Text} {cs : List Char} (h : t.mapM Rune.char? = some cs) :
    t = cs.map .char := by
  induction t generalizing cs with
  | nil =>
    obtain rfl : [] = cs := Option.some.inj h
    rfl
  | cons r t ih =>
    rw [List.mapM_cons] at h
    obtain ⟨c, hc, h⟩ := Option.bind_eq_some_iff.mp h
    obtain ⟨cs', hcs, h⟩ := Option.bind_eq_some_iff.mp h
    obtain rfl := Option.some.inj h
    cases r with
    | char d =>
      obtain rfl := Option.some.inj hc
      rw [List.map_cons, ← ih hcs]
    | byte b => cases hc

/-- A text is UTF-8 exactly if it is the text of a string. -/
theorem toString?_eq_some {t : Text} {s : String} : toString? t = some s ↔ t = ofString s := by
  constructor
  · intro h
    obtain ⟨cs, hcs, rfl⟩ := Option.map_eq_some_iff.mp h
    rw [ofString, String.toList_ofList]
    exact eq_of_mapM_char? hcs
  · rintro rfl
    exact toString?_ofString s

end Runes

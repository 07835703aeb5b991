import Mathlib.Algebra.Group.Nat.Defs
import Mathlib.Data.List.Basic

/-!
# Identifiers and how PostgreSQL reads them

Handlers pass identifiers as the text the client sent and let the `::uuid`
cast read them. The cast accepts more than one spelling (upper case, braces,
other places for the dashes), while `id::text` always prints the canonical
one, so comparing texts is not comparing identifiers.
-/
namespace IronStock

/-- A uuid value: its 32 hexadecimal digits. -/
structure Uuid where
  digits : List (Fin 16)
  length_digits : digits.length = 32
deriving DecidableEq

namespace Uuid

def hexValue (c : Char) : Option (Fin 16) :=
  let n := c.toNat
  if 48 ≤ n ∧ n ≤ 57 then some (Fin.ofNat 16 (n - 48))
  else if 97 ≤ n ∧ n ≤ 102 then some (Fin.ofNat 16 (n - 87))
  else if 65 ≤ n ∧ n ≤ 70 then some (Fin.ofNat 16 (n - 55))
  else none

def hexDigit (d : Fin 16) : Char :=
  if d.val < 10 then Char.ofNat (48 + d.val) else Char.ofNat (87 + d.val)

@[simp] theorem hexValue_hexDigit : ∀ d : Fin 16, hexValue (hexDigit d) = some d := by decide

theorem hexDigit_ne_brace : ∀ d : Fin 16, hexDigit d ≠ '{' := by decide

def skipDash : List Char → List Char
  | '-' :: cs => cs
  | cs => cs

@[simp] theorem skipDash_dash (cs : List Char) : skipDash ('-' :: cs) = cs := rfl

@[simp] theorem skipDash_digit (d : Fin 16) (cs : List Char) :
    skipDash (hexDigit d :: cs) = hexDigit d :: cs := by
  have hne : ∀ d : Fin 16, hexDigit d ≠ '-' := by decide
  unfold skipDash
  split
  · next heq =>
    simp only [List.cons.injEq] at heq
    exact absurd heq.1 (hne d)
  · rfl

/-- Reads `n` more bytes, with an optional dash after each even number of
bytes but not after the last one (`uuid_in`). -/
def readBytes : Nat → List Char → Option (List (Fin 16) × List Char)
  | 0, cs => some ([], cs)
  | n + 1, a :: b :: cs =>
    match hexValue a, hexValue b with
    | some x, some y =>
      match readBytes n (if n % 2 = 0 ∧ 0 < n then skipDash cs else cs) with
      | some (ds, rest) => some (x :: y :: ds, rest)
      | none => none
    | _, _ => none
  | _ + 1, _ => none

theorem readBytes_digits (n : Nat) (x y : Fin 16) (cs : List Char) :
    readBytes (n + 1) (hexDigit x :: hexDigit y :: cs) =
      (readBytes n (if n % 2 = 0 ∧ 0 < n then skipDash cs else cs)).map
        fun r => (x :: y :: r.1, r.2) := by
  simp only [readBytes, hexValue_hexDigit]
  cases readBytes n (if n % 2 = 0 ∧ 0 < n then skipDash cs else cs) <;> rfl

def ofDigits (ds : List (Fin 16)) : Option Uuid :=
  if h : ds.length = 32 then some ⟨ds, h⟩ else none

@[simp] theorem ofDigits_digits (u : Uuid) : ofDigits u.digits = some u := by
  simp [ofDigits, u.length_digits]

/-- The canonical text, `id::text`. -/
def text (u : Uuid) : String :=
  let cs := u.digits.map hexDigit
  String.ofList (cs.take 8 ++ '-' :: ((cs.drop 8).take 4 ++ '-' :: ((cs.drop 12).take 4 ++
    '-' :: ((cs.drop 16).take 4 ++ '-' :: cs.drop 20))))

/-- A uuid from a small number, for concrete states. -/
def ofNat (n : Nat) : Uuid where
  digits := (List.range 32).map fun i => Fin.ofNat 16 (n / 16 ^ (31 - i))
  length_digits := by simp

end Uuid

/-- The cast `$n::uuid` of a text parameter. -/
def castUuid (s : String) : Option Uuid :=
  match s.toList with
  | '{' :: cs =>
    match Uuid.readBytes 16 cs with
    | some (ds, ['}']) => Uuid.ofDigits ds
    | _ => none
  | cs =>
    match Uuid.readBytes 16 cs with
    | some (ds, []) => Uuid.ofDigits ds
    | _ => none

private theorem readBytes_text_aux (l : List (Fin 16)) (h : l.length = 32) :
    Uuid.readBytes 16 ((l.map Uuid.hexDigit).take 8 ++ '-' ::
      (((l.map Uuid.hexDigit).drop 8).take 4 ++ '-' :: (((l.map Uuid.hexDigit).drop 12).take 4 ++
        '-' :: (((l.map Uuid.hexDigit).drop 16).take 4 ++ '-' :: (l.map Uuid.hexDigit).drop 20))))
      = some (l, []) := by
  match l, h with
  | [a0, a1, a2, a3, a4, a5, a6, a7, a8, a9, a10, a11, a12, a13, a14, a15,
     a16, a17, a18, a19, a20, a21, a22, a23, a24, a25, a26, a27, a28, a29, a30, a31], _ =>
    simp [Uuid.readBytes_digits, Uuid.readBytes]

/-- Reading back the canonical text gives the identifier. -/
@[simp] theorem castUuid_text (u : Uuid) : castUuid u.text = some u := by
  have hread := readBytes_text_aux u.digits u.length_digits
  obtain ⟨d, ds, hd⟩ : ∃ d ds, u.digits = d :: ds := by
    cases h : u.digits with
    | nil => have := u.length_digits; simp [h] at this
    | cons d ds => exact ⟨d, ds, rfl⟩
  unfold castUuid Uuid.text
  simp only [String.toList_ofList]
  split
  · next heq =>
    simp only [hd, List.map_cons, List.take_succ_cons, List.cons_append, List.cons.injEq] at heq
    exact absurd heq.1 (Uuid.hexDigit_ne_brace d)
  · rw [hread]
    simp

theorem Uuid.text_injective {u v : Uuid} (h : u.text = v.text) : u = v := by
  have hc := castUuid_text u
  rw [h, castUuid_text] at hc
  simpa using hc.symm

@[simp] theorem castUuid_empty : castUuid "" = none := by decide

theorem Uuid.text_ne_empty (u : Uuid) : u.text ≠ "" := by
  intro h
  have hc := castUuid_text u
  rw [h, castUuid_empty] at hc
  cases hc

/-- Another spelling of the same identifier. -/
example : castUuid "{0000000000000000-0000-0000-0000-000A}" = some (Uuid.ofNat 10) := by decide

end IronStock

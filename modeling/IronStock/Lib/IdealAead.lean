import Mathlib.Data.List.Basic

/-!
# Ideal authenticated encryption

A scheme of authenticated encryption with associated data, and the ideal it is
compared with: a ciphertext opens under one key, one nonce and one associated data,
and then to what was sealed.
-/
namespace IdealAead

structure Scheme (κ ν α π γ : Type*) where
  encrypt : κ → ν → π → α → γ
  decrypt : κ → ν → γ → α → Option π

variable {κ ν α π γ : Type*}

/-- Nothing opens but what was sealed, and what was sealed shows under which key,
nonce and associated data. -/
structure Ideal (S : Scheme κ ν α π γ) : Prop where
  decrypt_eq_some : ∀ k n c a p, S.decrypt k n c a = some p ↔ c = S.encrypt k n p a
  encrypt_inj : ∀ k n p a k' n' p' a', S.encrypt k n p a = S.encrypt k' n' p' a' →
    k = k' ∧ n = n' ∧ p = p' ∧ a = a'

namespace Ideal

variable {S : Scheme κ ν α π γ}

theorem decrypt_encrypt (h : Ideal S) (k : κ) (n : ν) (p : π) (a : α) :
    S.decrypt k n (S.encrypt k n p a) a = some p :=
  (h.decrypt_eq_some k n _ a p).mpr rfl

/-- Under another associated data nothing opens, whatever the key and the nonce. -/
theorem decrypt_of_ne (h : Ideal S) {a a' : α} (ha : a ≠ a') (k k' : κ) (n n' : ν) (p : π) :
    S.decrypt k' n' (S.encrypt k n p a) a' = none := by
  apply Option.eq_none_iff_forall_ne_some.mpr
  intro p' hopen
  have hsame := (h.decrypt_eq_some k' n' _ a' p').mp hopen
  exact ha (h.encrypt_inj k n p a k' n' p' a' hsame).2.2.2

theorem decrypt_encrypt_eq [DecidableEq α] (h : Ideal S) (k : κ) (n : ν) (p : π) (a a' : α) :
    S.decrypt k n (S.encrypt k n p a) a' = if a = a' then some p else none := by
  by_cases ha : a = a'
  · rw [if_pos ha, ← ha]
    exact h.decrypt_encrypt k n p a
  · rw [if_neg ha]
    exact h.decrypt_of_ne ha k k n n p

end Ideal

/-! ## An ideal scheme on lists -/

section Tagged

variable {β : Type*}

/-- The list with every entry announced, and an end. -/
def delimit (more stop : β) : List β → List β
  | [] => [stop]
  | b :: bs => more :: b :: delimit more stop bs

theorem delimit_append_inj {more stop : β} (hne : more ≠ stop) (xs ys : List β)
    {rest rest' : List β} (h : delimit more stop xs ++ rest = delimit more stop ys ++ rest') :
    xs = ys ∧ rest = rest' := by
  induction xs generalizing ys with
  | nil =>
    cases ys with
    | nil => exact ⟨rfl, List.append_cancel_left h⟩
    | cons y ys => exact absurd (List.head_eq_of_cons_eq h).symm hne
  | cons x xs ih =>
    cases ys with
    | nil => exact absurd (List.head_eq_of_cons_eq h) hne
    | cons y ys =>
      simp only [delimit, List.cons_append, List.cons.injEq, true_and] at h
      obtain ⟨hxy, htail⟩ := ih ys h.2
      exact ⟨by rw [h.1, hxy], htail⟩

/-- Key, nonce and associated data written out in front of the plaintext. -/
def header (more stop : β) (k n a : List β) : List β :=
  delimit more stop k ++ (delimit more stop n ++ delimit more stop a)

variable [DecidableEq β]

def tagged (more stop : β) : Scheme (List β) (List β) (List β) (List β) (List β) where
  encrypt k n p a := header more stop k n a ++ p
  decrypt k n c a :=
    if (header more stop k n a).isPrefixOf c then some (c.drop (header more stop k n a).length)
    else none

theorem tagged_ideal {more stop : β} (hne : more ≠ stop) : Ideal (tagged more stop) where
  decrypt_eq_some k n c a p := by
    simp only [tagged, Option.ite_none_right_eq_some, List.isPrefixOf_iff_prefix,
      Option.some.injEq]
    constructor
    · rintro ⟨⟨rest, rfl⟩, rfl⟩
      rw [List.drop_left]
    · rintro rfl
      exact ⟨List.prefix_append _ p, List.drop_left⟩
  encrypt_inj k n p a k' n' p' a' h := by
    simp only [tagged, header, List.append_assoc] at h
    obtain ⟨hk, h⟩ := delimit_append_inj hne k k' h
    obtain ⟨hn, h⟩ := delimit_append_inj hne n n' h
    obtain ⟨ha, hp⟩ := delimit_append_inj hne a a' h
    exact ⟨hk, hn, hp, ha⟩

end Tagged

end IdealAead

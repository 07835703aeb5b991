import IronStock.FolderHandlers

/-!
# Statuses a handler never answers with

A sequence of checks avoids a status if each of them does.
-/
namespace IronStock

@[simp] theorem status_badRequest (message : String) : (badRequest message).status = 400 := rfl
@[simp] theorem status_internalError (message : String) :
    (internalError message).status = 500 := rfl

namespace Reply

variable {α β : Type} {n : Nat}

/-- No error of this status is answered. -/
def Avoids (n : Nat) (r : Reply α) : Prop := ∀ e, r = .error e → e.status ≠ n

@[simp] theorem avoids_error {e : ApiError} : Avoids n (.error e : Reply α) ↔ e.status ≠ n := by
  constructor
  · intro h
    exact h e rfl
  · rintro h _ ⟨⟩
    exact h

@[simp] theorem avoids_ok (a : α) : Avoids n (.ok a : Reply α) := by
  intro e h
  cases h

@[simp] theorem avoids_pure (a : α) : Avoids n (pure a : Reply α) := avoids_ok a

@[simp] theorem avoids_bind {r : Reply α} {f : α → Reply β} :
    Avoids n (r >>= f) ↔ Avoids n r ∧ ∀ a, r = .ok a → Avoids n (f a) := by
  cases r with
  | error e =>
    have hbind : (Except.error e >>= f : Reply β) = .error e := rfl
    simp [hbind]
  | ok a =>
    have hbind : (Except.ok a >>= f : Reply β) = f a := rfl
    simp [hbind]

@[simp] theorem avoids_map {r : Reply α} {f : α → β} : Avoids n (f <$> r) ↔ Avoids n r := by
  cases r with
  | error e =>
    have hmap : (f <$> Except.error e : Reply β) = .error e := rfl
    simp [hmap]
  | ok a =>
    have hmap : (f <$> Except.ok a : Reply β) = .ok (f a) := rfl
    simp [hmap]

@[simp] theorem avoids_require {p : Prop} [Decidable p] {e : ApiError} :
    Avoids n (require p e) ↔ p ∨ e.status ≠ n := by
  by_cases hp : p <;> simp [require, hp]

@[simp] theorem avoids_orElse {o : Option α} {e : ApiError} :
    Avoids n (orElse o e) ↔ o.isSome = true ∨ e.status ≠ n := by
  cases o <;> simp [orElse]

theorem avoids_unlessAdmin {claims : Claims} {check : Reply Unit} (h : Avoids n check) :
    Avoids n (unlessAdmin claims check) := by
  simp only [unlessAdmin]
  split
  · exact avoids_ok ()
  · exact h

@[simp] theorem avoids_statement {r : Except PgError α} {message : String} (h : 500 ≠ n) :
    Avoids n (statement r message) := by
  cases r <;> simp [statement, h]

end Reply

end IronStock

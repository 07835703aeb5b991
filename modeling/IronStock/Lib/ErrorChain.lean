import Mathlib.Data.List.Basic

/-!
# Errors that wrap errors

An error has a value and the errors it wraps, each of which may wrap others. A
target asks for the first error, the outer before the inner and in order, whose
value answers it.
-/
namespace ErrorChain

variable {α β : Type*}

inductive Wrapped (α : Type*)
  | mk (value : α) (inner : List (Wrapped α))

namespace Wrapped

/-- An error that wraps nothing. -/
def bare (a : α) : Wrapped α := ⟨a, []⟩

/-- One more error around another. -/
def wrap (a : α) (e : Wrapped α) : Wrapped α := ⟨a, [e]⟩

/-! ## The first error that answers -/

mutual
/-- What the first error answers whose value answers the target. -/
def as (target : α → Option β) : Wrapped α → Option β
  | ⟨a, inner⟩ => (target a).or (asAny target inner)

def asAny (target : α → Option β) : List (Wrapped α) → Option β
  | [] => none
  | e :: es => (e.as target).or (asAny target es)
end

mutual
/-- The values of the tree, in the order in which they are asked. -/
def values : Wrapped α → List α
  | ⟨a, inner⟩ => a :: valuesAny inner

def valuesAny : List (Wrapped α) → List α
  | [] => []
  | e :: es => e.values ++ valuesAny es
end

mutual
theorem as_eq_findSome? (target : α → Option β) :
    (e : Wrapped α) → e.as target = e.values.findSome? target
  | ⟨a, inner⟩ => by
    have hinner := asAny_eq_findSome? target inner
    rw [as, values, List.findSome?_cons, hinner]
    cases target a <;> rfl

theorem asAny_eq_findSome? (target : α → Option β) :
    (es : List (Wrapped α)) → asAny target es = (valuesAny es).findSome? target
  | [] => rfl
  | e :: es => by
    have he := as_eq_findSome? target e
    have hes := asAny_eq_findSome? target es
    rw [asAny, valuesAny, List.findSome?_append, he, hes]
end

theorem as_eq_none {target : α → Option β} {e : Wrapped α} (h : ∀ a ∈ e.values, target a = none) :
    e.as target = none := by
  rw [as_eq_findSome?, List.findSome?_eq_none_iff]
  exact h

@[simp] theorem values_bare (a : α) : (bare a).values = [a] := rfl

@[simp] theorem values_wrap (a : α) (e : Wrapped α) : (wrap a e).values = a :: e.values := by
  rw [wrap, values, valuesAny, valuesAny, List.append_nil]

end Wrapped

end ErrorChain

import Mathlib.Data.List.Basic

/-!
# Transactions that abort

A relational transaction as a script of statements under a schema. A statement
that names a column the schema does not have, or violates a constraint, aborts
the transaction: its writes are lost, and whatever follows in it fails too, the
commit included. The program stops at an error or passes over it.
-/
namespace Transactions

variable {ν σ ε : Type*}

structure Statement (ν σ : Type*) where
  /-- the columns it names -/
  names : List ν
  /-- the write, from what the transaction sees, unless a constraint fails -/
  write : σ → Option (σ → σ)

/-- A statement with the error the program stops with if it fails, unless the
program does not look. -/
structure Line (ν σ ε : Type*) where
  statement : Statement ν σ
  onError : Option ε

/-- A transaction under way: its writes so far, or nothing once it is aborted. -/
structure Script (ν σ ε : Type*) where
  writes : Option (σ → σ)
  lines : List (Line ν σ ε)
  commitError : ε

def Statement.isKnown (schema : ν → Bool) (st : Statement ν σ) : Bool := st.names.all schema

/-- The writes of the transaction after one more statement. -/
def Statement.exec (schema : ν → Bool) (s : σ) (st : Statement ν σ) :
    Option (σ → σ) → Option (σ → σ)
  | none => none
  | some w => if st.isKnown schema then (st.write (w s)).map (· ∘ w) else none

namespace Script

/-- `BEGIN`. -/
def start (lines : List (Line ν σ ε)) (commitError : ε) : Script ν σ ε :=
  ⟨some id, lines, commitError⟩

/-- The next statement, or the commit. -/
def step (schema : ν → Bool) (s : σ) (p : Script ν σ ε) : σ × (Script ν σ ε ⊕ Except ε Unit) :=
  match p.lines with
  | [] =>
    match p.writes with
    | none => (s, .inr (.error p.commitError))
    | some w => (w s, .inr (.ok ()))
  | l :: rest =>
    match l.statement.exec schema s p.writes, l.onError with
    | none, some e => (s, .inr (.error e))
    | writes, _ => (s, .inl { p with writes := writes, lines := rest })

variable {schema : ν → Bool} {s : σ} {p : Script ν σ ε}

/-- Nothing is written before the commit, and nothing by a script that fails. -/
theorem step_fst_of_ne_ok (h : (p.step schema s).2 ≠ .inr (.ok ())) : (p.step schema s).1 = s := by
  unfold step at h ⊢
  split at h
  · split at h
    · rfl
    · exact absurd rfl h
  · split <;> rfl

/-- The script is aborted or will be. -/
def Doomed (schema : ν → Bool) (p : Script ν σ ε) : Prop :=
  p.writes = none ∨ ∃ l ∈ p.lines, l.statement.isKnown schema = false

theorem doomed_of_mem {l : Line ν σ ε} (hl : l ∈ p.lines)
    (h : l.statement.isKnown schema = false) : Doomed schema p := .inr ⟨l, hl, h⟩

theorem exec_of_unknown {st : Statement ν σ} (h : st.isKnown schema = false)
    (w : Option (σ → σ)) : st.exec schema s w = none := by
  cases w with
  | none => rfl
  | some w => simp [Statement.exec, h]

/-- A doomed script stays doomed until it fails. -/
theorem Doomed.step (h : Doomed schema p) (s : σ) :
    (∃ p', p.step schema s = (s, .inl p') ∧ Doomed schema p') ∨
      ∃ e, p.step schema s = (s, .inr (.error e)) := by
  unfold Script.step
  cases hlines : p.lines with
  | nil =>
    have hwrites : p.writes = none := by
      rcases h with h | ⟨l, hl, _⟩
      · exact h
      · rw [hlines] at hl
        cases hl
    exact .inr ⟨p.commitError, by simp only [hwrites]⟩
  | cons l rest =>
    have hrest : l.statement.exec schema s p.writes = none ∨
        ∃ l' ∈ rest, l'.statement.isKnown schema = false := by
      rcases h with h | ⟨l', hl', hunknown⟩
      · exact .inl (by rw [h]; rfl)
      · rw [hlines] at hl'
        rcases List.mem_cons.mp hl' with rfl | hl'
        · exact .inl (exec_of_unknown hunknown p.writes)
        · exact .inr ⟨l', hl', hunknown⟩
    dsimp only
    cases hexec : l.statement.exec schema s p.writes with
    | none =>
      cases l.onError with
      | none => exact .inl ⟨{ p with writes := none, lines := rest }, rfl, .inl rfl⟩
      | some e => exact .inr ⟨e, rfl⟩
    | some w =>
      rw [hexec] at hrest
      refine .inl ⟨{ p with writes := some w, lines := rest }, rfl, .inr ?_⟩
      exact hrest.resolve_left (by simp)

end Script

end Transactions

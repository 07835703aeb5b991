import Mathlib.Data.List.Basic

/-!
# The text of a SQL statement

The lexer of the server, as far as it decides which numbered parameters a
statement has. A `$` before a digit begins a parameter, a second `$` begins a
quoted text that ends at the next `$$`. Comments, quoted identifiers and quotes
with a tag are left out.
-/
namespace SqlText

/-- Where the lexer is: in the statement, in a literal, behind a `$`, in the number
of a parameter, in a text between `$$` and `$$`, or behind a `$` in it. -/
inductive Mode
  | text
  | literal
  | dollar
  | param (n : Nat)
  | quoted
  | quotedDollar
deriving DecidableEq

/-- A character of the statement itself. -/
def Mode.ofText (c : Char) : Mode :=
  if c = '$' then .dollar else if c = '\'' then .literal else .text

/-- One character, with the parameter that it ends. -/
def step : Mode → Char → Option (Mode × List Nat)
  | .text, c => some (.ofText c, [])
  | .literal, c => some (if c = '\'' then .text else .literal, [])
  | .dollar, c =>
    if c = '$' then some (.quoted, [])
    else if c.isDigit then some (.param (c.toNat - 48), [])
    else none
  | .param n, c =>
    if c.isDigit then some (.param (n * 10 + (c.toNat - 48)), []) else some (.ofText c, [n])
  | .quoted, c => some (if c = '$' then .quotedDollar else .quoted, [])
  | .quotedDollar, c => some (if c = '$' then .text else .quoted, [])

def run : Mode → List Char → Option (Mode × List Nat)
  | m, [] => some (m, [])
  | m, c :: cs =>
    (step m c).bind fun s => (run s.1 cs).map fun r => (r.1, s.2 ++ r.2)

/-- The parameters of a statement in the order they are met, its text in pieces. A
literal or a quote that is not closed is refused. -/
def params (sql : List String) : Option (List Nat) :=
  match run .text (sql.flatMap String.toList) with
  | some (.text, ns) => some ns
  | some (.param n, ns) => some (ns ++ [n])
  | _ => none

/-- The server takes the statement together with `args` values for its parameters. -/
def isPrepared (sql : List String) (args : Nat) : Bool :=
  (params sql).any fun ns =>
    ns.all (fun n => 1 ≤ n && n ≤ args) && (List.range args).all fun k => ns.contains (k + 1)

example : params ["id = $2 AND n != '$' LIMIT $1", "0"] = some [2, 10] := by decide

theorem run_append (m : Mode) (s t : List Char) :
    run m (s ++ t) = (run m s).bind fun r => (run r.1 t).map fun r' => (r'.1, r.2 ++ r'.2) := by
  induction s generalizing m with
  | nil => simp [run]
  | cons c s ih =>
    rw [List.cons_append, run, run]
    cases step m c with
    | none => rfl
    | some a =>
      simp only [Option.bind_some, ih]
      cases run a.1 s with
      | none => rfl
      | some r =>
        simp only [Option.bind_some, Option.map_some, Option.map_map]
        congr 1
        funext r'
        simp [List.append_assoc]

/-- Pieces that leave the lexer in the statement. -/
theorem params_append {sql : List String} {ns : List Nat}
    (h : run .text (sql.flatMap String.toList) = some (.text, ns)) (rest : List String) :
    params (sql ++ rest) = (params rest).map (ns ++ ·) := by
  rw [params, params, List.flatMap_append, run_append, h, Option.bind_some]
  cases run .text (rest.flatMap String.toList) with
  | none => rfl
  | some r =>
    obtain ⟨m, more⟩ := r
    cases m <;> simp

end SqlText

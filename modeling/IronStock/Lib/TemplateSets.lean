import Mathlib.Logic.Function.Basic

/-!
# Template sets

The templates of one set share their names: a later definition of a name takes the place of
an earlier one, unless it is blank, and a call looks its name up when it is executed.
-/
namespace TemplateSets

variable {δ : Type}

/-- A text, or what an action makes of the data if it does not fail. -/
inductive Piece (δ : Type)
  | text (s : String)
  | action (run : δ → Option String)

abbrev Block (δ : Type) := List (Piece δ)

inductive Node (δ : Type)
  | piece (p : Piece δ)
  | template (name : String)

abbrev Body (δ : Type) := List (Node δ)

def Block.body (b : Block δ) : Body δ := b.map .piece

/-- White space. -/
def isSpace (c : Char) : Bool :=
  [9, 10, 11, 12, 13, 0x20, 0x85, 0xA0, 0x1680, 0x2028, 0x2029, 0x202F, 0x205F,
    0x3000].contains c.toNat || (0x2000 ≤ c.toNat && c.toNat ≤ 0x200A)

def Node.isBlank : Node δ → Bool
  | .piece (.text s) => s.toList.all isSpace
  | _ => false

def Body.isBlank (body : Body δ) : Bool := body.all Node.isBlank

abbrev TemplateSet (δ : Type) := String → Option (Body δ)

/-- A definition in a set; a blank one does not replace another. -/
def define (S : TemplateSet δ) (name : String) (body : Body δ) : TemplateSet δ :=
  if (S name).isSome ∧ body.isBlank then S else Function.update S name (some body)

/-! ## Execution -/

def Piece.render (d : δ) : Piece δ → Option String
  | .text s => some s
  | .action run => run d

/-- The nodes of a body in turn; `call` executes a template by its name. -/
def walk (call : String → Option String) (d : δ) : Body δ → Option String
  | [] => some ""
  | node :: rest =>
    let head :=
      match node with
      | .piece p => p.render d
      | .template name => call name
    head.bind fun s => (walk call d rest).map (s ++ ·)

/-- A body executed with so many levels of calls left. -/
def exec (S : TemplateSet δ) : Nat → Body δ → δ → Option String
  | 0, body, d => walk (fun _ => none) d body
  | depth + 1, body, d => walk (fun name => (S name).bind fun b => exec S depth b d) d body

def maxExecDepth : Nat := 100000

/-- `ExecuteTemplate`. -/
def execute (S : TemplateSet δ) (name : String) (d : δ) : Option String :=
  (S name).bind fun body => exec S maxExecDepth body d

def Block.render (b : Block δ) (d : δ) : Option String := walk (fun _ => none) d b.body

/-! ## Definitions -/

section define

variable {S : TemplateSet δ} {name other : String} {body : Body δ}

theorem define_of_ne (h : other ≠ name) : define S name body other = S other := by
  unfold define
  split
  · rfl
  · exact Function.update_of_ne h _ _

theorem define_self (h : body.isBlank = false) : define S name body name = some body := by
  rw [define, if_neg (by simp [h]), Function.update_self]

end define

/-- The block in effect after another definition of its name. -/
def follow (current : Option (Block δ)) (b : Block δ) : Block δ :=
  match current with
  | none => b
  | some c => if b.body.isBlank then c else b

/-- Of the blocks that were given one name, the one in effect: the last that is not blank. -/
def inEffect (blocks : List (Block δ)) : Option (Block δ) :=
  blocks.foldl (fun current b => some (follow current b)) none

theorem follow_follow (current : Option (Block δ)) (b : Block δ) :
    follow (some (follow current b)) b = follow current b := by
  cases current with
  | none => exact ite_self b
  | some c =>
    by_cases hblank : b.body.isBlank = true
    · rw [follow, if_pos hblank]
    · simp only [follow, if_neg hblank]

theorem inEffect_concat (blocks : List (Block δ)) (b : Block δ) :
    inEffect (blocks ++ [b]) = some (follow (inEffect blocks) b) := by
  rw [inEffect, List.foldl_append]
  rfl

theorem exists_inEffect {blocks : List (Block δ)} (h : blocks ≠ []) :
    ∃ b, inEffect blocks = some b := by
  rw [← List.dropLast_concat_getLast h]
  exact ⟨_, inEffect_concat _ _⟩

theorem define_follow {S : TemplateSet δ} {name : String} {current : Option (Block δ)}
    (h : S name = current.map Block.body) (b : Block δ) :
    define S name b.body name = some (follow current b).body := by
  cases current with
  | none =>
    rw [define, h, if_neg (by simp), Function.update_self]
    rfl
  | some c =>
    by_cases hblank : b.body.isBlank = true
    · rw [define, if_pos ⟨by rw [h]; rfl, hblank⟩, h, follow, if_pos hblank]
      rfl
    · rw [define_self (Bool.eq_false_iff.mpr hblank), follow, if_neg hblank]

/-! ## What a body renders -/

theorem walk_congr {call call' : String → Option String} {d : δ} {body : Body δ}
    (h : ∀ name, .template name ∈ body → call name = call' name) :
    walk call d body = walk call' d body := by
  induction body with
  | nil => rfl
  | cons node rest ih =>
    have hrest := ih fun name hname => h name (List.mem_cons_of_mem _ hname)
    cases node with
    | piece p => rw [walk, walk, hrest]
    | template name => rw [walk, walk, hrest, h name List.mem_cons_self]

/-- A block calls nothing, whatever the set. -/
theorem exec_block (S : TemplateSet δ) (depth : Nat) (b : Block δ) (d : δ) :
    exec S depth b.body d = b.render d := by
  have hcalls : ∀ call : String → Option String, walk call d b.body = b.render d := by
    intro call
    apply walk_congr
    intro name hname
    obtain ⟨p, -, hp⟩ := List.mem_map.mp hname
    cases hp
  cases depth with
  | zero => exact hcalls _
  | succ depth => exact hcalls _

/-- A body that calls blocks renders what they render in their places. -/
theorem exec_calls {S : TemplateSet δ} {depth : Nat} {body : Body δ} (block : Block δ) {d : δ}
    (h : ∀ name, .template name ∈ body → S name = some block.body) :
    exec S (depth + 1) body d = walk (fun _ => block.render d) d body := by
  rw [exec]
  apply walk_congr
  intro name hname
  rw [h name hname, Option.bind_some, exec_block]

end TemplateSets

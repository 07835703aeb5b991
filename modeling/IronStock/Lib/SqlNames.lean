import Mathlib.Data.List.Basic

/-!
# Names in SQL statements

A schema is what a list of migrations leaves: a table has the columns it was
created with and those added later. A SELECT names its tables under aliases and
its columns through them. The server looks the names up before it reads a row,
so a statement that names a missing column fails in every state.
-/
namespace SqlNames

/-- Each table with its columns. -/
abbrev Schema := List (String × List String)

namespace Schema
variable (s : Schema)

def hasTable (table : String) : Bool := s.any fun t => t.1 = table

def hasColumn (table column : String) : Bool := s.any fun t => t.1 = table ∧ column ∈ t.2

end Schema

/-! ## Migrations -/

inductive Ddl
  | createTable (table : String) (columns : List String)
  | addColumn (table column : String)

namespace Ddl

def apply (s : Schema) : Ddl → Schema
  | createTable table columns => s ++ [(table, columns)]
  | addColumn table column => s.map fun t => if t.1 = table then (t.1, t.2 ++ [column]) else t

/-- The statement gives the table this column. -/
def declares (table column : String) : Ddl → Bool
  | createTable t columns => t = table ∧ column ∈ columns
  | addColumn t c => t = table ∧ c = column

end Ddl

/-- The schema after the migrations. -/
def migrate (ds : List Ddl) : Schema := ds.foldl Ddl.apply []

theorem hasColumn_apply {s : Schema} {d : Ddl} {table column : String}
    (h : (d.apply s).hasColumn table column = true) :
    s.hasColumn table column = true ∨ d.declares table column = true := by
  cases d with
  | createTable t columns =>
    simp only [Ddl.apply, Schema.hasColumn, List.any_append, Bool.or_eq_true] at h
    rcases h with h | h
    · exact .inl h
    · exact .inr (by simpa [Ddl.declares] using h)
  | addColumn t c =>
    simp only [Ddl.apply, Schema.hasColumn, List.any_map, List.any_eq_true, Function.comp_apply,
      decide_eq_true_eq] at h
    obtain ⟨e, he, hname, hcol⟩ := h
    by_cases het : e.1 = t
    · rw [if_pos het] at hname hcol
      change e.1 = table at hname
      rcases List.mem_append.mp hcol with hold | hnew
      · exact .inl (List.any_eq_true.mpr ⟨e, he, by simp [hname, hold]⟩)
      · have hc : column = c := List.mem_singleton.mp hnew
        exact .inr (by simp [Ddl.declares, ← het, hname, hc])
    · rw [if_neg het] at hname hcol
      exact .inl (List.any_eq_true.mpr ⟨e, he, by simp [hname, hcol]⟩)

/-- A table has no column that no migration gives it. -/
theorem hasColumn_migrate {ds : List Ddl} {table column : String}
    (h : (migrate ds).hasColumn table column = true) :
    ∃ d ∈ ds, d.declares table column = true := by
  have hfold : ∀ (ds : List Ddl) (s : Schema),
      (ds.foldl Ddl.apply s).hasColumn table column = true →
        s.hasColumn table column = true ∨ ∃ d ∈ ds, d.declares table column = true := by
    intro ds
    induction ds with
    | nil => exact fun s h => .inl h
    | cons d ds ih =>
      intro s h
      rcases ih _ h with h | ⟨d', hd', hdecl⟩
      · rcases hasColumn_apply h with h | h
        · exact .inl h
        · exact .inr ⟨d, List.mem_cons_self, h⟩
      · exact .inr ⟨d', List.mem_cons_of_mem _ hd', hdecl⟩
  rcases hfold ds [] h with h | h
  · cases h
  · exact h

/-! ## Statements -/

/-- The names of a SELECT: `table AS alias` for each table, and `alias.column`
for each reference, in the order the server meets them. -/
structure Select where
  tables : List (String × String)
  refs : List (String × String)

inductive NameError
  | undefinedTable (table : String)
  | missingFromEntry (qualifier : String)
  | undefinedColumn (qualifier column : String)
deriving DecidableEq

namespace Select
variable (q : Select) (s : Schema)

/-- The table an alias stands for. -/
def tableOf (qualifier : String) : Option String :=
  (q.tables.find? fun t => t.1 = qualifier).map Prod.snd

def tableError (t : String × String) : Option NameError :=
  if s.hasTable t.2 then none else some (.undefinedTable t.2)

def refError (r : String × String) : Option NameError :=
  match q.tableOf r.1 with
  | none => some (.missingFromEntry r.1)
  | some table => if s.hasColumn table r.2 then none else some (.undefinedColumn r.1 r.2)

/-- The names that are missing: tables first, then references. -/
def nameErrors : List NameError :=
  q.tables.filterMap (tableError s) ++ q.refs.filterMap (q.refError s)

/-- The lookup of all names; the first that is missing is reported. -/
def resolve : Except NameError Unit :=
  match q.nameErrors s with
  | [] => .ok ()
  | e :: _ => .error e

variable {q s}

theorem tableError_eq_none {t : String × String} :
    tableError s t = none ↔ s.hasTable t.2 = true := by
  simp [tableError]

theorem refError_eq_none {r : String × String} :
    q.refError s r = none ↔ ∃ table, q.tableOf r.1 = some table ∧ s.hasColumn table r.2 = true := by
  unfold refError
  cases q.tableOf r.1 with
  | none => simp
  | some table => simp

/-- A statement is accepted exactly when its tables exist and its references
are columns of them. -/
theorem resolve_eq_ok_iff :
    q.resolve s = .ok () ↔ (∀ t ∈ q.tables, s.hasTable t.2 = true) ∧
      ∀ r ∈ q.refs, ∃ table, q.tableOf r.1 = some table ∧ s.hasColumn table r.2 = true := by
  have hnil : q.resolve s = .ok () ↔ q.nameErrors s = [] := by
    unfold resolve
    cases q.nameErrors s with
    | nil => simp
    | cons e es => simp
  rw [hnil, nameErrors, List.append_eq_nil_iff, List.filterMap_eq_nil_iff,
    List.filterMap_eq_nil_iff]
  exact and_congr (forall₂_congr fun _ _ => tableError_eq_none)
    (forall₂_congr fun _ _ => refError_eq_none)

/-- A reference to a column no migration gives its table. -/
theorem resolve_migrate_ne_ok {ds : List Ddl} {qualifier table column : String}
    (href : (qualifier, column) ∈ q.refs) (htable : q.tableOf qualifier = some table)
    (hnone : ∀ d ∈ ds, d.declares table column = false) :
    ∃ e, q.resolve (migrate ds) = .error e := by
  cases hresolve : q.resolve (migrate ds) with
  | error e => exact ⟨e, rfl⟩
  | ok u =>
    obtain ⟨t, ht, hcol⟩ := (resolve_eq_ok_iff.mp hresolve).2 _ href
    obtain rfl : table = t := Option.some.inj (htable.symm.trans ht)
    obtain ⟨d, hd, hdecl⟩ := hasColumn_migrate hcol
    rw [hnone d hd] at hdecl
    cases hdecl

end Select

end SqlNames

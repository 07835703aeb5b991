import IronStock.AuditQuery

/-!
# The conditions of an audit query

What a filter asks for, and what its statement selects: the placeholders of `whereClause` stand for
their own arguments, whatever is appended behind them. The bounds are cut down to microseconds on
the way.
-/
namespace IronStock

open Runes (Text ofString toString?)

/-! ## What a filter asks for -/

/-- The id a text names. -/
def textUuid (t : Text) : Option Uuid := (toString? t).bind castUuid

/-- A text that a `text` parameter can carry: UTF-8 without a zero byte. -/
def isParamText (t : Text) : Bool := (toString? t).any fun s => !s.toList.contains '\x00'

namespace AuditFilter

variable (f : AuditFilter) (row : AuditLogRow)

def matchesAction : Bool := f.action = [] ∨ f.action = ofString row.action

def matchesActor : Bool :=
  f.actorUserID = [] ∨ row.actorUserID.isSome ∧ textUuid f.actorUserID = row.actorUserID

def matchesResourceType : Bool :=
  f.resourceType = [] ∨ row.resourceType.map ofString = some f.resourceType

def matchesResourceID : Bool :=
  f.resourceID = [] ∨ row.resourceID.isSome ∧ textUuid f.resourceID = row.resourceID

def matchesFrom : Bool := f.fromTime.all fun t => t ≤ row.createdAt * 1000

def matchesTo : Bool := f.toTime.all fun t => row.createdAt * 1000 < t

/-- The row meets every filter that is set. -/
def matchesRow : Bool :=
  f.matchesAction row && f.matchesActor row && f.matchesResourceType row &&
    f.matchesResourceID row && f.matchesFrom row && f.matchesTo row

/-- The texts that are given can be parameters of their types. -/
def castable : Bool :=
  (f.action = [] ∨ isParamText f.action) &&
    ((f.actorUserID = [] ∨ (textUuid f.actorUserID).isSome) &&
      (f.resourceID = [] ∨ (textUuid f.resourceID).isSome))

/-- The filter with its bounds cut down to whole microseconds. -/
def micros : AuditFilter :=
  { f with
    fromTime := f.fromTime.map fun t => t / 1000 * 1000
    toTime := f.toTime.map fun t => t / 1000 * 1000 }

/-- The rows of the table that the filter asks for. -/
def matching (table : AuditTable) : List AuditLogRow := table.rows.filter f.matchesRow

end AuditFilter

/-! ## What the statement selects -/

namespace AuditSQL

/-- The rows of all conditions together, when `more` follows their arguments. -/
def selects (w : Where) (more : List Arg) : Option (AuditLogRow → Bool) :=
  (w.1.mapM (Cond.select (w.2 ++ more))).map fun ps row => ps.all (· row)

theorem selectWhere_eq (table : AuditTable) (w : Where) (more : List Arg) :
    selectWhere table w.1 (w.2 ++ more) = (selects w more).map table.rows.filter := by
  rw [selectWhere, selects, Option.map_map]
  rfl

theorem parameter_length (args more : List Arg) (val : Arg) :
    parameter (args ++ val :: more) (args.length + 1) = some val := by
  rw [parameter, List.getElem?_append_right (Nat.le_refl _), Nat.sub_self]
  rfl

/-- The placeholder of the last condition is the place of its argument. -/
theorem selects_addCond (w : Where) (template : Template) (val : Arg) (more : List Arg) :
    selects (addCond w template val) more =
      (selects w (val :: more)).bind fun p =>
        (template.select val).map fun q row => p row && q row := by
  have hlast : Cond.select (w.2 ++ val :: more) ⟨template, w.2.length + 1⟩ =
      template.select val := by
    rw [Cond.select, parameter_length]
    rfl
  rw [selects, selects, addCond, List.append_assoc, List.singleton_append, List.mapM_append]
  cases w.1.mapM (Cond.select (w.2 ++ val :: more)) with
  | none => rfl
  | some ps =>
    have hone : [(⟨template, w.2.length + 1⟩ : Cond)].mapM (Cond.select (w.2 ++ val :: more)) =
        (template.select val).map fun q => [q] := by
      rw [List.mapM_cons, hlast]
      cases template.select val <;> rfl
    simp only [hone]
    cases template.select val with
    | none => rfl
    | some q =>
      simp only [Option.map_some, Option.bind_some, bind, pure]
      congr 1
      funext row
      simp

theorem selects_addCondIf (p : Prop) [Decidable p] (w : Where) (template : Template) (val : Arg)
    (more : List Arg) :
    ∃ more', selects (addCondIf p w template val) more =
      (selects w more').bind fun a =>
        (if p then template.select val else some fun _ => true).map fun b row => a row && b row := by
  by_cases h : p
  · exact ⟨val :: more, by rw [addCondIf, if_pos h, if_pos h, selects_addCond]⟩
  · refine ⟨more, ?_⟩
    rw [addCondIf, if_neg h, if_neg h]
    cases selects w more with
    | none => rfl
    | some a => simp

/-- A condition for a time is added if there is one. -/
def selectBound (template : Template) : Option Int → Option (AuditLogRow → Bool)
  | none => some fun _ => true
  | some t => template.select (.timestamp t)

theorem selects_addBound (w : Where) (template : Template) (t : Option Int) (more : List Arg) :
    ∃ more', selects (addBound w template t) more =
      (selects w more').bind fun a =>
        (selectBound template t).map fun b row => a row && b row := by
  cases t with
  | none =>
    refine ⟨more, ?_⟩
    rw [addBound, selectBound]
    cases selects w more with
    | none => rfl
    | some a => simp
  | some t => exact ⟨.timestamp t :: more, by rw [addBound, selects_addCond, selectBound]⟩

/-- A predicate for parameters that are accepted. -/
def guarded (ok : Bool) (p : AuditLogRow → Bool) : Option (AuditLogRow → Bool) :=
  if ok then some p else none

theorem guarded_bind (ok ok' : Bool) (p q : AuditLogRow → Bool) :
    ((guarded ok p).bind fun a => (guarded ok' q).map fun b row => a row && b row) =
      guarded (ok && ok') fun row => p row && q row := by
  cases ok <;> cases ok' <;> rfl

theorem asText_eq (t : Text) : (Arg.text t).asText = (toString? t).filter fun s =>
    !s.toList.contains '\x00' := rfl

theorem ofString_injective {a b : String} (h : ofString a = ofString b) : a = b := by
  have := congrArg toString? h
  simpa using this

variable (f : AuditFilter)

/-- The parameter of a text is the string of its characters, if it can be one. -/
theorem asText_eq_guard (t : Text) :
    (isParamText t = false ∧ (Arg.text t).asText = none) ∨
      ∃ s, isParamText t = true ∧ (Arg.text t).asText = some s ∧ t = ofString s := by
  rw [asText_eq, isParamText]
  cases hs : toString? t with
  | none => exact .inl ⟨rfl, rfl⟩
  | some s =>
    cases hzero : s.toList.contains '\x00' with
    | true => exact .inl ⟨by simp only [Option.any_some, hzero, Bool.not_true],
        by simp only [Option.filter_some, hzero, Bool.not_true, Bool.false_eq_true, if_false]⟩
    | false => exact .inr ⟨s, by simp only [Option.any_some, hzero, Bool.not_false],
        by simp only [Option.filter_some, hzero, Bool.not_false, if_true],
        Runes.toString?_eq_some.mp hs⟩

theorem select_action :
    (if f.action ≠ [] then Template.action.select (.text f.action) else some fun _ => true) =
      guarded (f.action = [] ∨ isParamText f.action) f.matchesAction := by
  by_cases hnil : f.action = []
  · have hall : f.matchesAction = fun _ => true := by
      funext row
      simp [AuditFilter.matchesAction, hnil]
    rw [if_neg (not_not_intro hnil), hall]
    simp [guarded, hnil]
  · rw [if_pos hnil]
    rcases asText_eq_guard f.action with ⟨hparam, hnone⟩ | ⟨s, hparam, hsome, htext⟩
    · simp [Template.select, hnone, guarded, hnil, hparam]
    · have hmatch : f.matchesAction = fun row => decide (row.action = s) := by
        funext row
        simp only [AuditFilter.matchesAction, hnil, false_or]
        rw [htext]
        exact decide_eq_decide.mpr ⟨fun h => (ofString_injective h).symm, fun h => by rw [h]⟩
      simp [Template.select, hsome, guarded, hparam, hmatch]

theorem select_resourceType
    (hvalid : f.resourceType = [] ∨ validResourceType f.resourceType = true) :
    (if f.resourceType ≠ [] then Template.resourceType.select (.text f.resourceType)
      else some fun _ => true) = guarded true f.matchesResourceType := by
  by_cases hnil : f.resourceType = []
  · have hall : f.matchesResourceType = fun _ => true := by
      funext row
      simp [AuditFilter.matchesResourceType, hnil]
    rw [if_neg (not_not_intro hnil), hall]
    rfl
  · rw [if_pos hnil]
    obtain ⟨s, hs, htext⟩ := List.any_eq_true.mp (hvalid.resolve_left hnil)
    have htext : f.resourceType = ofString s := of_decide_eq_true htext
    have hzero : s.toList.contains '\x00' = false := by
      have hall : auditResourceTypes.all (fun s => !s.toList.contains '\x00') = true := by
        decide
      simpa using List.all_eq_true.1 hall s hs
    have hsome : (Arg.text f.resourceType).asText = some s := by
      rw [asText_eq, htext, Runes.toString?_ofString]
      simp only [Option.filter_some, hzero, Bool.not_false, if_true]
    have hmatch : f.matchesResourceType = fun row => decide (row.resourceType = some s) := by
      funext row
      simp only [AuditFilter.matchesResourceType, hnil, false_or]
      rw [htext]
      refine decide_eq_decide.mpr ⟨fun h => ?_, fun h => by rw [h]; rfl⟩
      obtain ⟨r, hr, heq⟩ := Option.map_eq_some_iff.mp h
      rw [hr, ofString_injective heq]
    simp [Template.select, hsome, guarded, hmatch]

theorem asUuid_eq (t : Text) : (Arg.text t).asUuid = textUuid t := rfl

theorem select_actorUserID :
    (if f.actorUserID ≠ [] then Template.actorUserID.select (.text f.actorUserID)
      else some fun _ => true) =
      guarded (f.actorUserID = [] ∨ (textUuid f.actorUserID).isSome) f.matchesActor := by
  by_cases hnil : f.actorUserID = []
  · have hall : f.matchesActor = fun _ => true := by
      funext row
      simp [AuditFilter.matchesActor, hnil]
    rw [if_neg (not_not_intro hnil), hall]
    simp [guarded, hnil]
  · rw [if_pos hnil, Template.select, asUuid_eq]
    cases hu : textUuid f.actorUserID with
    | none => simp [guarded, hnil]
    | some u =>
      have hmatch : f.matchesActor = fun row => decide (row.actorUserID = some u) := by
        funext row
        simp only [AuditFilter.matchesActor, hnil, false_or, hu]
        refine decide_eq_decide.mpr ⟨fun h => h.2.symm, fun h => ?_⟩
        rw [h]
        exact ⟨rfl, rfl⟩
      simp [guarded, hmatch]

theorem select_resourceID :
    (if f.resourceID ≠ [] then Template.resourceID.select (.text f.resourceID)
      else some fun _ => true) =
      guarded (f.resourceID = [] ∨ (textUuid f.resourceID).isSome) f.matchesResourceID := by
  by_cases hnil : f.resourceID = []
  · have hall : f.matchesResourceID = fun _ => true := by
      funext row
      simp [AuditFilter.matchesResourceID, hnil]
    rw [if_neg (not_not_intro hnil), hall]
    simp [guarded, hnil]
  · rw [if_pos hnil, Template.select, asUuid_eq]
    cases hu : textUuid f.resourceID with
    | none => simp [guarded, hnil]
    | some u =>
      have hmatch : f.matchesResourceID = fun row => decide (row.resourceID = some u) := by
        funext row
        simp only [AuditFilter.matchesResourceID, hnil, false_or, hu]
        refine decide_eq_decide.mpr ⟨fun h => h.2.symm, fun h => ?_⟩
        rw [h]
        exact ⟨rfl, rfl⟩
      simp [guarded, hmatch]

theorem selectBound_from :
    selectBound .createdFrom f.fromTime = guarded true f.micros.matchesFrom := by
  cases hfrom : f.fromTime with
  | none =>
    have hall : f.micros.matchesFrom = fun _ => true := by
      funext row
      simp [AuditFilter.matchesFrom, AuditFilter.micros, hfrom]
    rw [hall]
    rfl
  | some t =>
    have hmatch : f.micros.matchesFrom = fun row => decide (t / 1000 ≤ row.createdAt) := by
      funext row
      have hcut : t / 1000 * 1000 ≤ row.createdAt * 1000 ↔ t / 1000 ≤ row.createdAt :=
        Int.mul_le_mul_right (by decide)
      simp only [AuditFilter.matchesFrom, AuditFilter.micros, hfrom, Option.map_some,
        Option.all_some]
      exact decide_eq_decide.mpr hcut
    simp [selectBound, Template.select, Arg.asTimestamptz, guarded, hmatch]

theorem selectBound_to : selectBound .createdTo f.toTime = guarded true f.micros.matchesTo := by
  cases hto : f.toTime with
  | none =>
    have hall : f.micros.matchesTo = fun _ => true := by
      funext row
      simp [AuditFilter.matchesTo, AuditFilter.micros, hto]
    rw [hall]
    rfl
  | some t =>
    have hmatch : f.micros.matchesTo = fun row => decide (row.createdAt < t / 1000) := by
      funext row
      have hcut : row.createdAt * 1000 < t / 1000 * 1000 ↔ row.createdAt < t / 1000 :=
        Int.mul_lt_mul_right (by decide)
      simp only [AuditFilter.matchesTo, AuditFilter.micros, hto, Option.map_some,
        Option.all_some]
      exact decide_eq_decide.mpr hcut
    simp [selectBound, Template.select, Arg.asTimestamptz, guarded, hmatch]

/-- The statement selects what the filter asks for, with bounds in microseconds, unless a parameter
is refused. -/
theorem selects_whereClause
    (hvalid : f.resourceType = [] ∨ validResourceType f.resourceType = true) (more : List Arg) :
    selects (whereClause f) more = guarded f.castable f.micros.matchesRow := by
  rw [whereClause]
  obtain ⟨more₆, h₆⟩ := selects_addBound _ .createdTo f.toTime more
  obtain ⟨more₅, h₅⟩ := selects_addBound _ .createdFrom f.fromTime more₆
  obtain ⟨more₄, h₄⟩ := selects_addCondIf (f.resourceID ≠ []) _ .resourceID (.text f.resourceID)
    more₅
  obtain ⟨more₃, h₃⟩ := selects_addCondIf (f.resourceType ≠ []) _ .resourceType
    (.text f.resourceType) more₄
  obtain ⟨more₂, h₂⟩ := selects_addCondIf (f.actorUserID ≠ []) _ .actorUserID
    (.text f.actorUserID) more₃
  obtain ⟨more₁, h₁⟩ := selects_addCondIf (f.action ≠ []) ([], []) .action (.text f.action) more₂
  have hnone : selects ([], []) more₁ = guarded true fun _ => true := rfl
  rw [h₆, h₅, h₄, h₃, h₂, h₁, hnone, select_action, select_actorUserID,
    select_resourceType f hvalid, select_resourceID, selectBound_from, selectBound_to,
    guarded_bind, guarded_bind, guarded_bind, guarded_bind, guarded_bind, guarded_bind]
  have hok : (true && decide (f.action = [] ∨ isParamText f.action = true) &&
      decide (f.actorUserID = [] ∨ (textUuid f.actorUserID).isSome = true) && true &&
      decide (f.resourceID = [] ∨ (textUuid f.resourceID).isSome = true) && true && true) =
      f.castable := by
    simp only [AuditFilter.castable, Bool.true_and, Bool.and_true, Bool.and_assoc]
  rw [hok]
  rfl

end AuditSQL

end IronStock

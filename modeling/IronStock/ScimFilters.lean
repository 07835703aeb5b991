import IronStock.ItemSearch
import IronStock.ScimHandlers
import IronStock.Lib.FilterLanguage

/-!
# Filters of the SCIM user list

`ListUsers` and `scimParseFilter` of `scim_handlers.go`. The filter is read by its
first characters and by the first two quote characters in it, whatever stands
around them.
-/
namespace IronStock

open FilterLanguage

/-! ## The handler -/

/-- A text cut at the first of some characters: `strings.IndexAny`. -/
def cutAny (chars : List Char) : List Char → Option (List Char × List Char)
  | [] => none
  | c :: s =>
    if c ∈ chars then some ([], s)
    else (cutAny chars s).map fun (before, after) => (c :: before, after)

/-- The text between the first quote character and the second. -/
def scimExtractFilterValue (filter : String) : String :=
  match cutAny ['"', '\''] filter.toList with
  | none => ""
  | some (_, rest) =>
    match cutAny ['"', '\''] rest with
    | none => trimSpace (String.ofList rest)
    | some (value, _) => String.ofList value

/-- The condition that is put into the statements, with its parameter. -/
inductive UserCondition
  | all
  | username (value : String)
  | externalID (value : String)
  | id (value : String)

namespace UserCondition

def parameter? : UserCondition → Option String
  | all => none
  | username value | externalID value | id value => some value

def holds (ops : TextOps) (u : User) : UserCondition → Bool
  | all => true
  | username value => ops.lower u.username = ops.lower value
  | externalID value => u.scimExternalID = some value
  | id value => u.id.text = value

/-- A parameter with a NUL is no text of the database. -/
def isText (c : UserCondition) : Bool := c.parameter?.all fun value => '\x00' ∉ value.toList

end UserCondition

def scimParseFilter (svc : Service) (filter : String) : UserCondition :=
  if filter = "" then .all
  else
    let lower := (svc.toLower filter).toList
    if "username eq ".toList.isPrefixOf lower then .username (scimExtractFilterValue filter)
    else if "externalid eq ".toList.isPrefixOf lower then
      .externalID (scimExtractFilterValue filter)
    else if "id eq ".toList.isPrefixOf lower then .id (scimExtractFilterValue filter)
    else .all

def byUsername (ops : TextOps) (users : List User) : List User :=
  users.mergeSort fun a b => ops.le a.username b.username

/-- The users that the count and the pages are taken from. -/
def filteredUsers (svc : Service) (ops : TextOps) (db : DB) (filter : String) :
    Except ScimError (List User) :=
  let condition := scimParseFilter svc filter
  if condition.isText then .ok (byUsername ops (db.users.filter fun u => condition.holds ops u))
  else .error ⟨500, "internalError", "Failed to count users"⟩

structure ScimUser where
  id : String
  userName : String
  active : Bool
  email : String
  externalID : String

def buildSCIMUser (u : User) : ScimUser where
  id := u.id.text
  userName := u.username
  active := u.status = .active ∨ u.status = .pendingTOTP
  email := u.email
  externalID := u.scimExternalID.getD ""

structure ScimListResponse where
  totalResults : Nat
  startIndex : Nat
  itemsPerPage : Nat
  resources : List ScimUser

/-- The parameters of the query string; a missing one is empty. -/
structure ScimListRequest where
  filter : String := ""
  count : String := ""
  startIndex : String := ""

def ScimListRequest.respond (req : ScimListRequest) (users : List User) : ScimListResponse :=
  let count := (parseIntDefault req.count 100 1 200).toNat
  let startIndex := (parseIntDefault req.startIndex 1 1 (2 ^ 20)).toNat
  let page := (users.drop (startIndex - 1)).take count
  ⟨users.length, startIndex, page.length, page.map buildSCIMUser⟩

/-- `ListUsers`. -/
def scimListUsers (svc : Service) (ops : TextOps) (db : DB) (now : Time) (authz : String)
    (req : ScimListRequest) : DB × Except ScimError ScimListResponse :=
  match requireSCIMToken svc db now authz with
  | (db, .error e) => (db, .error e)
  | (db, .ok _) => (db, (filteredUsers svc ops db req.filter).map req.respond)

/-! ## What a filter should select -/

/-- `userName eq "…"`. -/
def userNameIs (name : String) : FilterExpr :=
  .compare ⟨"userName".toList, by decide, by decide⟩ .eq ⟨"eq".toList, by decide, by decide⟩
    (.string (.ofChars name.toList))

/-- The users listed for a filter are those of whom `P` holds. -/
def ListsExactly (svc : Service) (ops : TextOps) (db : DB) (filter : String) (P : User → Bool) :
    Prop :=
  filteredUsers svc ops db filter = .ok (byUsername ops (db.users.filter P))

/-- The pages and the count of a request are taken from that list. -/
theorem ListsExactly.scimListUsers_eq {svc : Service} {ops : TextOps} {db db' : DB} {now : Time}
    {authz : String} {actor : Uuid} {req : ScimListRequest} {P : User → Bool}
    (htoken : requireSCIMToken svc db now authz = (db', .ok actor))
    (h : ListsExactly svc ops db' req.filter P) :
    scimListUsers svc ops db now authz req =
      (db', .ok (req.respond (byUsername ops (db'.users.filter P)))) := by
  have hlist : filteredUsers svc ops db' req.filter = .ok (byUsername ops (db'.users.filter P)) := h
  rw [scimListUsers, htoken]
  simp only [hlist]
  rfl

/-- The filter is evaluated, or there is no list. -/
def EvaluatesOrFails (svc : Service) (ops : TextOps) {ρ : Type} (S : Semantics ρ)
    (resource : User → ρ) (db : DB) (F : FilterExpr) : Prop :=
  ∀ users, filteredUsers svc ops db F.toText = .ok users →
    users = byUsername ops (db.users.filter fun u => F.eval S (resource u))

/-! ## What the handler makes of an expression -/

/-- The first string of the text, up to a quote character in it. -/
def shortValue (F : FilterExpr) : String :=
  String.ofList (upToQuote (F.firstString.getD []))

/-- The comparison with which an expression begins, with the first string of the
text; nothing else of the expression. -/
def leadingCondition (F : FilterExpr) : UserCondition :=
  if F.leading = some "username".toList then .username (shortValue F)
  else if F.leading = some "externalid".toList then .externalID (shortValue F)
  else if F.leading = some "id".toList then .id (shortValue F)
  else .all

/-- `strings.ToLower` goes character by character. -/
def LowersRunes (svc : Service) : Prop :=
  ∃ lower : Char → Char, LowersAscii lower ∧
    ∀ s, (svc.toLower s).toList = s.toList.map lower

/-- `lower` leaves what is not a letter alone. -/
def KeepsPunctuation (ops : TextOps) : Prop :=
  ∀ s, ∀ c ∈ ['"', '\'', '\\'], (ops.lower s).toList.count c = s.toList.count c

section
variable {chars before after : List Char} {c : Char}

theorem cutAny_of_not_mem (h : ∀ d ∈ before, d ∉ chars) (hc : c ∈ chars) :
    cutAny chars (before ++ c :: after) = some (before, after) := by
  induction before with
  | nil => simp [cutAny, hc]
  | cons d before ih =>
    have hd := h d List.mem_cons_self
    have htail := ih fun e he => h e (List.mem_cons_of_mem _ he)
    simp [cutAny, hd, htail]

theorem cutAny_eq_none (h : ∀ d ∈ before, d ∉ chars) : cutAny chars before = none := by
  induction before with
  | nil => rfl
  | cons d before ih =>
    have hd := h d List.mem_cons_self
    have htail := ih fun e he => h e (List.mem_cons_of_mem _ he)
    simp [cutAny, hd, htail]

end

theorem not_mem_quotes {c : Char} : c ∉ ['"', '\''] ↔ isQuote c = false := by
  simp [isQuote]

/-- In front of a quote stands what is before it, or less. -/
theorem cutAny_quotes (raw after : List Char) :
    ∃ rest, cutAny ['"', '\''] (raw ++ '"' :: after) = some (upToQuote raw, rest) := by
  induction raw with
  | nil => exact ⟨after, rfl⟩
  | cons c raw ih =>
    obtain ⟨rest, hrest⟩ := ih
    by_cases hc : isQuote c = true
    · refine ⟨raw ++ '"' :: after, ?_⟩
      have hmem : c ∈ ['"', '\''] := by
        by_contra hnot
        simp [not_mem_quotes.1 hnot] at hc
      rw [List.cons_append, cutAny, if_pos hmem, upToQuote,
        List.takeWhile_cons_of_neg (by simp [hc])]
    · refine ⟨rest, ?_⟩
      have hc := Bool.eq_false_of_not_eq_true hc
      rw [List.cons_append, cutAny, if_neg (not_mem_quotes.2 hc), hrest, upToQuote, upToQuote,
        List.takeWhile_cons_of_pos (by simp [hc])]
      rfl

theorem scimExtractFilterValue_toText (F : FilterExpr) :
    scimExtractFilterValue F.toText = shortValue F := by
  have hquoting := F.quoting
  rw [scimExtractFilterValue, FilterExpr.toText, String.toList_ofList, shortValue]
  cases hfirst : F.firstString with
  | none =>
    rw [hfirst] at hquoting
    rw [cutAny_eq_none fun c hc => not_mem_quotes.2 (hquoting c hc)]
    rfl
  | some raw =>
    rw [hfirst] at hquoting
    obtain ⟨before, after, htext, hbefore⟩ := hquoting
    obtain ⟨rest, hrest⟩ := cutAny_quotes raw after
    rw [htext, cutAny_of_not_mem (fun c hc => not_mem_quotes.2 (hbefore c hc)) (by decide)]
    simp [hrest]

theorem toText_ne_empty {F : FilterExpr} {key : List Char} (hkey : ∀ c ∈ key, isPathChar c = true)
    (h : F.leading = some key) : F.toText ≠ "" := by
  intro hempty
  have htext : F.text = [] := by simpa [FilterExpr.toText] using hempty
  have hlower : LowersAscii Char.toLower := fun _ _ => rfl
  have hprefix := (F.comparison_prefix_iff hkey hlower []).2 h
  simp [htext, FilterExpr.comparison] at hprefix

section
variable {svc : Service} (hsvc : LowersRunes svc)
include hsvc

theorem isPrefixOf_lower {key : List Char} (hkey : ∀ c ∈ key, isPathChar c = true)
    (F : FilterExpr) :
    (FilterExpr.comparison key).isPrefixOf (svc.toLower F.toText).toList = true ↔
      F.leading = some key := by
  obtain ⟨lower, hlower, htoLower⟩ := hsvc
  have h := F.comparison_prefix_iff hkey hlower []
  rw [List.append_nil] at h
  rw [List.isPrefixOf_iff_prefix, htoLower, FilterExpr.toText, String.toList_ofList, h]

/-- Of an expression the handler sees the comparison it begins with. -/
theorem scimParseFilter_toText (F : FilterExpr) :
    scimParseFilter svc F.toText = leadingCondition F := by
  have hprefix (key : String) (hkey : key.toList.all isPathChar = true) :=
    isPrefixOf_lower hsvc (List.all_eq_true.1 hkey) F
  have hne (key : String) (hkey : key.toList.all isPathChar = true)
      (h : F.leading = some key.toList) := toText_ne_empty (List.all_eq_true.1 hkey) h
  have husername : "username eq ".toList = FilterExpr.comparison "username".toList := by decide
  have hexternalID : "externalid eq ".toList = FilterExpr.comparison "externalid".toList := by
    decide
  have hid : "id eq ".toList = FilterExpr.comparison "id".toList := by decide
  rw [scimParseFilter, leadingCondition, scimExtractFilterValue_toText]
  by_cases hempty : F.toText = ""
  · rw [if_pos hempty, if_neg fun h => hne "username" (by decide) h hempty,
      if_neg fun h => hne "externalid" (by decide) h hempty,
      if_neg fun h => hne "id" (by decide) h hempty]
  · rw [if_neg hempty]
    simp only [husername, hexternalID, hid, hprefix "username" (by decide),
      hprefix "externalid" (by decide), hprefix "id" (by decide)]

theorem filteredUsers_toText (ops : TextOps) (db : DB) (F : FilterExpr) :
    filteredUsers svc ops db F.toText =
      if (leadingCondition F).isText then
        .ok (byUsername ops (db.users.filter fun u => (leadingCondition F).holds ops u))
      else .error ⟨500, "internalError", "Failed to count users"⟩ := by
  rw [filteredUsers, scimParseFilter_toText hsvc]

end

/-! ## When a filter selects what it says -/

theorem byUsername_filter_inj {ops : TextOps} {users : List User} {p q : User → Bool} :
    byUsername ops (users.filter p) = byUsername ops (users.filter q) ↔
      ∀ u ∈ users, p u = q u := by
  constructor
  · intro h u hu
    have hmem : u ∈ byUsername ops (users.filter p) ↔ u ∈ byUsername ops (users.filter q) := by
      rw [h]
    simp only [byUsername, List.mem_mergeSort, List.mem_filter, hu, true_and] at hmem
    exact Bool.eq_iff_iff.2 hmem
  · intro h
    rw [List.filter_congr h]

/-- What the handler compares with the user names for `userName eq "…"`. -/
def shortName (name : String) : String := String.ofList (upToQuote (escape name.toList))

theorem leadingCondition_userNameIs (name : String) :
    leadingCondition (userNameIs name) = .username (shortName name) := by
  have hleading : (userNameIs name).leading = some "username".toList := rfl
  rw [leadingCondition, if_pos hleading]
  rfl

theorem shortName_of_plain {name : String} (h : Plain name.toList) : shortName name = name := by
  rw [shortName, upToQuote_escape_of_plain h, String.ofList_toList]

/-- A name that is cut is not the name, whatever the case. -/
theorem lower_shortName_ne {ops : TextOps} (hops : KeepsPunctuation ops) {name : String}
    (h : ¬ Plain name.toList) : ops.lower (shortName name) ≠ ops.lower name := by
  intro heq
  obtain ⟨c, hc, hcount⟩ := count_upToQuote_escape_ne h
  have hshort := hops (shortName name) c hc
  have hname := hops name c hc
  rw [heq, hname, shortName, String.toList_ofList] at hshort
  exact hcount hshort.symm

section
variable {svc : Service} (hsvc : LowersRunes svc) {ops : TextOps}
include hsvc

theorem listsExactly_userNameIs_iff (hops : KeepsPunctuation ops) (db : DB) (name : String) :
    ListsExactly svc ops db (userNameIs name).toText
        (fun u => ops.lower u.username = ops.lower name) ↔
      '\x00' ∉ (shortName name).toList ∧
        (Plain name.toList ∨ ∀ u ∈ db.users, ops.lower u.username ≠ ops.lower name ∧
          ops.lower u.username ≠ ops.lower (shortName name)) := by
  rw [ListsExactly, filteredUsers_toText hsvc, leadingCondition_userNameIs]
  by_cases hnul : '\x00' ∈ (shortName name).toList
  · simp [UserCondition.isText, UserCondition.parameter?, hnul]
  · rw [if_pos (by simp [UserCondition.isText, UserCondition.parameter?, hnul]), Except.ok.injEq,
      byUsername_filter_inj]
    simp only [UserCondition.holds, decide_eq_decide, hnul, not_false_eq_true, true_and]
    by_cases hplain : Plain name.toList
    · simp [shortName_of_plain hplain, hplain]
    · have hne := lower_shortName_ne hops hplain
      simp only [hplain, false_or]
      refine forall₂_congr fun u _ => ?_
      constructor
      · intro h
        refine ⟨fun hname => hne ?_, fun hshort => hne ?_⟩
        · rw [← h.2 hname, hname]
        · rw [← hshort, h.1 hshort]
      · intro h
        exact iff_of_false h.2 h.1

theorem evaluatesOrFails_iff {ρ : Type} (S : Semantics ρ) (resource : User → ρ) (db : DB)
    (F : FilterExpr) :
    EvaluatesOrFails svc ops S resource db F ↔
      ((leadingCondition F).isText = true →
        ∀ u ∈ db.users, (leadingCondition F).holds ops u = F.eval S (resource u)) := by
  rw [EvaluatesOrFails, filteredUsers_toText hsvc]
  by_cases htext : (leadingCondition F).isText = true
  · simp only [htext, if_true, true_imp_iff, Except.ok.injEq]
    rw [← byUsername_filter_inj]
    exact ⟨fun h => h _ rfl, fun h users husers => husers ▸ h⟩
  · simp [htext]

/-- What the filters select: names are found unless the text of the value is
changed by quotes and backslashes in it, and an expression is evaluated where the
comparison it begins with decides it. -/
theorem filters_select_exactly_iff (hops : KeepsPunctuation ops) (db : DB) :
    (∀ name, ListsExactly svc ops db (userNameIs name).toText
        (fun u => ops.lower u.username = ops.lower name) ↔
      '\x00' ∉ (shortName name).toList ∧
        (Plain name.toList ∨ ∀ u ∈ db.users, ops.lower u.username ≠ ops.lower name ∧
          ops.lower u.username ≠ ops.lower (shortName name))) ∧
      ∀ {ρ : Type} (S : Semantics ρ) (resource : User → ρ) (F : FilterExpr),
        EvaluatesOrFails svc ops S resource db F ↔
          ((leadingCondition F).isText = true →
            ∀ u ∈ db.users, (leadingCondition F).holds ops u = F.eval S (resource u)) :=
  ⟨listsExactly_userNameIs_iff hsvc hops db, fun S resource =>
    evaluatesOrFails_iff hsvc S resource db⟩

end

/-! ## Concrete lists -/

def asciiText : TextOps where
  lower s := String.ofList (s.toList.map Char.toLower)
  le a b := a ≤ b
  similar a b := a = b
  similarity _ _ := 0
  castInt2 _ := none

theorem lowersRunes_sampleService : LowersRunes sampleService :=
  ⟨Char.toLower, fun _ _ => rfl, fun _ => String.toList_ofList⟩

theorem toLower_beq {c d : Char} (hc : c ∈ ['"', '\'', '\\']) : (d.toLower == c) = (d == c) := by
  by_cases hd : d.toNat < 128
  · have hall : ['"', '\'', '\\'].all (fun c => (List.range 128).all fun n =>
        ((Char.ofNat n).toLower == c) == (Char.ofNat n == c)) = true := by decide
    have h := List.all_eq_true.1 (List.all_eq_true.1 hall c hc) d.toNat (List.mem_range.2 hd)
    rw [Char.ofNat_toNat] at h
    exact eq_of_beq h
  · have hupper : ¬ (d.val ≥ 'A'.val ∧ d.val ≤ 'Z'.val) := fun h => hd <| by
      have hle : d.toNat ≤ 'Z'.toNat := h.2
      exact Nat.lt_of_le_of_lt hle (by decide)
    have hself : d.toLower = d := dif_neg hupper
    rw [hself]

theorem keepsPunctuation_asciiText : KeepsPunctuation asciiText := by
  intro s c hc
  simp only [asciiText, String.toList_ofList]
  induction s.toList with
  | nil => rfl
  | cons d s ih => rw [List.map_cons, List.count_cons, List.count_cons, ih, toLower_beq hc]

def scimUsers : DB where
  users := [{ sampleUser 1 "bob" with status := .active },
    { sampleUser 2 "o'brien" with status := .active }]

/-- User names without regard to case, and whether the account is open. -/
def userSemantics : Semantics User where
  present _ _ := true
  compare attr op value u :=
    match value with
    | .string chars =>
      attr = "username".toList && op = .eq &&
        asciiText.lower u.username = asciiText.lower (String.ofList chars)
    | .bool b => attr = "active".toList && op = .eq && (buildSCIMUser u).active = b
    | _ => false
  elements _ _ := []

/-- `userName eq "…" and active eq false`. -/
def inactiveNamed (name : String) : FilterExpr :=
  .and (userNameIs name) ⟨"and".toList, by decide, by decide⟩
    (.compare ⟨"active".toList, by decide, by decide⟩ .eq ⟨"eq".toList, by decide, by decide⟩
      (.bool false))

theorem filters_not_exact :
    ¬ ListsExactly sampleService asciiText scimUsers (userNameIs "o'brien").toText
        (fun u => asciiText.lower u.username = asciiText.lower "o'brien") ∧
      ¬ EvaluatesOrFails sampleService asciiText userSemantics id scimUsers
        (inactiveNamed "bob") := by
  constructor
  · rw [listsExactly_userNameIs_iff lowersRunes_sampleService keepsPunctuation_asciiText]
    rintro ⟨-, hplain | hnone⟩
    · exact absurd hplain (by decide)
    · exact (hnone { sampleUser 2 "o'brien" with status := .active } (by decide)).1 rfl
  · rw [evaluatesOrFails_iff lowersRunes_sampleService]
    intro h
    exact absurd (h (by decide) { sampleUser 1 "bob" with status := .active } (by decide))
      (by decide)

theorem filters_select_exactly_bob :
    ListsExactly sampleService asciiText scimUsers (userNameIs "bob").toText
        (fun u => asciiText.lower u.username = asciiText.lower "bob") ∧
      EvaluatesOrFails sampleService asciiText userSemantics id scimUsers (userNameIs "bob") := by
  have h := filters_select_exactly_iff lowersRunes_sampleService keepsPunctuation_asciiText
    scimUsers
  exact ⟨(h.1 "bob").2 ⟨by decide, .inl (by decide)⟩,
    (h.2 userSemantics id (userNameIs "bob")).2 fun _ => by decide⟩

end IronStock

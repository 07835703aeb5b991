import IronStock.ItemHandlers
import Mathlib.Data.List.Sort
import Mathlib.Algebra.Group.Int.Defs

/-!
# Field versions

`GET /api/v1/items/{id}/fields/{field_def_id}/versions`: the previous values of
a field as the trigger recorded them.
-/
namespace IronStock

/-- `strconv.ParseInt(s, 10, 64)`. -/
def parseInt64 (s : String) : Option Int :=
  let (negative, digits) :=
    match s.toList with
    | '+' :: rest => (false, rest)
    | '-' :: rest => (true, rest)
    | rest => (false, rest)
  if digits = [] ∨ ¬ digits.all Char.isDigit then none
  else
    let n := Nat.ofDigitChars 10 digits 0
    if negative then if n ≤ 2 ^ 63 then some (-n) else none
    else if n < 2 ^ 63 then some n else none

/-- The values a `bigint` column takes. -/
def isInt8 (n : Int) : Bool := -2 ^ 63 ≤ n && n < 2 ^ 63

/-- A number as a path names it. -/
def int64Text (n : Int) : String :=
  String.ofList (if n < 0 then '-' :: Nat.toDigits 10 n.natAbs else Nat.toDigits 10 n.natAbs)

/-- Without a sign the digits are the number, as long as it fits. -/
theorem parseInt64_digits {digits : List Char} (hne : digits ≠ [])
    (hall : digits.all Char.isDigit = true) :
    parseInt64 (String.ofList digits) =
      if Nat.ofDigitChars 10 digits 0 < 2 ^ 63 then some (Nat.ofDigitChars 10 digits 0 : Int)
      else none := by
  -- the first character is a digit, so no sign is read
  obtain ⟨c, rest, rfl⟩ := List.exists_cons_of_ne_nil hne
  have hc : c.isDigit = true := List.all_eq_true.mp hall c List.mem_cons_self
  have hsign : (match c :: rest with
      | '+' :: rest => (false, rest)
      | '-' :: rest => (true, rest)
      | rest => (false, rest)) = (false, c :: rest) := by
    split
    · next heq => cases heq; simp at hc
    · next heq => cases heq; simp at hc
    · rfl
  simp only [parseInt64, String.toList_ofList, hsign, hall, reduceCtorEq, not_true, or_self,
    if_false, Bool.false_eq_true]

/-- Every `bigint` has a text that parses to it. -/
theorem parseInt64_int64Text {n : Int} (h : isInt8 n = true) :
    parseInt64 (int64Text n) = some n := by
  have hdigits : ∀ c ∈ Nat.toDigits 10 n.natAbs, c.isDigit = true := fun c hc =>
    Nat.isDigit_of_mem_toDigits (by omega) (by omega) hc
  have hne : Nat.toDigits 10 n.natAbs ≠ [] := Nat.toDigits_ne_nil
  have hall : (Nat.toDigits 10 n.natAbs).all Char.isDigit = true := List.all_eq_true.mpr hdigits
  simp only [isInt8, Bool.and_eq_true, decide_eq_true_eq] at h
  by_cases hneg : n < 0
  · have hle : n.natAbs ≤ 2 ^ 63 := by omega
    have habs : (-(n.natAbs : Int)) = n := by omega
    simp only [parseInt64, int64Text, hneg, if_true, String.toList_ofList, hne, hall, not_true,
      or_self, if_false, Nat.ofDigitChars_ten_toDigits, if_pos hle, habs]
  · have hlt : n.natAbs < 2 ^ 63 := by omega
    have habs : (n.natAbs : Int) = n := by omega
    rw [int64Text, if_neg hneg, parseInt64_digits hne hall, Nat.ofDigitChars_ten_toDigits,
      if_pos hlt, habs]

theorem isInt8_of_parseInt64 {s : String} {n : Int} (h : parseInt64 s = some n) :
    isInt8 n = true := by
  simp only [parseInt64] at h
  generalize (match s.toList with
    | '+' :: rest => (false, rest)
    | '-' :: rest => (true, rest)
    | rest => (false, rest)) = signed at h
  obtain ⟨negative, digits⟩ := signed
  simp only [isInt8, Bool.and_eq_true, decide_eq_true_eq]
  split at h
  · cases h
  · split at h
    · split at h
      · cases h
        omega
      · cases h
    · split at h
      · cases h
        omega
      · cases h

/-- The item level a reader needs; `denied` hides the item from anyone else. -/
def requireItemRead (db : DB) (now : Time) (claims : Claims) (itemID : String)
    (denied : ApiError) : Reply Unit :=
  match resolveItemPermission db now claims.subject itemID with
  | .error _ => .error (internalError "Yetki sorgulanamadı.")
  | .ok perm => .require (perm.allowsRead = true) denied

theorem requireItemRead_eq_ok {db : DB} {now : Time} {claims : Claims} {itemID : String}
    {denied : ApiError} {u : Unit} :
    requireItemRead db now claims itemID denied = .ok u ↔
      ∃ perm, resolveItemPermission db now claims.subject itemID = .ok perm ∧
        perm.allowsRead = true := by
  unfold requireItemRead
  cases resolveItemPermission db now claims.subject itemID <;> simp

/-- `fieldVersionOutput`. -/
structure FieldVersionOutput where
  versionNumber : Nat
  valueEnc : Bytes
  valueNonce : Nonce
  changedAt : String
deriving DecidableEq

def FieldVersionOutput.value (v : FieldVersionOutput) : FieldValue := (v.valueEnc, v.valueNonce)

/-- Larger version numbers first. -/
def newerFirst (a b : ItemFieldVersion) : Prop := b.versionNumber ≤ a.versionNumber

instance : DecidableRel newerFirst := fun a b =>
  inferInstanceAs (Decidable (b.versionNumber ≤ a.versionNumber))

/-- The rows of the versions query: the versions of the field's row, `ORDER BY
version_number DESC LIMIT 10`. -/
def fieldVersionRows (db : DB) (itemID : Uuid) (fieldDefID : Int) : List ItemFieldVersion :=
  ((db.itemFieldVersions.filter fun v =>
    db.itemFields.any fun f => f.id = v.itemFieldId ∧ f.isFor itemID fieldDefID).insertionSort
      newerFirst).take 10

/-- A version as the answer shows it. -/
def ItemFieldVersion.output (svc : Service) (v : ItemFieldVersion) : FieldVersionOutput :=
  ⟨v.versionNumber, v.value.1, v.value.2, svc.timestampText v.changedAt⟩

@[simp] theorem ItemFieldVersion.output_value (svc : Service) (v : ItemFieldVersion) :
    (v.output svc).value = v.value := rfl

/-- `ItemHandlers.ListFieldVersions`. -/
def listFieldVersions (svc : Service) (db : DB) (now : Time) (claims : Claims)
    (itemID fieldDefIDStr : String) : Reply (List FieldVersionOutput) := do
  .require (itemID ≠ "" ∧ fieldDefIDStr ≠ "") (badRequest "id ve field_def_id zorunlu.")
  let fieldDefID ← .orElse (parseInt64 fieldDefIDStr)
    (badRequest "field_def_id geçerli tamsayı olmalı.")
  .unlessAdmin claims
    (requireItemRead db now claims itemID ⟨404, errCodeBadRequest, "Item bulunamadı."⟩)
  let item ← .orElse (castUuid itemID) (internalError "Versiyon sorgusu başarısız.")
  pure ((fieldVersionRows db item fieldDefID).map (·.output svc))

/-- The admin role, or read on the item. -/
def MayReadItem (db : DB) (now : Time) (claims : Claims) (itemID : String) : Prop :=
  claims.hasRole .admin = true ∨
    ∃ perm, resolveItemPermission db now claims.subject itemID = .ok perm ∧
      perm.allowsRead = true

/-- Who is answered, and with what. -/
theorem listFieldVersions_eq_ok {svc : Service} {db : DB} {now : Time} {claims : Claims}
    {itemID fieldDefIDStr : String} {item : Uuid} {fieldDefID : Int}
    (hitem : castUuid itemID = some item) (hdef : parseInt64 fieldDefIDStr = some fieldDefID)
    {out : List FieldVersionOutput} :
    listFieldVersions svc db now claims itemID fieldDefIDStr = .ok out ↔
      MayReadItem db now claims itemID ∧
        (fieldVersionRows db item fieldDefID).map (·.output svc) = out := by
  have hid : itemID ≠ "" := by
    rintro rfl
    rw [castUuid_empty] at hitem
    cases hitem
  have hdefID : fieldDefIDStr ≠ "" := by
    rintro rfl
    cases hdef
  simp only [listFieldVersions, Reply.bind_eq_ok, Reply.require_eq_ok, Reply.orElse_eq_ok,
    Reply.unlessAdmin_eq_ok, requireItemRead_eq_ok, Reply.pure_eq_ok, hitem, hdef]
  simp [hid, hdefID, MayReadItem]

end IronStock

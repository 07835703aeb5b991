import IronStock.ItemVersionHandlers
import Mathlib.Data.Rat.Floor
import Mathlib.Tactic.Positivity

/-!
# Usage in the report

`reportMetricPercent` turns a quantity of the metrics API into a percentage of one core or of
one gibibyte. It knows three of the suffixes and multiplies machine integers before it
clamps them.
-/
namespace IronStock.Report

/-! ## The function -/

/-- `clamp`. -/
def clamp (n : Int) : Int := if 100 < n then 100 else if n < 0 then 0 else n

/-- `strconv.Atoi`. -/
def atoi (s : List Char) : Option Int := parseInt64 (String.ofList s)

/-- `n * k` of two integers of 64 bits. -/
def mulInt (n k : Int) : Int := (n * k).bmod (2 ^ 64)

def reportMetricPercent (quantity : String) : Int :=
  let q := quantity.toList
  if q = [] then 0
  else if ['m'].isSuffixOf q then
    match atoi (q.take (q.length - 1)) with
    | none => 0
    | some n => clamp (n.tdiv 10)
  else if ['M', 'i'].isSuffixOf q then
    match atoi (q.take (q.length - 2)) with
    | none => 0
    | some n => clamp ((mulInt n 100).tdiv 1024)
  else if ['G', 'i'].isSuffixOf q then
    match atoi (q.take (q.length - 2)) with
    | none => 0
    | some n => clamp (mulInt n 100)
  else 0

/-! ## Quantities -/

inductive Resource
  | cpu
  | memory
deriving DecidableEq

/-- The units of the metrics API. -/
inductive Suffix
  | cores
  | nano
  | micro
  | milli
  | bytes
  | ki
  | mi
  | gi
deriving DecidableEq

namespace Suffix

def text : Suffix → List Char
  | cores | bytes => []
  | nano => ['n']
  | micro => ['u']
  | milli => ['m']
  | ki => ['K', 'i']
  | mi => ['M', 'i']
  | gi => ['G', 'i']

def resource : Suffix → Resource
  | cores | nano | micro | milli => .cpu
  | bytes | ki | mi | gi => .memory

/-- In cores or in bytes. -/
def scale : Suffix → ℚ
  | cores | bytes => 1
  | nano => 1 / 10 ^ 9
  | micro => 1 / 10 ^ 6
  | milli => 1 / 10 ^ 3
  | ki => 2 ^ 10
  | mi => 2 ^ 20
  | gi => 2 ^ 30

end Suffix

/-- One core, and one gibibyte. -/
def Resource.reference : Resource → ℚ
  | cpu => 1
  | memory => 2 ^ 30

structure Quantity where
  digits : List Char
  suffix : Suffix
  digits_ne : digits ≠ []
  digits_digits : digits.all Char.isDigit = true

namespace Quantity
variable (q : Quantity)

def text : String := String.ofList (q.digits ++ q.suffix.text)

def number : Nat := Nat.ofDigitChars 10 q.digits 0

def value : ℚ := q.number * q.suffix.scale

/-- `min(100, floor(100 * value / reference))`. -/
def percent : Int := min 100 ⌊100 * q.value / q.suffix.resource.reference⌋

end Quantity

/-! ## When it is measured -/

/-- How many of the unit make the reference. -/
def Suffix.perReference : Suffix → Nat
  | cores | gi => 1
  | nano => 10 ^ 9
  | micro => 10 ^ 6
  | milli => 10 ^ 3
  | bytes => 2 ^ 30
  | ki => 2 ^ 20
  | mi => 2 ^ 10

/-- The number fits and so does its hundredfold, or what is left of that is enough for all
of the reference. Without a suffix that is known there has to be less than one per cent. -/
def Quantity.Measured (q : Quantity) : Prop :=
  match q.suffix with
  | .milli => q.number < 2 ^ 63
  | .mi | .gi => q.number < 2 ^ 63 ∧
      (100 * q.number < 2 ^ 63 ∨ 100 * q.suffix.perReference ≤ mulInt q.number 100)
  | _ => 100 * q.number < q.suffix.perReference

section Proofs

variable {q : Quantity} {n : Nat} {k : Int}

theorem percent_eq :
    q.percent = min 100 ((100 * q.number / q.suffix.perReference : Nat) : Int) := by
  have hshare : 100 * q.value / q.suffix.resource.reference =
      ((100 * q.number : Nat) : ℚ) / (q.suffix.perReference : Nat) := by
    rw [Quantity.value]
    cases q.suffix <;>
      simp only [Suffix.resource, Resource.reference, Suffix.scale, Suffix.perReference] <;>
      push_cast <;> ring
  rw [Quantity.percent, hshare, Rat.floor_natCast_div_natCast]
  rfl

/-! ## Reading a quantity -/

theorem atoi_digits {s : List Char} {k : Nat} (hs : s.length = k) :
    atoi ((q.digits ++ s).take ((q.digits ++ s).length - k)) =
      if q.number < 2 ^ 63 then some (q.number : Int) else none := by
  have htake : (q.digits ++ s).take ((q.digits ++ s).length - k) = q.digits := by
    rw [← hs, List.length_append, Nat.add_sub_cancel, List.take_left]
  rw [htake, atoi, parseInt64_digits q.digits_ne q.digits_digits]
  rfl

theorem match_atoi {s : List Char} {k : Nat} (hs : s.length = k) (f : Int → Int) :
    (match atoi ((q.digits ++ s).take ((q.digits ++ s).length - k)) with
      | none => 0
      | some n => f n) =
      if q.number < 2 ^ 63 then f q.number else 0 := by
  rw [atoi_digits hs]
  by_cases hfit : q.number < 2 ^ 63
  · rw [if_pos hfit, if_pos hfit]
  · rw [if_neg hfit, if_neg hfit]

/-- A suffix of letters is not found in the digits. -/
theorem isSuffixOf_text {t : List Char} (ht : t.any Char.isDigit = false) (s : List Char) :
    t.isSuffixOf (q.digits ++ s) = t.isSuffixOf s := by
  rw [Bool.eq_iff_iff, List.isSuffixOf_iff_suffix, List.isSuffixOf_iff_suffix]
  constructor
  · rintro ⟨u, hu⟩
    rcases List.append_eq_append_iff.mp hu with ⟨d, hd, hts⟩ | ⟨d, -, hst⟩
    · cases d with
      | nil => exact ⟨[], hts⟩
      | cons c d =>
        have hdigit := List.all_eq_true.mp q.digits_digits c (by rw [hd]; simp)
        have hletter := List.any_eq_false.mp ht c (by rw [hts]; simp)
        exact absurd hdigit hletter
    · exact ⟨d, hst.symm⟩
  · rintro ⟨u, hu⟩
    exact ⟨q.digits ++ u, by rw [List.append_assoc, hu]⟩

theorem text_ne_nil : q.digits ++ q.suffix.text ≠ [] := by
  simp [q.digits_ne]

/-- What the function does with the number. -/
def percentOf (s : Suffix) (n : Int) : Int :=
  match s with
  | .milli => clamp (n.tdiv 10)
  | .mi => clamp ((mulInt n 100).tdiv 1024)
  | .gi => clamp (mulInt n 100)
  | _ => 0

theorem reportMetricPercent_text :
    reportMetricPercent q.text =
      if q.number < 2 ^ 63 then percentOf q.suffix q.number else 0 := by
  have hm : ['m'].isSuffixOf (q.digits ++ q.suffix.text) = ['m'].isSuffixOf q.suffix.text :=
    isSuffixOf_text rfl _
  have hmi : ['M', 'i'].isSuffixOf (q.digits ++ q.suffix.text) =
      ['M', 'i'].isSuffixOf q.suffix.text :=
    isSuffixOf_text rfl _
  have hgi : ['G', 'i'].isSuffixOf (q.digits ++ q.suffix.text) =
      ['G', 'i'].isSuffixOf q.suffix.text :=
    isSuffixOf_text rfl _
  simp only [reportMetricPercent, Quantity.text, String.toList_ofList, if_neg text_ne_nil, hm, hmi,
    hgi]
  cases hsuffix : q.suffix with
  | milli =>
    have hfound : ['m'].isSuffixOf (Suffix.text .milli) = true := rfl
    simp only [hfound, if_true]
    exact match_atoi rfl fun n => clamp (n.tdiv 10)
  | mi =>
    have hother : ['m'].isSuffixOf (Suffix.text .mi) = false := rfl
    have hfound : ['M', 'i'].isSuffixOf (Suffix.text .mi) = true := rfl
    simp only [hother, hfound, Bool.false_eq_true, if_false, if_true]
    exact match_atoi rfl fun n => clamp ((mulInt n 100).tdiv 1024)
  | gi =>
    have hother : ['m'].isSuffixOf (Suffix.text .gi) = false := rfl
    have hother' : ['M', 'i'].isSuffixOf (Suffix.text .gi) = false := rfl
    have hfound : ['G', 'i'].isSuffixOf (Suffix.text .gi) = true := rfl
    simp only [hother, hother', hfound, Bool.false_eq_true, if_false, if_true]
    exact match_atoi rfl fun n => clamp (mulInt n 100)
  | cores | nano | micro | bytes | ki => exact (ite_self 0).symm

/-! ## Arithmetic -/

theorem clamp_eq_min {n : Int} (h : 0 ≤ n) : clamp n = min 100 n := by
  rw [clamp]
  split
  · omega
  · rw [if_neg (by omega)]
    omega

theorem clamp_eq_hundred {n : Int} : clamp n = 100 ↔ 100 ≤ n := by
  rw [clamp]
  split
  · omega
  · split <;> omega

theorem mulInt_of_lt {n : Nat} (h : 100 * n < 2 ^ 63) : mulInt n 100 = (100 * n : Nat) := by
  rw [mulInt, Int.bmod_def]
  omega

/-- Where the hundredfold does not fit, all of the reference is used. -/
theorem percent_of_le (hper : q.suffix.perReference ≤ 2 ^ 50) (h : 2 ^ 63 ≤ 100 * q.number) :
    q.percent = 100 := by
  have hpos : 0 < q.suffix.perReference := by cases q.suffix <;> decide
  have hle : 100 ≤ 100 * q.number / q.suffix.perReference := by
    rw [Nat.le_div_iff_mul_le hpos]
    omega
  rw [percent_eq]
  omega

theorem scaled_iff {p : Nat} {f : Int → Int} (hp : q.suffix.perReference = p)
    (hper : p ≤ 2 ^ 50)
    (hscale : ∀ n, 0 ≤ n → f n = n / p) (hlarge : ∀ n, 100 ≤ f n ↔ 100 * p ≤ n) :
    (if q.number < 2 ^ 63 then clamp (f (mulInt q.number 100)) else 0) = q.percent ↔
      q.number < 2 ^ 63 ∧ (100 * q.number < 2 ^ 63 ∨ 100 * p ≤ mulInt q.number 100) := by
  by_cases hfit : 100 * q.number < 2 ^ 63
  · have hnumber : q.number < 2 ^ 63 := by omega
    rw [if_pos hnumber, mulInt_of_lt hfit, hscale _ (by omega), clamp_eq_min (by positivity),
      percent_eq, hp]
    exact iff_of_true rfl ⟨hnumber, .inl hfit⟩
  · rw [percent_of_le (hp ▸ hper) (by omega)]
    by_cases hnumber : q.number < 2 ^ 63
    · rw [if_pos hnumber, clamp_eq_hundred, hlarge]
      exact ⟨fun h => ⟨hnumber, .inr h⟩, fun h => h.2.resolve_left hfit⟩
    · rw [if_neg hnumber]
      exact iff_of_false (by decide) fun h => hnumber h.1

theorem measured_iff : reportMetricPercent q.text = q.percent ↔ q.Measured := by
  rw [reportMetricPercent_text, Quantity.Measured]
  have hpercent := percent_eq (q := q)
  cases hsuffix : q.suffix with
  | milli =>
    have hten : (q.number : Int).tdiv 10 = (q.number / 10 : Nat) := by
      rw [Int.tdiv_eq_ediv_of_nonneg (by omega)]
      rfl
    simp only [percentOf]
    rw [hpercent, hsuffix, hten, clamp_eq_min (by omega)]
    simp only [Suffix.perReference]
    split <;> omega
  | mi =>
    have hscale : ∀ n : Int, 0 ≤ n → n.tdiv 1024 = n / (Suffix.perReference .mi : Nat) :=
      fun n hn => Int.tdiv_eq_ediv_of_nonneg hn
    have hlarge : ∀ n : Int, 100 ≤ n.tdiv 1024 ↔ 100 * (Suffix.perReference .mi : Nat) ≤ n := by
      intro n
      simp only [Suffix.perReference]
      rcases Int.le_total 0 n with hn | hn
      · rw [Int.tdiv_eq_ediv_of_nonneg hn]
        omega
      · have hneg := Int.neg_tdiv (-n) 1024
        rw [Int.neg_neg, Int.tdiv_eq_ediv_of_nonneg (show 0 ≤ -n by omega)] at hneg
        omega
    exact scaled_iff (p := Suffix.perReference .mi) (f := fun n => n.tdiv 1024)
      (congrArg _ hsuffix) (by norm_num [Suffix.perReference]) hscale hlarge
  | gi =>
    have hscale : ∀ n : Int, 0 ≤ n → n = n / (Suffix.perReference .gi : Nat) :=
      fun n _ => (Int.ediv_one n).symm
    have hlarge : ∀ n : Int, 100 ≤ n ↔ 100 * (Suffix.perReference .gi : Nat) ≤ n := by
      intro n
      simp only [Suffix.perReference]
      omega
    exact scaled_iff (p := Suffix.perReference .gi) (f := fun n => n) (congrArg _ hsuffix)
      (by norm_num [Suffix.perReference]) hscale hlarge
  | cores | nano | micro | bytes | ki =>
    rw [hpercent, hsuffix]
    simp only [percentOf, ite_self, Suffix.perReference]
    omega

/-! ## Larger quantities -/

theorem percent_mono {q' : Quantity} (hresource : q.suffix.resource = q'.suffix.resource)
    (h : q.value ≤ q'.value) : q.percent ≤ q'.percent := by
  have href : 0 < q.suffix.resource.reference := by
    cases q.suffix.resource <;> norm_num [Resource.reference]
  rw [Quantity.percent, Quantity.percent, ← hresource]
  refine min_le_min_left 100 (Int.floor_mono ?_)
  gcongr

/-- The percentage is right exactly for the suffixes that are known, as long as the number and
its hundredfold fit, and for less than one per cent; there it grows with the quantity. -/
theorem reportMetricPercent_eq_iff (q : Quantity) :
    (reportMetricPercent q.text = q.percent ↔ q.Measured) ∧
      ∀ q' : Quantity, q.suffix.resource = q'.suffix.resource → q.Measured → q'.Measured →
        q.value ≤ q'.value → reportMetricPercent q.text ≤ reportMetricPercent q'.text := by
  refine ⟨measured_iff, ?_⟩
  intro q' hresource hq hq' hle
  rw [measured_iff.mpr hq, measured_iff.mpr hq']
  exact percent_mono hresource hle

end Proofs

/-! ## A quarter of a core -/

/-- The metrics API counts processors in billionths of a core. -/
theorem reportMetricPercent_nano :
    ¬ ∀ q : Quantity, reportMetricPercent q.text = q.percent := by
  intro h
  have hless : 100 * Nat.ofDigitChars 10 "250000000".toList 0 < 10 ^ 9 :=
    measured_iff.mp (h ⟨"250000000".toList, .nano, by decide, by decide⟩)
  exact absurd hless (by decide)

end IronStock.Report

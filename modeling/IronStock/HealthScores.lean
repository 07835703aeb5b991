import IronStock.Lib.Instants
import Mathlib.Algebra.Order.BigOperators.Group.List
import Mathlib.Algebra.Order.Ring.Int

/-!
# Health scores

The two scorers of `internal/health`: `Score` keeps the score alone, and
`ScoreWithBreakdown` the list of the rules that fired beside it. The dates are
columns of the items table, the evaluation time is any instant.
-/
namespace IronStock

namespace Health

open Instants

/-- A value of a column of type timestamptz, in microseconds since 1970. -/
structure Timestamptz where
  micros : Int
  range : -210866803200000000 ≤ micros ∧ micros < 9224318016000000000

theorem Timestamptz.scan_range (t : Timestamptz) :
    minSec ≤ (t.micros + 62135596800000000) / 1000000 ∧
      (t.micros + 62135596800000000) / 1000000 ≤ maxSec := by
  have h := t.range
  simp only [minSec, maxSec]
  omega

/-- The value as it is scanned, counted from the first of January of year 1. -/
def Timestamptz.scan (t : Timestamptz) : Instant :=
  .ofMicros (t.micros + 62135596800000000) t.scan_range

structure ItemMeta where
  expiresAt : Option Timestamptz
  lastRotatedAt : Option Timestamptz
  description : String
  hasTags : Bool
  k8sBindingExists : Bool
  k8sClusterReachable : Bool
  relationshipCount : Int

/-! ## The scorers -/

def score (item : ItemMeta) (now : Instant) : Int :=
  let score := 100
  let score := match item.expiresAt with
    | none => score
    | some expiresAt =>
      if expiresAt.scan.before now then score - 25
      else if expiresAt.scan.before (now.add (7 * 24 * hour)) then score - 15
      else score
  let score := match item.lastRotatedAt with
    | none => score
    | some lastRotatedAt =>
      let age := now.sub lastRotatedAt.scan
      if age > 90 * 24 * hour then score - 10 else score
  let score := if item.description = "" then score - 5 else score
  let score := if !item.hasTags then score - 5 else score
  let score := if item.relationshipCount = 0 then score - 5 else score
  let score := if item.k8sBindingExists && !item.k8sClusterReachable then score - 15 else score
  if score < 0 then 0 else score

structure Breakdown where
  rule : String
  deduction : Int
  detail : String
deriving DecidableEq

/-- The closure of `ScoreWithBreakdown`, on its two variables. -/
def deduct (rule : String) (pts : Int) (detail : String) (s : Int × List Breakdown) :
    Int × List Breakdown :=
  (s.1 - pts, s.2 ++ [⟨rule, pts, detail⟩])

def scoreWithBreakdown (item : ItemMeta) (now : Instant) : Int × List Breakdown :=
  let s := (100, [])
  let s := match item.expiresAt with
    | none => s
    | some expiresAt =>
      if expiresAt.scan.before now then deduct "expired" 25 "credential has expired" s
      else if expiresAt.scan.before (now.add (7 * 24 * hour)) then
        deduct "expiring_soon" 15 "expires within 7 days" s
      else s
  let s := match item.lastRotatedAt with
    | none => s
    | some lastRotatedAt =>
      let age := now.sub lastRotatedAt.scan
      if age > 90 * 24 * hour then
        deduct "rotation_stale" 10 "not rotated in over 90 days" s
      else s
  let s := if item.description = "" then
    deduct "no_description" 5 "description is empty" s else s
  let s := if !item.hasTags then deduct "no_tags" 5 "no tags assigned" s else s
  let s := if item.relationshipCount = 0 then
    deduct "isolated" 5 "no relationships in graph" s else s
  let s := if item.k8sBindingExists && !item.k8sClusterReachable then
    deduct "k8s_unreachable" 15 "bound Kubernetes cluster is unreachable" s else s
  (if s.1 < 0 then 0 else s.1, s.2)

example :
    score ⟨some ⟨0, by decide⟩, some ⟨0, by decide⟩, "", false, true, false, 0⟩
      (.ofMicros 63800000000000000 (by decide)) = 35 := by
  decide

/-! ## The rules -/

/-- Each rule on its own: what it deducts, if it fires. -/
inductive Rule
  | expiry | rotation | description | tags | relationships | cluster
deriving DecidableEq

def Rule.all : List Rule := [.expiry, .rotation, .description, .tags, .relationships, .cluster]

def Rule.fires (item : ItemMeta) (now : Instant) : Rule → Option Breakdown
  | .expiry => item.expiresAt.bind fun expiresAt =>
    if expiresAt.scan.before now then some ⟨"expired", 25, "credential has expired"⟩
    else if expiresAt.scan.before (now.add (7 * 24 * hour)) then
      some ⟨"expiring_soon", 15, "expires within 7 days"⟩
    else none
  | .rotation => item.lastRotatedAt.bind fun lastRotatedAt =>
    if 90 * 24 * hour < now.sub lastRotatedAt.scan then
      some ⟨"rotation_stale", 10, "not rotated in over 90 days"⟩
    else none
  | .description =>
    if item.description = "" then some ⟨"no_description", 5, "description is empty"⟩ else none
  | .tags => if item.hasTags = false then some ⟨"no_tags", 5, "no tags assigned"⟩ else none
  | .relationships =>
    if item.relationshipCount = 0 then some ⟨"isolated", 5, "no relationships in graph"⟩
    else none
  | .cluster =>
    if item.k8sBindingExists = true ∧ item.k8sClusterReachable = false then
      some ⟨"k8s_unreachable", 15, "bound Kubernetes cluster is unreachable"⟩
    else none

/-- The points a rule takes. -/
def Rule.points (item : ItemMeta) (now : Instant) (rule : Rule) : Int :=
  ((rule.fires item now).map Breakdown.deduction).getD 0

/-- The most a rule can take. -/
def Rule.cap : Rule → Int
  | .expiry => 25
  | .rotation => 10
  | .cluster => 15
  | .description | .tags | .relationships => 5

/-- The points of all rules. -/
def total (item : ItemMeta) (now : Instant) : Int := (Rule.all.map (Rule.points item now)).sum

/-- The rules that fire. -/
def fired (item : ItemMeta) (now : Instant) : List Breakdown :=
  Rule.all.filterMap (Rule.fires item now)

/-- What a rule that fires does to the two variables. -/
def Rule.apply (item : ItemMeta) (now : Instant) (s : Int × List Breakdown) (rule : Rule) :
    Int × List Breakdown :=
  match rule.fires item now with
  | none => s
  | some b => deduct b.rule b.deduction b.detail s

variable (item : ItemMeta) (now : Instant)

theorem foldl_apply (rules : List Rule) (s : Int × List Breakdown) :
    rules.foldl (Rule.apply item now) s =
      (s.1 - (rules.map (Rule.points item now)).sum,
        s.2 ++ rules.filterMap (Rule.fires item now)) := by
  induction rules generalizing s with
  | nil => simp
  | cons rule rules ih =>
    rw [List.foldl_cons, ih, List.map_cons, List.sum_cons, Rule.apply, Rule.points]
    cases hfires : rule.fires item now with
    | none => simp [hfires]
    | some b =>
      simp only [List.filterMap_cons, hfires, deduct, Option.map_some, Option.getD_some,
        List.append_assoc, List.singleton_append, Prod.mk.injEq, and_true]
      omega

/-! ## The scorers apply the rules -/

attribute [local simp] Rule.fires

theorem scoreWithBreakdown_eq :
    scoreWithBreakdown item now = (max 0 (100 - total item now), fired item now) := by
  unfold scoreWithBreakdown
  extract_lets s₀ s₁ s₂ s₃ s₄ s₅ s₆
  have h₁ : s₁ = Rule.apply item now s₀ .expiry := by
    simp only [s₁, Rule.apply, Rule.fires]
    cases item.expiresAt with
    | none => rfl
    | some expiresAt =>
      simp only [Option.bind_some]
      grind [deduct]
  have h₂ : s₂ = Rule.apply item now s₁ .rotation := by
    simp only [s₂, Rule.apply, Rule.fires]
    cases item.lastRotatedAt with
    | none => rfl
    | some lastRotatedAt =>
      simp only [Option.bind_some]
      grind [deduct]
  have h₃ : s₃ = Rule.apply item now s₂ .description := by
    simp only [s₃, Rule.apply, Rule.fires]
    grind [deduct]
  have h₄ : s₄ = Rule.apply item now s₃ .tags := by
    simp only [s₄, Rule.apply, Rule.fires]
    grind [deduct]
  have h₅ : s₅ = Rule.apply item now s₄ .relationships := by
    simp only [s₅, Rule.apply, Rule.fires]
    grind [deduct]
  have h₆ : s₆ = Rule.apply item now s₅ .cluster := by
    simp only [s₆, Rule.apply, Rule.fires]
    grind [deduct]
  have hfold : s₆ = Rule.all.foldl (Rule.apply item now) s₀ := by
    rw [h₆, h₅, h₄, h₃, h₂, h₁]
    rfl
  have hs : s₆ = (100 - total item now, fired item now) := by
    rw [hfold, foldl_apply]
    rfl
  rw [hs]
  simp only [Prod.mk.injEq, and_true]
  split <;> omega

theorem score_eq : score item now = max 0 (100 - total item now) := by
  unfold score
  extract_lets s₀ s₁ s₂ s₃ s₄ s₅ s₆
  have h₁ : s₁ = s₀ - Rule.points item now .expiry := by
    simp only [s₁, Rule.points, Rule.fires]
    cases item.expiresAt with
    | none => simp
    | some expiresAt =>
      simp only [Option.bind_some]
      grind
  have h₂ : s₂ = s₁ - Rule.points item now .rotation := by
    simp only [s₂, Rule.points, Rule.fires]
    cases item.lastRotatedAt with
    | none => simp
    | some lastRotatedAt =>
      simp only [Option.bind_some]
      grind
  have h₃ : s₃ = s₂ - Rule.points item now .description := by
    simp only [s₃, Rule.points, Rule.fires]
    grind
  have h₄ : s₄ = s₃ - Rule.points item now .tags := by
    simp only [s₄, Rule.points, Rule.fires]
    grind
  have h₅ : s₅ = s₄ - Rule.points item now .relationships := by
    simp only [s₅, Rule.points, Rule.fires]
    grind
  have h₆ : s₆ = s₅ - Rule.points item now .cluster := by
    simp only [s₆, Rule.points, Rule.fires]
    grind
  have hs : s₆ = 100 - total item now := by
    simp only [total, Rule.all, List.map_cons, List.map_nil, List.sum_cons, List.sum_nil]
    omega
  rw [hs]
  split <;> omega

/-! ## Bounds -/

theorem points_range (rule : Rule) :
    0 ≤ rule.points item now ∧ rule.points item now ≤ rule.cap := by
  cases rule with
  | expiry =>
    simp only [Rule.points, Rule.fires, Rule.cap]
    cases item.expiresAt with
    | none => simp
    | some expiresAt =>
      simp only [Option.bind_some]
      grind
  | rotation =>
    simp only [Rule.points, Rule.fires, Rule.cap]
    cases item.lastRotatedAt with
    | none => simp
    | some lastRotatedAt =>
      simp only [Option.bind_some]
      grind
  | description | tags | relationships | cluster =>
    simp only [Rule.points, Rule.fires, Rule.cap]
    grind

theorem total_range : 0 ≤ total item now ∧ total item now ≤ 65 := by
  constructor
  · apply List.sum_nonneg
    intro points hpoints
    obtain ⟨rule, -, rfl⟩ := List.mem_map.1 hpoints
    exact (points_range item now rule).1
  · have hcaps : total item now ≤ (Rule.all.map Rule.cap).sum :=
      List.sum_le_sum fun rule _ => (points_range item now rule).2
    exact hcaps.trans (by decide)

/-- The points of the rules are those of the breakdown. -/
theorem sum_fired : ((fired item now).map Breakdown.deduction).sum = total item now := by
  rw [fired, total]
  induction Rule.all with
  | nil => rfl
  | cons rule rules ih =>
    rw [List.map_cons, List.sum_cons, ← ih, Rule.points, List.filterMap_cons]
    cases rule.fires item now <;> simp

/-! ## As time goes on -/

/-- A date of a column is long before the last second there is. -/
theorem Timestamptz.scan_sec_lt (t : Timestamptz) : t.scan.sec < maxSec := by
  have h := t.range
  simp only [Timestamptz.scan, Instant.ofMicros, maxSec]
  omega

variable {item now}

/-- No rule takes less at a later time. -/
theorem points_mono {later : Instant} (h : later.before now = false) (rule : Rule) :
    rule.points item now ≤ rule.points item later := by
  have hle : now.nanos ≤ later.nanos := by
    have hnot : ¬ later.before now = true := by simp [h]
    rw [Instant.before_iff] at hnot
    omega
  cases rule with
  | expiry =>
    simp only [Rule.points, Rule.fires]
    cases item.expiresAt with
    | none => simp
    | some expiresAt =>
      have hlast := expiresAt.scan_sec_lt
      have hweek : (0 : Int) ≤ 7 * 24 * hour := by decide
      simp only [Option.bind_some, Instant.before_add hweek hlast]
      simp only [Instant.before_iff]
      grind
  | rotation =>
    simp only [Rule.points, Rule.fires]
    cases item.lastRotatedAt with
    | none => simp
    | some lastRotatedAt =>
      have hmin : minSec ≤ 90 * 24 * hour := by decide
      have hmax : 90 * 24 * hour < maxSec := by decide
      simp only [Option.bind_some, Instant.lt_sub_iff hmin hmax]
      grind
  | description | tags | relationships | cluster => exact le_rfl

theorem total_mono {later : Instant} (h : later.before now = false) :
    total item now ≤ total item later :=
  List.sum_le_sum fun rule _ => points_mono h rule

/-- The two scorers agree on a score that the breakdown explains, and that never
rises as the evaluation time advances. -/
theorem scorers_agree (item : ItemMeta) (now : Instant) :
    (scoreWithBreakdown item now).1 = score item now ∧
      score item now =
        100 - ((scoreWithBreakdown item now).2.map Breakdown.deduction).sum ∧
      0 ≤ score item now ∧ score item now ≤ 100 ∧
      ∀ later : Instant, later.before now = false → score item later ≤ score item now := by
  obtain ⟨hnonneg, hcap⟩ := total_range item now
  rw [scoreWithBreakdown_eq, score_eq, sum_fired]
  refine ⟨rfl, by omega, by omega, by omega, ?_⟩
  intro later hlater
  have hmono : total item now ≤ total item later := total_mono hlater
  rw [score_eq]
  omega

end Health

end IronStock

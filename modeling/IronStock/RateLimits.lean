import Mathlib.Data.List.Dedup
import IronStock.Lib.Runs
import IronStock.Lib.SlidingWindow
import IronStock.Lib.Table

/-!
# The shared rate limiter

The Redis half of `middleware_ratelimit.go`: one key for an address, holding a
sorted set of the milliseconds at which calls were admitted. The member of a
call is its millisecond, so calls of one millisecond are one member.
-/
namespace IronStock

open SlidingWindow

/-! ## Sorted sets -/

structure ZEntry where
  member : Int
  score : Int
deriving DecidableEq

structure ZSet where
  entries : List ZEntry
  /-- a member is there once -/
  nodup : (entries.map ZEntry.member).Nodup

namespace ZSet

def empty : ZSet := ⟨[], List.nodup_nil⟩

/-- `ZREMRANGEBYSCORE key -inf max`. -/
def zRemRangeByScore (z : ZSet) (max : Int) : ZSet where
  entries := Table.deleteWhere (·.score ≤ max) z.entries
  nodup := z.nodup.sublist (List.filter_sublist.map _)

/-- `ZCARD key`. -/
def zCard (z : ZSet) : Nat := z.entries.length

/-- `ZADD key score member`: a member that is there gets the new score. -/
def zAdd (z : ZSet) (score member : Int) : ZSet where
  entries := Table.upsert (·.member = member) (fun e => { e with score }) ⟨member, score⟩ z.entries
  nodup := by
    unfold Table.upsert
    split
    · rw [Table.updateWhere, List.map_map]
      have hmember : (ZEntry.member ∘ fun e : ZEntry =>
          if (e.member = member : Bool) then { e with score } else e) = ZEntry.member := by
        funext e
        simp only [Function.comp_apply]
        split <;> rfl
      rw [hmember]
      exact z.nodup
    · next hfresh =>
      rw [List.map_append, List.nodup_append]
      refine ⟨z.nodup, List.nodup_singleton _, ?_⟩
      rintro m hm m' hm' rfl
      obtain rfl := List.mem_singleton.mp hm'
      obtain ⟨e, he, heq⟩ := List.mem_map.mp hm
      exact hfresh (List.any_eq_true.mpr ⟨e, he, by simpa using heq⟩)

/-- The members, which are the milliseconds of calls. -/
def members (z : ZSet) : List Int := z.entries.map ZEntry.member

end ZSet

/-! ## The script -/

/-- The value of a key and the time it is gone at. -/
structure RateKey where
  set : ZSet
  expiresAt : Int

/-- What a command finds under the key. -/
def findSet (key : Option RateKey) (now : Int) : ZSet :=
  match key with
  | none => .empty
  | some k => if k.expiresAt ≤ now then .empty else k.set

/-- Redis keeps neither an empty set nor an expired key. -/
def keepSet (set : ZSet) (expiresAt now : Int) : Option RateKey :=
  if set.zCard = 0 ∨ expiresAt ≤ now then none else some ⟨set, expiresAt⟩

/-- The set after the entries older than the window are gone. -/
def prunedSet (win now : Int) (key : Option RateKey) : ZSet :=
  (findSet key now).zRemRangeByScore (now - win)

/-- The Lua script of `Allow`, its result as a truth value. -/
def allow (limit win now : Int) (key : Option RateKey) : Option RateKey × Bool :=
  let set := prunedSet win now key
  if limit ≤ set.zCard then (key.bind fun k => keepSet set k.expiresAt now, false)
  else (keepSet (set.zAdd now now) (now + win) now, true)

/-! ## Runs -/

/-- The key, the clock, and the milliseconds of the calls admitted so far, the
newest first. Redis expires keys by the clock the calls are stamped with. -/
structure RateState where
  clock : Int
  key : Option RateKey
  admitted : List Int

def RateState.start (clock : Int) : RateState := ⟨clock, none, []⟩

/-- A call some milliseconds after the one before it, from any process. -/
def RateState.step (limit win : Int) (s : RateState) (elapsed : Nat) : RateState :=
  let now := s.clock + elapsed
  let r := allow limit win now s.key
  ⟨now, r.1, if r.2 then now :: s.admitted else s.admitted⟩

/-! ## What the set records -/

theorem mem_members_zAdd (z : ZSet) (score member m : Int) :
    m ∈ (z.zAdd score member).members ↔ m ∈ z.members ∨ m = member := by
  simp only [ZSet.members, List.mem_map]
  by_cases hany : z.entries.any (·.member = member) = true
  · have hentries : (z.zAdd score member).entries =
        Table.updateWhere (·.member = member) (fun e => { e with score }) z.entries := if_pos hany
    obtain ⟨old, hold, hmember⟩ := List.any_eq_true.mp hany
    rw [hentries]
    constructor
    · rintro ⟨e, he, rfl⟩
      obtain ⟨e', he', rfl⟩ := Table.mem_updateWhere.mp he
      refine .inl ⟨e', he', ?_⟩
      split <;> rfl
    · rintro (⟨e, he, rfl⟩ | rfl)
      · refine ⟨_, Table.mem_updateWhere.mpr ⟨e, he, rfl⟩, ?_⟩
        split <;> rfl
      · refine ⟨_, Table.mem_updateWhere.mpr ⟨old, hold, rfl⟩, ?_⟩
        split
        · exact of_decide_eq_true hmember
        · exact of_decide_eq_true hmember
  · have hentries : (z.zAdd score member).entries = z.entries ++ [⟨member, score⟩] := if_neg hany
    rw [hentries]
    simp [or_and_right, exists_or, eq_comm]

/-- Members and scores are the same milliseconds. -/
def ZSet.Stamped (z : ZSet) : Prop := ∀ e ∈ z.entries, e.score = e.member

theorem stamped_empty : ZSet.empty.Stamped := fun _ he => nomatch he

theorem ZSet.Stamped.zRemRangeByScore {z : ZSet} (h : z.Stamped) (max : Int) :
    (z.zRemRangeByScore max).Stamped :=
  fun e he => h e (Table.mem_deleteWhere.mp he).1

theorem ZSet.Stamped.zAdd {z : ZSet} (h : z.Stamped) (now : Int) : (z.zAdd now now).Stamped := by
  intro e he
  simp only [ZSet.zAdd, Table.upsert] at he
  split at he
  · obtain ⟨e', he', rfl⟩ := Table.mem_updateWhere.mp he
    split
    · next hm => exact (of_decide_eq_true hm).symm
    · exact h e' he'
  · rcases List.mem_append.mp he with he | he
    · exact h e he
    · rw [List.mem_singleton.mp he]

theorem mem_members_zRemRangeByScore {z : ZSet} (h : z.Stamped) (max m : Int) :
    m ∈ (z.zRemRangeByScore max).members ↔ m ∈ z.members ∧ max < m := by
  simp only [ZSet.members, List.mem_map, ZSet.zRemRangeByScore, Table.mem_deleteWhere,
    decide_eq_false_iff_not, Int.not_le]
  constructor
  · rintro ⟨e, ⟨he, hscore⟩, rfl⟩
    exact ⟨⟨e, he, rfl⟩, h e he ▸ hscore⟩
  · rintro ⟨⟨e, he, rfl⟩, hlt⟩
    exact ⟨e, ⟨he, (h e he).symm ▸ hlt⟩, rfl⟩

theorem eq_empty_of_zCard {z : ZSet} (h : z.zCard = 0) : z = .empty := by
  obtain ⟨entries, hnodup⟩ := z
  obtain rfl := List.eq_nil_of_length_eq_zero h
  rfl

theorem findSet_keepSet (set : ZSet) (expiresAt : Int) {now later : Int} (h : now ≤ later) :
    findSet (keepSet set expiresAt now) later = if expiresAt ≤ later then .empty else set := by
  simp only [keepSet]
  split
  · next hgone =>
    split
    · rfl
    · next hlive =>
      have hcard : set.zCard = 0 := hgone.resolve_right (by omega)
      rw [eq_empty_of_zCard hcard]
      rfl
  · rfl

theorem stamped_findSet_keepSet {set : ZSet} (h : set.Stamped) (expiresAt : Int)
    {now later : Int} : (findSet (keepSet set expiresAt now) later).Stamped := by
  simp only [keepSet]
  split
  · exact stamped_empty
  · simp only [findSet]
    split
    · exact stamped_empty
    · exact h

/-- What the key shows from now on: the milliseconds of the window at which some
call was admitted. -/
structure Records (win : Int) (s : RateState) : Prop where
  past : ∀ t ∈ s.admitted, t ≤ s.clock
  stamped : ∀ later, (findSet s.key later).Stamped
  members : ∀ later, s.clock ≤ later → ∀ t, later - win < t →
    (t ∈ (findSet s.key later).members ↔ t ∈ s.admitted)

theorem records_start (win clock : Int) : Records win (.start clock) where
  past _ ht := nomatch ht
  stamped _ := stamped_empty
  members _ _ _ _ := Iff.rfl

section Step

variable {limit win : Int} {s : RateState} (h : Records win s) (elapsed : Nat)

include h

/-- The set the script counts holds the milliseconds of the window. -/
theorem Records.mem_prunedSet (t : Int) :
    t ∈ (prunedSet win (s.clock + elapsed) s.key).members ↔
      t ∈ recent win (s.clock + elapsed) s.admitted := by
  rw [prunedSet, mem_members_zRemRangeByScore (h.stamped _), recent, List.mem_filter,
    decide_eq_true_eq]
  constructor
  · rintro ⟨hmem, hlt⟩
    exact ⟨(h.members _ (by omega) t hlt).mp hmem, hlt⟩
  · rintro ⟨hmem, hlt⟩
    exact ⟨(h.members _ (by omega) t hlt).mpr hmem, hlt⟩

/-- `ZCARD` counts milliseconds, not calls. -/
theorem Records.zCard_prunedSet :
    (prunedSet win (s.clock + elapsed) s.key).zCard =
      (recent win (s.clock + elapsed) s.admitted).dedup.length := by
  have hperm := (List.perm_ext_iff_of_nodup (ZSet.nodup _) (List.nodup_dedup _)).mpr fun t =>
    (h.mem_prunedSet elapsed t).trans List.mem_dedup.symm
  have hlen := hperm.length_eq
  rwa [List.length_map] at hlen

/-- A call is admitted while the window has fewer milliseconds than the limit. -/
theorem Records.step_admitted :
    (s.step limit win elapsed).admitted =
      if limit ≤ ((recent win (s.clock + elapsed) s.admitted).dedup.length : Int) then s.admitted
      else (s.clock + elapsed) :: s.admitted := by
  simp only [RateState.step, allow, h.zCard_prunedSet elapsed]
  split <;> rfl

theorem Records.stamped_prunedSet : (prunedSet win (s.clock + elapsed) s.key).Stamped :=
  (h.stamped _).zRemRangeByScore _

/-- A refused call leaves the pruned set under the time it had. -/
theorem Records.refused :
    Records win ⟨s.clock + elapsed, s.key.bind fun k =>
      keepSet (prunedSet win (s.clock + elapsed) s.key) k.expiresAt (s.clock + elapsed),
      s.admitted⟩ := by
  have hclock : s.clock ≤ s.clock + elapsed := by omega
  have hset := h.mem_prunedSet elapsed
  have hfind : ∀ later, s.clock + elapsed ≤ later → ∀ k, s.key = some k →
      findSet (s.key.bind fun k =>
        keepSet (prunedSet win (s.clock + elapsed) s.key) k.expiresAt (s.clock + elapsed)) later =
        if k.expiresAt ≤ later then .empty else prunedSet win (s.clock + elapsed) s.key := by
    intro later hlater k hkey
    rw [← findSet_keepSet _ k.expiresAt hlater, hkey]
    rfl
  refine ⟨fun t ht => Int.le_trans (h.past t ht) hclock, ?_, ?_⟩
  · intro later
    cases hkey : s.key with
    | none => exact stamped_empty
    | some k =>
      have hstamped := hkey ▸ h.stamped_prunedSet elapsed
      exact stamped_findSet_keepSet hstamped k.expiresAt
  · intro later (hlater : s.clock + elapsed ≤ later) t ht
    have hbefore := h.members later (Int.le_trans hclock hlater) t ht
    cases hkey : s.key with
    | none => rwa [hkey] at hbefore
    | some k =>
      have hfound := hfind later hlater k hkey
      simp only [hkey] at hfound hbefore hset
      rw [hfound]
      split
      · next hgone =>
        simp only [findSet, if_pos hgone] at hbefore
        exact hbefore
      · rw [hset, recent, List.mem_filter, decide_eq_true_eq]
        exact and_iff_left (by omega)

/-- An admitted call adds its millisecond, and the key lives for a window. -/
theorem Records.accepted :
    Records win ⟨s.clock + elapsed,
      keepSet ((prunedSet win (s.clock + elapsed) s.key).zAdd (s.clock + elapsed)
        (s.clock + elapsed)) (s.clock + elapsed + win) (s.clock + elapsed),
      (s.clock + elapsed) :: s.admitted⟩ := by
  have hpast : ∀ t ∈ (s.clock + elapsed) :: s.admitted, t ≤ s.clock + elapsed := by
    intro t ht
    rcases List.mem_cons.mp ht with rfl | ht
    · exact Int.le_refl _
    · exact Int.le_trans (h.past t ht) (by omega)
  refine ⟨hpast, fun _ => stamped_findSet_keepSet ((h.stamped_prunedSet elapsed).zAdd _) _, ?_⟩
  intro later (hlater : s.clock + elapsed ≤ later) t ht
  rw [findSet_keepSet _ _ hlater]
  split
  · next hgone =>
    refine iff_of_false (fun hmem => nomatch hmem) fun hmem => ?_
    have hle := hpast t hmem
    omega
  · rw [mem_members_zAdd, h.mem_prunedSet elapsed, recent, List.mem_filter, decide_eq_true_eq,
      and_iff_left (by omega), or_comm, List.mem_cons]

theorem Records.step : Records win (s.step limit win elapsed) := by
  simp only [RateState.step, allow]
  split
  · exact h.refused elapsed
  · exact h.accepted elapsed

end Step

/-! ## The limit -/

/-- The calls admitted in the window that ends now are fewer than the limit, or
came in as many milliseconds as the limit. -/
def CountsApart (limit win : Int) (s : RateState) (elapsed : Nat) : Prop :=
  let window := recent win (s.clock + elapsed) s.admitted
  window.length < limit ∨ limit ≤ window.dedup.length

/-- Every admitted call found fewer than the limit of them in its window. -/
def WithinLimit (limit win : Int) (s : RateState) : Prop := Paced limit.toNat win s.admitted

theorem withinLimit_step_iff {limit win : Int} {s : RateState} (h : Records win s)
    (hpaced : WithinLimit limit win s) (elapsed : Nat) :
    WithinLimit limit win (s.step limit win elapsed) ↔ CountsApart limit win s elapsed := by
  simp only [WithinLimit, h.step_admitted elapsed, CountsApart]
  split
  · next hfull => exact iff_of_true hpaced (.inr hfull)
  · next hfull =>
    have hkept : Paced limit.toNat win s.admitted := hpaced
    rw [paced_cons, and_iff_left hkept, or_iff_left hfull, Int.lt_toNat]

theorem Records.ordered_step {limit win : Int} {s : RateState} (h : Records win s)
    (hord : Ordered s.admitted) (elapsed : Nat) :
    Ordered (s.step limit win elapsed).admitted := by
  rw [h.step_admitted elapsed]
  split
  · exact hord
  · refine List.pairwise_cons.mpr ⟨fun t ht => ?_, hord⟩
    have hle := h.past t ht
    omega

theorem WithinLimit.of_step {limit win : Int} {s : RateState} (h : Records win s) {elapsed : Nat}
    (hstep : WithinLimit limit win (s.step limit win elapsed)) : WithinLimit limit win s := by
  simp only [WithinLimit, h.step_admitted elapsed] at hstep
  split at hstep
  · exact hstep
  · exact hstep.2

/-- A window without a length is empty. -/
theorem within_of_nonpos {win : Int} (h : win ≤ 0) (start : Int) (log : List Int) :
    within win start log = [] := by
  rw [within, List.filter_eq_nil_iff]
  intro t _
  simp only [decide_eq_true_eq]
  omega

theorem Records.countsApart_of_nonpos {limit win : Int} {s : RateState} (h : Records win s)
    (hwin : win ≤ 0) (elapsed : Nat) : CountsApart limit win s elapsed := by
  have hempty : recent win (s.clock + elapsed) s.admitted = [] := by
    rw [recent, List.filter_eq_nil_iff]
    intro t ht
    have hle := h.past t ht
    simp only [decide_eq_true_eq]
    omega
  simp only [CountsApart, hempty, List.dedup_nil, List.length_nil]
  omega

/-- Whatever calls come from whatever processes, every window of the length of
the limiter has at most the limit of admitted calls exactly if no call came
while calls of one millisecond hid that the window was full. -/
theorem sliding_window_admits_limit_iff (limit win clock : Int) (waits : List Nat) :
    (∀ start, (within win start
        (Runs.run (RateState.step limit win) (.start clock) waits).admitted).length ≤
          limit.toNat) ↔
      Runs.Every (RateState.step limit win) (CountsApart limit win) (.start clock) waits := by
  have hstart : Records win (.start clock) := records_start win clock
  by_cases hwin : win ≤ 0
  · refine iff_of_true (fun start => by rw [within_of_nonpos hwin]; exact Nat.zero_le _) ?_
    have hstep : ∀ s elapsed, Records win s → Records win (s.step limit win elapsed) :=
      fun _ elapsed h => h.step elapsed
    exact Runs.every_of_invariant hstep (fun _ elapsed h => h.countsApart_of_nonpos hwin elapsed)
      hstart waits
  · -- the log of the run is ordered, so its windows are within the limit if it is paced
    let J (s : RateState) : Prop := Records win s ∧ Ordered s.admitted
    have hJstep : ∀ s elapsed, J s → J (s.step limit win elapsed) := fun _ elapsed h =>
      ⟨h.1.step elapsed, h.1.ordered_step h.2 elapsed⟩
    have hJ : J (.start clock) := ⟨hstart, List.Pairwise.nil⟩
    have hend := Runs.run_invariant hJstep hJ waits
    have hpaced : (∀ start, (within win start
        (Runs.run (RateState.step limit win) (.start clock) waits).admitted).length ≤
          limit.toNat) ↔
        WithinLimit limit win (Runs.run (RateState.step limit win) (.start clock) waits) :=
      ⟨paced_of_within_le (by omega) hend.2, fun h start => Paced.within_le h start⟩
    have halong : WithinLimit limit win (Runs.run (RateState.step limit win) (.start clock) waits) ↔
        Runs.Along (RateState.step limit win) (WithinLimit limit win) (.start clock) waits :=
      ⟨Runs.along_of_last hJstep (fun _ _ h hstep => hstep.of_step h.1) hJ, Runs.Along.last⟩
    rw [hpaced, halong]
    exact Runs.along_iff_every (fun s elapsed h _ => hJstep s elapsed h)
      (fun _ elapsed h hI _ => withinLimit_step_iff h.1 hI elapsed) waits hJ trivial
      (Runs.every_of_invariant (J := fun _ => True) (fun _ _ _ => trivial) (fun _ _ _ => trivial)
        trivial waits)

/-- Three calls of one millisecond, all admitted where two are allowed. -/
theorem sliding_window_over_limit :
    ¬ (within 1000 0 (Runs.run (RateState.step 2 1000) (.start 0) [0, 0, 0]).admitted).length ≤
      (2 : Int).toNat := by
  decide

/-- Calls that are at least a millisecond apart are counted one by one. -/
theorem countsApart_of_waits (limit win clock : Int) {waits : List Nat} (h : ∀ w ∈ waits, 0 < w) :
    Runs.Every (RateState.step limit win) (CountsApart limit win) (.start clock) waits := by
  let J (s : RateState) : Prop := Records win s ∧ s.admitted.Nodup
  have hJstep : ∀ s elapsed, J s → 0 < elapsed → J (s.step limit win elapsed) := by
    rintro s elapsed ⟨hrec, hnodup⟩ hpos
    refine ⟨hrec.step elapsed, ?_⟩
    rw [hrec.step_admitted elapsed]
    split
    · exact hnodup
    · refine List.nodup_cons.mpr ⟨fun hmem => ?_, hnodup⟩
      have hle := hrec.past _ hmem
      omega
  have hwaits := (Runs.every_const (RateState.step limit win) (0 < ·) (.start clock) waits).mpr h
  have halong := Runs.along_of_every hJstep ⟨records_start win clock, List.nodup_nil⟩ hwaits
  refine Runs.every_of_along (fun s elapsed hs _ => ?_) halong hwaits
  have hdedup : (recent win (s.clock + elapsed) s.admitted).dedup =
      recent win (s.clock + elapsed) s.admitted := List.dedup_eq_self.mpr (hs.2.filter _)
  simp only [CountsApart, hdedup]
  omega

end IronStock

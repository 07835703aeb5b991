import IronStock.OIDCStates
import Mathlib.Data.Int.Order.Basic

/-!
# The stores of OIDC states

What Redis and the memories hold of the states issued, and what each operation
does to it.
-/
namespace IronStock

/-! ## The invariant -/

/-- The state is in the memory of its process. -/
def OIDCStore.InMemory (s : OIDCStore) (t : DrawnState) : Prop :=
  ∃ m ∈ s.memory, m.pod = t.pod ∧ m.state = t.state

def OIDCStore.Holds (s : OIDCStore) (t : DrawnState) : Prop :=
  (∃ k ∈ s.redis, k.state = t.state) ∨ s.InMemory t

/-- Every entry is for a state that was issued, and a state that is not over nor
presented is in one of the stores. -/
structure StatesOk (useRedis : Bool) (s : OIDCStore) : Prop where
  past : ∀ t ∈ s.issued, t.time ≤ s.clock
  redis : ∀ k ∈ s.redis, ∃ t ∈ s.issued, t.state = k.state ∧ t.entry = k.entry ∧
    k.goneAt = t.entry.expiresAt
  memory : ∀ m ∈ s.memory, ∃ t ∈ s.issued, t.pod = m.pod ∧ t.state = m.state ∧ t.entry = m.entry
  kept : ∀ t ∈ s.issued, t.state ∉ s.presented → t.entry.expiresAt < s.clock ∨ s.Holds t
  noRedis : useRedis = false → s.redis = []

theorem OIDCStore.le_tick (s : OIDCStore) (elapsed : Nat) : s.clock ≤ (s.tick elapsed).clock :=
  Int.le_add_of_nonneg_right (Int.natCast_nonneg elapsed)

namespace StatesOk

variable {useRedis : Bool} {s : OIDCStore}

theorem start (useRedis : Bool) (now : Time) : StatesOk useRedis { clock := now } where
  past t ht := by cases ht
  redis k hk := by cases hk
  memory m hm := by cases hm
  kept t ht := by cases ht
  noRedis _ := rfl

theorem tick (h : StatesOk useRedis s) (elapsed : Nat) : StatesOk useRedis (s.tick elapsed) where
  past t ht := (h.past t ht).trans (s.le_tick elapsed)
  redis := h.redis
  memory := h.memory
  kept t ht hnew := by
    rcases h.kept t ht hnew with hover | hheld
    · exact .inl (lt_of_lt_of_le hover (s.le_tick elapsed))
    · exact .inr hheld
  noRedis := h.noRedis

theorem observed (h : StatesOk useRedis s) (pod : Nat) (failed : Bool) :
    StatesOk useRedis (s.observed pod failed) := ⟨h.past, h.redis, h.memory, h.kept, h.noRedis⟩

theorem present (h : StatesOk useRedis s) (state : String) : StatesOk useRedis (s.present state) :=
  ⟨h.past, h.redis, h.memory,
    fun t ht hnew => h.kept t ht fun hmem => hnew (List.mem_cons_of_mem _ hmem), h.noRedis⟩

/-- A state that has been presented may be deleted in Redis. -/
theorem del (h : StatesOk useRedis s) {state : String} (hpresented : state ∈ s.presented) :
    StatesOk useRedis (s.del state) where
  past := h.past
  redis k hk := h.redis k (Table.mem_deleteWhere.mp hk).1
  memory := h.memory
  kept t ht hnew := by
    have hne : t.state ≠ state := fun heq => hnew (heq ▸ hpresented)
    rcases h.kept t ht hnew with hover | ⟨k, hk, hstate⟩ | hlocal
    · exact .inl hover
    · refine .inr (.inl ⟨k, Table.mem_deleteWhere.mpr ⟨hk, ?_⟩, hstate⟩)
      simpa [hstate] using hne
    · exact .inr (.inr hlocal)
  noRedis hno := by
    show Table.deleteWhere _ s.redis = []
    rw [h.noRedis hno]
    rfl

/-- `issueOIDCState` through Redis. -/
theorem setIssue (h : StatesOk useRedis s) (huse : useRedis = true) {t : DrawnState}
    (htime : t.time = s.clock) : StatesOk useRedis ((s.set t).issue t) where
  past t' ht' := by
    rcases List.mem_append.mp ht' with ht' | ht'
    · exact h.past t' ht'
    · rw [List.mem_singleton.mp ht', htime]
      exact le_refl s.clock
  redis k hk := by
    rcases List.mem_append.mp hk with hk | hk
    · obtain ⟨t', ht', hrest⟩ := h.redis k (Table.mem_deleteWhere.mp hk).1
      exact ⟨t', List.mem_append_left _ ht', hrest⟩
    · rw [List.mem_singleton.mp hk]
      refine ⟨t, List.mem_append_right _ (List.mem_singleton_self t), rfl, rfl, ?_⟩
      show s.clock + oidcStateTTL = t.time + oidcStateTTL
      rw [htime]
  memory m hm := by
    obtain ⟨t', ht', hrest⟩ := h.memory m hm
    exact ⟨t', List.mem_append_left _ ht', hrest⟩
  kept t' ht' hnew := by
    have hself : (⟨t.state, t.entry, s.clock + oidcStateTTL⟩ : RedisState) ∈
        ((s.set t).issue t).redis := List.mem_append_right _ (List.mem_singleton_self _)
    rcases List.mem_append.mp ht' with ht' | ht'
    · rcases h.kept t' ht' hnew with hover | ⟨k, hk, hstate⟩ | hlocal
      · exact .inl hover
      · by_cases hsame : k.state = t.state
        · exact .inr (.inl ⟨_, hself, hsame.symm.trans hstate⟩)
        · exact .inr (.inl ⟨k, List.mem_append_left _
            (Table.mem_deleteWhere.mpr ⟨hk, by simpa using hsame⟩), hstate⟩)
      · exact .inr (.inr hlocal)
    · rw [List.mem_singleton.mp ht']
      exact .inr (.inl ⟨_, hself, rfl⟩)
  noRedis hno := by
    rw [huse] at hno
    cases hno

/-- What is in memory stays there, but for entries that are over. -/
theorem inMemory_storeLocal (h : StatesOk useRedis s) (t : DrawnState) {t' : DrawnState}
    (ht' : t' ∈ s.issued) (hunique : ∀ t₁ ∈ s.issued, t₁.state = t'.state → t₁ = t')
    (hheld : s.InMemory t') :
    t'.entry.expiresAt < s.clock ∨ (s.storeLocal t).InMemory t' := by
  obtain ⟨m, hm, hpod, hstate⟩ := hheld
  by_cases hover : m.pod = t.pod ∧ m.entry.expiresAt < s.clock
  · obtain ⟨t₁, ht₁, -, hstate₁, hentry⟩ := h.memory m hm
    obtain rfl := hunique t₁ ht₁ (hstate₁.trans hstate)
    exact .inl (by rw [hentry]; exact hover.2)
  · right
    by_cases hsame : m.pod = t.pod ∧ m.state = t.state
    · exact ⟨⟨t.pod, t.state, t.entry⟩, List.mem_append_right _ (List.mem_singleton_self _),
        hsame.1.symm.trans hpod, hsame.2.symm.trans hstate⟩
    · refine ⟨m, List.mem_append_left _ ?_, hpod, hstate⟩
      rw [Table.mem_deleteWhere, Table.mem_deleteWhere]
      exact ⟨⟨hm, by simpa using hover⟩, by simpa using hsame⟩

/-- `issueOIDCState` through the memory of the process. -/
theorem localIssue (h : StatesOk useRedis s) {t : DrawnState} (htime : t.time ≤ s.clock)
    (hunique : ∀ t₁ ∈ s.issued, ∀ t₂ ∈ s.issued, t₁.state = t₂.state → t₁ = t₂) :
    StatesOk useRedis ((s.storeLocal t).issue t) where
  past t' ht' := by
    rcases List.mem_append.mp ht' with ht' | ht'
    · exact h.past t' ht'
    · rw [List.mem_singleton.mp ht']
      exact htime
  redis k hk := by
    obtain ⟨t', ht', hrest⟩ := h.redis k hk
    exact ⟨t', List.mem_append_left _ ht', hrest⟩
  memory m hm := by
    rcases List.mem_append.mp hm with hm | hm
    · rw [Table.mem_deleteWhere, Table.mem_deleteWhere] at hm
      obtain ⟨t', ht', hrest⟩ := h.memory m hm.1.1
      exact ⟨t', List.mem_append_left _ ht', hrest⟩
    · rw [List.mem_singleton.mp hm]
      exact ⟨t, List.mem_append_right _ (List.mem_singleton_self t), rfl, rfl, rfl⟩
  kept t' ht' hnew := by
    rcases List.mem_append.mp ht' with ht' | ht'
    · rcases h.kept t' ht' hnew with hover | hredis | hlocal
      · exact .inl hover
      · exact .inr (.inl hredis)
      · rcases h.inMemory_storeLocal t ht' (fun t₁ ht₁ => hunique t₁ ht₁ t' ht') hlocal with
          hover | hlocal
        · exact .inl hover
        · exact .inr (.inr hlocal)
    · rw [List.mem_singleton.mp ht']
      exact .inr (.inr ⟨_, List.mem_append_right _ (List.mem_singleton_self _), rfl, rfl⟩)
  noRedis := h.noRedis

/-- A state that has been presented may be taken from the memory. -/
theorem take (h : StatesOk useRedis s) {state : String} (pod : Nat)
    (hpresented : state ∈ s.presented) : StatesOk useRedis (s.takeLocal pod state).1 := by
  unfold OIDCStore.takeLocal
  split
  · exact h
  · refine ⟨h.past, h.redis, fun m hm => h.memory m (Table.mem_deleteWhere.mp hm).1,
      fun t ht hnew => ?_, h.noRedis⟩
    have hne : t.state ≠ state := fun heq => hnew (heq ▸ hpresented)
    rcases h.kept t ht hnew with hover | hredis | ⟨m, hm, hpod, hstate⟩
    · exact .inl hover
    · exact .inr (.inl hredis)
    · refine .inr (.inr ⟨m, Table.mem_deleteWhere.mpr ⟨hm, ?_⟩, hpod, hstate⟩)
      simp [hstate, hne]

end StatesOk

/-! ## Lookups -/

section Stores

variable {useRedis : Bool} {s : OIDCStore} {state : String}

theorem oidcGet_eq_some {entry : OIDCState} (h : s.get state = some entry) :
    ∃ k ∈ s.redis, k.state = state ∧ s.clock < k.goneAt ∧ k.entry = entry := by
  rw [OIDCStore.get, Option.map_eq_some_iff] at h
  obtain ⟨k, hfind, hentry⟩ := h
  have hmatch := List.find?_some hfind
  simp only [decide_eq_true_eq] at hmatch
  exact ⟨k, List.mem_of_find?_eq_some hfind, hmatch.1, hmatch.2, hentry⟩

theorem oidcGet_eq_none (h : s.get state = none) {k : RedisState} (hk : k ∈ s.redis)
    (hstate : k.state = state) : k.goneAt ≤ s.clock := by
  rw [OIDCStore.get, Option.map_eq_none_iff, List.find?_eq_none] at h
  by_contra hlive
  exact h k hk (by simpa [hstate] using hlive)

/-- What a callback finds in memory. -/
theorem oidcTakeLocal_cases (s : OIDCStore) (pod : Nat) (state : String) :
    ((∀ e ∈ s.memory, e.pod = pod → e.state ≠ state) ∧ s.takeLocal pod state = (s, none)) ∨
      ∃ e ∈ s.memory, e.pod = pod ∧ e.state = state ∧ s.takeLocal pod state =
        ({ s with
            memory := Table.deleteWhere (fun m => m.pod = pod ∧ m.state = state) s.memory },
          if e.entry.expiresAt < s.clock then none else some e.entry) := by
  simp only [OIDCStore.takeLocal]
  split
  · next hnone =>
    refine .inl ⟨fun e he hpod hstate => ?_, rfl⟩
    have hnot := List.find?_eq_none.mp hnone e he
    simp [hpod, hstate] at hnot
  · next e hfind =>
    have hmatch := List.find?_some hfind
    simp only [decide_eq_true_eq] at hmatch
    exact .inr ⟨e, List.mem_of_find?_eq_some hfind, hmatch.1, hmatch.2, rfl⟩

theorem oidcTakeLocal_frame (s : OIDCStore) (pod : Nat) (state : String) :
    (s.takeLocal pod state).1.issued = s.issued ∧
      (s.takeLocal pod state).1.presented = s.presented ∧
      (s.takeLocal pod state).1.clock = s.clock ∧
      (s.takeLocal pod state).1.redis = s.redis := by
  obtain ⟨-, h⟩ | ⟨e, -, -, -, h⟩ := oidcTakeLocal_cases s pod state <;> rw [h] <;>
    exact ⟨rfl, rfl, rfl, rfl⟩

/-- The state in the answer has been issued. -/
theorem acceptedState_of_get (h : StatesOk useRedis s) {entry : OIDCState}
    (hget : s.get state = some entry) :
    ∃ t ∈ s.issued, t.state = state ∧ t.entry = entry ∧ t.time ≤ s.clock ∧
      s.clock < t.entry.expiresAt := by
  obtain ⟨k, hk, rfl, hlive, rfl⟩ := oidcGet_eq_some hget
  obtain ⟨t, ht, hstate, hentry, hgone⟩ := h.redis k hk
  exact ⟨t, ht, hstate, hentry, h.past t ht, hgone ▸ hlive⟩

theorem acceptedState_of_takeLocal (h : StatesOk useRedis s) {pod : Nat} {entry : OIDCState}
    (htake : (s.takeLocal pod state).2 = some entry) :
    ∃ t ∈ s.issued, t.state = state ∧ t.entry = entry ∧ t.time ≤ s.clock ∧
      s.clock ≤ t.entry.expiresAt := by
  obtain ⟨-, hcase⟩ | ⟨e, he, hpod, rfl, hcase⟩ := oidcTakeLocal_cases s pod state
  · rw [hcase] at htake
    cases htake
  · rw [hcase] at htake
    by_cases hover : e.entry.expiresAt < s.clock
    · rw [if_pos hover] at htake
      cases htake
    · rw [if_neg hover] at htake
      cases htake
      obtain ⟨t, ht, -, hstate, hentry⟩ := h.memory e he
      exact ⟨t, ht, hstate, hentry, h.past t ht, hentry ▸ not_lt.mp hover⟩

/-- A live state in memory is let through. -/
theorem oidcTakeLocal_live (h : StatesOk useRedis s) {t : DrawnState} (ht : t ∈ s.issued)
    (hunique : ∀ t' ∈ s.issued, t'.state = t.state → t' = t)
    (hlive : s.clock < t.entry.expiresAt) (hheld : s.InMemory t) :
    (s.takeLocal t.pod t.state).2 = some t.entry := by
  obtain ⟨e₀, he₀, hpod₀, hstate₀⟩ := hheld
  obtain ⟨hnone, -⟩ | ⟨e, he, hpod, hstate, hcase⟩ := oidcTakeLocal_cases s t.pod t.state
  · exact absurd hstate₀ (hnone e₀ he₀ hpod₀)
  · obtain ⟨t', ht', -, hstate', hentry⟩ := h.memory e he
    obtain rfl := hunique t' ht' (hstate'.trans hstate)
    rw [hcase, ← hentry]
    exact if_neg (not_lt.mpr hlive.le)

end Stores

/-! ## Copies -/

/-- How often the stores have a state. -/
def OIDCStore.copies (s : OIDCStore) (state : String) : Nat :=
  s.redis.countP (·.state = state) + s.memory.countP (·.state = state)

theorem copies_set (s : OIDCStore) (t : DrawnState) (state : String) :
    (s.set t).copies state ≤ s.copies state + if t.state = state then 1 else 0 := by
  have hle := Table.countP_deleteWhere_le (fun k : RedisState => k.state = t.state)
    (fun k => k.state = state) s.redis
  simp only [OIDCStore.copies, OIDCStore.set, List.countP_append, List.countP_singleton,
    decide_eq_true_eq]
  omega

theorem copies_storeLocal (s : OIDCStore) (t : DrawnState) (state : String) :
    (s.storeLocal t).copies state ≤ s.copies state + if t.state = state then 1 else 0 := by
  have hlive := Table.countP_deleteWhere_le
    (fun e : LocalState => e.pod = t.pod ∧ e.entry.expiresAt < s.clock)
    (fun e => e.state = state) s.memory
  have hothers := Table.countP_deleteWhere_le
    (fun e : LocalState => e.pod = t.pod ∧ e.state = t.state) (fun e => e.state = state)
    (Table.deleteWhere (fun e => e.pod = t.pod ∧ e.entry.expiresAt < s.clock) s.memory)
  simp only [OIDCStore.copies, OIDCStore.storeLocal, List.countP_append, List.countP_singleton,
    decide_eq_true_eq]
  omega

theorem copies_del (s : OIDCStore) (state state' : String) :
    (s.del state).copies state' ≤ s.copies state' :=
  Nat.add_le_add_right (Table.countP_deleteWhere_le _ _ s.redis) _

/-- What Redis returned it has no more. -/
theorem copies_del_of_get {s : OIDCStore} {state : String} {entry : OIDCState}
    (hget : s.get state = some entry) (state' : String) :
    (s.del state).copies state' + (if state = state' then 1 else 0) ≤ s.copies state' := by
  by_cases hsame : state = state'
  · subst hsame
    obtain ⟨k, hk, hstate, -, -⟩ := oidcGet_eq_some hget
    have hlt := Table.countP_deleteWhere_lt (p := fun k : RedisState => k.state = state)
      (q := fun k => k.state = state) hk (by simpa using hstate) (by simpa using hstate)
    simp only [OIDCStore.copies, OIDCStore.del, if_true]
    omega
  · rw [if_neg hsame]
    exact copies_del s state state'

theorem copies_takeLocal (s : OIDCStore) (pod : Nat) (state state' : String) :
    (s.takeLocal pod state).1.copies state' +
        (if state = state' ∧ (s.takeLocal pod state).2.isSome then 1 else 0) ≤
      s.copies state' := by
  obtain ⟨-, hcase⟩ | ⟨e, he, hpod, hstate, hcase⟩ := oidcTakeLocal_cases s pod state
  · simp [hcase]
  · rw [hcase]
    generalize (if e.entry.expiresAt < s.clock then none else some e.entry) = answer
    by_cases hsame : state = state'
    · subst hsame
      have hlt := Table.countP_deleteWhere_lt
        (p := fun e : LocalState => e.pod = pod ∧ e.state = state)
        (q := fun e => e.state = state) he (by simp [hpod, hstate]) (by simpa using hstate)
      have hone : (if state = state ∧ answer.isSome then 1 else 0) ≤ 1 := by split <;> omega
      refine Nat.le_trans (Nat.add_le_add_left hone _) ?_
      simp only [OIDCStore.copies]
      omega
    · rw [if_neg fun h => hsame h.1]
      exact Nat.add_le_add_left (Table.countP_deleteWhere_le _ _ s.memory) _

end IronStock

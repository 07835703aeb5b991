import IronStock.Tickets
import Mathlib.Data.List.Nodup
import Mathlib.Data.Int.Order.Basic

/-!
# The stores of websocket tickets

The invariant of Redis and the memories while no ticket is in two stores, and
what each operation does to it.
-/
namespace IronStock

/-! ## The invariant -/

/-- The entry of a store for an issued ticket. -/
def IsTicket (s : TicketState) (token userID : String) (expiresAt : Time) (t : IssuedTicket) :
    Prop :=
  t ∈ s.issued ∧ t.token = token ∧ t.userID = userID ∧ expiresAt = t.time + ticketTTL

/-- A ticket is in Redis, or in the memory of its process. -/
def Stored (s : TicketState) (t : IssuedTicket) : Prop :=
  (∃ k ∈ s.redis, k.token = t.token) ∨ ∃ e ∈ s.tickets, e.pod = t.pod ∧ e.token = t.token

structure TicketsOk (useRedis : Bool) (s : TicketState) : Prop where
  clock : ∀ t ∈ s.issued, t.time ≤ s.clock
  unique : (s.issued.map IssuedTicket.token).Nodup
  redis : ∀ k ∈ s.redis, ∃ t, IsTicket s k.token k.userID k.expiresAt t
  tickets : ∀ e ∈ s.tickets, ∃ t, IsTicket s e.token e.userID e.expiresAt t ∧ t.pod = e.pod
  oneStore : ∀ k ∈ s.redis, ∀ e ∈ s.tickets, k.token ≠ e.token
  accepted : ∀ token ∈ s.accepted, (∃ t ∈ s.issued, t.token = token) ∧
    (∀ k ∈ s.redis, k.token ≠ token) ∧ ∀ e ∈ s.tickets, e.token ≠ token
  once : s.accepted.Nodup
  kept : ∀ t ∈ s.issued, t.token ∉ s.presented → t.time + ticketTTL < s.clock ∨ Stored s t
  noRedis : useRedis = false → s.redis = []

theorem TicketState.le_tick (s : TicketState) (elapsed : Nat) :
    s.clock ≤ (s.tick elapsed).clock :=
  Int.le_add_of_nonneg_right (Int.natCast_nonneg elapsed)

namespace TicketsOk

variable {useRedis : Bool} {s : TicketState}

/-- A token names one issued ticket. -/
theorem eq_of_token (h : TicketsOk useRedis s) {t t' : IssuedTicket} (ht : t ∈ s.issued)
    (ht' : t' ∈ s.issued) (htoken : t.token = t'.token) : t = t' :=
  List.inj_on_of_nodup_map h.unique ht ht' htoken

theorem tick (h : TicketsOk useRedis s) (elapsed : Nat) : TicketsOk useRedis (s.tick elapsed) where
  clock t ht := (h.clock t ht).trans (s.le_tick elapsed)
  unique := h.unique
  redis := h.redis
  tickets := h.tickets
  oneStore := h.oneStore
  accepted := h.accepted
  once := h.once
  kept t ht hnew := by
    rcases h.kept t ht hnew with hover | hstored
    · exact .inl (lt_of_lt_of_le hover (s.le_tick elapsed))
    · exact .inr hstored
  noRedis := h.noRedis

theorem observed (h : TicketsOk useRedis s) (pod : Nat) (failed : Bool) :
    TicketsOk useRedis (s.observed pod failed) :=
  ⟨h.clock, h.unique, h.redis, h.tickets, h.oneStore, h.accepted, h.once, h.kept, h.noRedis⟩

theorem present (h : TicketsOk useRedis s) (token : String) :
    TicketsOk useRedis (s.present token) :=
  ⟨h.clock, h.unique, h.redis, h.tickets, h.oneStore, h.accepted, h.once,
    fun t ht hnew => h.kept t ht fun hmem => hnew (List.mem_cons_of_mem _ hmem), h.noRedis⟩

/-- A ticket that has been presented may be deleted in Redis. -/
theorem del (h : TicketsOk useRedis s) {token : String} (hpresented : token ∈ s.presented) :
    TicketsOk useRedis (s.del token) where
  clock := h.clock
  unique := h.unique
  redis k hk := h.redis k (Table.mem_deleteWhere.mp hk).1
  tickets := h.tickets
  oneStore k hk := h.oneStore k (Table.mem_deleteWhere.mp hk).1
  accepted token' ht := by
    obtain ⟨hissued, hredis, htickets⟩ := h.accepted token' ht
    exact ⟨hissued, fun k hk => hredis k (Table.mem_deleteWhere.mp hk).1, htickets⟩
  once := h.once
  kept t ht hnew := by
    have hne : t.token ≠ token := fun heq => hnew (heq ▸ hpresented)
    rcases h.kept t ht hnew with hover | ⟨k, hk, htoken⟩ | hlocal
    · exact .inl hover
    · refine .inr (.inl ⟨k, Table.mem_deleteWhere.mpr ⟨hk, ?_⟩, htoken⟩)
      simpa [htoken] using hne
    · exact .inr (.inr hlocal)
  noRedis hno := by
    show Table.deleteWhere _ s.redis = []
    rw [h.noRedis hno]
    rfl

/-- Entries of the memory may go if they have been presented or are over. -/
theorem dropLocal (h : TicketsOk useRedis s) (gone : LocalTicket → Bool)
    (hgone : ∀ e ∈ s.tickets, gone e = true → e.token ∈ s.presented ∨ e.expiresAt < s.clock) :
    TicketsOk useRedis { s with tickets := Table.deleteWhere gone s.tickets } where
  clock := h.clock
  unique := h.unique
  redis := h.redis
  tickets e he := h.tickets e (Table.mem_deleteWhere.mp he).1
  oneStore k hk e he := h.oneStore k hk e (Table.mem_deleteWhere.mp he).1
  accepted token ht := by
    obtain ⟨hissued, hredis, htickets⟩ := h.accepted token ht
    exact ⟨hissued, hredis, fun e he => htickets e (Table.mem_deleteWhere.mp he).1⟩
  once := h.once
  kept t ht hnew := by
    rcases h.kept t ht hnew with hover | hredis | ⟨e, he, hpod, htoken⟩
    · exact .inl hover
    · exact .inr (.inl hredis)
    · by_cases hdrop : gone e = true
      · rcases hgone e he hdrop with hpresented | hover
        · exact absurd (htoken ▸ hpresented) hnew
        · obtain ⟨t', ⟨ht', htoken', _, hexpires⟩, _⟩ := h.tickets e he
          have heq : t' = t := h.eq_of_token ht' ht (htoken'.trans htoken)
          exact .inl (by rw [← heq, ← hexpires]; exact hover)
      · exact .inr (.inr ⟨e, Table.mem_deleteWhere.mpr ⟨he, by simpa using hdrop⟩, hpod, htoken⟩)
  noRedis := h.noRedis

/-- No store has anything for a ticket that was not issued. -/
theorem not_stored (h : TicketsOk useRedis s) {token : String}
    (hnew : ∀ t ∈ s.issued, t.token ≠ token) :
    (∀ k ∈ s.redis, k.token ≠ token) ∧ (∀ e ∈ s.tickets, e.token ≠ token) ∧
      token ∉ s.accepted := by
  refine ⟨?_, ?_, ?_⟩
  · rintro k hk rfl
    obtain ⟨t, ht, htoken, _⟩ := h.redis k hk
    exact hnew t ht htoken
  · rintro e he rfl
    obtain ⟨t, ⟨ht, htoken, _⟩, _⟩ := h.tickets e he
    exact hnew t ht htoken
  · intro hmem
    obtain ⟨⟨t, ht, htoken⟩, _⟩ := h.accepted token hmem
    exact hnew t ht htoken

/-- `Issue` with its entry in one of the stores. -/
theorem addIssue (h : TicketsOk useRedis s) {token : String}
    (hnew : ∀ t ∈ s.issued, t.token ≠ token) (pod : Nat) (userID : String)
    (keys : List RedisKey) (entries : List LocalTicket)
    (hkeys : ∀ k ∈ keys, k = ⟨token, userID, s.clock + ticketTTL⟩)
    (hentries : ∀ e ∈ entries, e = ⟨pod, token, userID, s.clock + ticketTTL⟩)
    (hone : keys = [] ∨ entries = []) (hsome : keys ≠ [] ∨ entries ≠ [])
    (huse : useRedis = false → keys = []) :
    TicketsOk useRedis
      { s.issue pod token userID with
        redis := s.redis ++ keys
        tickets := s.tickets ++ entries } := by
  obtain ⟨hredis, htickets, haccepted⟩ := h.not_stored hnew
  have hself : (⟨pod, token, userID, s.clock⟩ : IssuedTicket) ∈ (s.issue pod token userID).issued :=
    List.mem_append_right _ (List.mem_singleton_self _)
  have hold : ∀ t, t ∈ s.issued → t ∈ (s.issue pod token userID).issued :=
    fun t ht => List.mem_append_left _ ht
  constructor
  · intro t ht
    rcases List.mem_append.mp ht with ht | ht
    · exact h.clock t ht
    · rw [List.mem_singleton] at ht
      exact ht ▸ le_refl s.clock
  · show ((s.issued ++ [IssuedTicket.mk pod token userID s.clock]).map IssuedTicket.token).Nodup
    rw [List.map_append, List.nodup_append]
    refine ⟨h.unique, List.nodup_singleton _, ?_⟩
    intro a ha b hb
    obtain ⟨t, ht, rfl⟩ := List.mem_map.mp ha
    rw [List.map_cons, List.map_nil, List.mem_singleton] at hb
    exact hb ▸ hnew t ht
  · intro k hk
    rcases List.mem_append.mp hk with hk | hk
    · obtain ⟨t, ht, hrest⟩ := h.redis k hk
      exact ⟨t, hold t ht, hrest⟩
    · rw [hkeys k hk]
      exact ⟨_, hself, rfl, rfl, rfl⟩
  · intro e he
    rcases List.mem_append.mp he with he | he
    · obtain ⟨t, ⟨ht, hrest⟩, hpod⟩ := h.tickets e he
      exact ⟨t, ⟨hold t ht, hrest⟩, hpod⟩
    · rw [hentries e he]
      exact ⟨_, ⟨hself, rfl, rfl, rfl⟩, rfl⟩
  · intro k hk e he
    rcases List.mem_append.mp hk with hk | hk
    · rcases List.mem_append.mp he with he | he
      · exact h.oneStore k hk e he
      · rw [hentries e he]
        exact hredis k hk
    · rcases List.mem_append.mp he with he | he
      · rw [hkeys k hk]
        exact (htickets e he).symm
      · rcases hone with rfl | rfl
        · cases hk
        · cases he
  · intro token' ht
    obtain ⟨⟨t, htissued, htoken⟩, hr, hl⟩ := h.accepted token' ht
    have hne : token ≠ token' := by
      rintro rfl
      exact haccepted ht
    refine ⟨⟨t, hold t htissued, htoken⟩, fun k hk => ?_, fun e he => ?_⟩
    · rcases List.mem_append.mp hk with hk | hk
      · exact hr k hk
      · exact hkeys k hk ▸ hne
    · rcases List.mem_append.mp he with he | he
      · exact hl e he
      · exact hentries e he ▸ hne
  · exact h.once
  · intro t ht hunseen
    rcases List.mem_append.mp ht with ht | ht
    · rcases h.kept t ht hunseen with hover | ⟨k, hk, htoken⟩ | ⟨e, he, hrest⟩
      · exact .inl hover
      · exact .inr (.inl ⟨k, List.mem_append_left _ hk, htoken⟩)
      · exact .inr (.inr ⟨e, List.mem_append_left _ he, hrest⟩)
    · rw [List.mem_singleton] at ht
      subst ht
      rcases hsome with hne | hne
      · obtain ⟨k, hk⟩ := List.exists_mem_of_ne_nil _ hne
        exact .inr (.inl ⟨k, List.mem_append_right _ hk, by rw [hkeys k hk]⟩)
      · obtain ⟨e, he⟩ := List.exists_mem_of_ne_nil _ hne
        exact .inr (.inr ⟨e, List.mem_append_right _ he, by rw [hentries e he], by
          rw [hentries e he]⟩)
  · intro hno
    show s.redis ++ keys = []
    rw [h.noRedis hno, huse hno]
    rfl

/-- `Issue` through Redis. -/
theorem setIssue (h : TicketsOk useRedis s) (huse : useRedis = true) {token : String}
    (hnew : ∀ t ∈ s.issued, t.token ≠ token) (pod : Nat) (userID : String) :
    TicketsOk useRedis ((s.set token userID).issue pod token userID) := by
  have hset : Table.deleteWhere (fun k => k.token = token) s.redis = s.redis :=
    Table.deleteWhere_eq_self fun k hk => by simpa using (h.not_stored hnew).1 k hk
  have hadd := h.addIssue hnew pod userID [⟨token, userID, s.clock + ticketTTL⟩] []
    (by simp) (by simp) (.inr rfl) (.inl (by simp)) (by simp [huse])
  rw [List.append_nil] at hadd
  rw [TicketState.set, hset]
  exact hadd

/-- `Issue` through the memory of the process. -/
theorem localIssue (h : TicketsOk useRedis s) {token : String}
    (hnew : ∀ t ∈ s.issued, t.token ≠ token) (pod : Nat) (userID : String) :
    TicketsOk useRedis ((s.storeLocal pod token userID).issue pod token userID) := by
  have hstore : Table.deleteWhere (fun e => e.pod = pod ∧ e.token = token) s.tickets = s.tickets :=
    Table.deleteWhere_eq_self fun e he => by simp [(h.not_stored hnew).2.1 e he]
  have hadd := h.addIssue hnew pod userID [] [⟨pod, token, userID, s.clock + ticketTTL⟩]
    (by simp) (by simp) (.inl rfl) (.inr (by simp)) (fun _ => rfl)
  rw [List.append_nil] at hadd
  rw [TicketState.storeLocal, hstore]
  exact hadd

/-- A ticket that is in no store any more is accepted. -/
theorem accept (h : TicketsOk useRedis s) {token : String} {answer : Option String}
    (haccept : answer.isSome = true → (∃ t ∈ s.issued, t.token = token) ∧
      (∀ k ∈ s.redis, k.token ≠ token) ∧ (∀ e ∈ s.tickets, e.token ≠ token) ∧
      token ∉ s.accepted) : TicketsOk useRedis (s.accept token answer) := by
  unfold TicketState.accept
  split
  · next hsome =>
    obtain ⟨hissued, hredis, htickets, hnew⟩ := haccept hsome
    refine ⟨h.clock, h.unique, h.redis, h.tickets, h.oneStore, ?_, ?_, h.kept, h.noRedis⟩
    · intro token' ht
      rcases List.mem_cons.mp ht with rfl | ht
      · exact ⟨hissued, hredis, htickets⟩
      · exact h.accepted token' ht
    · exact List.nodup_cons.mpr ⟨hnew, h.once⟩
  · exact h

end TicketsOk

end IronStock

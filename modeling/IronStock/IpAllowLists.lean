import IronStock.Authentication
import IronStock.ClientAddresses
import IronStock.Lib.Runs

/-!
# Address allow-lists

`PATCH /api/v1/admin/users/{id}/ip-restrictions`. `ParseCIDRList` reads each string of
the list as ranges between commas, and the handler stores the strings as they came;
`CheckIP` reads them again, each as one range.
-/
namespace IronStock.IpAllowLists

open IpText

/-! ## The strings -/

/-- A plain address or a range. -/
def validEntry (p : String) : Bool :=
  if '/' ∈ p.toList then (parseCIDR p.toList).isSome else (parseIP p.toList).isSome

/-- The loop of `ParseCIDRList` over the parts. -/
def parseParts : List String → Option (List String)
  | [] => some []
  | p :: parts =>
    if trimSpace p = "" then parseParts parts
    else if validEntry (trimSpace p) then (parseParts parts).map (trimSpace p :: ·)
    else none

/-- `ParseCIDRList`. -/
def parseCIDRList (s : String) : Option (List String) :=
  if s = "" then some [] else parseParts ((s.toList.splitOn ',').map String.ofList)

/-- The address is in the range of an entry. -/
def EntryHas (p : String) (a : Address) : Prop :=
  if '/' ∈ p.toList then (parseCIDR p.toList).any (·.contains (some a)) = true
  else parseIP p.toList = some a

/-- The address is in one of the ranges that a string denotes. -/
def Denotes (s : String) (a : Address) : Prop :=
  ∃ entries, parseCIDRList s = some entries ∧ ∃ p ∈ entries, EntryHas p a

/-- What a list of strings stands for: all addresses if there is no range in it, else
those in its ranges. -/
def Allows (cidrs : List String) (a : Address) : Prop :=
  (∀ s ∈ cidrs, parseCIDRList s = some []) ∨ ∃ s ∈ cidrs, Denotes s a

/-- The condition under which the check reads a list the same way: it is empty, or
there is a range in it and what a string with a comma denotes is also denoted by one
without. -/
def Survives (cidrs : List String) (a : Address) : Prop :=
  cidrs = [] ∨ (∃ s ∈ cidrs, parseCIDRList s ≠ some []) ∧
    ((∃ s ∈ cidrs, ',' ∈ s.toList ∧ Denotes s a) → ∃ s ∈ cidrs, ',' ∉ s.toList ∧ Denotes s a)

/-! ## The two readings -/

/-- The check of one string. -/
def checks (s : String) (a : Address) : Bool :=
  trimSpace s ≠ "" && (parseCIDR (normaliseCIDR (trimSpace s)).toList).any (·.contains (some a))

theorem checks_comma {s : String} (hcomma : ',' ∈ s.toList) (a : Address) :
    checks s a = false := by
  have hspace : isSpace ',' = false := by decide
  obtain ⟨before, after, hsplit, hbefore, hafter⟩ := trimSpace_split s
  have hmiddle : ',' ∈ (trimSpace s).toList := by
    rw [hsplit, List.mem_append, List.mem_append] at hcomma
    rcases hcomma with hmem | hmem | hmem
    · rw [hbefore _ hmem] at hspace
      cases hspace
    · exact hmem
    · rw [hafter _ hmem] at hspace
      cases hspace
  have hnorm : ',' ∈ (normaliseCIDR (trimSpace s)).toList := by
    unfold normaliseCIDR
    split_ifs <;> simp [hmiddle]
  unfold checks
  rw [parseCIDR_comma hnorm]
  simp

/-- A string without a comma is one entry or none. -/
theorem parseCIDRList_single {s : String} (hcomma : ',' ∉ s.toList) :
    parseCIDRList s =
      if trimSpace s = "" then some []
      else if validEntry (trimSpace s) then some [trimSpace s] else none := by
  unfold parseCIDRList
  split
  · next hempty =>
    subst hempty
    rfl
  · rw [List.splitOn_eq_singleton hcomma]
    simp only [List.map_cons, List.map_nil, String.ofList_toList, parseParts, Option.map_some]

theorem checks_entry {p : String} (hvalid : validEntry p = true) (a : Address) :
    (parseCIDR (normaliseCIDR p).toList).any (·.contains (some a)) = true ↔ EntryHas p a := by
  unfold validEntry at hvalid
  unfold normaliseCIDR EntryHas
  by_cases hslash : '/' ∈ p.toList
  · simp only [hslash, if_true]
  · simp only [hslash, if_false] at hvalid ⊢
    obtain ⟨b, hb⟩ := Option.isSome_iff_exists.1 hvalid
    have hfull := @contains_full p.toList a b hslash hb
    rw [hb, Option.some.injEq, @eq_comm _ b a, ← hfull]
    split_ifs <;> rw [String.toList_append]

theorem checks_iff {s : String} (hcomma : ',' ∉ s.toList) (haccepted : (parseCIDRList s).isSome)
    (a : Address) : checks s a = true ↔ Denotes s a := by
  unfold Denotes checks
  rw [parseCIDRList_single hcomma] at haccepted ⊢
  by_cases hblank : trimSpace s = ""
  · simp [hblank]
  · simp only [hblank, if_false] at haccepted ⊢
    by_cases hvalid : validEntry (trimSpace s) = true
    · simp [hblank, hvalid, checks_entry hvalid]
    · simp [hvalid] at haccepted

/-- A string that denotes a range for some address is not blank. -/
theorem ne_nil_of_denotes {s : String} {a : Address} (h : Denotes s a) :
    parseCIDRList s ≠ some [] := by
  obtain ⟨entries, hparse, p, hp, -⟩ := h
  rw [hparse]
  rintro ⟨⟩
  cases hp

/-- On strings that were accepted the check allows an address as it should exactly
under the condition. -/
theorem any_checks_iff {cidrs : List String}
    (haccepted : ∀ s ∈ cidrs, (parseCIDRList s).isSome = true) (a : Address) :
    ((cidrs = [] ∨ cidrs.any (checks · a) = true) ↔ Allows cidrs a) ↔ Survives cidrs a := by
  have hany : cidrs.any (checks · a) = true ↔
      ∃ s ∈ cidrs, ',' ∉ s.toList ∧ Denotes s a := by
    rw [List.any_eq_true]
    refine exists_congr fun s => and_congr_right fun hs => ?_
    by_cases hcomma : ',' ∈ s.toList
    · simp [checks_comma hcomma, hcomma]
    · rw [checks_iff hcomma (haccepted s hs)]
      exact (and_iff_right hcomma).symm
  rw [hany]
  unfold Allows Survives
  by_cases hempty : cidrs = []
  · simp [hempty]
  · simp only [hempty, false_or]
    constructor
    · intro h
      have hrange : ∃ s ∈ cidrs, parseCIDRList s ≠ some [] := by
        by_contra hnone
        push Not at hnone
        obtain ⟨s, hs, -, hden⟩ := h.2 (.inl hnone)
        exact ne_nil_of_denotes hden (hnone s hs)
      refine ⟨hrange, ?_⟩
      rintro ⟨s, hs, -, hden⟩
      exact h.2 (.inr ⟨s, hs, hden⟩)
    · rintro ⟨⟨s₀, hs₀, hrange⟩, hcover⟩
      constructor
      · rintro ⟨s, hs, -, hden⟩
        exact .inr ⟨s, hs, hden⟩
      · rintro (hnone | ⟨s, hs, hden⟩)
        · exact absurd (hnone s₀ hs₀) hrange
        · by_cases hcomma : ',' ∈ s.toList
          · exact hcover ⟨s, hs, hcomma, hden⟩
          · exact ⟨s, hs, hcomma, hden⟩

/-! ## The handler -/

/-- The body of the request; a null field is left unchanged. -/
structure Patch where
  allowedIPCIDRs : Option (List String) := none
  allowedCountryCodes : Option (List String) := none
  denyTorExit : Option Bool := none

namespace Patch
variable (p : Patch)

/-- The first string that `ParseCIDRList` refuses. -/
def badCIDR : Option String :=
  (p.allowedIPCIDRs.getD []).find? fun cidr => (parseCIDRList cidr).isNone

def isEmpty : Bool :=
  p.allowedIPCIDRs.isNone && p.allowedCountryCodes.isNone && p.denyTorExit.isNone

/-- No text value has a NUL in it. -/
def storable : Bool :=
  ((p.allowedIPCIDRs.getD []) ++ p.allowedCountryCodes.getD []).all fun s =>
    !s.toList.contains '\x00'

/-- The SET clauses. -/
def apply (u : User) : User :=
  { u with
    allowedIPCIDRs := p.allowedIPCIDRs.getD u.allowedIPCIDRs
    allowedCountries := p.allowedCountryCodes.getD u.allowedCountries
    denyTorExit := p.denyTorExit.getD u.denyTorExit }

end Patch

structure Request where
  claims : Option Claims
  id : String
  body : Patch

/-- The `UPDATE`, with the number of rows. -/
def updateUserRow (db : DB) (id : String) (body : Patch) : Option (DB × Nat) :=
  if body.storable then
    (castUuid id).map fun u =>
      (db.updateUser u body.apply, if (db.user? u).isSome then 1 else 0)
  else none

/-- `SetIPRestrictions`. -/
def setIPRestrictions (db : DB) (r : Request) : Reply DB := do
  let claims ← .orElse r.claims middlewareUnauthorized
  .require (r.id ≠ "") (badRequest "id zorunlu.")
  match r.body.badCIDR with
  | some cidr => .error (badRequest ("Geçersiz CIDR: " ++ cidr))
  | none =>
    if r.body.isEmpty then pure db
    else
      let (updated, rows) ← .orElse (updateUserRow db r.id r.body)
        (internalError "IP kısıtlamaları güncellenemedi.")
      .require (rows ≠ 0) ⟨404, errCodeNotFound, "Kullanıcı bulunamadı."⟩
      pure (updated.audit ⟨claims.subject.text, "admin.ip_restrictions_updated", "user", r.id⟩)

/-- The state after the request, whatever its answer. -/
def step (db : DB) (r : Request) : DB := (setIPRestrictions db r).toOption.getD db

/-- The list a request stores for a user. -/
def Request.stores (r : Request) (user : Uuid) : Option (List String) :=
  if r.claims.isSome ∧ castUuid r.id = some user ∧ r.body.badCIDR = none ∧
      r.body.storable = true then
    r.body.allowedIPCIDRs
  else none

/-- The list that the last request to store one has stored. -/
def lastStored (user : Uuid) : List String → List Request → List String :=
  List.foldl fun cidrs r => (r.stores user).getD cidrs

/-- No country and no Tor rule. -/
def cidrsOnly (u : User) : User := { u with allowedCountries := [], denyTorExit := false }

/-! ## Histories -/

section Histories
variable {db : DB} {user : Uuid} {u : User}

theorem setIPRestrictions_eq_ok {r : Request} {db' : DB} :
    setIPRestrictions db r = .ok db' ↔ ∃ claims, r.claims = some claims ∧ r.id ≠ "" ∧
      r.body.badCIDR = none ∧ (r.body.isEmpty = true ∧ db = db' ∨ r.body.isEmpty = false ∧
        ∃ target, castUuid r.id = some target ∧ r.body.storable = true ∧
          (db.user? target).isSome = true ∧ (db.updateUser target r.body.apply).audit
            ⟨claims.subject.text, "admin.ip_restrictions_updated", "user", r.id⟩ = db') := by
  unfold setIPRestrictions
  simp only [Reply.bind_eq_ok, Reply.orElse_eq_ok, Reply.require_eq_ok]
  refine exists_congr fun claims => and_congr_right fun _ => ?_
  simp only [exists_const]
  refine and_congr_right fun _ => ?_
  cases r.body.badCIDR with
  | some cidr => simp
  | none =>
    cases r.body.isEmpty with
    | true => simp
    | false =>
      simp only [Bool.false_eq_true, if_false, false_and, false_or, true_and, Reply.bind_eq_ok,
        Reply.orElse_eq_ok, Reply.require_eq_ok, Reply.pure_eq_ok, Prod.exists, updateUserRow]
      cases r.body.storable with
      | false => simp
      | true =>
        simp only [if_true, Option.map_eq_some_iff, true_and]
        constructor
        · rintro ⟨db₁, rows, ⟨target, hcast, hpair⟩, _, hrows, rfl⟩
          cases hpair
          refine ⟨target, hcast, ?_, rfl⟩
          by_contra hnone
          simp [hnone] at hrows
        · rintro ⟨target, hcast, hsome, rfl⟩
          exact ⟨_, _, ⟨target, hcast, rfl⟩, (), by simp [hsome], rfl⟩

/-- A request that has a list to store is accepted. -/
theorem setIPRestrictions_isOk (hu : db.user? user = some u) {r : Request} {cidrs : List String}
    (h : r.stores user = some cidrs) : ∃ db', setIPRestrictions db r = .ok db' := by
  unfold Request.stores at h
  split_ifs at h with hcond
  obtain ⟨hclaims, hcast, hbad, hstorable⟩ := hcond
  obtain ⟨claims, hclaims⟩ := Option.isSome_iff_exists.1 hclaims
  have hid : r.id ≠ "" := by
    intro hempty
    rw [hempty, castUuid_empty] at hcast
    cases hcast
  have hsome : r.body.isEmpty = false := by simp [Patch.isEmpty, h]
  refine ⟨_, setIPRestrictions_eq_ok.2 ⟨claims, hclaims, hid, hbad, .inr ⟨hsome, user, hcast,
    hstorable, ?_, rfl⟩⟩⟩
  rw [hu]
  rfl

/-- One request leaves the list of a user, or stores its own. -/
theorem step_allowedIPCIDRs (hu : db.user? user = some u) (r : Request) :
    ∃ u', (step db r).user? user = some u' ∧
      u'.allowedIPCIDRs = (r.stores user).getD u.allowedIPCIDRs := by
  unfold step
  cases hreply : setIPRestrictions db r with
  | error e =>
    refine ⟨u, hu, ?_⟩
    cases hstores : r.stores user with
    | none => rfl
    | some cidrs =>
      obtain ⟨db', hok⟩ := setIPRestrictions_isOk hu hstores
      rw [hreply] at hok
      cases hok
  | ok db' =>
    change ∃ u', db'.user? user = some u' ∧ _
    obtain ⟨claims, hclaims, -, hbad, ⟨hempty, rfl⟩ | ⟨-, target, hcast, hstorable, -, rfl⟩⟩ :=
      setIPRestrictions_eq_ok.1 hreply
    · refine ⟨u, hu, ?_⟩
      have hnone : r.body.allowedIPCIDRs = none := by
        simp only [Patch.isEmpty, Bool.and_eq_true, Option.isNone_iff_eq_none] at hempty
        exact hempty.1.1
      simp [Request.stores, hnone]
    · have hrow : ((db.updateUser target r.body.apply).audit
          ⟨claims.subject.text, "admin.ip_restrictions_updated", "user", r.id⟩).user? user =
            some (if u.id = target then r.body.apply u else u) := by
        change (db.updateUser target r.body.apply).user? user = _
        rw [user?_updateUser db target r.body.apply (fun _ => rfl), hu, Option.map_some]
      refine ⟨_, hrow, ?_⟩
      have hkey : u.id = user := (Table.lookup_eq_some hu).2
      by_cases htarget : user = target
      · simp [hkey, htarget, Request.stores, hclaims, hcast, hbad, hstorable, Patch.apply]
      · have hother : target ≠ user := fun heq => htarget heq.symm
        simp [hkey, htarget, Request.stores, hcast, hother]

theorem run_allowedIPCIDRs (rs : List Request) (hu : db.user? user = some u) :
    ∃ u', (Runs.run step db rs).user? user = some u' ∧
      u'.allowedIPCIDRs = lastStored user u.allowedIPCIDRs rs := by
  induction rs generalizing db u with
  | nil => exact ⟨u, hu, rfl⟩
  | cons r rs ih =>
    obtain ⟨v, hv, hcidrs⟩ := step_allowedIPCIDRs hu r
    obtain ⟨u', hu', hlast⟩ := ih hv
    refine ⟨u', hu', ?_⟩
    rw [hlast, hcidrs]
    rfl

/-- What is stored has been accepted. -/
theorem lastStored_accepted (rs : List Request) {cidrs : List String}
    (h : ∀ s ∈ cidrs, (parseCIDRList s).isSome = true) :
    ∀ s ∈ lastStored user cidrs rs, (parseCIDRList s).isSome = true := by
  induction rs generalizing cidrs with
  | nil => exact h
  | cons r rs ih =>
    suffices hstep : ∀ s ∈ (r.stores user).getD cidrs, (parseCIDRList s).isSome = true by
      exact ih hstep
    cases hstores : r.stores user with
    | none => exact h
    | some stored =>
      unfold Request.stores at hstores
      split_ifs at hstores with hcond
      have hbad := hcond.2.2.1
      unfold Patch.badCIDR at hbad
      rw [hstores, Option.getD_some, List.find?_eq_none] at hbad
      intro s hs
      simpa [Option.isSome_iff_ne_none] using hbad s hs

end Histories

/-! ## The check at sign-in -/

section Check
variable (isTorExit : String → Bool) (country : String → String)
  (equalFold : String → String → Bool)

/-- The addresses are checked against the list alone. -/
theorem checkIP_eq_none_iff {ip : String} {a : Address} (hip : parseIP ip.toList = some a)
    (u : User) :
    checkIP (netLibrary isTorExit country equalFold) ip (cidrsOnly u) = none ↔
      u.allowedIPCIDRs = [] ∨ u.allowedIPCIDRs.any (checks · a) = true := by
  have hrange := inAnyRange_of_parseIP hip isTorExit country equalFold u.allowedIPCIDRs
  have hchecks : inRanges a u.allowedIPCIDRs = u.allowedIPCIDRs.any (checks · a) := rfl
  rw [← hchecks, ← hrange]
  unfold checkIP cidrsOnly
  by_cases hempty : u.allowedIPCIDRs = []
  · simp [hempty]
  · cases hany : (netLibrary isTorExit country equalFold).inAnyRange ip u.allowedIPCIDRs with
    | false => simp [hempty]
    | true => simp

/-- After any history of requests the list of a user is the last one that was stored,
and the check of an address agrees with what its strings denote if and only if the list
survives the second reading. -/
theorem ipAllowList_agrees_iff {db : DB} {user : Uuid} {u : User} (hu : db.user? user = some u)
    (haccepted : ∀ s ∈ u.allowedIPCIDRs, (parseCIDRList s).isSome = true) (rs : List Request)
    {ip : String} {a : Address} (hip : parseIP ip.toList = some a) :
    ∃ u', (Runs.run step db rs).user? user = some u' ∧
      u'.allowedIPCIDRs = lastStored user u.allowedIPCIDRs rs ∧
      ((checkIP (netLibrary isTorExit country equalFold) ip (cidrsOnly u') = none ↔
          Allows u'.allowedIPCIDRs a) ↔
        Survives (lastStored user u.allowedIPCIDRs rs) a) := by
  obtain ⟨u', hu', hlast⟩ := run_allowedIPCIDRs rs hu
  refine ⟨u', hu', hlast, ?_⟩
  rw [checkIP_eq_none_iff isTorExit country equalFold hip, hlast]
  exact any_checks_iff (lastStored_accepted rs haccepted) a

end Check

/-- An administrator stores this list for user 1. -/
def sampleRequest (cidrs : List String) : Request where
  claims := some ⟨Uuid.ofNat 2, [.admin]⟩
  id := (Uuid.ofNat 1).text
  body := { allowedIPCIDRs := some cidrs }

def sampleUsers : DB := { users := [sampleUser 1 "ada"] }

/-- One range, and a request after it that names no list. -/
theorem ipAllowList_agrees_range :
    ∃ u', (Runs.run step sampleUsers
        [sampleRequest ["10.0.0.0/8"], { sampleRequest [] with body := {} }]).user?
          (Uuid.ofNat 1) = some u' ∧
      (checkIP (netLibrary (fun _ => false) (fun _ => "") (fun x y => x = y)) "10.1.2.3"
        (cidrsOnly u') = none ↔ Allows u'.allowedIPCIDRs (ofV4 0x0a010203)) := by
  have huser : sampleUsers.user? (Uuid.ofNat 1) = some (sampleUser 1 "ada") := rfl
  have hip : parseIP "10.1.2.3".toList = some (ofV4 0x0a010203) := by decide
  obtain ⟨u', hu', -, hagree⟩ := ipAllowList_agrees_iff (fun _ => false) (fun _ => "")
    (fun x y => x = y) huser (by simp [sampleUser])
    [sampleRequest ["10.0.0.0/8"], { sampleRequest [] with body := {} }] hip
  refine ⟨u', hu', hagree.2 ?_⟩
  have hlast : lastStored (Uuid.ofNat 1) (sampleUser 1 "ada").allowedIPCIDRs
      [sampleRequest ["10.0.0.0/8"], { sampleRequest [] with body := {} }] = ["10.0.0.0/8"] := by
    decide
  rw [hlast]
  refine .inr ⟨⟨_, List.mem_singleton.2 rfl, by decide⟩, ?_⟩
  rintro ⟨s, hs, hcomma, -⟩
  rw [List.mem_singleton.1 hs] at hcomma
  exact absurd hcomma (by decide)

/-- Two addresses in one string are accepted, and then let nobody in. -/
theorem ipAllowList_ignores_comma :
    ¬ ∀ (db : DB) (user : Uuid) (u u' : User) (rs : List Request) (ip : String) (a : Address),
      db.user? user = some u → (∀ s ∈ u.allowedIPCIDRs, (parseCIDRList s).isSome = true) →
      parseIP ip.toList = some a → (Runs.run step db rs).user? user = some u' →
        (checkIP (netLibrary (fun _ => false) (fun _ => "") (fun x y => x = y)) ip
          (cidrsOnly u') = none ↔ Allows u'.allowedIPCIDRs a) := by
  intro hall
  have huser : sampleUsers.user? (Uuid.ofNat 1) = some (sampleUser 1 "ada") := rfl
  have hip : parseIP "10.0.0.2".toList = some (ofV4 0x0a000002) := by decide
  obtain ⟨u', hu', hlast⟩ := run_allowedIPCIDRs [sampleRequest ["10.0.0.1,10.0.0.2"]] huser
  have hcidrs : u'.allowedIPCIDRs = ["10.0.0.1,10.0.0.2"] := by
    rw [hlast]
    decide
  have hagree := hall sampleUsers _ _ u' _ _ _ huser (by simp [sampleUser]) hip hu'
  rw [checkIP_eq_none_iff _ _ _ hip, hcidrs] at hagree
  have hden : Denotes "10.0.0.1,10.0.0.2" (ofV4 0x0a000002) := by
    refine ⟨["10.0.0.1", "10.0.0.2"], by decide, "10.0.0.2", by simp, ?_⟩
    unfold EntryHas
    decide
  rcases hagree.2 (.inr ⟨_, List.mem_singleton.2 rfl, hden⟩) with hnil | hany
  · cases hnil
  · rw [List.any_cons, checks_comma (by decide), List.any_nil] at hany
    cases hany

end IronStock.IpAllowLists

import IronStock.BootstrapSetup
import IronStock.Lib.RowVersions
import IronStock.PipelineDiagrams

/-!
# Lifecycle stages

`SetItemStages` of `lifecycle_handlers.go`, statement by statement, any number of
requests on one item at a time. The transaction deletes the rows it can see and
inserts those asked for, and nothing keeps two of them apart.
-/
namespace IronStock.Stages

open Interleaving RowVersions

/-! ## The request -/

/-- A request on the item: whose it is, the id as the URL spells it, and what the
body decodes to. -/
structure Request (item : Uuid) where
  userID : Uuid
  itemID : String
  stageIDs : Option (List Int)
  namesItem : castUuid itemID = some item

/-- What a statement meets: the rest of the database, the time, and its fate. -/
structure Event where
  db : DB
  now : Time
  fate : StatementFate

variable {item : Uuid}

/-- The checks before the transaction. -/
def Request.validate (req : Request item) (e : Event) : Reply (List Int) := do
  Reply.require (req.itemID ≠ "") (badRequest "Geçersiz item ID")
  let stageIDs ← Reply.orElse req.stageIDs (badRequest "Geçersiz JSON")
  Reply.require (stageIDs.length ≤ 8) (validationError "En fazla 8 stage atanabilir")
  Reply.require (∀ sid ∈ stageIDs, 1 ≤ sid ∧ sid ≤ 8)
    (validationError "Stage ID 1-8 arasında olmalı")
  Reply.require (e.fate = .runs) (internalError "İzin kontrolü başarısız")
  let perm ← Reply.orElse (resolveItemPermission e.db e.now req.userID req.itemID).toOption
    (internalError "İzin kontrolü başarısız")
  Reply.require (perm ≠ .none) ⟨404, errCodeNotFound, "Item bulunamadı"⟩
  Reply.require (perm.allowsWrite = true) ⟨403, errCodeForbidden, "Yazma izni gerekli"⟩
  return stageIDs

/-! ## The call -/

/-- The rows of `item_lifecycle_stages` that have the item, by their
`lifecycle_stage_id`. -/
structure State where
  stages : Store Int
  nextTx : Nat

/-- What is left of a call. -/
inductive Call (item : Uuid)
  | request (req : Request item)
  | begin (stageIDs : List Int)
  | delete (stageIDs : List Int) (tx : Nat)
  /-- the DELETE has its snapshot and waits for a row -/
  | deleting (stageIDs : List Int) (tx : Nat) (snapshot : List Nat)
  | insert (stageIDs : List Int) (tx : Nat) (sid : Int) (rest : List Int)
  | commit (stageIDs : List Int) (tx : Nat)

/-- A request is answered with the stages it asked for. -/
abbrev Result (item : Uuid) := State × (Call item ⊕ Reply (List Int))

namespace State

def fail (s : State) (e : ApiError) : Result item := (s, .inr (.error e))

def rollback (s : State) (tx : Nat) (e : ApiError) : Result item :=
  ({ s with stages := s.stages.rollback tx }, .inr (.error e))

def commit (s : State) (tx : Nat) : State := { s with stages := s.stages.commit tx }

end State

/-- The loop over `req.StageIDs`, from here. -/
def Call.inserting (stageIDs : List Int) (tx : Nat) : List Int → Call item
  | [] => .commit stageIDs tx
  | sid :: rest => .insert stageIDs tx sid rest

/-- The DELETE with a snapshot. -/
def State.runDelete (s : State) (e : Event) (stageIDs : List Int) (tx : Nat)
    (snapshot : List Nat) : Result item :=
  if e.fate = .runs then
    match s.stages.delete tx snapshot with
    | none => (s, .inl (.deleting stageIDs tx snapshot))
    | some stages => ({ s with stages := stages }, .inl (.inserting stageIDs tx stageIDs))
  else s.rollback tx (internalError "Veritabanı hatası")

/-- The next statement of `SetItemStages`. -/
def Call.exec (e : Event) (s : State) : Call item → Result item
  | .request req =>
    match req.validate e with
    | .error err => s.fail err
    | .ok stageIDs => (s, .inl (.begin stageIDs))
  | .begin stageIDs =>
    if e.fate = .runs then
      ({ s with nextTx := s.nextTx + 1 }, .inl (.delete stageIDs s.nextTx))
    else s.fail (internalError "İşlem başlatılamadı")
  | .delete stageIDs tx =>
    if e.fate = .runs then s.runDelete e stageIDs tx s.stages.snapshot
    -- the transaction has written nothing yet
    else s.fail (internalError "Veritabanı hatası")
  | .deleting stageIDs tx snapshot => s.runDelete e stageIDs tx snapshot
  | .insert stageIDs tx sid rest =>
    if e.fate = .runs then
      match s.stages.insertIgnore tx sid with
      | none => (s, .inl (.insert stageIDs tx sid rest))
      | some stages => ({ s with stages := stages }, .inl (.inserting stageIDs tx rest))
    else s.rollback tx (internalError "Veritabanı hatası")
  | .commit stageIDs tx =>
    match e.fate with
    | .runs => (s.commit tx, .inr (.ok stageIDs))
    | .fails => s.rollback tx (internalError "İşlem tamamlanamadı")
    | .unanswered => (s.commit tx).fail (internalError "İşlem tamamlanamadı")

/-- `SetItemStages` as a call. -/
def setItemStages (item : Uuid) :
    Program State (Request item) (Call item) (Reply (List Int)) Event where
  enter := .request
  exec e s call := call.exec e s

abbrev StagesSystem (item : Uuid) := System State (Call item) (Reply (List Int))
abbrev StagesMove (item : Uuid) := Move (Request item) Event

/-- No request yet, and the item has these stages. -/
def itemWith (item : Uuid) (first : List Int) : StagesSystem item :=
  ⟨⟨.holding first, 0⟩, []⟩

/-! ## What replacing the set means -/

/-- The set everybody sees. -/
def State.stageSet (s : State) : Finset Int := s.stages.committed.toFinset

/-- The set is the one a successful request asked for, or still the first. -/
def Replaced (first : List Int) (s : StagesSystem item) : Prop :=
  (∃ stageIDs, .inr (.ok stageIDs) ∈ s.calls ∧ s.shared.stageSet = stageIDs.toFinset) ∨
    (∀ stageIDs, .inr (.ok stageIDs) ∉ s.calls) ∧ s.shared.stageSet = first.toFinset

/-- A move that is not the success of a request leaves the set. -/
def SuccessOnly (s : StagesSystem item) (m : StagesMove item) : Prop :=
  ((setItemStages item).step s m).shared.stageSet = s.shared.stageSet ∨
    ∃ i e stageIDs, m = .advance i e ∧ (∃ k, s.calls[i]? = some (.inl k)) ∧
      ((setItemStages item).step s m).calls[i]? = some (.inr (.ok stageIDs))

/-- Between the start of its DELETE and its end. -/
def replaces : Call item ⊕ Reply (List Int) → Bool
  | .inl (.deleting ..) | .inl (.insert ..) | .inl (.commit ..) => true
  | _ => false

/-- What the next statement of a request is to meet. -/
def Call.Clear (calls : List (Call item ⊕ Reply (List Int))) (e : Event) : Call item → Prop
  | .delete .. => e.fate = .runs → ∀ c ∈ calls, replaces c = false
  | .commit .. => e.fate ≠ .unanswered
  | _ => True

/-- A DELETE starts while no other request is replacing the set, and no commit
loses its answer. -/
def Apart (s : StagesSystem item) : StagesMove item → Prop
  | .begin _ => True
  | .advance i e =>
    match s.calls[i]? with
    | some (.inl k) => k.Clear s.calls e
    | _ => True

instance (calls : List (Call item ⊕ Reply (List Int))) (e : Event) :
    (k : Call item) → Decidable (k.Clear calls e)
  | .delete .. => inferInstanceAs (Decidable (e.fate = .runs → ∀ c ∈ calls, replaces c = false))
  | .commit .. => inferInstanceAs (Decidable (e.fate ≠ .unanswered))
  | .request _ | .begin _ | .deleting .. | .insert .. => .isTrue trivial

instance (s : StagesSystem item) : (m : StagesMove item) → Decidable (Apart s m)
  | .begin _ => .isTrue trivial
  | .advance i e =>
    match h : s.calls[i]? with
    | some (.inl k) => decidable_of_iff (k.Clear s.calls e) (by simp only [Apart, h])
    | some (.inr _) => .isTrue (by simp only [Apart, h])
    | none => .isTrue (by simp only [Apart, h])

/-! ## Statements that commit nothing -/

section

variable (e : Event) (s : State)

@[simp] theorem stageSet_fail (err : ApiError) :
    (s.fail err : Result item).1.stageSet = s.stageSet := rfl

@[simp] theorem stageSet_rollback (tx : Nat) (err : ApiError) :
    (s.rollback tx err : Result item).1.stageSet = s.stageSet := by
  simp only [State.rollback, State.stageSet, Store.committed_rollback]

theorem stageSet_runDelete (stageIDs : List Int) (tx : Nat) (snapshot : List Nat) :
    (s.runDelete e stageIDs tx snapshot : Result item).1.stageSet = s.stageSet := by
  simp only [State.runDelete]
  split
  · split
    · rfl
    · next stages hdelete => simp only [State.stageSet, Store.committed_delete hdelete]
  · exact stageSet_rollback s tx _

theorem runDelete_ne_ok (stageIDs : List Int) (tx : Nat) (snapshot : List Nat)
    (answer : List Int) :
    (s.runDelete e stageIDs tx snapshot : Result item).2 ≠ .inr (.ok answer) := by
  simp only [State.runDelete]
  split
  · split <;> simp
  · simp [State.rollback]

/-- Only a commit changes what is seen. -/
theorem stageSet_exec {k : Call item} (h : ∀ stageIDs tx, k ≠ .commit stageIDs tx) :
    (k.exec e s).1.stageSet = s.stageSet := by
  cases k with
  | request req =>
    simp only [Call.exec]
    split <;> rfl
  | begin stageIDs =>
    simp only [Call.exec]
    split <;> rfl
  | delete stageIDs tx =>
    simp only [Call.exec]
    split
    · exact stageSet_runDelete e s stageIDs tx _
    · rfl
  | deleting stageIDs tx snapshot => exact stageSet_runDelete e s stageIDs tx snapshot
  | insert stageIDs tx sid rest =>
    simp only [Call.exec]
    split
    · split
      · rfl
      · next stages hinsert => simp only [State.stageSet, Store.committed_insertIgnore hinsert]
    · exact stageSet_rollback s tx _
  | commit stageIDs tx => exact absurd rfl (h stageIDs tx)

/-- What is reported as done has been committed. -/
theorem exec_answers {k : Call item} (hcommit : ∀ stageIDs tx, k = .commit stageIDs tx →
    e.fate ≠ .unanswered) :
    ((k.exec e s).1.stageSet = s.stageSet ∧ ∀ stageIDs, (k.exec e s).2 ≠ .inr (.ok stageIDs)) ∨
      ∃ stageIDs tx, k = .commit stageIDs tx ∧ k.exec e s = (s.commit tx, .inr (.ok stageIDs)) := by
  cases k with
  | request req =>
    refine .inl ⟨stageSet_exec e s (by simp), fun stageIDs => ?_⟩
    simp only [Call.exec]
    split <;> simp [State.fail]
  | begin stageIDs =>
    refine .inl ⟨stageSet_exec e s (by simp), fun stageIDs => ?_⟩
    simp only [Call.exec]
    split <;> simp [State.fail]
  | delete stageIDs tx =>
    refine .inl ⟨stageSet_exec e s (by simp), fun stageIDs => ?_⟩
    simp only [Call.exec]
    split
    · exact runDelete_ne_ok e s _ _ _ _
    · simp [State.fail]
  | deleting stageIDs tx snapshot =>
    exact .inl ⟨stageSet_exec e s (by simp), runDelete_ne_ok e s _ _ _⟩
  | insert stageIDs tx sid rest =>
    refine .inl ⟨stageSet_exec e s (by simp), fun stageIDs => ?_⟩
    simp only [Call.exec]
    split
    · split <;> simp
    · simp [State.rollback]
  | commit stageIDs tx =>
    have hanswered := hcommit stageIDs tx rfl
    cases hfate : e.fate with
    | runs => exact .inr ⟨stageIDs, tx, rfl, by simp only [Call.exec, hfate]⟩
    | fails =>
      refine .inl ⟨?_, fun stageIDs => ?_⟩
      · simp only [Call.exec, hfate, stageSet_rollback]
      · simp [Call.exec, hfate, State.rollback]
    | unanswered => exact absurd hfate hanswered

end

/-! ## One request at a time -/

/-- What the table looks like to the only request that replaces the set. -/
def Phase (st : Store Int) : Call item ⊕ Reply (List Int) → Prop
  | .inl (.insert stageIDs tx sid rest) =>
    st.Filling tx stageIDs (sid :: rest) ∧ ∀ a ∈ sid :: rest, a ∈ stageIDs
  | .inl (.commit stageIDs tx) => st.Filling tx stageIDs []
  -- the DELETE does not wait, for no other request has a row
  | _ => False

theorem phase_inserting {st : Store Int} {stageIDs rest : List Int} {tx : Nat}
    (h : st.Filling tx stageIDs rest) (hrest : ∀ a ∈ rest, a ∈ stageIDs) :
    Phase st (.inl (Call.inserting stageIDs tx rest : Call item)) := by
  cases rest with
  | nil => exact h
  | cons sid rest => exact ⟨h, hrest⟩

theorem replaces_inserting (stageIDs rest : List Int) (tx : Nat) :
    replaces (.inl (Call.inserting stageIDs tx rest : Call item)) = true := by
  cases rest <;> rfl

/-- At most one request replaces the set, and no row is held while none does. -/
abbrev Held (s : StagesSystem item) : Prop :=
  Program.Solo replaces (fun x => x.stages.Quiet) (fun x c => Phase x.stages c) s

/-- A statement that writes nothing. -/
theorem tidy_of_same {s : StagesSystem item} {k : Call item} {r : Result item}
    (hk : replaces (.inl k) = false) (hsame : r.1.stages = s.shared.stages)
    (hr : replaces r.2 = false) :
    Program.Tidy replaces (fun x : State => x.stages.Quiet) (fun x c => Phase x.stages c) s
      (.inl k) r :=
  .outside hk hr (by rw [hsame]; exact id) (by rw [hsame]; exact fun _ => id)

/-- What the next statement of a request does to the others. -/
theorem tidy_exec {s : StagesSystem item} {i : Nat} {e : Event} {k : Call item} (h : Held s)
    (hk : s.calls[i]? = some (.inl k)) (hapart : Apart s (.advance i e)) :
    Program.Tidy replaces (fun x : State => x.stages.Quiet) (fun x c => Phase x.stages c) s
      (.inl k) (k.exec e s.shared) := by
  have hmem : .inl k ∈ s.calls := List.mem_of_getElem? hk
  cases k with
  | request req =>
    apply tidy_of_same rfl <;> simp only [Call.exec] <;> split <;> rfl
  | begin stageIDs =>
    apply tidy_of_same rfl <;> simp only [Call.exec] <;> split <;> rfl
  | delete stageIDs tx =>
    by_cases hfate : e.fate = .runs
    · have hnone : ∀ c ∈ s.calls, replaces c = false := by
        simpa [Apart, hk, Call.Clear, hfate] using hapart
      obtain ⟨st, hst, hfilling⟩ := (h.free hnone).delete tx stageIDs
      simp only [Call.exec, State.runDelete, hfate, if_true, hst]
      exact .within (.inr hnone) (replaces_inserting stageIDs stageIDs tx)
        (phase_inserting hfilling fun a ha => ha)
    · simp only [Call.exec, hfate, if_false]
      exact tidy_of_same rfl rfl rfl
  | deleting stageIDs tx snapshot => exact (h.relies _ hmem rfl).elim
  | insert stageIDs tx sid rest =>
    obtain ⟨hfilling, hrest⟩ := h.relies _ hmem rfl
    by_cases hfate : e.fate = .runs
    · obtain ⟨st, hst, hfilling⟩ := hfilling.insertIgnore (hrest sid (List.mem_cons_self ..))
      simp only [Call.exec, hfate, if_true, hst]
      exact .within (.inl rfl) (replaces_inserting stageIDs rest tx)
        (phase_inserting hfilling fun a ha => hrest a (List.mem_cons_of_mem sid ha))
    · simp only [Call.exec, hfate, if_false]
      exact .leaves rfl rfl hfilling.rollback
  | commit stageIDs tx =>
    have hfilling : s.shared.stages.Filling tx stageIDs [] := h.relies _ hmem rfl
    have hanswered : e.fate ≠ .unanswered := by simpa [Apart, hk, Call.Clear] using hapart
    cases hfate : e.fate with
    | runs =>
      simp only [Call.exec, hfate]
      exact .leaves rfl rfl hfilling.commit
    | fails =>
      simp only [Call.exec, hfate]
      exact .leaves rfl rfl hfilling.rollback
    | unanswered => exact absurd hfate hanswered

/-! ## Every run -/

/-- A statement that answers nothing with success adds no success. -/
theorem ok_mem_set {calls : List (Call item ⊕ Reply (List Int))} {i : Nat} {k : Call item}
    {c : Call item ⊕ Reply (List Int)} (hk : calls[i]? = some (.inl k))
    (hc : ∀ stageIDs, c ≠ .inr (.ok stageIDs)) (stageIDs : List Int) :
    .inr (.ok stageIDs) ∈ calls.set i c ↔ .inr (.ok stageIDs) ∈ calls := by
  obtain ⟨before, after, hcalls, hset⟩ := Program.split_calls hk
  rw [hset, hcalls]
  simp [(hc stageIDs).symm]

theorem replaced_of_same {first : List Int} {s s' : StagesSystem item} (h : Replaced first s)
    (hset : s'.shared.stageSet = s.shared.stageSet)
    (hok : ∀ stageIDs, .inr (.ok stageIDs) ∈ s'.calls ↔ .inr (.ok stageIDs) ∈ s.calls) :
    Replaced first s' := by
  rcases h with ⟨stageIDs, hmem, hstages⟩ | ⟨hnone, hstages⟩
  · exact .inl ⟨stageIDs, (hok stageIDs).mpr hmem, hset.trans hstages⟩
  · exact .inr ⟨fun stageIDs hmem => hnone stageIDs ((hok stageIDs).mp hmem),
      hset.trans hstages⟩

/-- The set after a request that has inserted all its rows commits. -/
theorem stageSet_commit {s : State} {stageIDs : List Int} {tx : Nat}
    (h : s.stages.Filling tx stageIDs []) : (s.commit tx).stageSet = stageIDs.toFinset := by
  ext sid
  simp only [State.stageSet, State.commit, List.mem_toFinset]
  exact h.mem_committed sid

/-- One move of any request. -/
theorem replaced_step (first : List Int) (s : StagesSystem item) (m : StagesMove item)
    (h : Held s ∧ Replaced first s) (hapart : Apart s m) :
    (Held ((setItemStages item).step s m) ∧ Replaced first ((setItemStages item).step s m)) ∧
      SuccessOnly s m := by
  obtain ⟨hheld, hreplaced⟩ := h
  rw [SuccessOnly]
  obtain ⟨req, rfl, hstep⟩ | ⟨i, e, k, rfl, hk, hstep⟩ | hstep :=
    (setItemStages item).step_cases s m
  · rw [hstep]
    refine ⟨⟨Program.solo_begin hheld rfl, replaced_of_same hreplaced rfl fun stageIDs => ?_⟩,
      .inl rfl⟩
    simp [setItemStages]
  · rw [hstep]
    have hcommit : ∀ stageIDs tx, k = .commit stageIDs tx → e.fate ≠ .unanswered := by
      rintro stageIDs tx rfl
      simpa [Apart, hk, Call.Clear] using hapart
    have hheld' := Program.solo_put hheld hk (tidy_exec hheld hk hapart)
    rcases exec_answers e s.shared hcommit with ⟨hset, hok⟩ | ⟨stageIDs, tx, rfl, hexec⟩
    · exact ⟨⟨hheld', replaced_of_same hreplaced hset (ok_mem_set hk hok)⟩, .inl hset⟩
    · have hi : i < s.calls.length := (List.getElem?_eq_some_iff.mp hk).1
      have hfilling : s.shared.stages.Filling tx stageIDs [] :=
        hheld.relies _ (List.mem_of_getElem? hk) rfl
      have hput : s.put i ((setItemStages item).exec e s.shared (.commit stageIDs tx)) =
          s.put i (s.shared.commit tx, .inr (.ok stageIDs)) :=
        congrArg (s.put i) hexec
      refine ⟨⟨hheld', ?_⟩, .inr ⟨i, e, stageIDs, rfl, ⟨_, hk⟩, ?_⟩⟩
      · rw [hput]
        exact .inl ⟨stageIDs, List.mem_set hi _, stageSet_commit hfilling⟩
      · rw [hput, System.put_calls, List.getElem?_set_self hi]
  · rw [hstep]
    exact ⟨⟨hheld, hreplaced⟩, .inl rfl⟩

theorem held_start (item : Uuid) (first : List Int) :
    Held (itemWith item first) ∧ Replaced first (itemWith item first) := by
  refine ⟨⟨by simp [itemWith], fun _ => Store.quiet_holding first, ?_⟩, .inr ⟨?_, ?_⟩⟩
  · intro c hc
    simp [itemWith] at hc
  · simp [itemWith]
  · simp only [itemWith, State.stageSet, Store.committed_holding]

/-- While no two requests replace the set of the item at a time and no commit
loses its answer, the set is at every moment the one a successful request asked
for, and no request that fails changes it. -/
theorem setItemStages_replaces (item : Uuid) (first : List Int) (moves : List (StagesMove item))
    (h : Runs.Every (setItemStages item).step Apart (itemWith item first) moves) :
    Runs.Along (setItemStages item).step (Replaced first) (itemWith item first) moves ∧
      Runs.Every (setItemStages item).step SuccessOnly (itemWith item first) moves := by
  have hall := Runs.along_of_every
    (fun s m hs hm => (replaced_step first s m hs hm).1) (held_start item first) h
  exact ⟨hall.mono fun s hs => hs.2,
    Runs.every_of_along (fun s m hs hm => (replaced_step first s m hs hm).2) hall h⟩

/-! ## Two requests at a time -/

/-- The item 7 of the user 1. -/
def stagedItem : DB where
  users := [sampleUser 1 "ada"]
  folders := [sampleFolder 3 1]
  items := [sampleItem 7 3 1]

def ask (stageIDs : List Int) : StagesMove (Uuid.ofNat 7) :=
  .begin ⟨Uuid.ofNat 1, (Uuid.ofNat 7).text, some stageIDs, castUuid_text _⟩

/-- The next statement of a request runs. -/
def goOn (i : Nat) : StagesMove (Uuid.ofNat 7) := .advance i ⟨stagedItem, 0, .runs⟩

/-- Two requests, the second after the first. -/
def inTurn : List (StagesMove (Uuid.ofNat 7)) :=
  [ask [1], goOn 0, goOn 0, goOn 0, goOn 0, goOn 0,
    ask [2], goOn 1, goOn 1, goOn 1, goOn 1, goOn 1]

/-- Two requests, each of which deletes what it sees before the other commits. -/
def atOnce : List (StagesMove (Uuid.ofNat 7)) :=
  [ask [1], ask [2], goOn 0, goOn 1, goOn 0, goOn 1, goOn 0, goOn 1, goOn 0, goOn 1,
    goOn 0, goOn 1]

theorem setItemStages_replaces_in_turn :
    Runs.Along (setItemStages (Uuid.ofNat 7)).step (Replaced [])
        (itemWith (Uuid.ofNat 7) []) inTurn ∧
      Runs.Every (setItemStages (Uuid.ofNat 7)).step SuccessOnly
        (itemWith (Uuid.ofNat 7) []) inTurn := by
  apply setItemStages_replaces
  decide

/-- Both succeed, and the item has the stages of both. -/
theorem setItemStages_merges :
    ¬ ∀ (item : Uuid) (first : List Int) (moves : List (StagesMove item)),
      (∀ c ∈ (Runs.run (setItemStages item).step (itemWith item first) moves).calls,
        c.isRight = true) →
      Replaced first (Runs.run (setItemStages item).step (itemWith item first) moves) := by
  intro h
  have hcalls : (Runs.run (setItemStages (Uuid.ofNat 7)).step (itemWith (Uuid.ofNat 7) [])
      atOnce).calls = [.inr (.ok [1]), .inr (.ok [2])] := by
    rfl
  have hset : (Runs.run (setItemStages (Uuid.ofNat 7)).step (itemWith (Uuid.ofNat 7) [])
      atOnce).shared.stageSet = {1, 2} := by decide
  have hone := h (Uuid.ofNat 7) [] atOnce (by rw [hcalls]; decide)
  rw [Replaced, hcalls, hset] at hone
  rcases hone with ⟨stageIDs, hmem, hstages⟩ | ⟨hnone, -⟩
  · simp only [List.mem_cons, Sum.inr.injEq, Except.ok.injEq, List.not_mem_nil, or_false] at hmem
    rcases hmem with rfl | rfl <;> exact absurd hstages (by decide)
  · exact hnone [1] (List.mem_cons_self ..)

end IronStock.Stages

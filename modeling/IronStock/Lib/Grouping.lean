import IronStock.Lib.Table
import Mathlib.Data.List.Induction
import Mathlib.Data.List.Nodup

/-!
# Maps built entry by entry

An association list under a key. `assign` sets the value of a key, so that the last one
counts. `append` adds a value to the list under a key, so that every key ends with the values
that came with it, in the order they came.
-/
namespace Grouping

variable {κ ν : Type*} [DecidableEq κ]

/-! ## Assignments -/

/-- `m[k] = v`. -/
def assign (m : List (κ × ν)) (e : κ × ν) : List (κ × ν) :=
  Table.upsert (fun x => x.1 = e.1) (fun _ => e) e m

def assignAll (m es : List (κ × ν)) : List (κ × ν) := es.foldl assign m

theorem mem_assign {m : List (κ × ν)} {e x : κ × ν} :
    x ∈ assign m e ↔ x = e ∨ x ∈ m ∧ x.1 ≠ e.1 := by
  rw [assign, Table.mem_upsert_const]
  simp

theorem nodup_assign {m : List (κ × ν)} (e : κ × ν) (h : (m.map Prod.fst).Nodup) :
    ((assign m e).map Prod.fst).Nodup :=
  Table.nodup_upsert (fun _ hx => (of_decide_eq_true hx).symm) (fun _ hx => decide_eq_true hx) h

theorem nodup_assignAll {m : List (κ × ν)} (es : List (κ × ν)) (h : (m.map Prod.fst).Nodup) :
    ((assignAll m es).map Prod.fst).Nodup := by
  induction es generalizing m with
  | nil => exact h
  | cons e es ih => exact ih (nodup_assign e h)

/-- Under different keys no assignment undoes another. -/
theorem mem_assignAll {m es : List (κ × ν)} (hkeys : (es.map Prod.fst).Nodup) {x : κ × ν} :
    x ∈ assignAll m es ↔ x ∈ es ∨ x ∈ m ∧ x.1 ∉ es.map Prod.fst := by
  induction es generalizing m with
  | nil => simp [assignAll]
  | cons e es ih =>
    rw [List.map_cons, List.nodup_cons] at hkeys
    have hstep : assignAll m (e :: es) = assignAll (assign m e) es := rfl
    rw [hstep, ih hkeys.2, mem_assign, List.map_cons, List.mem_cons, List.mem_cons, not_or]
    constructor
    · rintro (hes | ⟨rfl | ⟨hm, hne⟩, hnew⟩)
      · exact .inl (.inr hes)
      · exact .inl (.inl rfl)
      · exact .inr ⟨hm, hne, hnew⟩
    · rintro ((rfl | hes) | ⟨hm, hne, hnew⟩)
      · exact .inr ⟨.inl rfl, hkeys.1⟩
      · exact .inl hes
      · exact .inr ⟨.inr ⟨hm, hne⟩, hnew⟩

/-- Under different keys the assignments are the map. -/
theorem assignAll_perm_iff {es : List (κ × ν)} :
    (assignAll [] es).Perm es ↔ (es.map Prod.fst).Nodup := by
  have hnodup := nodup_assignAll (m := []) es List.nodup_nil
  constructor
  · intro hperm
    exact (hperm.map Prod.fst).nodup_iff.mp hnodup
  · intro hkeys
    refine (List.perm_ext_iff_of_nodup (List.Nodup.of_map Prod.fst hnodup)
      (List.Nodup.of_map Prod.fst hkeys)).mpr ?_
    intro x
    simp [mem_assignAll hkeys]

/-! ## Lists under keys -/

/-- `m[k] = append(m[k], v)`. -/
def append (groups : List (κ × List ν)) (e : κ × ν) : List (κ × List ν) :=
  Table.upsert (fun g => g.1 = e.1) (fun g => (g.1, g.2 ++ [e.2])) (e.1, [e.2]) groups

def collect (es : List (κ × ν)) : List (κ × List ν) := es.foldl append []

/-- The values that came with a key. -/
def members (g : κ) (es : List (κ × ν)) : List ν := (es.filter (·.1 = g)).map Prod.snd

theorem collect_concat (es : List (κ × ν)) (e : κ × ν) :
    collect (es ++ [e]) = append (collect es) e :=
  List.foldl_concat ..

theorem members_concat_self (es : List (κ × ν)) (e : κ × ν) :
    members e.1 (es ++ [e]) = members e.1 es ++ [e.2] := by
  simp [members]

theorem members_concat_of_ne {es : List (κ × ν)} {e : κ × ν} {g : κ} (h : g ≠ e.1) :
    members g (es ++ [e]) = members g es := by
  simp [members, h.symm]

theorem members_eq_nil {g : κ} {es : List (κ × ν)} :
    members g es = [] ↔ ∀ e ∈ es, e.1 ≠ g := by
  simp [members]

theorem mem_members {g : κ} {es : List (κ × ν)} {v : ν} : v ∈ members g es ↔ (g, v) ∈ es := by
  simp [members]

theorem nodup_append {groups : List (κ × List ν)} (e : κ × ν)
    (h : (groups.map Prod.fst).Nodup) : ((append groups e).map Prod.fst).Nodup :=
  Table.nodup_upsert (fun _ _ => rfl) (fun _ hx => decide_eq_true hx) h

theorem nodup_collect (es : List (κ × ν)) : ((collect es).map Prod.fst).Nodup := by
  induction es using List.reverseRecOn with
  | nil => exact List.nodup_nil
  | append_singleton es e ih =>
    rw [collect_concat]
    exact nodup_append e ih

theorem mem_append {groups : List (κ × List ν)} {e : κ × ν} {g : κ} {l : List ν} :
    (g, l) ∈ append groups e ↔ g ≠ e.1 ∧ (g, l) ∈ groups ∨
      g = e.1 ∧ ((∃ l', (g, l') ∈ groups ∧ l = l' ++ [e.2]) ∨
        g ∉ groups.map Prod.fst ∧ l = [e.2]) := by
  unfold append Table.upsert
  split
  · next hany =>
    have hkey : e.1 ∈ groups.map Prod.fst := by simpa using hany
    rw [Table.mem_updateWhere]
    constructor
    · rintro ⟨⟨g', l'⟩, hmem, heq⟩
      split at heq
      · next hsame =>
        obtain ⟨rfl, rfl⟩ := Prod.mk.inj heq
        exact .inr ⟨of_decide_eq_true hsame, .inl ⟨l', hmem, rfl⟩⟩
      · next hother =>
        obtain ⟨rfl, rfl⟩ := Prod.mk.inj heq
        exact .inl ⟨fun hsame => hother (decide_eq_true hsame), hmem⟩
    · rintro (⟨hne, hmem⟩ | ⟨rfl, ⟨l', hmem, rfl⟩ | ⟨hnew, -⟩⟩)
      · exact ⟨(g, l), hmem, if_neg (by simpa using hne)⟩
      · exact ⟨(e.1, l'), hmem, if_pos (by simp)⟩
      · exact absurd hkey hnew
  · next hnone =>
    have hkey : e.1 ∉ groups.map Prod.fst := by simpa using hnone
    rw [List.mem_append, List.mem_singleton]
    constructor
    · rintro (hmem | heq)
      · refine .inl ⟨?_, hmem⟩
        rintro rfl
        exact hkey (List.mem_map_of_mem hmem)
      · obtain ⟨rfl, rfl⟩ := Prod.mk.inj heq
        exact .inr ⟨rfl, .inr ⟨hkey, rfl⟩⟩
    · rintro (⟨-, hmem⟩ | ⟨rfl, ⟨l', hmem, -⟩ | ⟨-, rfl⟩⟩)
      · exact .inl hmem
      · exact absurd (List.mem_map_of_mem hmem) hkey
      · exact .inr rfl

/-- Each key that came has its list. -/
theorem mem_collect {es : List (κ × ν)} {g : κ} {l : List ν} :
    (g, l) ∈ collect es ↔ l = members g es ∧ l ≠ [] := by
  induction es using List.reverseRecOn generalizing l with
  | nil => simp [collect, members]
  | append_singleton es e ih =>
    have hkeys : g ∉ (collect es).map Prod.fst ↔ members g es = [] := by
      constructor
      · intro hnew
        by_contra hne
        exact hnew (List.mem_map_of_mem (ih.mpr ⟨rfl, hne⟩))
      · rintro hnil hmem
        obtain ⟨⟨g', l'⟩, hrow, rfl⟩ := List.mem_map.mp hmem
        obtain ⟨hl, hne⟩ := ih.mp hrow
        exact hne (hl.trans hnil)
    rw [collect_concat, mem_append]
    by_cases hg : g = e.1
    · subst hg
      rw [members_concat_self]
      constructor
      · rintro (⟨hne, -⟩ | ⟨-, ⟨l', hmem, rfl⟩ | ⟨hnew, rfl⟩⟩)
        · exact absurd rfl hne
        · rw [(ih.mp hmem).1]
          exact ⟨rfl, by simp⟩
        · rw [hkeys.mp hnew]
          exact ⟨rfl, by simp⟩
      · rintro ⟨rfl, -⟩
        refine .inr ⟨rfl, ?_⟩
        by_cases hnil : members e.1 es = []
        · exact .inr ⟨hkeys.mpr hnil, by rw [hnil]; rfl⟩
        · exact .inl ⟨_, ih.mpr ⟨rfl, hnil⟩, rfl⟩
    · rw [members_concat_of_ne hg]
      constructor
      · rintro (⟨-, hmem⟩ | ⟨hsame, -⟩)
        · exact ih.mp hmem
        · exact absurd hsame hg
      · intro h
        exact .inl ⟨hg, ih.mpr h⟩

end Grouping

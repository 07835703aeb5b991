import IronStock.Lib.PartialFold

/-!
# Internet messages

The header and the body of a message: lines that end in CRLF up to an empty line, each a
field with its name, a colon and a value, or the rest of the field before it if it begins
with a blank. CR and LF stand in no line alone. Values may have octets from 128 on, and the
space after the colon is none of the value.
-/
namespace MailText

abbrev Octets := List UInt8

structure Field where
  name : Octets
  value : Octets
deriving DecidableEq

structure Message where
  fields : List Field
  body : Octets
deriving DecidableEq

/-- The lines before the empty one and what follows it; the first line has begun already. -/
def headLines (line : Octets) : Octets → Option (List Octets × Octets)
  | [] => none
  | [_] => none
  | b :: c :: rest =>
    if b = 13 ∧ c = 10 then
      if line = [] then some ([], rest)
      else (headLines [] rest).map fun (lines, body) => (line :: lines, body)
    else if b = 13 ∨ b = 10 then none
    else headLines (line ++ [b]) (c :: rest)

def isFolded (line : Octets) : Bool := line.head?.any fun b => b = 32 || b = 9

/-- The lines of the fields, joined to those that continue them, behind what continues a
line further up. -/
def joinLines : List Octets → Octets × List Octets
  | [] => ([], [])
  | line :: lines =>
    let (more, joined) := joinLines lines
    if isFolded line then (line ++ more, joined) else ([], (line ++ more) :: joined)

/-- `ftext`: a printable character that is no colon. -/
def isNameOctet (b : UInt8) : Bool := 33 ≤ b && b ≤ 126 && b ≠ 58

/-- What follows the colon without one space. -/
def fieldValue : Octets → Octets
  | 32 :: rest => rest
  | text => text

def readField (line : Octets) : Option Field :=
  let name := line.takeWhile (· ≠ 58)
  match line.dropWhile (· ≠ 58) with
  | [] => none
  | _ :: rest =>
    if name ≠ [] ∧ name.all isNameOctet then some ⟨name, fieldValue rest⟩ else none

def parse (text : Octets) : Option Message :=
  (headLines [] text).bind fun (lines, body) =>
    let (front, joined) := joinLines lines
    if front = [] then (joined.mapM readField).map (⟨·, body⟩) else none

/-! ## No line end gets into a value -/

def Unbroken (text : Octets) : Prop := 13 ∉ text ∧ 10 ∉ text

instance (text : Octets) : Decidable (Unbroken text) := inferInstanceAs (Decidable (_ ∧ _))

theorem unbroken_nil : Unbroken [] := ⟨List.not_mem_nil, List.not_mem_nil⟩

theorem unbroken_append {a b : Octets} : Unbroken (a ++ b) ↔ Unbroken a ∧ Unbroken b := by
  simp only [Unbroken, List.mem_append, not_or]
  exact and_and_and_comm

theorem Unbroken.sublist {a b : Octets} (h : Unbroken b) (hab : a.Sublist b) : Unbroken a :=
  ⟨fun hr => h.1 (hab.subset hr), fun hn => h.2 (hab.subset hn)⟩

theorem headLines_unbroken {line text body : Octets} {lines : List Octets}
    (hline : Unbroken line) (h : headLines line text = some (lines, body)) :
    ∀ l ∈ lines, Unbroken l := by
  fun_induction headLines line text generalizing lines with
  | case1 => cases h
  | case2 => cases h
  | case3 =>
    cases h
    intro l hl
    exact absurd hl List.not_mem_nil
  | case4 line b c rest hend hempty ih =>
    obtain ⟨found, hfound, heq⟩ := Option.map_eq_some_iff.mp h
    cases heq
    intro l hl
    rcases List.mem_cons.mp hl with rfl | hl
    · exact hline
    · exact ih unbroken_nil hfound l hl
  | case5 => cases h
  | case6 line b c rest hend hbreak ih =>
    obtain ⟨hcr, hlf⟩ := not_or.mp hbreak
    have hb : Unbroken [b] := by simp [Unbroken, Ne.symm hcr, Ne.symm hlf]
    exact ih (unbroken_append.mpr ⟨hline, hb⟩) h

theorem joinLines_unbroken {lines : List Octets} (h : ∀ l ∈ lines, Unbroken l) :
    Unbroken (joinLines lines).1 ∧ ∀ l ∈ (joinLines lines).2, Unbroken l := by
  induction lines with
  | nil => exact ⟨unbroken_nil, fun l hl => absurd hl List.not_mem_nil⟩
  | cons line lines ih =>
    obtain ⟨hmore, hjoined⟩ := ih fun l hl => h l (List.mem_cons_of_mem _ hl)
    have hlong := unbroken_append.mpr ⟨h line List.mem_cons_self, hmore⟩
    simp only [joinLines]
    split
    · exact ⟨hlong, hjoined⟩
    · refine ⟨unbroken_nil, ?_⟩
      intro l hl
      rcases List.mem_cons.mp hl with rfl | hl
      · exact hlong
      · exact hjoined l hl

theorem fieldValue_sublist (text : Octets) : (fieldValue text).Sublist text := by
  unfold fieldValue
  split
  · exact List.sublist_cons_self _ _
  · exact List.Sublist.refl _

theorem readField_unbroken {line : Octets} {f : Field} (h : readField line = some f)
    (hline : Unbroken line) : Unbroken f.value := by
  simp only [readField] at h
  split at h
  · cases h
  · next colon rest hrest =>
    split at h
    · cases h
      apply hline.sublist
      apply (fieldValue_sublist rest).trans
      apply (List.sublist_cons_self colon rest).trans
      rw [← hrest]
      exact (List.dropWhile_suffix _).sublist
    · cases h

theorem parse_unbroken {text : Octets} {m : Message} (h : parse text = some m) :
    ∀ f ∈ m.fields, Unbroken f.value := by
  obtain ⟨⟨lines, body⟩, hhead, h⟩ := Option.bind_eq_some_iff.mp h
  simp only at h
  split at h
  · obtain ⟨fields, hfields, rfl⟩ := Option.map_eq_some_iff.mp h
    intro f hf
    have hlines := (joinLines_unbroken (headLines_unbroken unbroken_nil hhead)).2
    obtain ⟨line, hline, hread⟩ := PartialFold.exists_of_mem_mapM hfields hf
    exact readField_unbroken hread (hlines line hline)
  · cases h

/-! ## Messages written field by field -/

def Field.write (f : Field) : Octets := f.name ++ [58, 32] ++ f.value ++ [13, 10]

def write (m : Message) : Octets := (m.fields.map Field.write).flatten ++ [13, 10] ++ m.body

/-- A field on one line. -/
structure Field.Proper (f : Field) : Prop where
  name_ne : f.name ≠ []
  name : f.name.all isNameOctet = true
  value : Unbroken f.value

/-- The line of a field. -/
def Field.line (f : Field) : Octets := f.name ++ 58 :: 32 :: f.value

theorem headLines_append {text : Octets} (h : Unbroken text) (line rest : Octets) :
    headLines line (text ++ 13 :: 10 :: rest) = headLines (line ++ text) (13 :: 10 :: rest) := by
  induction text generalizing line with
  | nil => rw [List.nil_append, List.append_nil]
  | cons b text ih =>
    obtain ⟨hb, htext⟩ := unbroken_append.mp (List.singleton_append ▸ h : Unbroken ([b] ++ text))
    have hcr : b ≠ 13 := fun he => hb.1 (he ▸ List.mem_cons_self)
    have hlf : b ≠ 10 := fun he => hb.2 (he ▸ List.mem_cons_self)
    have hstep : ∀ c tail,
        headLines line (b :: c :: tail) = headLines (line ++ [b]) (c :: tail) := by
      intro c tail
      rw [headLines, if_neg (fun hend => hcr hend.1), if_neg (not_or.mpr ⟨hcr, hlf⟩)]
    have hnext := ih htext (line ++ [b])
    rw [List.append_assoc, List.singleton_append] at hnext
    rw [← hnext]
    cases text with
    | nil => exact hstep 13 (10 :: rest)
    | cons c tail => exact hstep c (tail ++ 13 :: 10 :: rest)

theorem headLines_line {line : Octets} (h : Unbroken line) (hne : line ≠ []) (rest : Octets) :
    headLines [] (line ++ 13 :: 10 :: rest) =
      (headLines [] rest).map fun (lines, body) => (line :: lines, body) := by
  rw [headLines_append h, List.nil_append, headLines, if_pos ⟨rfl, rfl⟩, if_neg hne]

namespace Field

variable {f : Field}

theorem line_ne_nil (f : Field) : f.line ≠ [] :=
  List.append_ne_nil_of_right_ne_nil f.name (List.cons_ne_nil _ _)

theorem Proper.not_mem (h : f.Proper) {b : UInt8} (hb : isNameOctet b = false) : b ∉ f.name := by
  intro hmem
  have := List.all_eq_true.mp h.name b hmem
  rw [hb] at this
  cases this

theorem Proper.unbroken (h : f.Proper) : Unbroken f.line := by
  rw [line, ← List.singleton_append, ← List.singleton_append (l := f.value)]
  refine unbroken_append.mpr ⟨⟨h.not_mem (by decide), h.not_mem (by decide)⟩, ?_⟩
  exact unbroken_append.mpr ⟨by decide, unbroken_append.mpr ⟨by decide, h.value⟩⟩

theorem Proper.not_folded (h : f.Proper) : isFolded f.line = false := by
  cases hname : f.name with
  | nil => exact absurd hname h.name_ne
  | cons b rest =>
    have hb : ∀ c, isNameOctet c = false → b ≠ c := by
      rintro c hc rfl
      exact h.not_mem hc (hname ▸ List.mem_cons_self)
    have hspace := hb 32 (by decide)
    have htab := hb 9 (by decide)
    simp [isFolded, line, hname, hspace, htab]

theorem Proper.read (h : f.Proper) : readField f.line = some f := by
  have hcolon : ∀ b ∈ f.name, (decide (b ≠ 58)) = true := by
    rintro b hb
    rw [decide_eq_true_iff]
    rintro rfl
    exact h.not_mem (by decide) hb
  have htake : f.line.takeWhile (· ≠ 58) = f.name := by
    rw [line, List.takeWhile_append_of_pos hcolon, List.takeWhile_cons_of_neg (by decide),
      List.append_nil]
  have hdrop : f.line.dropWhile (· ≠ 58) = 58 :: 32 :: f.value := by
    rw [line, List.dropWhile_append_of_pos hcolon, List.dropWhile_cons_of_neg (by decide)]
  simp only [readField, htake, hdrop]
  rw [if_pos ⟨h.name_ne, h.name⟩]
  rfl

end Field

theorem headLines_fields {fields : List Field} (h : ∀ f ∈ fields, f.Proper) (body : Octets) :
    headLines [] ((fields.map Field.write).flatten ++ 13 :: 10 :: body) =
      some (fields.map Field.line, body) := by
  induction fields with
  | nil => rw [List.map_nil, List.flatten_nil, List.nil_append, headLines]; rfl
  | cons f fields ih =>
    have hf := h f List.mem_cons_self
    have hrest := ih fun g hg => h g (List.mem_cons_of_mem _ hg)
    have hsplit : ((f :: fields).map Field.write).flatten ++ 13 :: 10 :: body =
        f.line ++ 13 :: 10 :: ((fields.map Field.write).flatten ++ 13 :: 10 :: body) := by
      simp [Field.write, Field.line]
    rw [hsplit, headLines_line hf.unbroken f.line_ne_nil, hrest]
    rfl

theorem joinLines_fields {fields : List Field} (h : ∀ f ∈ fields, f.Proper) :
    joinLines (fields.map Field.line) = ([], fields.map Field.line) := by
  induction fields with
  | nil => rfl
  | cons f fields ih =>
    have hfold := (h f List.mem_cons_self).not_folded
    have hrest := ih fun g hg => h g (List.mem_cons_of_mem _ hg)
    rw [List.map_cons, joinLines, hrest]
    simp [hfold]

theorem readFields_lines {fields : List Field} (h : ∀ f ∈ fields, f.Proper) :
    (fields.map Field.line).mapM readField = some fields := by
  induction fields with
  | nil => rfl
  | cons f fields ih =>
    have hrest := ih fun g hg => h g (List.mem_cons_of_mem _ hg)
    exact PartialFold.mapM_cons_eq_some.mpr
      ⟨f, fields, (h f List.mem_cons_self).read, hrest, rfl⟩

/-- A message of proper fields is read back. -/
theorem parse_write {m : Message} (h : ∀ f ∈ m.fields, f.Proper) : parse (write m) = some m := by
  have hhead := headLines_fields h m.body
  rw [parse, write, List.append_assoc, List.cons_append, List.singleton_append, hhead,
    Option.bind_some]
  simp only [joinLines_fields h, if_true, readFields_lines h, Option.map_some]

end MailText

import IronStock.Lib.JsonText
import IronStock.Lib.PartialFold
import Mathlib.Data.List.Forall2

/-!
# JSON texts of flat objects

A text is cut into tokens in one way. The tokens of an object whose values are all strings
are those of no other value, so a text put together from keys and values is read as that object
or not at all.
-/
namespace JsonText

/-! ## Tokens -/

/-- A string, or one character outside of strings. -/
inductive Token
  | mark (c : Char)
  | text (s : List Char)
deriving DecidableEq

inductive Tokenizes : List Char → List Token → Prop
  | nil : Tokenizes [] []
  | blank {c : Char} {t : List Char} {ts : List Token} (hc : isWs c = true) :
      Tokenizes t ts → Tokenizes (c :: t) ts
  | mark {c : Char} {t : List Char} {ts : List Token} (hc : isWs c = false ∧ c ≠ '"') :
      Tokenizes t ts → Tokenizes (c :: t) (.mark c :: ts)
  | text {s u t : List Char} {ts : List Token} : Spells s u → Tokenizes t ts →
      Tokenizes ('"' :: (u ++ '"' :: t)) (.text s :: ts)

def marks (cs : List Char) : List Token := cs.map Token.mark

/-- Neither space nor a quote. -/
theorem marked_of_all {cs : List Char} (h : (cs.all fun c => !isWs c && c != '"') = true) :
    ∀ c ∈ cs, isWs c = false ∧ c ≠ '"' := by
  intro c hc
  simpa using List.all_eq_true.mp h c hc

theorem tokenizes_marks {cs t : List Char} {ts : List Token}
    (h : ∀ c ∈ cs, isWs c = false ∧ c ≠ '"') (ht : Tokenizes t ts) :
    Tokenizes (cs ++ t) (marks cs ++ ts) := by
  induction cs with
  | nil => exact ht
  | cons c cs ih =>
    rw [List.forall_mem_cons] at h
    exact .mark h.1 (ih h.2)

theorem tokenizes_blank {cs t : List Char} {ts : List Token} (h : ∀ c ∈ cs, isWs c = true)
    (ht : Tokenizes t ts) : Tokenizes (cs ++ t) ts := by
  induction cs with
  | nil => exact ht
  | cons c cs ih =>
    rw [List.forall_mem_cons] at h
    exact .blank h.1 (ih h.2)

theorem Tokenizes.append {t u : List Char} {ts us : List Token} (ht : Tokenizes t ts)
    (hu : Tokenizes u us) : Tokenizes (t ++ u) (ts ++ us) := by
  induction ht with
  | nil => exact hu
  | blank hc _ ih => exact .blank hc ih
  | mark hc _ ih => exact .mark hc ih
  | @text s v t ts hs _ ih =>
    have happ : ('"' :: (v ++ '"' :: t)) ++ u = '"' :: (v ++ '"' :: (t ++ u)) := by simp
    rw [happ]
    exact .text hs ih

/-! ## Characters -/

theorem isDigit_mark {c : Char} (h : c.isDigit = true) : isWs c = false ∧ c ≠ '"' := by
  constructor
  · rw [isWs, decide_eq_false_iff_not]
    rintro (rfl | rfl | rfl | rfl) <;> cases h
  · rintro rfl
    cases h

theorem Decimal.text_mark (d : Decimal) : ∀ c ∈ d.text, isWs c = false ∧ c ≠ '"' := by
  intro c hc
  rcases d.mem_text hc with rfl | rfl | h
  · decide
  · decide
  · exact isDigit_mark h

theorem Exponent.text_mark (e : Exponent) : ∀ c ∈ e.text, isWs c = false ∧ c ≠ '"' := by
  intro c hc
  rw [Exponent.text, List.mem_cons, List.mem_append] at hc
  rcases hc with rfl | hc | hc
  · have := e.mark_mem
    simp only [List.mem_cons, List.not_mem_nil, or_false] at this
    rcases this with h | h <;> rw [h] <;> decide
  · have := e.sign_mem
    simp only [List.mem_cons, List.not_mem_nil, or_false] at this
    rcases this with h | h | h
    all_goals
      rw [h] at hc
      simp only [List.mem_cons, List.not_mem_nil, or_false] at hc
      try subst hc
    · decide
    · decide
  · exact isDigit_mark (e.digits_digits c hc)

/-! ## The tokens of a value -/

/-- The tokens of some text of the value. -/
inductive Node.Tokens : {k : Kind} → Node k → List Token → Prop
  | null : Node.null.Tokens (marks "null".toList)
  | bool_true : (Node.bool true).Tokens (marks "true".toList)
  | bool_false : (Node.bool false).Tokens (marks "false".toList)
  | number (d : Decimal) {cs : List Char} (ne : cs ≠ []) (unbraced : '\x7b' ∉ cs) :
      (Node.number d).Tokens (marks cs)
  | string (s : List Char) : (Node.string s).Tokens [.text s]
  | array {xs : Node .elements} {ts : List Token} : xs.Tokens ts →
      (Node.array xs).Tokens (.mark '[' :: (ts ++ [.mark ']']))
  | object {ms : Node .members} {ts : List Token} : ms.Tokens ts →
      (Node.object ms).Tokens (.mark '\x7b' :: (ts ++ [.mark '\x7d']))
  | noElements : Node.noElements.Tokens []
  | lastElement {x : Node .value} {ts : List Token} : x.Tokens ts →
      (Node.element x .noElements).Tokens ts
  | element {x y : Node .value} {ys : Node .elements} {ts us : List Token} : x.Tokens ts →
      (Node.element y ys).Tokens us →
        (Node.element x (.element y ys)).Tokens (ts ++ .mark ',' :: us)
  | noMembers : Node.noMembers.Tokens []
  | lastMember (key : List Char) {x : Node .value} {ts : List Token} : x.Tokens ts →
      (Node.member key x .noMembers).Tokens (.text key :: .mark ':' :: ts)
  | member (key key' : List Char) {x y : Node .value} {ms : Node .members} {ts us : List Token} :
      x.Tokens ts → (Node.member key' y ms).Tokens us →
        (Node.member key x (.member key' y ms)).Tokens
          (.text key :: .mark ':' :: (ts ++ .mark ',' :: us))

theorem Decimal.text_ne_nil (d : Decimal) : d.text ≠ [] := by
  intro h
  rw [Decimal.text, List.append_eq_nil_iff, List.append_eq_nil_iff] at h
  exact d.whole_ne h.2.1

theorem Decimal.text_unbraced (d : Decimal) : '\x7b' ∉ d.text := by
  intro h
  rcases d.mem_text h with h | h | h <;> cases h

theorem Exponent.text_unbraced (e : Exponent) : '\x7b' ∉ e.text := by
  intro h
  rw [Exponent.text, List.mem_cons, List.mem_append] at h
  rcases h with h | h | h
  · have := e.mark_mem
    rw [← h] at this
    revert this
    decide
  · have := e.sign_mem
    simp only [List.mem_cons, List.not_mem_nil, or_false] at this
    rcases this with hs | hs | hs <;> rw [hs] at h <;> revert h <;> decide
  · cases e.digits_digits _ h

/-- What reads as a value is cut into tokens of it. -/
theorem Reads.tokens {k : Kind} {n : Node k} {text : List Char} (h : Reads n text) :
    ∃ ts, n.Tokens ts ∧ Tokenizes text ts := by
  have hword {cs : List Char} (h : ∀ c ∈ cs, isWs c = false ∧ c ≠ '"') :
      Tokenizes cs (marks cs) := by
    have := tokenizes_marks h .nil
    rwa [List.append_nil, List.append_nil] at this
  induction h with
  | space pre post blank h ih =>
    obtain ⟨ts, hn, ht⟩ := ih
    have hpost := tokenizes_blank blank.2 .nil
    rw [List.append_nil] at hpost
    have := tokenizes_blank blank.1 (ht.append hpost)
    rw [List.append_nil] at this
    exact ⟨ts, hn, this⟩
  | null => exact ⟨_, .null, hword (marked_of_all rfl)⟩
  | bool_true => exact ⟨_, .bool_true, hword (marked_of_all rfl)⟩
  | bool_false => exact ⟨_, .bool_false, hword (marked_of_all rfl)⟩
  | integral d d' equal =>
    exact ⟨_, .number d d'.text_ne_nil d'.text_unbraced, hword d'.text_mark⟩
  | exponential d d' e equal =>
    refine ⟨_, .number d (by simp [d'.text_ne_nil]) ?_, hword fun c hc => ?_⟩
    · rw [List.mem_append, not_or]
      exact ⟨d'.text_unbraced, e.text_unbraced⟩
    · rcases List.mem_append.mp hc with hc | hc
      · exact d'.text_mark c hc
      · exact e.text_mark c hc
  | string s h => exact ⟨_, .string s, .text h .nil⟩
  | array h ih =>
    obtain ⟨ts, hn, ht⟩ := ih
    exact ⟨_, .array hn, .mark (by decide) (ht.append (.mark (by decide) .nil))⟩
  | object h ih =>
    obtain ⟨ts, hn, ht⟩ := ih
    exact ⟨_, .object hn, .mark (by decide) (ht.append (.mark (by decide) .nil))⟩
  | noElements => exact ⟨_, .noElements, .nil⟩
  | lastElement h ih =>
    obtain ⟨ts, hn, ht⟩ := ih
    exact ⟨_, .lastElement hn, ht⟩
  | element h h' ih ih' =>
    obtain ⟨ts, hn, ht⟩ := ih
    obtain ⟨us, hm, hu⟩ := ih'
    exact ⟨_, .element hn hm, ht.append (.mark (by decide) hu)⟩
  | noMembers => exact ⟨_, .noMembers, .nil⟩
  | lastMember key blank hkey h ih =>
    obtain ⟨ts, hn, ht⟩ := ih
    exact ⟨_, .lastMember key hn, .text hkey (tokenizes_blank blank (.mark (by decide) ht))⟩
  | member key key' blank hkey h h' ih ih' =>
    obtain ⟨ts, hn, ht⟩ := ih
    obtain ⟨us, hm, hu⟩ := ih'
    exact ⟨_, .member key key' hn hm, .text hkey
      (tokenizes_blank blank (.mark (by decide) (ht.append (.mark (by decide) hu))))⟩

/-! ## Where a string ends -/

/-- No quote stands outside of an escape, and no escape is left open. -/
def closed : List Char → Bool
  | [] => true
  | c :: t =>
    if c = '\\' then
      match t with
      | [] => false
      | _ :: t => closed t
    else c ≠ '"' && closed t

attribute [local simp] closed

theorem closed_escape (e : Char) (t : List Char) : closed ('\\' :: e :: t) = closed t := by
  rw [closed]
  rfl

theorem closed_plain {c : Char} (h : c ≠ '"' ∧ c ≠ '\\') (t : List Char) :
    closed (c :: t) = closed t := by
  rw [closed.eq_def]
  simp [h.1, h.2]

theorem closed_append {a : List Char} (h : closed a = true) (b : List Char) :
    closed (a ++ b) = closed b := by
  fun_induction closed a with
  | case1 => rfl
  | case2 => cases h
  | case3 c t ih => rw [List.cons_append, List.cons_append, closed_escape, ih h]
  | case4 c t hc ih =>
    rw [Bool.and_eq_true, decide_eq_true_eq] at h
    rw [List.cons_append, closed_plain ⟨h.1, hc⟩, ih h.2]

theorem closed_flatMap {f : Char → List Char} (h : ∀ c, closed (f c) = true) (s : List Char) :
    closed (s.flatMap f) = true := by
  induction s with
  | nil => rfl
  | cons c s ih => rw [List.flatMap_cons, closed_append (h c), ih]

theorem closed_of_plain {t : List Char} (h : ∀ c ∈ t, c ≠ '"' ∧ c ≠ '\\') : closed t = true := by
  induction t with
  | nil => rfl
  | cons c t ih =>
    rw [List.forall_mem_cons] at h
    rw [closed_plain h.1, ih h.2]

theorem plain_of_hexNumber {ds : List Char} {n : Nat} (h : hexNumber ds = some n) :
    ∀ c ∈ ds, c ≠ '"' ∧ c ≠ '\\' := by
  rw [hexNumber, Option.map_eq_some_iff] at h
  obtain ⟨vs, hvs, -⟩ := h
  intro c hc
  obtain ⟨v, -, hv⟩ := PartialFold.exists_mem_of_mapM hvs hc
  constructor
  · rintro rfl
    cases hv
  · rintro rfl
    cases hv

theorem Spells.closed {s t : List Char} (h : Spells s t) : closed t = true := by
  induction h with
  | nil => rfl
  | plain c bare h ih => rw [closed_plain ⟨bare.1, bare.2.1⟩, ih]
  | escape c e known h ih => rw [closed_escape, ih]
  | unicode c ds four value h ih =>
    rw [closed_escape, closed_append (closed_of_plain (plain_of_hexNumber value)), ih]
  | surrogates c ds es high low four value pair h ih =>
    rw [closed_escape, closed_append (closed_of_plain (plain_of_hexNumber value.1)), closed_escape,
      closed_append (closed_of_plain (plain_of_hexNumber value.2)), ih]

/-- The first quote outside of an escape ends the string. -/
theorem closed_unique {a b t u : List Char} (ha : closed a = true) (hb : closed b = true)
    (h : a ++ '"' :: t = b ++ '"' :: u) : a = b ∧ t = u := by
  fun_induction closed a generalizing b with
  | case1 =>
    cases b with
    | nil => exact ⟨rfl, (List.cons.inj h).2⟩
    | cons c b =>
      obtain ⟨rfl, -⟩ := List.cons.inj h
      rw [closed.eq_def] at hb
      cases hb
  | case2 => cases ha
  | case3 e a ih =>
    cases b with
    | nil => cases (List.cons.inj h).1
    | cons c b =>
      obtain ⟨hslash, hescaped⟩ := List.cons.inj h
      rw [← hslash] at hb
      cases b with
      | nil => cases hb
      | cons f b =>
        obtain ⟨rfl, htail⟩ := List.cons.inj hescaped
        rw [closed_escape] at hb
        obtain ⟨rfl, rfl⟩ := ih ha hb htail
        rw [hslash]
        exact ⟨rfl, rfl⟩
  | case4 c a hc ih =>
    rw [Bool.and_eq_true, decide_eq_true_eq] at ha
    cases b with
    | nil => exact absurd (List.cons.inj h).1 ha.1
    | cons d b =>
      obtain ⟨rfl, htail⟩ := List.cons.inj h
      rw [closed_plain ⟨ha.1, hc⟩] at hb
      obtain ⟨rfl, rfl⟩ := ih ha.2 hb htail
      exact ⟨rfl, rfl⟩

/-! ## Tokens from the front -/

theorem Tokenizes.of_mark {c : Char} {t : List Char} {ts : List Token}
    (h : Tokenizes (c :: t) ts) (hc : isWs c = false ∧ c ≠ '"') :
    ∃ us, ts = .mark c :: us ∧ Tokenizes t us := by
  cases h with
  | blank hblank => exact absurd (hblank.symm.trans hc.1) (by decide)
  | mark _ h => exact ⟨_, rfl, h⟩
  | text => exact absurd rfl hc.2

theorem Tokenizes.of_blank {gap t : List Char} {ts : List Token} (h : Tokenizes (gap ++ t) ts)
    (hgap : ∀ c ∈ gap, isWs c = true) : Tokenizes t ts := by
  induction gap with
  | nil => exact h
  | cons c gap ih =>
    rw [List.forall_mem_cons] at hgap
    generalize hall : (c :: gap) ++ t = all at h
    cases h with
    | nil => cases hall
    | blank _ h =>
      obtain ⟨rfl, rfl⟩ := List.cons.inj hall
      exact ih h hgap.2
    | mark hc =>
      obtain ⟨rfl, -⟩ := List.cons.inj hall
      exact absurd (hgap.1.symm.trans hc.1) (by decide)
    | text =>
      obtain ⟨rfl, -⟩ := List.cons.inj hall
      exact absurd hgap.1 (by decide)

theorem Tokenizes.of_text {raw t : List Char} {ts : List Token} (hraw : JsonText.closed raw = true)
    (h : Tokenizes ('"' :: (raw ++ '"' :: t)) ts) :
    ∃ s us, Spells s raw ∧ ts = .text s :: us ∧ Tokenizes t us := by
  generalize hall : '"' :: (raw ++ '"' :: t) = all at h
  cases h with
  | nil => cases hall
  | blank hc => 
    obtain ⟨rfl, -⟩ := List.cons.inj hall
    cases hc
  | mark hc => 
    obtain ⟨rfl, -⟩ := List.cons.inj hall
    exact absurd rfl hc.2
  | @text s u t' ts hs ht =>
    obtain ⟨rfl, rfl⟩ := closed_unique hraw hs.closed (List.cons.inj hall).2
    exact ⟨s, ts, hs, rfl, ht⟩

/-! ## Flat objects -/

def fields : List (List Char × List Char) → Node .members
  | [] => .noMembers
  | f :: fs => .member f.1 (.string f.2) (fields fs)

def fieldTokens : List (List Char × List Char) → List Token
  | [] => []
  | [f] => [.text f.1, .mark ':', .text f.2]
  | f :: g :: fs => .text f.1 :: .mark ':' :: .text f.2 :: .mark ',' :: fieldTokens (g :: fs)

/-- The members as they are written, `gap` standing before every value and every further key. -/
def fieldsText (gap : List Char) : List (List Char × List Char) → List Char
  | [] => []
  | [f] => '"' :: (f.1 ++ '"' :: ':' :: (gap ++ '"' :: (f.2 ++ ['"'])))
  | f :: g :: fs => '"' :: (f.1 ++ '"' :: ':' :: (gap ++ '"' :: (f.2 ++ '"' :: ',' ::
      (gap ++ fieldsText gap (g :: fs)))))

/-- A key and a value, and how they are written. -/
def FieldSpells (f raw : List Char × List Char) : Prop := Spells f.1 raw.1 ∧ Spells f.2 raw.2

theorem marks_ne {cs : List Char} (hne : cs ≠ []) {s : List Char} {us rest : List Token} :
    marks cs ++ us ≠ .text s :: rest := by
  cases cs with
  | nil => exact absurd rfl hne
  | cons c cs =>
    intro h
    cases (List.cons.inj h).1

theorem Node.Tokens.eq_string {n : Node .value} {s : List Char} {ts u rest : List Token}
    (h : n.Tokens ts) (heq : ts ++ u = .text s :: rest) : n = .string s ∧ u = rest := by
  cases h with
  | string s' =>
    obtain ⟨hs, rfl⟩ := List.cons.inj heq
    cases hs
    exact ⟨rfl, rfl⟩
  | number d hne => exact absurd heq (marks_ne hne)
  | null | bool_true | bool_false | array | object => cases (List.cons.inj heq).1

theorem Node.Tokens.eq_fields {ms : Node .members} {fs : List (List Char × List Char)}
    (h : ms.Tokens (fieldTokens fs)) : ms = fields fs := by
  generalize hts : fieldTokens fs = ts at h
  induction fs generalizing ms ts with
  | nil =>
    cases h with
    | noMembers => rfl
    | lastMember | member => cases hts
  | cons f fs ih =>
    cases fs with
    | nil =>
      cases h with
      | noMembers => cases hts
      | lastMember key hx =>
        injection hts with hkey hts
        injection hts with hcolon hts
        cases hkey
        obtain ⟨rfl, -⟩ := hx.eq_string (u := []) (by rw [List.append_nil, ← hts])
        rfl
      | member key key' hx hms =>
        injection hts with hkey hts
        injection hts with hcolon hts
        cases (hx.eq_string hts.symm).2
    | cons g fs =>
      cases h with
      | noMembers => cases hts
      | lastMember key hx =>
        injection hts with hkey hts
        injection hts with hcolon hts
        cases (hx.eq_string (u := []) (by rw [List.append_nil, ← hts])).2
      | member key key' hx hms =>
        injection hts with hkey hts
        injection hts with hcolon hts
        cases hkey
        obtain ⟨rfl, hrest⟩ := hx.eq_string hts.symm
        injection hrest with hcomma hrest
        rw [ih _ hrest.symm hms]
        rfl

theorem Node.Tokens.eq_object {n : Node .value} {fs : List (List Char × List Char)}
    (h : n.Tokens (.mark '\x7b' :: (fieldTokens fs ++ [.mark '\x7d']))) :
    n = .object (fields fs) := by
  generalize hts : Token.mark '\x7b' :: (fieldTokens fs ++ [.mark '\x7d']) = ts at h
  cases h with
  | object hms =>
    obtain ⟨rfl, -⟩ := List.append_inj' (List.cons.inj hts).2 rfl
    rw [hms.eq_fields]
  | @number d cs hne hbrace =>
    cases cs with
    | nil => exact absurd rfl hne
    | cons c cs =>
      cases (List.cons.inj hts).1
      exact absurd (List.mem_cons_self ..) hbrace
  | string | null | bool_true | bool_false | array => cases (List.cons.inj hts).1

theorem Tokenizes.of_fields {gap : List Char} (hgap : ∀ c ∈ gap, isWs c = true)
    {gs : List (List Char × List Char)}
    (hgs : ∀ g ∈ gs, JsonText.closed g.1 = true ∧ JsonText.closed g.2 = true) {t : List Char}
    {ts : List Token} (h : Tokenizes (fieldsText gap gs ++ t) ts) :
    ∃ fs us, List.Forall₂ FieldSpells fs gs ∧ ts = fieldTokens fs ++ us ∧ Tokenizes t us := by
  induction gs generalizing ts with
  | nil => exact ⟨[], ts, .nil, rfl, h⟩
  | cons g gs ih =>
    rw [List.forall_mem_cons] at hgs
    cases gs with
    | nil =>
      simp only [fieldsText, List.cons_append, List.append_assoc, List.nil_append] at h
      obtain ⟨k, ts, hk, rfl, hcolon⟩ := h.of_text hgs.1.1
      obtain ⟨ts, rfl, hgapped⟩ := hcolon.of_mark (by decide)
      obtain ⟨v, ts, hv, rfl, hrest⟩ := (hgapped.of_blank hgap).of_text hgs.1.2
      exact ⟨[(k, v)], ts, .cons ⟨hk, hv⟩ .nil, rfl, hrest⟩
    | cons g' gs =>
      simp only [fieldsText, List.cons_append, List.append_assoc] at h
      obtain ⟨k, ts, hk, rfl, hcolon⟩ := h.of_text hgs.1.1
      obtain ⟨ts, rfl, hgapped⟩ := hcolon.of_mark (by decide)
      obtain ⟨v, ts, hv, rfl, hcomma⟩ := (hgapped.of_blank hgap).of_text hgs.1.2
      obtain ⟨ts, rfl, hgapped'⟩ := hcomma.of_mark (by decide)
      obtain ⟨fs, us, hfs, rfl, hrest⟩ := ih hgs.2 (hgapped'.of_blank hgap)
      cases hfs with
      | cons hf hfs => exact ⟨(k, v) :: _ :: _, us, .cons ⟨hk, hv⟩ (.cons hf hfs), rfl, hrest⟩

theorem reads_fields {gap : List Char} (hgap : ∀ c ∈ gap, isWs c = true)
    {fs gs : List (List Char × List Char)} (h : List.Forall₂ FieldSpells fs gs) :
    Reads (fields fs) (fieldsText gap gs) := by
  have lead {k : Kind} {n : Node k} {text : List Char} (h : Reads n text) :
      Reads n (gap ++ text) := by
    have := Reads.space gap [] ⟨hgap, by simp⟩ h
    rwa [List.append_nil] at this
  have hnone : ∀ c ∈ ([] : List Char), isWs c = true := by simp
  induction h with
  | nil => exact .noMembers
  | @cons f g fs gs hf hfs ih =>
    have hvalue : Reads (.string f.2) (gap ++ '"' :: (g.2 ++ ['"'])) := lead (.string f.2 hf.2)
    cases hfs with
    | nil => exact .lastMember f.1 hnone hf.1 hvalue
    | @cons f' g' fs gs hf' hfs =>
      have htext : fieldsText gap (g :: g' :: gs) = '"' :: (g.1 ++ '"' :: ([] ++ ':' ::
          ((gap ++ '"' :: (g.2 ++ ['"'])) ++ ',' :: (gap ++ fieldsText gap (g' :: gs))))) := by
        simp [fieldsText]
      rw [htext]
      exact .member f.1 f'.1 hnone hf.1 hvalue (lead ih)

/-- A text made of keys and values reads as the object of what they spell, and as nothing
else. -/
theorem reads_fieldsText {gap : List Char} (hgap : ∀ c ∈ gap, isWs c = true)
    {gs : List (List Char × List Char)} (hgs : ∀ g ∈ gs, closed g.1 = true ∧ closed g.2 = true)
    {n : Node .value} :
    Reads n ('\x7b' :: (fieldsText gap gs ++ ['\x7d'])) ↔
      ∃ fs, n = .object (fields fs) ∧ List.Forall₂ FieldSpells fs gs := by
  constructor
  · intro h
    obtain ⟨ts, hn, ht⟩ := h.tokens
    obtain ⟨us, rfl, hmembers⟩ := ht.of_mark (by decide)
    obtain ⟨fs, us, hfs, rfl, hclose⟩ := hmembers.of_fields hgap hgs
    obtain ⟨us, rfl, hend⟩ := hclose.of_mark (by decide)
    cases hend
    exact ⟨fs, hn.eq_object, hfs⟩
  · rintro ⟨fs, rfl, hfs⟩
    exact .object (reads_fields hgap hfs)

end JsonText

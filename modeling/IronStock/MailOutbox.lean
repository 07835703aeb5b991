import IronStock.Lib.JsonFields
import IronStock.MailTemplates

/-!
# The outbox of unsent mails

A mail that cannot be sent is kept in `email_outbox`, with the data of its template as a text
that `templateDataToJSON` writes by hand. The error of the INSERT is dropped.
-/
namespace IronStock.MailTemplates

open JsonText

/-! ## The text -/

/-- `strings.ReplaceAll` of one character. -/
def replaceAll (s : List Char) (old : Char) (new : List Char) : List Char :=
  s.flatMap fun c => if c = old then new else [c]

def jsonStr (s : String) : String :=
  let s := replaceAll s.toList '\\' ['\\', '\\']
  let s := replaceAll s '"' ['\\', '"']
  "\"" ++ String.ofList s ++ "\""

def templateDataToJSON (d : TemplateData) : String :=
  String.join ["\x7b\"username\":", jsonStr d.username,
    ",\"reset_url\":", jsonStr d.resetURL,
    ",\"expires_in\":", jsonStr d.expiresIn,
    ",\"ip_address\":", jsonStr d.ipAddress,
    ",\"item_name\":", jsonStr d.itemName, "\x7d"]

/-! ## The queue -/

structure OutboxRow where
  toAddress : String
  subject : String
  templateName : String
  templateData : Node .value
  status : String
  /-- in microseconds -/
  nextRetryAt : Int

/-- `enqueue`, with the input function of `jsonb`; there may be no database. -/
def enqueue (jsonb : String → Option (Node .value)) (now : Int)
    (recipient subject templateName : String) (data : TemplateData)
    (db : Option (List OutboxRow)) : Option (List OutboxRow) :=
  db.map fun outbox =>
    match jsonb (templateDataToJSON data) with
    | some v => outbox ++ [⟨recipient, subject, templateName, v, "pending", now + 5 * 60000000⟩]
    | none => outbox

/-- `SendTemplate` with what it leaves in the outbox; `sent` is the outcome of the last
attempt. -/
def sendOrQueue (jsonb : String → Option (Node .value)) (cfg : Config) (tmpl : MailSet)
    (now : Int) (sent : Bool) (recipient templateName : String) (data : TemplateData)
    (db : Option (List OutboxRow)) : Option (List OutboxRow) :=
  match sendTemplate cfg tmpl recipient templateName data with
  | .ok (some mail) =>
    if sent then db
    else enqueue jsonb now recipient mail.subject templateName
      { data with appURL := cfg.appURL, subject := mail.subject } db
  | _ => db

/-! ## What is owed -/

/-- The fields of the outbox data. -/
def outboxFields (d : TemplateData) : List (List Char × List Char) :=
  [("username".toList, d.username.toList), ("reset_url".toList, d.resetURL.toList),
    ("expires_in".toList, d.expiresIn.toList), ("ip_address".toList, d.ipAddress.toList),
    ("item_name".toList, d.itemName.toList)]

def outboxData (d : TemplateData) : Node .value := .object (fields (outboxFields d))

/-- What is documented of the input of `jsonb`, as far as objects of strings go: a text is
refused that is no JSON, and one that denotes one value is stored as that value. -/
structure JsonbInput (jsonb : String → Option (Node .value)) : Prop where
  refuses : ∀ text : String, (∀ n : Node .value, ¬ Denotes text.toList n) → jsonb text = none
  accepts : ∀ (text : String) (fs : List (List Char × List Char)), (fs.map Prod.fst).Nodup →
    (∀ f ∈ fs, '\x00' ∉ f.1 ∧ '\x00' ∉ f.2) →
    (∀ n, Denotes text.toList n ↔ Same n (.object (fields fs))) →
      ∃ v, jsonb text = some v ∧ Same v (.object (fields fs))

/-- The text has one value, the object of the five strings, and whenever a mail with this data
is composed and not sent, it is queued with it. -/
structure Queues (jsonb : String → Option (Node .value)) (d : TemplateData) : Prop where
  decodes : ∀ n, Denotes (templateDataToJSON d).toList n ↔ Same n (outboxData d)
  queued : ∀ cfg tmpl now recipient templateName mail outbox,
    sendTemplate cfg tmpl recipient templateName d = .ok (some mail) →
      ∃ v, Same v (outboxData d) ∧
        sendOrQueue jsonb cfg tmpl now false recipient templateName d (some outbox) =
          some (outbox ++ [⟨recipient, mail.subject, templateName, v, "pending",
            now + 5 * 60000000⟩])

/-- No field has a control character. -/
def TemplateData.Printable (d : TemplateData) : Prop :=
  ∀ f ∈ outboxFields d, ∀ c ∈ f.2, 32 ≤ c.toNat

/-! ## One string -/

/-- What the two replacements make of a character. -/
def escapeOf (c : Char) : List Char :=
  if c = '\\' then ['\\', '\\'] else if c = '"' then ['\\', '"'] else [c]

theorem replaceAll_twice (s : List Char) :
    replaceAll (replaceAll s '\\' ['\\', '\\']) '"' ['\\', '"'] = s.flatMap escapeOf := by
  rw [replaceAll, replaceAll, List.flatMap_assoc]
  apply List.flatMap_congr
  intro c _
  by_cases hc : c = '\\'
  · rw [hc]
    rfl
  · rw [if_neg hc, escapeOf, if_neg hc, List.flatMap_singleton]

theorem jsonStr_toList (s : String) :
    (jsonStr s).toList = '"' :: (s.toList.flatMap escapeOf ++ ['"']) := by
  simp only [jsonStr, replaceAll_twice, String.toList_append, String.toList_ofList]
  rfl

theorem closed_escapeOf (c : Char) : closed (escapeOf c) = true := by
  rw [escapeOf]
  split
  · rfl
  · next hslash =>
    split
    · rfl
    · next hquote => rw [closed_plain ⟨hquote, hslash⟩, closed]

theorem mem_inEscapes_same {c e : Char} (h : (c, e) ∈ inEscapes) (he : e = '\\' ∨ e = '"') :
    c = e := by
  simp only [inEscapes, outEscapes, List.mem_cons, Prod.mk.injEq, List.not_mem_nil,
    or_false] at h
  rcases h with h | h | h | h | h | h | h | h <;> obtain ⟨rfl, rfl⟩ := h <;> revert he <;> decide

/-- An escape of one character spells it and nothing else. -/
theorem spells_pair {e : Char} (he : e = '\\' ∨ e = '"') {s t : List Char} :
    Spells s ('\\' :: e :: t) ↔ ∃ s', s = e :: s' ∧ Spells s' t := by
  constructor
  · intro h
    cases h with
    | plain _ bare => exact absurd rfl bare.2.1
    | escape c _ known h => exact ⟨_, by rw [mem_inEscapes_same known he], h⟩
    | unicode | surrogates => exact absurd he (by decide)
  · rintro ⟨s', rfl, h⟩
    refine .escape e e ?_ h
    rcases he with rfl | rfl <;> decide

theorem spells_plain {c : Char} (hc : c ≠ '"' ∧ c ≠ '\\') {s t : List Char} :
    Spells s (c :: t) ↔ 32 ≤ c.toNat ∧ ∃ s', s = c :: s' ∧ Spells s' t := by
  constructor
  · intro h
    cases h with
    | plain _ bare h => exact ⟨bare.2.2, _, rfl, h⟩
    | escape | unicode | surrogates => exact absurd rfl hc.2
  · rintro ⟨hle, s', rfl, h⟩
    exact .plain c ⟨hc.1, hc.2, hle⟩ h

/-- The text spells the string, unless it has a control character. -/
theorem spells_escapeOf {s v : List Char} :
    Spells v (s.flatMap escapeOf) ↔ v = s ∧ ∀ c ∈ s, 32 ≤ c.toNat := by
  induction s generalizing v with
  | nil =>
    constructor
    · intro h
      cases h
      exact ⟨rfl, by simp⟩
    · rintro ⟨rfl, -⟩
      exact .nil
  | cons c s ih =>
    have htail : (∃ v', v = c :: v' ∧ Spells v' (s.flatMap escapeOf)) ↔
        v = c :: s ∧ ∀ c ∈ s, 32 ≤ c.toNat := by
      simp only [ih]
      constructor
      · rintro ⟨v', rfl, rfl, h⟩
        exact ⟨rfl, h⟩
      · rintro ⟨rfl, h⟩
        exact ⟨s, rfl, rfl, h⟩
    rw [List.flatMap_cons, List.forall_mem_cons, escapeOf]
    split
    · next hslash =>
      rw [List.cons_append, List.singleton_append, ← hslash]
      rw [hslash, spells_pair (.inl rfl), ← hslash, htail, hslash]
      simp
    · next hslash =>
      split
      · next hquote =>
        rw [List.cons_append, List.singleton_append, spells_pair (.inr rfl), ← hquote, htail,
          hquote]
        simp
      · next hquote =>
        rw [List.singleton_append, spells_plain ⟨hquote, hslash⟩, htail, and_left_comm]

/-! ## The object -/

/-- The keys and values as they are written. -/
def outboxRaw (d : TemplateData) : List (List Char × List Char) :=
  (outboxFields d).map fun f => (f.1, f.2.flatMap escapeOf)

theorem templateDataToJSON_toList (d : TemplateData) :
    (templateDataToJSON d).toList = '\x7b' :: (fieldsText [] (outboxRaw d) ++ ['\x7d']) := by
  have husername : "\x7b\"username\":".toList =
      '\x7b' :: '"' :: ("username".toList ++ ['"', ':']) := by decide
  have hresetURL : ",\"reset_url\":".toList =
      ',' :: '"' :: ("reset_url".toList ++ ['"', ':']) := by decide
  have hexpiresIn : ",\"expires_in\":".toList =
      ',' :: '"' :: ("expires_in".toList ++ ['"', ':']) := by decide
  have hipAddress : ",\"ip_address\":".toList =
      ',' :: '"' :: ("ip_address".toList ++ ['"', ':']) := by decide
  have hitemName : ",\"item_name\":".toList =
      ',' :: '"' :: ("item_name".toList ++ ['"', ':']) := by decide
  have hclose : "\x7d".toList = ['\x7d'] := by decide
  rw [templateDataToJSON, String.toList_join]
  simp only [List.flatMap_cons, List.flatMap_nil, jsonStr_toList, husername, hresetURL,
    hexpiresIn, hipAddress, hitemName, hclose, outboxRaw, outboxFields, List.map_cons,
    List.map_nil, fieldsText, List.cons_append, List.append_assoc, List.nil_append]

theorem keys_plain {d : TemplateData} {f : List Char × List Char} (hf : f ∈ outboxFields d) :
    ∀ c ∈ f.1, bare c = true := by
  have hkeys : ((outboxFields d).map Prod.fst).all (·.all bare) = true := rfl
  rw [List.all_map, List.all_eq_true] at hkeys
  exact List.all_eq_true.mp (hkeys f hf)

theorem plain_of_bare {c : Char} (h : bare c = true) : (c ≠ '"' ∧ c ≠ '\\') ∧ 32 ≤ c.toNat := by
  rw [bare, Bool.and_eq_true, Option.isNone_iff_eq_none, decide_eq_true_eq] at h
  exact ⟨ne_of_lookup_none h.1, h.2⟩

/-- A text of plain characters spells itself alone. -/
theorem spells_bare {s v : List Char} (h : ∀ c ∈ s, bare c = true) : Spells v s ↔ v = s := by
  have hsame : s.flatMap escapeOf = s := by
    induction s with
    | nil => rfl
    | cons c s ih =>
      rw [List.forall_mem_cons] at h
      have hplain := (plain_of_bare h.1).1
      rw [List.flatMap_cons, escapeOf, if_neg hplain.2, if_neg hplain.1, ih h.2]
      rfl
  have hiff := spells_escapeOf (s := s) (v := v)
  rw [hsame] at hiff
  rw [hiff]
  exact and_iff_left fun c hc => (plain_of_bare (h c hc)).2

theorem forall₂_outboxRaw {gs : List (List Char × List Char)} {fs : List (List Char × List Char)}
    (hkeys : ∀ f ∈ fs, ∀ c ∈ f.1, bare c = true) :
    List.Forall₂ FieldSpells gs (fs.map fun f => (f.1, f.2.flatMap escapeOf)) ↔
      gs = fs ∧ ∀ f ∈ fs, ∀ c ∈ f.2, 32 ≤ c.toNat := by
  induction fs generalizing gs with
  | nil => simp
  | cons f fs ih =>
    rw [List.forall_mem_cons] at hkeys
    rw [List.map_cons, List.forall₂_cons_right_iff, List.forall_mem_cons]
    constructor
    · rintro ⟨g, gs', ⟨hkey, hvalue⟩, hrest, rfl⟩
      obtain ⟨rfl, hclean⟩ := (ih hkeys.2).mp hrest
      obtain ⟨hsame, hvalueClean⟩ := spells_escapeOf.mp hvalue
      exact ⟨by rw [Prod.ext ((spells_bare hkeys.1).mp hkey) hsame], hvalueClean, hclean⟩
    · rintro ⟨rfl, hvalueClean, hclean⟩
      exact ⟨f, fs, ⟨(spells_bare hkeys.1).mpr rfl, spells_escapeOf.mpr ⟨rfl, hvalueClean⟩⟩,
        (ih hkeys.2).mpr ⟨rfl, hclean⟩, rfl⟩

theorem reads_templateData (d : TemplateData) (n : Node .value) :
    Reads n (templateDataToJSON d).toList ↔ n = outboxData d ∧ d.Printable := by
  have hclosed : ∀ g ∈ outboxRaw d, closed g.1 = true ∧ closed g.2 = true := by
    intro g hg
    obtain ⟨f, hf, rfl⟩ := List.mem_map.mp hg
    exact ⟨closed_of_plain fun c hc => (plain_of_bare (keys_plain hf c hc)).1,
      closed_flatMap closed_escapeOf f.2⟩
  rw [templateDataToJSON_toList, reads_fieldsText (by simp) hclosed]
  constructor
  · rintro ⟨fs, rfl, hfs⟩
    obtain ⟨rfl, hclean⟩ := (forall₂_outboxRaw fun f => keys_plain).mp hfs
    exact ⟨rfl, hclean⟩
  · rintro ⟨rfl, hclean⟩
    exact ⟨outboxFields d, rfl, (forall₂_outboxRaw fun f => keys_plain).mpr ⟨rfl, hclean⟩⟩

theorem denotes_templateData (d : TemplateData) (n : Node .value) :
    Denotes (templateDataToJSON d).toList n ↔ Same n (outboxData d) ∧ d.Printable := by
  constructor
  · rintro ⟨m, hsame, hreads⟩
    obtain ⟨rfl, hclean⟩ := (reads_templateData d m).mp hreads
    exact ⟨hsame.symm, hclean⟩
  · rintro ⟨hsame, hclean⟩
    exact ⟨outboxData d, hsame.symm, (reads_templateData d _).mpr ⟨rfl, hclean⟩⟩

/-! ## The queue -/

/-- A mail that is composed changes two fields of the data. -/
theorem templateDataToJSON_congr (d : TemplateData) (appURL subject : String) :
    templateDataToJSON { d with appURL, subject } = templateDataToJSON d := rfl

section Queue

variable {jsonb : String → Option (Node .value)} (hjsonb : JsonbInput jsonb)
include hjsonb

theorem jsonb_templateData {d : TemplateData} (h : d.Printable) :
    ∃ v, jsonb (templateDataToJSON d) = some v ∧ Same v (outboxData d) := by
  refine hjsonb.accepts _ (outboxFields d) (by simp [outboxFields]) ?_ ?_
  · intro f hf
    constructor
    · intro hmem
      exact absurd (keys_plain hf _ hmem) (by decide)
    · intro hmem
      exact absurd (h f hf _ hmem) (by decide)
  · intro n
    rw [denotes_templateData, and_iff_left h]
    rfl

/-- Every mail that cannot be sent is queued with its data exactly if no field has a control
character; the text is no JSON otherwise. -/
theorem outbox_queues_iff (d : TemplateData) : Queues jsonb d ↔ d.Printable := by
  constructor
  · intro h
    exact ((denotes_templateData d _).mp ((h.decodes _).mpr (.refl _))).2
  · intro h
    refine ⟨fun n => by rw [denotes_templateData, and_iff_left h], ?_⟩
    intro cfg tmpl now recipient templateName mail outbox hmail
    obtain ⟨v, hv, hsame⟩ := jsonb_templateData hjsonb h
    refine ⟨v, hsame, ?_⟩
    simp only [sendOrQueue, hmail, enqueue, templateDataToJSON_congr, hv, Option.map_some]
    rfl

end Queue

/-! ## One reading of every text -/

open Classical in
/-- The value a text denotes, if it denotes one. -/
noncomputable def readJsonb (text : String) : Option (Node .value) :=
  if h : ∃ n : Node .value, Denotes text.toList n then some h.choose else none

theorem readJsonb_input : JsonbInput readJsonb := by
  constructor
  · intro text h
    rw [readJsonb, dif_neg (not_exists.mpr h)]
  · intro text fs _ _ h
    have hsome : ∃ n : Node .value, Denotes text.toList n := ⟨_, (h _).mpr (.refl _)⟩
    exact ⟨_, dif_pos hsome, (h _).mp hsome.choose_spec⟩

theorem printable_of_all {d : TemplateData}
    (h : ((outboxFields d).all fun f => f.2.all fun c => 32 ≤ c.toNat) = true) : d.Printable := by
  intro f hf c hc
  exact of_decide_eq_true (List.all_eq_true.mp (List.all_eq_true.mp h f hf) c hc)

def quotedItem : TemplateData := { username := "ada", itemName := "C:\\db \"prod\"" }

theorem quotedItem_queued : Queues readJsonb quotedItem :=
  (outbox_queues_iff readJsonb_input quotedItem).mpr (printable_of_all (by decide))

def brokenItem : TemplateData := { username := "ada", itemName := "db\nprod" }

/-- The name of the item has a line break, which the text holds as it is. -/
theorem brokenItem_not_queued :
    ¬ ∀ (jsonb : String → Option (Node .value)) (_ : JsonbInput jsonb) (d : TemplateData),
      Queues jsonb d := by
  intro h
  have hqueues := h readJsonb readJsonb_input brokenItem
  have hclean := ((denotes_templateData brokenItem _).mp ((hqueues.decodes _).mpr (.refl _))).2
  have hle := hclean ("item_name".toList, "db\nprod".toList) (by simp [outboxFields, brokenItem])
    '\n' (by decide)
  exact absurd hle (by decide)

end IronStock.MailTemplates

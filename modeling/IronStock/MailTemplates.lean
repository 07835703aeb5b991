import IronStock.Lib.TemplateSets
import Mathlib.Data.List.Basic

/-!
# Mail templates

`internal/email` parses every file of `templates` into one set, under the name of the file
and under `subject_` and that name. The blocks `subject` and `content` of all files share
their two names.
-/
namespace IronStock.MailTemplates

open TemplateSets

/-! ## The directory -/

structure DigestNotification where
  title : String
  body : String
  createdAt : String

structure TemplateData where
  subject : String := ""
  appURL : String := ""
  username : String := ""
  resetURL : String := ""
  expiresIn : String := ""
  requestedAt : String := ""
  ipAddress : String := ""
  userAgent : String := ""
  alertType : String := ""
  description : String := ""
  occurredAt : String := ""
  email : String := ""
  role : String := ""
  itemID : String := ""
  itemName : String := ""
  itemType : String := ""
  expiresAt : String := ""
  notifications : List DigestNotification := []

/-- A file without its suffix: its two blocks, and the white space around them. -/
structure TemplateFile where
  name : String
  subject : Block TemplateData
  content : Block TemplateData
  space : String
  space_blank : Node.isBlank (Node.piece (Piece.text space) : Node TemplateData) = true

/-- The names the set has besides those of files. -/
def isReserved (name : String) : Bool :=
  name = "subject" || name = "content" || "subject_".toList.isPrefixOf name.toList

/-- The files of `templates`, `base.html` apart, in the order of the directory. The base calls
`content` and has text of its own. -/
structure TemplateDir where
  base : Body TemplateData
  base_calls : ∀ name, .template name ∈ base → name = "content"
  base_text : base.isBlank = false
  files : List TemplateFile
  distinct : (files.map TemplateFile.name).Nodup
  unreserved : ∀ f ∈ files, isReserved f.name = false

/-! ## The set -/

abbrev MailSet := TemplateSet TemplateData

/-- `Parse` of the file into the template of this name, `body` being what is outside of the
blocks. -/
def TemplateFile.parse (f : TemplateFile) (S : MailSet) (name : String)
    (body : Body TemplateData) : MailSet :=
  define (define (define S "subject" f.subject.body) "content" f.content.body) name body

/-- The body of the full template: the base, a line end and the space of the file. -/
def TemplateFile.page (base : Body TemplateData) (f : TemplateFile) : Body TemplateData :=
  base ++ [.piece (.text "\n"), .piece (.text f.space)]

/-- One round of the loop of `parseTemplates`. -/
def TemplateFile.load (base : Body TemplateData) (S : MailSet) (f : TemplateFile) : MailSet :=
  let S := define S ("subject_" ++ f.name) [.template "subject"]
  let S := f.parse S ("subject_" ++ f.name) [.piece (.text f.space)]
  f.parse S f.name (f.page base)

def parseTemplates (dir : TemplateDir) : MailSet :=
  dir.files.foldl (TemplateFile.load dir.base) fun _ => none

/-! ## Mails -/

structure Config where
  host : String
  port : Int
  appURL : String

def Config.isConfigured (cfg : Config) : Bool := cfg.host ≠ "" && 0 < cfg.port

/-- What is handed to `send`. -/
structure Mail where
  recipient : String
  subject : String
  htmlBody : String
deriving DecidableEq

/-- The mail made of what executes for the subject and for the body; an error does not say
here why the execution failed. -/
def compose (cfg : Config) (recipient templateName : String)
    (subject body : TemplateData → Option String) (data : TemplateData) :
    Except String (Option Mail) :=
  if cfg.isConfigured = false then .ok none
  else
    let data := { data with appURL := cfg.appURL }
    let data :=
      match subject data with
      | some s => { data with subject := s }
      | none =>
        { data with subject := if data.subject = "" then "IronStock Bildirimi" else data.subject }
    match body data with
    | some htmlBody => .ok (some ⟨recipient, data.subject, htmlBody⟩)
    | none => .error ("template render (" ++ templateName ++ ")")

/-- `SendTemplate`, up to the mail it sends. -/
def sendTemplate (cfg : Config) (tmpl : MailSet) (recipient templateName : String)
    (data : TemplateData) : Except String (Option Mail) :=
  compose cfg recipient templateName (execute tmpl ("subject_" ++ templateName))
    (execute tmpl templateName) data

/-- The mail of a file: the subject from its block `subject`, the body from the base with its
block `content`. -/
def TemplateFile.mail (cfg : Config) (base : Body TemplateData) (recipient : String)
    (f : TemplateFile) (data : TemplateData) : Except String (Option Mail) :=
  compose cfg recipient f.name f.subject.render
    (fun data => walk (fun _ => f.content.render data) data (f.page base)) data

/-! ## The blocks in effect -/

/-- What the set holds after some files. -/
structure Loaded (base : Body TemplateData) (files : List TemplateFile) (S : MailSet) : Prop where
  subject : S "subject" = (inEffect (files.map TemplateFile.subject)).map Block.body
  content : S "content" = (inEffect (files.map TemplateFile.content)).map Block.body
  names : ∀ f ∈ files, S ("subject_" ++ f.name) = some [.template "subject"] ∧
    S f.name = some (f.page base)

theorem ne_of_reserved {a b : String} (ha : isReserved a = false) (hb : isReserved b = true) :
    a ≠ b := by
  rintro rfl
  rw [ha] at hb
  cases hb

theorem isReserved_subject (name : String) : isReserved ("subject_" ++ name) = true := by
  simp [isReserved]

theorem ne_subjectName {s name : String} (h : s.length = 7) : s ≠ "subject_" ++ name := by
  rintro rfl
  rw [String.length_append] at h
  have hlen : "subject_".length = 8 := rfl
  omega

section parse

variable {S : MailSet} {name : String} (hname : name ≠ "subject" ∧ name ≠ "content")
variable (f : TemplateFile) (body : Body TemplateData)
include hname

theorem parse_subject (current : Option (Block TemplateData))
    (h : S "subject" = current.map Block.body) :
    f.parse S name body "subject" = some (follow current f.subject).body := by
  rw [TemplateFile.parse, define_of_ne hname.1.symm, define_of_ne (by decide), define_follow h]

theorem parse_content (current : Option (Block TemplateData))
    (h : S "content" = current.map Block.body) :
    f.parse S name body "content" = some (follow current f.content).body := by
  have hother : define S "subject" f.subject.body "content" = current.map Block.body := by
    rw [define_of_ne (by decide), h]
  rw [TemplateFile.parse, define_of_ne hname.2.symm, define_follow hother]

omit hname in
theorem parse_other {other : String} (hother : other ≠ "subject" ∧ other ≠ "content")
    (hne : other ≠ name) : f.parse S name body other = S other := by
  rw [TemplateFile.parse, define_of_ne hne, define_of_ne hother.2, define_of_ne hother.1]

theorem parse_blank {old : Body TemplateData} (h : S name = some old)
    (hblank : body.isBlank = true) : f.parse S name body name = some old := by
  have hbefore : define (define S "subject" f.subject.body) "content" f.content.body name =
      some old := by
    rw [define_of_ne hname.2, define_of_ne hname.1, h]
  rw [TemplateFile.parse, define, if_pos ⟨by rw [hbefore]; rfl, hblank⟩, hbefore]

end parse

theorem page_text {base : Body TemplateData} (h : base.isBlank = false) (f : TemplateFile) :
    (f.page base).isBlank = false := by
  rw [Body.isBlank] at h
  rw [TemplateFile.page, Body.isBlank, List.all_append, h, Bool.false_and]

/-- A file that is loaded adds its two names, and its blocks follow those before them. -/
theorem Loaded.load {base : Body TemplateData} {files : List TemplateFile} {S : MailSet}
    (h : Loaded base files S) (htext : base.isBlank = false) {f : TemplateFile}
    (hfresh : f.name ∉ files.map TemplateFile.name) (hname : isReserved f.name = false)
    (hnames : ∀ g ∈ files, isReserved g.name = false) :
    Loaded base (files ++ [f]) (f.load base S) := by
  have hown : ∀ name, isReserved name = false → name ≠ "subject" ∧ name ≠ "content" := by
    intro name hname
    exact ⟨ne_of_reserved hname (by decide), ne_of_reserved hname (by decide)⟩
  have hsub : ∀ name, "subject_" ++ name ≠ "subject" ∧ "subject_" ++ name ≠ "content" := by
    intro name
    exact ⟨(ne_subjectName (by decide)).symm, (ne_subjectName (by decide)).symm⟩
  constructor
  · have hbefore : define S ("subject_" ++ f.name) [.template "subject"] "subject" =
        (inEffect (files.map TemplateFile.subject)).map Block.body := by
      rw [define_of_ne (hsub f.name).1.symm, h.subject]
    have hfirst := parse_subject (hsub f.name) f [.piece (.text f.space)] _ hbefore
    have hsecond := parse_subject (hown f.name hname) f (f.page base) (some _) hfirst
    rw [List.map_append, List.map_singleton, inEffect_concat]
    exact hsecond.trans (congrArg (fun b => some (Block.body b)) (follow_follow _ _))
  · have hbefore : define S ("subject_" ++ f.name) [.template "subject"] "content" =
        (inEffect (files.map TemplateFile.content)).map Block.body := by
      rw [define_of_ne (hsub f.name).2.symm, h.content]
    have hfirst := parse_content (hsub f.name) f [.piece (.text f.space)] _ hbefore
    have hsecond := parse_content (hown f.name hname) f (f.page base) (some _) hfirst
    rw [List.map_append, List.map_singleton, inEffect_concat]
    exact hsecond.trans (congrArg (fun b => some (Block.body b)) (follow_follow _ _))
  · intro g hg
    rcases List.mem_append.mp hg with hg | hg
    · have hne : g.name ≠ f.name := by
        intro heq
        exact hfresh (heq ▸ List.mem_map_of_mem hg)
      have hsame : "subject_" ++ g.name ≠ "subject_" ++ f.name := by
        intro heq
        exact hne ((String.append_right_inj _).mp heq)
      have hgname := hnames g hg
      obtain ⟨hsubject, hpage⟩ := h.names g hg
      constructor
      · rw [TemplateFile.load, parse_other _ _ (hsub g.name)
          (ne_of_reserved hname (isReserved_subject g.name)).symm,
          parse_other _ _ (hsub g.name) hsame, define_of_ne hsame, hsubject]
      · have hother := ne_of_reserved hgname (isReserved_subject f.name)
        rw [TemplateFile.load, parse_other _ _ (hown g.name hgname) hne,
          parse_other _ _ (hown g.name hgname) hother, define_of_ne hother, hpage]
    · obtain rfl := List.mem_singleton.mp hg
      constructor
      · rw [TemplateFile.load, parse_other _ _ (hsub g.name)
          (ne_of_reserved hname (isReserved_subject g.name)).symm]
        apply parse_blank (hsub g.name) g
        · exact define_self rfl
        · simpa [Body.isBlank] using g.space_blank
      · exact define_self (page_text htext g)

theorem loaded_parseTemplates (dir : TemplateDir) :
    Loaded dir.base dir.files (parseTemplates dir) := by
  have hprefix : ∀ rest files S, Loaded dir.base files S → files ++ rest = dir.files →
      Loaded dir.base dir.files (rest.foldl (TemplateFile.load dir.base) S) := by
    intro rest
    induction rest with
    | nil =>
      intro files S h hall
      rw [List.append_nil] at hall
      exact hall ▸ h
    | cons f rest ih =>
      intro files S h hall
      have hdistinct := dir.distinct
      rw [← hall, List.map_append, List.nodup_append] at hdistinct
      have hnames := dir.unreserved
      rw [← hall] at hnames
      have hstep := h.load dir.base_text
        (fun hmem => hdistinct.2.2 _ hmem _ List.mem_cons_self rfl)
        (hnames f (List.mem_append_right _ List.mem_cons_self))
        (fun g hg => hnames g (List.mem_append_left _ hg))
      apply ih (files ++ [f]) _ hstep
      rw [List.append_assoc, List.singleton_append, hall]
  refine hprefix dir.files [] _ ⟨rfl, rfl, ?_⟩ rfl
  intro f hf
  exact absurd hf List.not_mem_nil

/-! ## Which mail is sent -/

/-- The file with the blocks in effect in the place of its own. -/
def TemplateDir.overlay (dir : TemplateDir) (f : TemplateFile) : TemplateFile :=
  { f with
    subject := (inEffect (dir.files.map TemplateFile.subject)).getD f.subject
    content := (inEffect (dir.files.map TemplateFile.content)).getD f.content }

theorem sendTemplate_eq (dir : TemplateDir) {f : TemplateFile} (hf : f ∈ dir.files) (cfg : Config)
    (recipient : String) (data : TemplateData) :
    sendTemplate cfg (parseTemplates dir) recipient f.name data =
      (dir.overlay f).mail cfg dir.base recipient data := by
  have hload := loaded_parseTemplates dir
  obtain ⟨hsubjectName, hpage⟩ := hload.names f hf
  have hne : dir.files ≠ [] := List.ne_nil_of_mem hf
  have hsubjects : dir.files.map TemplateFile.subject ≠ [] := mt List.map_eq_nil_iff.mp hne
  have hcontents : dir.files.map TemplateFile.content ≠ [] := mt List.map_eq_nil_iff.mp hne
  obtain ⟨subject, hsubject⟩ := exists_inEffect hsubjects
  obtain ⟨content, hcontent⟩ := exists_inEffect hcontents
  have hS := hload.subject
  have hC := hload.content
  rw [hsubject, Option.map_some] at hS
  rw [hcontent, Option.map_some] at hC
  have hexecS : execute (parseTemplates dir) ("subject_" ++ f.name) = subject.render := by
    funext d
    rw [execute, hsubjectName, Option.bind_some, maxExecDepth, exec_calls subject]
    · cases hrender : subject.render d <;> simp [walk]
    · intro name hname
      obtain rfl : name = "subject" := by simpa using hname
      exact hS
  have hexecC : execute (parseTemplates dir) f.name =
      fun d => walk (fun _ => content.render d) d (f.page dir.base) := by
    funext d
    rw [execute, hpage, Option.bind_some, maxExecDepth, exec_calls content]
    intro name hname
    obtain rfl : name = "content" := by
      apply dir.base_calls
      simpa [TemplateFile.page] using hname
    exact hC
  rw [sendTemplate, hexecS, hexecC, TemplateFile.mail, TemplateDir.overlay, hsubject, hcontent]
  rfl

/-- A file that stands alone is sent with its own blocks. -/
theorem overlay_singleton {dir : TemplateDir} {f : TemplateFile} (h : dir.files = [f]) :
    dir.overlay f = f := by
  rw [TemplateDir.overlay, h]
  rfl

/-- The mail of a file is its own exactly if the blocks in effect make the same mail. -/
theorem sendTemplate_own_iff (dir : TemplateDir) {f : TemplateFile} (hf : f ∈ dir.files)
    (cfg : Config) (recipient : String) (data : TemplateData) :
    sendTemplate cfg (parseTemplates dir) recipient f.name data =
        f.mail cfg dir.base recipient data ↔
      (dir.overlay f).mail cfg dir.base recipient data = f.mail cfg dir.base recipient data := by
  rw [sendTemplate_eq dir hf]

/-! ## Two files -/

def passwordReset : TemplateFile where
  name := "password_reset"
  subject := [.text "IronStock — Şifre Sıfırlama İsteği"]
  content := [.text "<a href=\"", .action fun d => some d.resetURL, .text "\">"]
  space := "\n"
  space_blank := by decide

def welcome : TemplateFile where
  name := "welcome"
  subject := [.text "IronStock'a Hoş Geldiniz — ", .action fun d => some d.username]
  content := [.text "<h1>Hesabınız Hazır</h1>"]
  space := "\n"
  space_blank := by decide

def sampleDir : TemplateDir where
  base := [.piece (.text "<body>"), .template "content", .piece (.text "</body>")]
  base_calls name hname := by simpa using hname
  base_text := by decide
  files := [passwordReset, welcome]
  distinct := by decide
  unreserved := by decide

/-- The last file is sent with its own blocks. -/
theorem sendTemplate_own_last :
    sendTemplate ⟨"smtp.vault.example", 587, ""⟩ (parseTemplates sampleDir) "ada@vault.example"
        welcome.name { username := "ada" } =
      welcome.mail ⟨"smtp.vault.example", 587, ""⟩ sampleDir.base "ada@vault.example"
        { username := "ada" } :=
  (sendTemplate_own_iff sampleDir (List.mem_cons_of_mem _ List.mem_cons_self) _ _ _).mpr rfl

/-- Who asks for a reset is welcomed. -/
theorem sendTemplate_welcomes :
    ∃ f ∈ sampleDir.files, ∃ cfg recipient data,
      sendTemplate cfg (parseTemplates sampleDir) recipient f.name data ≠
        f.mail cfg sampleDir.base recipient data := by
  refine ⟨passwordReset, List.mem_cons_self, ⟨"smtp.vault.example", 587, ""⟩,
    "ada@vault.example", { username := "ada" }, ?_⟩
  rw [sendTemplate_eq sampleDir List.mem_cons_self]
  decide

end IronStock.MailTemplates

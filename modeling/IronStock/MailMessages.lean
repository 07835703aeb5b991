import IronStock.Lib.MailText
import IronStock.Lib.QuotedPrintable
import IronStock.Lib.UrlText
import IronStock.TokenGates

/-!
# Mail messages

`buildMIME` of `internal/email` writes a header with the texts it is given and the HTML
after it. The header says that the body is quoted-printable; nothing encodes it.
-/
namespace IronStock.Mail

open MailText QuotedPrintable

def buildMIME (sender recipient subject htmlBody : Bytes) : Bytes :=
  bytesOf "From: " ++ sender ++ bytesOf "\r\nTo: " ++ recipient ++
    bytesOf "\r\nSubject: " ++ subject ++ bytesOf "\r\nMIME-Version: 1.0\r\n" ++
    bytesOf "Content-Type: text/html; charset=\"UTF-8\"\r\n" ++
    bytesOf "Content-Transfer-Encoding: quoted-printable\r\n\r\n" ++ htmlBody

/-- The fields a message is meant to have. -/
def headers (sender recipient subject : Bytes) : List Field :=
  [⟨bytesOf "From", sender⟩, ⟨bytesOf "To", recipient⟩, ⟨bytesOf "Subject", subject⟩,
    ⟨bytesOf "MIME-Version", bytesOf "1.0"⟩,
    ⟨bytesOf "Content-Type", bytesOf "text/html; charset=\"UTF-8\""⟩,
    ⟨bytesOf "Content-Transfer-Encoding", bytesOf "quoted-printable"⟩]

def lowerOctet (b : UInt8) : UInt8 := if 65 ≤ b ∧ b ≤ 90 then b + 32 else b

/-- The encoding a message declares; the default is `7bit`. -/
def transferEncoding (m : Message) : Bytes :=
  match m.fields.find? fun f => f.name.map lowerOctet = bytesOf "content-transfer-encoding" with
  | some f => f.value.map lowerOctet
  | none => bytesOf "7bit"

/-- The body in the encoding its message declares. -/
def decodedBody (m : Message) : Option Bytes :=
  let encoding := transferEncoding m
  if encoding = bytesOf "quoted-printable" then decode m.body
  else if encoding ∈ [bytesOf "7bit", bytesOf "8bit", bytesOf "binary"] then some m.body
  else none

/-- A reader of the message finds the fields it is meant to have and the HTML. -/
def Faithful (sender recipient subject htmlBody : Bytes) : Prop :=
  ∃ m, parse (buildMIME sender recipient subject htmlBody) = some m ∧
    m.fields = headers sender recipient subject ∧ decodedBody m = some htmlBody

section

variable {sender recipient subject htmlBody : Bytes}

theorem buildMIME_eq_write :
    buildMIME sender recipient subject htmlBody =
      write ⟨headers sender recipient subject, htmlBody⟩ := by
  have hfrom : bytesOf "From: " = bytesOf "From" ++ [58, 32] := by decide
  have hto : bytesOf "\r\nTo: " = [13, 10] ++ bytesOf "To" ++ [58, 32] := by decide
  have hsubject : bytesOf "\r\nSubject: " = [13, 10] ++ bytesOf "Subject" ++ [58, 32] := by
    decide
  have hversion : bytesOf "\r\nMIME-Version: 1.0\r\n" =
      [13, 10] ++ bytesOf "MIME-Version" ++ [58, 32] ++ bytesOf "1.0" ++ [13, 10] := by
    decide
  have htype : bytesOf "Content-Type: text/html; charset=\"UTF-8\"\r\n" =
      bytesOf "Content-Type" ++ [58, 32] ++ bytesOf "text/html; charset=\"UTF-8\"" ++ [13, 10] := by
    decide
  have hencoding : bytesOf "Content-Transfer-Encoding: quoted-printable\r\n\r\n" =
      bytesOf "Content-Transfer-Encoding" ++ [58, 32] ++ bytesOf "quoted-printable" ++
        [13, 10] ++ [13, 10] := by
    decide
  rw [buildMIME, hfrom, hto, hsubject, hversion, htype, hencoding]
  simp [write, headers, Field.write]

theorem headers_proper (hsender : Unbroken sender) (hrecipient : Unbroken recipient)
    (hsubject : Unbroken subject) : ∀ f ∈ headers sender recipient subject, f.Proper := by
  have hnames : ∀ name ∈ ["From", "To", "Subject", "MIME-Version", "Content-Type",
      "Content-Transfer-Encoding"], bytesOf name ≠ [] ∧ (bytesOf name).all isNameOctet = true := by
    decide
  have hvalues : ∀ value ∈ ["1.0", "text/html; charset=\"UTF-8\"", "quoted-printable"],
      Unbroken (bytesOf value) := by
    decide
  simp only [List.forall_mem_cons] at hnames hvalues
  obtain ⟨hfromName, htoName, hsubjectName, hversionName, htypeName, hencodingName, -⟩ := hnames
  obtain ⟨hversion, htype, hencoding, -⟩ := hvalues
  simp only [headers, List.forall_mem_cons]
  exact ⟨⟨hfromName.1, hfromName.2, hsender⟩, ⟨htoName.1, htoName.2, hrecipient⟩,
    ⟨hsubjectName.1, hsubjectName.2, hsubject⟩, ⟨hversionName.1, hversionName.2, hversion⟩,
    ⟨htypeName.1, htypeName.2, htype⟩, ⟨hencodingName.1, hencodingName.2, hencoding⟩,
    fun f hf => absurd hf List.not_mem_nil⟩

theorem transferEncoding_headers :
    transferEncoding ⟨headers sender recipient subject, htmlBody⟩ = bytesOf "quoted-printable" := by
  have hother : ∀ name ∈ ["From", "To", "Subject", "MIME-Version", "Content-Type"],
      (bytesOf name).map lowerOctet ≠ bytesOf "content-transfer-encoding" := by decide
  have hsame : (bytesOf "Content-Transfer-Encoding").map lowerOctet =
      bytesOf "content-transfer-encoding" := by decide
  have hvalue : (bytesOf "quoted-printable").map lowerOctet = bytesOf "quoted-printable" := by
    decide
  simp only [List.forall_mem_cons] at hother
  obtain ⟨hfrom, hto, hsubject, hversion, htype, -⟩ := hother
  simp [transferEncoding, headers, List.find?, hfrom, hto, hsubject, hversion, htype, hsame, hvalue]

theorem decodedBody_headers :
    decodedBody ⟨headers sender recipient subject, htmlBody⟩ = decode htmlBody := by
  simp only [decodedBody, transferEncoding_headers, if_true]

/-- A message whose texts have no line end is faithful if the HTML is its own encoding. -/
theorem faithful_unbroken_iff (hsender : Unbroken sender) (hrecipient : Unbroken recipient)
    (hsubject : Unbroken subject) :
    Faithful sender recipient subject htmlBody ↔ decode htmlBody = some htmlBody := by
  have hparse := parse_write (m := ⟨headers sender recipient subject, htmlBody⟩)
    (headers_proper hsender hrecipient hsubject)
  rw [← buildMIME_eq_write] at hparse
  have hdecode : decodedBody ⟨headers sender recipient subject, htmlBody⟩ = decode htmlBody :=
    decodedBody_headers
  rw [← hdecode]
  constructor
  · rintro ⟨m, hm, -, hbody⟩
    rw [hparse] at hm
    cases hm
    exact hbody
  · intro hbody
    exact ⟨_, hparse, rfl, hbody⟩

theorem Faithful.unbroken (h : Faithful sender recipient subject htmlBody) :
    Unbroken sender ∧ Unbroken recipient ∧ Unbroken subject := by
  have hvalues : ∀ f ∈ headers sender recipient subject, Unbroken f.value := by
    obtain ⟨m, hm, hfields, -⟩ := h
    rw [← hfields]
    exact parse_unbroken hm
  simp only [headers, List.forall_mem_cons] at hvalues
  exact ⟨hvalues.1, hvalues.2.1, hvalues.2.2.1⟩

theorem Faithful.decode (h : Faithful sender recipient subject htmlBody) :
    decode htmlBody = some htmlBody := by
  obtain ⟨hsender, hrecipient, hsubject⟩ := h.unbroken
  exact (faithful_unbroken_iff hsender hrecipient hsubject).mp h

/-- Neither an address nor the subject has a line end, and every line of the HTML stands for
itself. -/
theorem faithful_iff (sender recipient subject htmlBody : Bytes) :
    Faithful sender recipient subject htmlBody ↔
      (Unbroken sender ∧ Unbroken recipient ∧ Unbroken subject) ∧
        ∀ line ∈ lines htmlBody, Literal line := by
  rw [← decode_eq_self_iff]
  constructor
  · intro h
    exact ⟨h.unbroken, h.decode⟩
  · rintro ⟨⟨hsender, hrecipient, hsubject⟩, hbody⟩
    exact (faithful_unbroken_iff hsender hrecipient hsubject).mpr hbody

end

/-! ## Reset links -/

theorem bytesOf_append (s t : String) : bytesOf (s ++ t) = bytesOf s ++ bytesOf t := by
  simp [bytesOf]

theorem bytesOf_ofList (cs : List Char) : bytesOf (String.ofList cs) = UrlText.encode cs := by
  rw [bytesOf, String.toByteArray_ofList, List.utf8Encode, List.toList_data_toByteArray]
  rfl

/-- The link `sendPasswordReset` puts in the mail. -/
def resetURL (appURL : String) (token : RawToken) : String :=
  appURL ++ "/reset-password?token=" ++ hexEncodeToString token.val

/-- The octet of a digit that `hex.EncodeToString` writes. -/
def digitOctet (d : Fin 16) : UInt8 := UInt8.ofNat (Uuid.hexDigit d).toNat

theorem hexValue_digitOctet : ∀ d : Fin 16,
    String.utf8EncodeChar (Uuid.hexDigit d) = [digitOctet d] ∧
      (hexValue (digitOctet d)).isSome = true := by
  decide

theorem resetURL_bytes (appURL : String) (token : RawToken) :
    ∃ front c d rest x y, bytesOf (resetURL appURL token) = front ++ ([61, c, d] ++ rest) ∧
      hexValue c = some x ∧ hexValue d = some y := by
  obtain ⟨bytes, hlen⟩ := token
  cases bytes with
  | nil => cases hlen
  | cons b bytes =>
    obtain ⟨hc, hcsome⟩ := hexValue_digitOctet (Fin.ofNat 16 (b.toNat / 16))
    obtain ⟨hd, hdsome⟩ := hexValue_digitOctet (Fin.ofNat 16 b.toNat)
    obtain ⟨x, hx⟩ := Option.isSome_iff_exists.mp hcsome
    obtain ⟨y, hy⟩ := Option.isSome_iff_exists.mp hdsome
    have hpath : bytesOf "/reset-password?token=" = bytesOf "/reset-password?token" ++ [61] := by
      decide
    have hhex : bytesOf (hexEncodeToString (b :: bytes)) =
        [digitOctet (Fin.ofNat 16 (b.toNat / 16)), digitOctet (Fin.ofNat 16 b.toNat)] ++
          bytesOf (hexEncodeToString bytes) := by
      simp only [hexEncodeToString, bytesOf_ofList, List.flatMap_cons, UrlText.encode_append,
        UrlText.encode_cons, UrlText.encode_nil, hc, hd]
      rfl
    refine ⟨bytesOf appURL ++ bytesOf "/reset-password?token", _, _,
      bytesOf (hexEncodeToString bytes), x, y, ?_, hx, hy⟩
    rw [resetURL, bytesOf_append, bytesOf_append, hpath, hhex]
    simp

/-- No mail that holds a reset link is read as it was written. -/
theorem resetURL_not_faithful (sender recipient subject front rest : Bytes) (appURL : String)
    (token : RawToken) :
    ¬ Faithful sender recipient subject (front ++ bytesOf (resetURL appURL token) ++ rest) := by
  intro h
  obtain ⟨pre, c, d, post, x, y, hbytes, hx, hy⟩ := resetURL_bytes appURL token
  have hself := h.decode
  apply decode_ne_self_of_escape hx hy (front ++ pre) (post ++ rest)
  rw [hbytes] at hself
  simpa only [List.append_assoc] using hself

/-- The link of this mail is read as another one. -/
theorem reset_mail_not_faithful :
    ¬ Faithful (bytesOf "IronStock <noreply@vault.example>") (bytesOf "ada@vault.example")
      (bytesOf "Reset")
      (bytesOf "<a href=\"" ++ bytesOf (resetURL "https://vault.example"
        ⟨List.replicate 32 0xa7, by decide⟩) ++ bytesOf "\">") :=
  resetURL_not_faithful _ _ _ _ _ _ _

/-- A subject with a line end adds a field. -/
example :
    ¬ Faithful (bytesOf "IronStock <noreply@vault.example>") (bytesOf "ada@vault.example")
      (bytesOf "Expiring: db\r\nBcc: eve@vault.example") (bytesOf "<p>") := by
  intro h
  exact absurd h.unbroken (by decide)

end IronStock.Mail

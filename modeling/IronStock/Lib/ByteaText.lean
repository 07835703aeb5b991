import IronStock.Lib.JsonText
import IronStock.Lib.UrlText

/-!
# JSON as the input of `bytea`

The input function of PostgreSQL's `bytea` in its escape format: a backslash stands before another
one or before three octal digits. A printed JSON value comes out as JSON of the same value exactly
if there is no backslash in it.
-/
namespace ByteaText

open JsonText
open UrlText (Bytes encode)

def octal (c : Char) : Option Nat :=
  if '0' ≤ c ∧ c ≤ '7' then some (c.toNat - 48) else none

/-- The byte of three octal digits. -/
def octalByte (d e f : Char) : Option UInt8 := do
  let d ← octal d
  let e ← octal e
  let f ← octal f
  if d ≤ 3 then some (UInt8.ofNat (d * 64 + e * 8 + f)) else none

/-- `byteain`, for a text that does not start with `\x`; `none` is the error. -/
def byteain : List Char → Option Bytes
  | [] => some []
  | c :: rest =>
    if c ≠ '\\' then (byteain rest).map (String.utf8EncodeChar c ++ ·)
    else
      match rest with
      | [] => none
      | d :: rest =>
        if d = '\\' then (byteain rest).map (92 :: ·)
        else
          match rest with
          | e :: f :: rest =>
            (octalByte d e f).bind fun b => (byteain rest).map (b :: ·)
          | _ => none

attribute [local simp] byteain

theorem byteain_cons {c : Char} (h : c ≠ '\\') (rest : List Char) :
    byteain (c :: rest) = (byteain rest).map (String.utf8EncodeChar c ++ ·) := by
  rw [byteain.eq_def]
  exact if_pos h

theorem byteain_pair (rest : List Char) :
    byteain ('\\' :: '\\' :: rest) = (byteain rest).map (92 :: ·) := by
  rw [byteain.eq_def]
  rfl

/-- Without a backslash the bytes are those of the text. -/
theorem byteain_append {pre : List Char} (h : '\\' ∉ pre) (rest : List Char) :
    byteain (pre ++ rest) = (byteain rest).map (encode pre ++ ·) := by
  induction pre with
  | nil => simp [encode]
  | cons c pre ih =>
    rw [List.mem_cons, not_or] at h
    rw [List.cons_append, byteain_cons (Ne.symm h.1), ih h.2, Option.map_map]
    congr 1
    funext bytes
    simp [encode]

theorem byteain_of_not_mem {text : List Char} (h : '\\' ∉ text) :
    byteain text = some (encode text) := by
  have := byteain_append h []
  rwa [List.append_nil, byteain, Option.map_some, List.append_nil] at this

/-! ## The weight of bytes -/

/-- The number of backslashes and letters `u` among the bytes. -/
def weight (bytes : Bytes) : Nat := bytes.count 92 + bytes.count 117

theorem weight_append (a b : Bytes) : weight (a ++ b) = weight a + weight b := by
  simp only [weight, List.count_append]
  omega

theorem weight_cons (b : UInt8) (bytes : Bytes) : weight (b :: bytes) = weight [b] + weight bytes :=
  weight_append [b] bytes

theorem weight_singleton_le (b : UInt8) : weight [b] ≤ 1 := by
  by_cases h : b = 92
  · subst h
    decide
  · rw [weight, List.count_cons_of_ne h, List.count_nil, Nat.zero_add]
    exact List.count_le_length

theorem weight_encodeChar (c : Char) :
    weight (String.utf8EncodeChar c) = JsonText.weight [c] := by
  by_cases hlt : c.toNat < 0x80
  · rw [UrlText.utf8EncodeChar_of_lt hlt]
    have heq : ∀ d : Char, d.toNat < 0x80 → (UInt8.ofNat c.toNat = UInt8.ofNat d.toNat ↔ c = d) := by
      intro d hd
      constructor
      · intro h
        have hnat := congrArg UInt8.toNat h
        rw [UInt8.toNat_ofNat', UInt8.toNat_ofNat'] at hnat
        apply Char.toNat_inj.mp
        omega
      · exact fun h => congrArg _ (congrArg _ h)
    by_cases hslash : c = '\\'
    · subst hslash
      decide
    · by_cases hu : c = 'u'
      · subst hu
        decide
      · have h1 : UInt8.ofNat c.toNat ≠ 92 := fun h => hslash ((heq '\\' (by decide)).mp h)
        have h2 : UInt8.ofNat c.toNat ≠ 117 := fun h => hu ((heq 'u' (by decide)).mp h)
        rw [weight, List.count_cons_of_ne h1, List.count_cons_of_ne h2, JsonText.weight,
          List.count_cons_of_ne hslash, List.count_cons_of_ne hu]
        rfl
  · have hle : 0x80 ≤ c.toNat := Nat.le_of_not_lt hlt
    have hnot : ∀ b : UInt8, b.toNat < 0x80 → b ∉ String.utf8EncodeChar c := by
      intro b hb hmem
      exact Nat.not_le_of_lt hb (UrlText.le_of_mem_utf8EncodeChar hle hmem)
    have hslash : c ≠ '\\' := by
      rintro rfl
      exact absurd hle (by decide)
    have hu : c ≠ 'u' := by
      rintro rfl
      exact absurd hle (by decide)
    rw [weight, List.count_eq_zero_of_not_mem (hnot 92 (by decide)),
      List.count_eq_zero_of_not_mem (hnot 117 (by decide)), JsonText.weight,
      List.count_cons_of_ne hslash, List.count_cons_of_ne hu]
    rfl

theorem weight_encode (text : List Char) : weight (encode text) = JsonText.weight text := by
  induction text with
  | nil => rfl
  | cons c text ih =>
    rw [UrlText.encode_cons, weight_append, weight_encodeChar, ih, JsonText.weight_cons c text]

/-- Reading a text as `bytea` makes it no heavier. -/
theorem weight_byteain {text : List Char} {bytes : Bytes} (h : byteain text = some bytes) :
    weight bytes ≤ JsonText.weight text := by
  induction hn : text.length using Nat.strongRecOn generalizing text bytes with
  | _ n ih =>
    subst hn
    cases text with
    | nil =>
      obtain rfl : [] = bytes := Option.some.inj h
      exact Nat.le_refl 0
    | cons c rest =>
      rw [JsonText.weight_cons]
      by_cases hc : c ≠ '\\'
      · rw [byteain_cons hc] at h
        obtain ⟨tail, htail, rfl⟩ := Option.map_eq_some_iff.mp h
        rw [weight_append, weight_encodeChar]
        exact Nat.add_le_add_left (ih _ (Nat.lt_succ_self _) htail rfl) _
      · obtain rfl := not_ne_iff.mp hc
        have hslash : JsonText.weight ['\\'] = 1 := by decide
        rw [byteain.eq_def] at h
        cases rest with
        | nil => cases h
        | cons d rest =>
          rw [JsonText.weight_cons d]
          simp only [ne_eq, not_true_eq_false, if_false] at h
          split at h
          · next hd =>
            obtain ⟨tail, htail, rfl⟩ := Option.map_eq_some_iff.mp h
            have hlt : rest.length < ('\\' :: d :: rest).length := by
              rw [List.length_cons, List.length_cons]
              omega
            have hrest := ih rest.length hlt htail rfl
            have hbyte := weight_singleton_le 92
            rw [weight_cons]
            omega
          · match rest, h with
            | e :: f :: rest, h =>
              obtain ⟨b, -, h⟩ := Option.bind_eq_some_iff.mp h
              obtain ⟨tail, htail, rfl⟩ := Option.map_eq_some_iff.mp h
              have hlt : rest.length < ('\\' :: d :: e :: f :: rest).length := by
                rw [List.length_cons, List.length_cons, List.length_cons, List.length_cons]
                omega
              have hrest := ih rest.length hlt htail rfl
              have hbyte := weight_singleton_le b
              rw [weight_cons, JsonText.weight_cons e, JsonText.weight_cons f]
              omega

/-- The first backslash takes another one with it, or three octal digits. -/
theorem weight_byteain_lt {pre rest : List Char} {d : Char} {bytes : Bytes} (hpre : '\\' ∉ pre)
    (hd : octal d = none) (h : byteain (pre ++ '\\' :: d :: rest) = some bytes) :
    weight bytes < JsonText.weight (pre ++ '\\' :: d :: rest) := by
  rw [byteain_append hpre] at h
  obtain ⟨tail, htail, rfl⟩ := Option.map_eq_some_iff.mp h
  rw [byteain.eq_def] at htail
  simp only [ne_eq, not_true_eq_false, if_false] at htail
  split at htail
  · next hpair =>
    subst hpair
    obtain ⟨bytes, hbytes, rfl⟩ := Option.map_eq_some_iff.mp htail
    have hrest := weight_byteain hbytes
    have hpairs : JsonText.weight ('\\' :: '\\' :: rest) = 2 + JsonText.weight rest :=
      JsonText.weight_append ['\\', '\\'] rest
    have hbyte := weight_singleton_le 92
    rw [weight_append, weight_encode, weight_cons, JsonText.weight_append, hpairs]
    omega
  · exfalso
    match rest, htail with
    | e :: f :: rest, htail =>
      obtain ⟨b, hb, -⟩ := Option.bind_eq_some_iff.mp htail
      rw [octalByte, hd] at hb
      cases hb

/-! ## Printed values -/

/-- No octal digit follows the first backslash. -/
def Escaped (text : List Char) : Prop :=
  ∀ pre rest, text = pre ++ '\\' :: rest → '\\' ∉ pre →
    ∃ d more, rest = d :: more ∧ octal d = none

theorem escaped_of_not_mem {text : List Char} (h : '\\' ∉ text) : Escaped text := by
  rintro pre rest rfl -
  exact absurd (List.mem_append_right pre (List.mem_cons_self ..)) h

theorem Escaped.append {a b : List Char} (ha : Escaped a) (hb : Escaped b) :
    Escaped (a ++ b) := by
  intro pre rest heq hpre
  rcases List.append_eq_append_iff.mp heq with ⟨mid, rfl, hmid⟩ | ⟨mid, rfl, hmid⟩
  · exact hb mid rest hmid fun hmem => hpre (List.mem_append_right a hmem)
  · cases mid with
    | nil => exact hb [] rest hmid.symm (by simp)
    | cons c mid =>
      obtain ⟨rfl, rfl⟩ := List.cons.inj hmid
      obtain ⟨d, more, rfl, hd⟩ := ha pre mid rfl hpre
      exact ⟨d, more ++ b, rfl, hd⟩

theorem escaped_escapeChar (c : Char) : Escaped (escapeChar c) := by
  rcases escapeChar_cases c with ⟨-, htext, hne⟩ | ⟨-, e, rest, htext, he, hrest⟩
  · rw [htext]
    exact escaped_of_not_mem (by simpa using hne.symm)
  · rw [htext]
    intro pre more heq hpre
    cases pre with
    | nil =>
      obtain ⟨-, rfl⟩ := List.cons.inj heq
      refine ⟨e, rest, rfl, ?_⟩
      have hall : (outEscapes.map Prod.snd).all (fun d => octal d = none) = true := by decide
      rcases he with rfl | he
      · decide
      · simpa using List.all_eq_true.1 hall e he
    | cons d pre =>
      obtain ⟨rfl, -⟩ := List.cons.inj heq
      exact absurd (List.mem_cons_self ..) hpre

theorem escaped_quoted (s : List Char) : Escaped (quoted s) := by
  have hbody : Escaped (s.flatMap escapeChar) := by
    induction s with
    | nil => exact escaped_of_not_mem (by simp)
    | cons c s ih =>
      rw [List.flatMap_cons]
      exact (escaped_escapeChar c).append ih
  have hopen : Escaped ['"'] := escaped_of_not_mem (by decide)
  exact hopen.append (hbody.append hopen)

theorem escaped_render {k : Kind} (n : Node k) : Escaped n.render := by
  induction n with
  | null => exact escaped_of_not_mem (by decide)
  | bool b => cases b <;> exact escaped_of_not_mem (by decide)
  | number d => exact escaped_of_not_mem fun h => (d.text_ne h).1 rfl
  | string s => exact escaped_quoted s
  | array xs ih =>
    have hopen : Escaped ['['] := escaped_of_not_mem (by decide)
    have hclose : Escaped [']'] := escaped_of_not_mem (by decide)
    exact hopen.append (ih.append hclose)
  | object ms ih =>
    have hopen : Escaped ['\x7b'] := escaped_of_not_mem (by decide)
    have hclose : Escaped ['\x7d'] := escaped_of_not_mem (by decide)
    exact hopen.append (ih.append hclose)
  | noElements => exact escaped_of_not_mem (by decide)
  | element x xs ihx ihxs =>
    exact ihx.append ((escaped_of_not_mem xs.not_mem_separator).append ihxs)
  | noMembers => exact escaped_of_not_mem (by decide)
  | member key x ms ihx ihms =>
    have hcolon : Escaped [':', ' '] := escaped_of_not_mem (by decide)
    have hrest := (escaped_of_not_mem ms.not_mem_separator).append ihms
    exact (escaped_quoted key).append ((hcolon.append ihx).append hrest)

/-- The bytes are a UTF-8 text that has the value. -/
def Denotes {k : Kind} (bytes : Bytes) (n : Node k) : Prop :=
  ∃ text, bytes = encode text ∧ JsonText.Denotes text n

/-- A printed value is read as bytes of the same value exactly if every string and every key in it
is printed as it is. -/
theorem byteain_render_iff {k : Kind} (n : Node k) :
    (∃ bytes, byteain n.render = some bytes ∧ Denotes bytes n) ↔ n.bare = true := by
  rw [← not_mem_render]
  constructor
  · rintro ⟨bytes, hread, text, rfl, hdenotes⟩ hmem
    obtain ⟨pre, rest, hsplit, hpre⟩ := List.eq_append_cons_of_mem hmem
    obtain ⟨d, more, rfl, hd⟩ := escaped_render n pre rest hsplit hpre
    rw [hsplit] at hread
    have hlt := weight_byteain_lt hpre hd hread
    rw [weight_encode, ← hsplit] at hlt
    exact Nat.not_le_of_lt hlt hdenotes.weight_le
  · intro hnot
    exact ⟨_, byteain_of_not_mem hnot, n.render, rfl, denotes_render n⟩

end ByteaText

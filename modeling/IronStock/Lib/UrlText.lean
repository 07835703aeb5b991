import IronStock.Lib.IpText

/-!
# Texts of URLs

A URL is cut at the first `#`, then after its scheme, then at the first `?`, and its
authority ends at the next slash. Percent signs are decoded part by part, to bytes: the
path that a client asks for is what is decoded, not what was written.
-/
namespace UrlText

open IpText (hexValue)

abbrev Bytes := List UInt8

def encode (s : List Char) : Bytes := s.flatMap String.utf8EncodeChar

/-! ## Percent signs -/

/-- The characters that may stand as they are, the bytes that may be escaped, and the
bytes of a text, if every percent sign has its two digits. -/
def unescape (plain : Char → Bool) (escaped : UInt8 → Bool) : List Char → Option Bytes
  | [] => some []
  | '%' :: x :: y :: s =>
    match hexValue x, hexValue y with
    | some a, some b =>
      if escaped (UInt8.ofNat (16 * a + b)) then
        (unescape plain escaped s).map (UInt8.ofNat (16 * a + b) :: ·)
      else none
    | _, _ => none
  | c :: s =>
    if c = '%' then none
    else if plain c then (unescape plain escaped s).map (String.utf8EncodeChar c ++ ·)
    else none

/-- In a path, a fragment or a user name everything may be escaped. -/
def decode (s : List Char) : Option Bytes := unescape (fun _ => true) (fun _ => true) s

/-! ## Hosts -/

/-- The marks that may stand in a host as they are. -/
def hostMarks : List Char :=
  ['-', '_', '.', '~', '!', '$', '&', '\'', '(', ')', '*', '+', ',', ';', '=', ':', '[', ']', '<',
    '>', '"']

def hostChar (c : Char) : Bool := 0x80 ≤ c.toNat || c.isAlphanum || hostMarks.contains c

/-- Escaped bytes of a host are a percent sign or are not ASCII. -/
def decodeHost (s : List Char) : Option Bytes :=
  unescape hostChar (fun b => 0x80 ≤ b.toNat || b = 0x25) s

/-- Those of a zone are bytes that could stand there, or blanks. -/
def decodeZone (s : List Char) : Option Bytes :=
  unescape hostChar (fun b => b = 0x25 || b = 0x20 ||
    (b.toNat < 0x80 && hostChar (Char.ofNat b.toNat))) s

/-- What is before the last `c` and what is after it. -/
def cutLast (c : Char) (s : List Char) : Option (List Char × List Char) :=
  if c ∈ s then
    some (((s.reverse.dropWhile (· ≠ c)).drop 1).reverse, (s.reverse.takeWhile (· ≠ c)).reverse)
  else none

/-- Nothing, or a colon and digits. -/
def validOptionalPort : List Char → Bool
  | [] => true
  | c :: s => c = ':' && s.all Char.isDigit

/-- Bytes read as characters, for what is ASCII or else of no use. -/
def ofBytes (b : Bytes) : List Char := b.map fun b => Char.ofNat b.toNat

/-- An address between brackets: one of sixteen bytes, maybe with a zone. -/
def ipLiteral (s : List Char) : Bool :=
  let address := s.takeWhile (· ≠ '%')
  (s.find? fun c => c = '.' ∨ c = ':' ∨ c = '%') = some ':' &&
    (IpText.parseIPv6 address).isSome && (!s.contains '%' || s.dropWhile (· ≠ '%') ≠ ['%'])

/-- The index of the first `%25`, as a cut in front of it. -/
def cutZone : List Char → List Char × List Char
  | '%' :: '2' :: '5' :: s => ([], '%' :: '2' :: '5' :: s)
  | [] => ([], [])
  | c :: s => (c :: (cutZone s).1, (cutZone s).2)

/-- `parseHost`. -/
def parseHost (s : List Char) : Option Bytes :=
  match cutLast '[' s with
  | some (_, rest) =>
    match cutLast ']' rest with
    | none => none
    | some (inner, port) =>
      if validOptionalPort port then do
        let port ← decodeHost port
        let (address, zone) := cutZone inner
        let host ← decodeHost address
        let zone ← decodeZone zone
        if ipLiteral (ofBytes (host ++ zone)) then
          some (encode ['['] ++ (host ++ zone) ++ encode [']'] ++ port)
        else none
      else none
  | none =>
    match cutLast ':' s with
    | some (_, port) => if validOptionalPort (':' :: port) then decodeHost s else none
    | none => decodeHost s

def userMarks : List Char :=
  ['-', '.', '_', ':', '~', '!', '$', '&', '\'', '(', ')', '*', '+', ',', ';', '=', '%', '@']

/-- `parseAuthority`: the host behind the last `@`. -/
def parseAuthority (s : List Char) : Option Bytes :=
  match cutLast '@' s with
  | none => parseHost s
  | some (user, host) => do
    let host ← parseHost host
    if user.all fun c => c.isAlphanum || userMarks.contains c then
      let _ ← decode (user.takeWhile (· ≠ ':'))
      let _ ← decode ((user.dropWhile (· ≠ ':')).drop 1)
      some host
    else none

/-! ## URLs -/

structure Url where
  scheme : List Char := []
  /-- the rest of a URL whose scheme is not followed by a slash -/
  rootless : List Char := []
  host : Bytes := []
  path : Bytes := []
  rawQuery : List Char := []
  forceQuery : Bool := false
  fragment : Bytes := []
deriving DecidableEq

def schemeChar (c : Char) : Bool := c.isAlphanum || c = '+' || c = '-' || c = '.'

/-- `getScheme`: letters, digits and marks before a colon, if the first is a letter. -/
def getScheme (s : List Char) : Option (List Char × List Char) :=
  match s.dropWhile schemeChar with
  | ':' :: rest =>
    match s.takeWhile schemeChar with
    | [] => none
    | c :: scheme => if c.isAlpha then some (c :: scheme, rest) else some ([], s)
  | _ => some ([], s)

/-- A text is cut in front of the first `c`, which is dropped. -/
def cut (c : Char) (s : List Char) : List Char × List Char :=
  (s.takeWhile (· ≠ c), (s.dropWhile (· ≠ c)).drop 1)

def control (c : Char) : Bool := c.toNat < 0x20 || c.toNat = 0x7f

/-- The authority and the path, from where the scheme and the query were cut off. -/
def parseRest (scheme rest : List Char) : Option Url :=
  match rest with
  | '/' :: '/' :: more =>
    if scheme ≠ [] ∨ more.head? ≠ some '/' then do
      let host ← parseAuthority (more.takeWhile (· ≠ '/'))
      let path ← decode (more.dropWhile (· ≠ '/'))
      some { scheme, host, path }
    else (decode rest).map fun path => { scheme, path }
  | '/' :: _ => (decode rest).map fun path => { scheme, path }
  | _ =>
    if scheme ≠ [] then some { scheme, rootless := rest }
    else if ':' ∈ rest.takeWhile (· ≠ '/') then none
    else (decode rest).map fun path => { scheme, path }

/-- A URL without its fragment. -/
def parseMain (s : List Char) : Option Url :=
  if s.any control then none
  else if s = ['*'] then some { path := encode ['*'] }
  else do
    let (scheme, rest) ← getScheme s
    let (before, query) := cut '?' rest
    let url ← parseRest (scheme.map Char.toLower) before
    some { url with rawQuery := query, forceQuery := rest.contains '?' && query = [] }

/-- `url.Parse`. -/
def parse (s : List Char) : Option Url := do
  let (main, fragment) := cut '#' s
  let url ← parseMain main
  let fragment ← decode fragment
  some { url with fragment }

/-- `URL.Hostname`: without a port and without brackets. -/
def Url.hostname (u : Url) : List Char :=
  let host := ofBytes u.host
  let bare := match cutLast ':' host with
    | some (before, port) => if validOptionalPort (':' :: port) then before else host
    | none => host
  if bare.head? = some '[' ∧ bare.getLast? = some ']' then (bare.drop 1).dropLast else bare

example : (parse "https://[fe80::1%25eth0]:6443/x".toList).map Url.hostname =
    some "fe80::1%eth0".toList := by decide

/-! ## Bytes of characters -/

theorem utf8EncodeChar_of_lt {c : Char} (h : c.toNat < 0x80) :
    String.utf8EncodeChar c = [UInt8.ofNat c.toNat] := by
  simp only [String.utf8EncodeChar, Char.toNat_val]
  rw [if_pos (by omega)]

/-- Only ASCII characters have ASCII bytes. -/
theorem le_of_mem_utf8EncodeChar {c : Char} (h : 0x80 ≤ c.toNat) {b : UInt8}
    (hb : b ∈ String.utf8EncodeChar c) : 0x80 ≤ b.toNat := by
  have hbyte : ∀ n, n < 256 → 0x80 ≤ n → 0x80 ≤ (UInt8.ofNat n).toNat := by
    intro n hlt hle
    simp only [UInt8.toNat_ofNat']
    omega
  simp only [String.utf8EncodeChar, Char.toNat_val] at hb
  rw [if_neg (by omega)] at hb
  split at hb
  · simp only [List.mem_cons, List.not_mem_nil, or_false] at hb
    rcases hb with rfl | rfl <;> exact hbyte _ (by omega) (by omega)
  · split at hb
    · simp only [List.mem_cons, List.not_mem_nil, or_false] at hb
      rcases hb with rfl | rfl | rfl <;> exact hbyte _ (by omega) (by omega)
    · simp only [List.mem_cons, List.not_mem_nil, or_false] at hb
      rcases hb with rfl | rfl | rfl | rfl <;> exact hbyte _ (by omega) (by omega)

@[simp] theorem encode_nil : encode [] = [] := rfl

@[simp] theorem encode_cons (c : Char) (s : List Char) :
    encode (c :: s) = String.utf8EncodeChar c ++ encode s := rfl

@[simp] theorem encode_append (s t : List Char) : encode (s ++ t) = encode s ++ encode t :=
  List.flatMap_append

/-- The byte of a slash comes from slashes only. -/
theorem slash_mem_encode {s : List Char} : (47 : UInt8) ∈ encode s ↔ '/' ∈ s := by
  constructor
  · intro h
    obtain ⟨c, hc, hb⟩ := List.mem_flatMap.mp h
    by_cases hlt : c.toNat < 0x80
    · rw [utf8EncodeChar_of_lt hlt, List.mem_singleton] at hb
      have hnat : c.toNat = 47 := by
        have hb' := congrArg UInt8.toNat hb
        rw [UInt8.toNat_ofNat'] at hb'
        change 47 = _ at hb'
        omega
      have hslash : c = '/' := by
        rw [← Char.ofNat_toNat c, hnat]
      exact hslash ▸ hc
    · have := le_of_mem_utf8EncodeChar (Nat.le_of_not_lt hlt) hb
      exact absurd this (by decide)
  · intro h
    exact List.mem_flatMap.mpr ⟨'/', h, by decide⟩

theorem length_encode_pos (c : Char) (s : List Char) : 0 < (encode (c :: s)).length := by
  rw [encode_cons, List.length_append, String.length_utf8EncodeChar]
  have := c.utf8Size_pos
  omega

theorem length_le_length_encode (s : List Char) : s.length ≤ (encode s).length := by
  induction s with
  | nil => exact Nat.le_refl 0
  | cons c s ih =>
    rw [encode_cons, List.length_append, List.length_cons, String.length_utf8EncodeChar]
    have := c.utf8Size_pos
    omega

/-! ## Decoding -/

@[simp] theorem decode_nil : decode [] = some [] := rfl

theorem decode_cons {c : Char} (hc : c ≠ '%') (s : List Char) :
    decode (c :: s) = (decode s).map (String.utf8EncodeChar c ++ ·) := by
  unfold decode
  rw [unescape]
  · rw [if_neg hc, if_pos rfl]
  · rintro x y s' rfl
    exact absurd rfl hc

theorem decode_escape (x y : Char) (s : List Char) :
    decode ('%' :: x :: y :: s) =
      match hexValue x, hexValue y with
      | some a, some b => (decode s).map (UInt8.ofNat (16 * a + b) :: ·)
      | _, _ => none := by
  unfold decode
  rw [unescape]
  simp only [if_true]

theorem decode_percent : decode ['%'] = none := rfl

theorem decode_percent_one (x : Char) : decode ['%', x] = none := rfl

theorem decode_slash (s : List Char) : decode ('/' :: s) = (decode s).map (47 :: ·) :=
  decode_cons (by decide) s

/-- Over a text: without a percent sign, at one that has two characters behind it, and
at one that has not. -/
theorem decode_cases {motive : List Char → Prop} (nil : motive [])
    (char : ∀ c s, c ≠ '%' → motive s → motive (c :: s))
    (escape : ∀ x y s, motive s → motive ('%' :: x :: y :: s))
    (percent : motive ['%']) (one : ∀ x, motive ['%', x]) : ∀ s, motive s
  | [] => nil
  | c :: s => by
    by_cases hc : c = '%'
    · subst hc
      match s with
      | [] => exact percent
      | [x] => exact one x
      | x :: y :: s => exact escape x y s (decode_cases nil char escape percent one s)
    · exact char c s hc (decode_cases nil char escape percent one s)

theorem decode_append {s : List Char} {b : Bytes} (h : decode s = some b) (t : List Char) :
    decode (s ++ t) = (decode t).map (b ++ ·) := by
  induction s using decode_cases generalizing b with
  | nil =>
    cases h
    simp
  | char c s hc ih =>
    rw [decode_cons hc] at h
    obtain ⟨b', hb', rfl⟩ := Option.map_eq_some_iff.mp h
    rw [List.cons_append, decode_cons hc, ih hb', Option.map_map]
    congr 1
    funext x
    simp
  | escape x y s ih =>
    rw [decode_escape] at h
    rw [List.cons_append, List.cons_append, List.cons_append, decode_escape]
    split at h
    · obtain ⟨b', hb', rfl⟩ := Option.map_eq_some_iff.mp h
      rw [ih hb', Option.map_map]
      congr 1
    · cases h
  | percent => cases h
  | one x => cases h

/-- A text that is not decoded is not completed by one that starts with no digit. -/
theorem decode_append_none {s : List Char} (h : decode s = none) {c : Char}
    (hc : hexValue c = none) (t : List Char) : decode (s ++ c :: t) = none := by
  induction s using decode_cases with
  | nil => cases h
  | char d s hd ih =>
    rw [decode_cons hd, Option.map_eq_none_iff] at h
    rw [List.cons_append, decode_cons hd, ih h, Option.map_none]
  | escape x y s ih =>
    rw [decode_escape] at h
    rw [List.cons_append, List.cons_append, List.cons_append, decode_escape]
    split at h
    · rw [Option.map_eq_none_iff] at h
      rw [ih h, Option.map_none]
    · rfl
  | percent =>
    cases t with
    | nil => exact decode_percent_one c
    | cons y t =>
      rw [List.cons_append, List.nil_append, decode_escape, hc]
  | one x =>
    rw [List.cons_append, List.cons_append, List.nil_append, decode_escape, hc]
    cases hexValue x <;> rfl

/-- At a slash a text falls into two that are decoded on their own. -/
theorem decode_append_slash (s t : List Char) :
    decode (s ++ '/' :: t) =
      (decode s).bind fun a => (decode t).map fun b => a ++ 47 :: b := by
  cases h : decode s with
  | none => exact decode_append_none h (by decide) t
  | some a =>
    rw [decode_append h, decode_slash, Option.map_map]
    rfl

theorem decode_of_not_mem {s : List Char} (h : '%' ∉ s) : decode s = some (encode s) := by
  induction s with
  | nil => rfl
  | cons c s ih =>
    rw [List.mem_cons, not_or] at h
    rw [decode_cons (Ne.symm h.1), ih h.2]
    rfl

/-- The bytes of an escape are fewer than those it is written with. -/
theorem length_decode {s : List Char} {b : Bytes} (h : decode s = some b) :
    b.length ≤ (encode s).length ∧ ('%' ∈ s → b.length < (encode s).length) := by
  induction s using decode_cases generalizing b with
  | nil =>
    cases h
    exact ⟨Nat.le_refl 0, fun hmem => nomatch hmem⟩
  | char c s hc ih =>
    rw [decode_cons hc] at h
    obtain ⟨b', hb', rfl⟩ := Option.map_eq_some_iff.mp h
    obtain ⟨hle, hlt⟩ := ih hb'
    rw [encode_cons, List.length_append, List.length_append]
    refine ⟨Nat.add_le_add_left hle _, fun hmem => Nat.add_lt_add_left (hlt ?_) _⟩
    exact (List.mem_cons.mp hmem).resolve_left (Ne.symm hc)
  | escape x y s ih =>
    have hlt : b.length < (encode ('%' :: x :: y :: s)).length := by
      rw [decode_escape] at h
      split at h
      · obtain ⟨b', hb', rfl⟩ := Option.map_eq_some_iff.mp h
        have hle := (ih hb').1
        simp only [encode_cons, List.length_append, List.length_cons,
          String.length_utf8EncodeChar]
        have := Char.utf8Size_pos '%'
        have := x.utf8Size_pos
        omega
      · cases h
    exact ⟨Nat.le_of_lt hlt, fun _ => hlt⟩
  | percent => cases h
  | one x => cases h

theorem not_mem_of_decode {s : List Char} (h : decode s = some (encode s)) : '%' ∉ s :=
  fun hmem => Nat.lt_irrefl _ ((length_decode h).2 hmem)

/-! ## Cutting -/

theorem cut_of_not_mem {c : Char} {s : List Char} (h : c ∉ s) : cut c s = (s, []) := by
  have hall : ∀ a ∈ s, decide (a ≠ c) = true := by
    intro a ha
    exact decide_eq_true fun hac => h (hac ▸ ha)
  have htake : (s ++ []).takeWhile (· ≠ c) = s ++ [].takeWhile (· ≠ c) :=
    List.takeWhile_append_of_pos hall
  have hdrop : (s ++ []).dropWhile (· ≠ c) = [].dropWhile (· ≠ c) :=
    List.dropWhile_append_of_pos hall
  simp only [List.append_nil, List.takeWhile_nil, List.dropWhile_nil] at htake hdrop
  unfold cut
  rw [htake, hdrop, List.drop_nil]

theorem cut_append_of_not_mem {c : Char} {s : List Char} (h : c ∉ s) (t : List Char) :
    cut c (s ++ t) = (s ++ (cut c t).1, (cut c t).2) := by
  have hall : ∀ a ∈ s, decide (a ≠ c) = true := by
    intro a ha
    exact decide_eq_true fun hac => h (hac ▸ ha)
  unfold cut
  rw [List.takeWhile_append_of_pos hall, List.dropWhile_append_of_pos hall]

theorem cut_append_of_mem {c : Char} {s : List Char} (h : c ∈ s) (t : List Char) :
    cut c (s ++ t) = ((cut c s).1, (cut c s).2 ++ t) := by
  induction s with
  | nil => cases h
  | cons a s ih =>
    by_cases hac : a = c
    · subst hac
      simp [cut]
    · have hmem : c ∈ s := (List.mem_cons.mp h).resolve_left (Ne.symm hac)
      have hs := ih hmem
      unfold cut at hs ⊢
      rw [Prod.mk.injEq] at hs
      rw [List.cons_append]
      simp only [List.takeWhile_cons, List.dropWhile_cons, hac, decide_not, Bool.not_eq_true',
        decide_eq_false_iff_not, not_false_eq_true, if_true]
      simp only [decide_not] at hs
      rw [hs.1, hs.2]

/-! ## A path behind a URL -/

/-- What the parts of a URL with a host were read from. -/
structure HasAuthority (s : List Char) (u : Url) (scheme rest more : List Char) : Prop where
  noControl : (cut '#' s).1.any control = false
  scheme_eq : getScheme (cut '#' s).1 = some (scheme, rest)
  authority : (cut '?' rest).1 = '/' :: '/' :: more
  rooted : scheme ≠ [] ∨ more.head? ≠ some '/'
  host : parseAuthority (more.takeWhile (· ≠ '/')) = some u.host
  path : decode (more.dropWhile (· ≠ '/')) = some u.path
  fragment : decode (cut '#' s).2 = some u.fragment
  eq : u = { scheme := scheme.map Char.toLower, host := u.host, path := u.path,
             rawQuery := (cut '?' rest).2,
             forceQuery := rest.contains '?' && (cut '?' rest).2 = [], fragment := u.fragment }

theorem parseRest_authority {scheme more : List Char}
    (h : scheme ≠ [] ∨ more.head? ≠ some '/') :
    parseRest scheme ('/' :: '/' :: more) =
      (parseAuthority (more.takeWhile (· ≠ '/'))).bind fun host =>
        (decode (more.dropWhile (· ≠ '/'))).map fun path => { scheme, host, path } := by
  simp only [parseRest, if_pos h]
  cases parseAuthority (more.takeWhile (· ≠ '/')) with
  | none => rfl
  | some host => cases decode (more.dropWhile (· ≠ '/')) <;> rfl

/-- Nothing else gives a URL a host. -/
theorem host_of_parseRest {scheme rest : List Char} {u : Url} (h : parseRest scheme rest = some u)
    (hhost : u.host ≠ []) : ∃ more, rest = '/' :: '/' :: more ∧
      (scheme ≠ [] ∨ more.head? ≠ some '/') := by
  unfold parseRest at h
  split at h
  · next more =>
    split at h
    · next hmore => exact ⟨more, rfl, hmore⟩
    · obtain ⟨path, _, rfl⟩ := Option.map_eq_some_iff.mp h
      exact absurd rfl hhost
  · obtain ⟨path, _, rfl⟩ := Option.map_eq_some_iff.mp h
    exact absurd rfl hhost
  · split at h
    · cases h
      exact absurd rfl hhost
    · split at h
      · cases h
      · obtain ⟨path, _, rfl⟩ := Option.map_eq_some_iff.mp h
        exact absurd rfl hhost

theorem exists_authority {s : List Char} {u : Url} (h : parse s = some u) (hhost : u.host ≠ []) :
    ∃ scheme rest more, HasAuthority s u scheme rest more := by
  simp only [parse, Option.bind_eq_bind, Option.bind_eq_some_iff] at h
  obtain ⟨url, hurl, fragment, hfrag, heq⟩ := h
  cases heq
  unfold parseMain at hurl
  by_cases hcontrol : (cut '#' s).1.any control = true
  · rw [if_pos hcontrol] at hurl
    cases hurl
  by_cases hstar : (cut '#' s).1 = ['*']
  · rw [if_neg hcontrol, if_pos hstar] at hurl
    cases hurl
    exact absurd rfl hhost
  rw [if_neg hcontrol, if_neg hstar] at hurl
  simp only [Option.bind_eq_bind, Option.bind_eq_some_iff] at hurl
  obtain ⟨⟨scheme, rest⟩, hscheme, u', hrest, heq⟩ := hurl
  cases heq
  obtain ⟨more, hmore, hroot⟩ := host_of_parseRest hrest hhost
  rw [hmore, parseRest_authority hroot, Option.bind_eq_some_iff] at hrest
  obtain ⟨host, hauth, hmap⟩ := hrest
  obtain ⟨path, hpath, rfl⟩ := Option.map_eq_some_iff.mp hmap
  refine ⟨scheme, rest, more, ⟨Bool.eq_false_iff.mpr hcontrol, hscheme, hmore, ?_, hauth, hpath,
    hfrag, rfl⟩⟩
  simpa using hroot

/-- A text with an authority, read from its parts. -/
theorem parse_authority {s scheme rest more : List Char}
    (hcontrol : (cut '#' s).1.any control = false)
    (hscheme : getScheme (cut '#' s).1 = some (scheme, rest))
    (hmore : (cut '?' rest).1 = '/' :: '/' :: more)
    (hroot : scheme ≠ [] ∨ more.head? ≠ some '/') :
    parse s = (parseAuthority (more.takeWhile (· ≠ '/'))).bind fun host =>
      (decode (more.dropWhile (· ≠ '/'))).bind fun path =>
        (decode (cut '#' s).2).map fun fragment =>
          { scheme := scheme.map Char.toLower, host, path, rawQuery := (cut '?' rest).2,
            forceQuery := rest.contains '?' && (cut '?' rest).2 = [], fragment } := by
  have hstar : (cut '#' s).1 ≠ ['*'] := by
    intro h
    rw [h] at hscheme
    cases hscheme
    cases hmore
  have hroot' : scheme.map Char.toLower ≠ [] ∨ more.head? ≠ some '/' := by simpa using hroot
  simp only [parse, parseMain, hcontrol, hstar, hscheme, if_false, Option.bind_eq_bind,
    Option.bind_some, hmore, parseRest_authority hroot', Bool.false_eq_true]
  cases parseAuthority (more.takeWhile (· ≠ '/')) with
  | none => rfl
  | some host =>
    cases decode (more.dropWhile (· ≠ '/')) with
    | none => rfl
    | some path => cases decode (cut '#' s).2 <;> rfl

theorem takeWhile_append_cons {p : Char → Bool} {c : Char} (hc : p c = false) (s t : List Char) :
    (s ++ c :: t).takeWhile p = s.takeWhile p := by
  induction s with
  | nil => simp [hc]
  | cons d s ih =>
    rw [List.cons_append, List.takeWhile_cons, List.takeWhile_cons, ih]

theorem dropWhile_append_cons {p : Char → Bool} {c : Char} (hc : p c = false) (s t : List Char) :
    (s ++ c :: t).dropWhile p = s.dropWhile p ++ c :: t := by
  induction s with
  | nil => simp [hc]
  | cons d s ih =>
    rw [List.cons_append, List.dropWhile_cons, List.dropWhile_cons, ih]
    split <;> rfl

/-- A scheme is not continued by a slash. -/
theorem getScheme_append (s t : List Char) :
    getScheme (s ++ '/' :: t) = (getScheme s).map fun p => (p.1, p.2 ++ '/' :: t) := by
  have hslash : schemeChar '/' = false := by decide
  unfold getScheme
  rw [dropWhile_append_cons hslash, takeWhile_append_cons hslash]
  cases s.dropWhile schemeChar with
  | nil => rfl
  | cons d rest =>
    by_cases hd : d = ':'
    · subst hd
      simp only [List.cons_append]
      cases s.takeWhile schemeChar with
      | nil => rfl
      | cons c scheme =>
        simp only
        split <;> rfl
    · simp [hd]

/-- The rest of a text without its scheme has the other characters of the text. -/
theorem mem_of_getScheme {s scheme rest : List Char} (h : getScheme s = some (scheme, rest))
    {c : Char} (hc : schemeChar c = false) (hcolon : c ≠ ':') : c ∈ rest ↔ c ∈ s := by
  have hsplit := List.takeWhile_append_dropWhile (p := schemeChar) (l := s)
  have htake : c ∉ s.takeWhile schemeChar := by
    intro hmem
    have hall := List.all_eq_true.mp (List.all_takeWhile (p := schemeChar) (l := s)) c hmem
    rw [hc] at hall
    cases hall
  unfold getScheme at h
  split at h
  · next rest' hdrop =>
    split at h
    · cases h
    · next d scheme' _ =>
      split at h
      · cases h
        rw [← hsplit, List.mem_append, hdrop, List.mem_cons]
        constructor
        · exact fun hmem => Or.inr (Or.inr hmem)
        · rintro (hmem | heq | hmem)
          · exact absurd hmem htake
          · exact absurd heq hcolon
          · exact hmem
      · cases h
        rfl
  · cases h
    rfl

section Append

variable {s t scheme rest more : List Char} {u : Url}

theorem cut_slash {c : Char} (hc : c ≠ '/') (t : List Char) :
    cut c ('/' :: t) = ('/' :: (cut c t).1, (cut c t).2) :=
  cut_append_of_not_mem (s := ['/']) (by simpa using hc) t

theorem HasAuthority.cut_fragment (h : HasAuthority s u scheme rest more) (hs : '#' ∉ s) :
    (s.any control = false ∧ getScheme s = some (scheme, rest)) ∧
      cut '#' (s ++ '/' :: t) = (s ++ '/' :: (cut '#' t).1, (cut '#' t).2) := by
  have hcut := cut_of_not_mem hs
  refine ⟨⟨?_, ?_⟩, ?_⟩
  · simpa [hcut] using h.noControl
  · simpa [hcut] using h.scheme_eq
  · rw [cut_append_of_not_mem hs, cut_slash (by decide)]

/-- Behind a fragment a text is fragment. -/
theorem HasAuthority.parse_fragment (h : HasAuthority s u scheme rest more) (hs : '#' ∈ s) :
    parse (s ++ t) = (decode t).map fun b => { u with fragment := u.fragment ++ b } := by
  have hcut := cut_append_of_mem hs t
  rw [parse_authority (s := s ++ t) (by rw [hcut]; exact h.noControl)
    (by rw [hcut]; exact h.scheme_eq) h.authority h.rooted, h.host, h.path, hcut]
  simp only [Option.bind_some, decode_append h.fragment, Option.map_map]
  congr 1
  funext b
  rw [h.eq]
  rfl

/-- Behind a query a text is query. -/
theorem HasAuthority.parse_query (h : HasAuthority s u scheme rest more) (hs : '#' ∉ s)
    (hq : '?' ∈ s) : parse (s ++ '/' :: t) =
      if (cut '#' t).1.any control then none
      else (decode (cut '#' t).2).map fun b =>
        { u with rawQuery := u.rawQuery ++ '/' :: (cut '#' t).1, forceQuery := false,
                 fragment := b } := by
  obtain ⟨⟨hcontrol, hscheme⟩, hcut⟩ := h.cut_fragment hs (t := t)
  have hslash : control '/' = false := by decide
  by_cases ht : (cut '#' t).1.any control = true
  · rw [if_pos ht]
    have hany : (cut '#' (s ++ '/' :: t)).1.any control = true := by
      rw [hcut, List.any_append, List.any_cons, ht, Bool.or_true, Bool.or_true]
    simp [parse, parseMain, hany]
  · rw [if_neg ht]
    have hrest : '?' ∈ rest := (mem_of_getScheme hscheme (by decide) (by decide)).mpr hq
    have hcutq := cut_append_of_mem hrest ('/' :: (cut '#' t).1)
    have hnone : (cut '#' (s ++ '/' :: t)).1.any control = false := by
      simp [hcut, hcontrol, hslash, ht]
    have hparts : getScheme (cut '#' (s ++ '/' :: t)).1 =
        some (scheme, rest ++ '/' :: (cut '#' t).1) := by
      rw [hcut, getScheme_append, hscheme, Option.map_some]
    rw [parse_authority hnone hparts (by rw [hcutq]; exact h.authority) h.rooted, h.host, h.path,
      hcut, hcutq]
    simp only [Option.bind_some]
    congr 1
    funext b
    rw [h.eq]
    simp

/-- Behind a path a text is path, as far as its own query. -/
theorem HasAuthority.parse_path (h : HasAuthority s u scheme rest more) (hhost : u.host ≠ [])
    (hs : '#' ∉ s) (hq : '?' ∉ s) : parse (s ++ '/' :: t) =
      if (cut '#' t).1.any control then none
      else (decode (cut '?' (cut '#' t).1).1).bind fun path =>
        (decode (cut '#' t).2).map fun b =>
          { u with path := u.path ++ 47 :: path, rawQuery := (cut '?' (cut '#' t).1).2,
                   forceQuery := (cut '#' t).1.contains '?' && (cut '?' (cut '#' t).1).2 = [],
                   fragment := b } := by
  obtain ⟨⟨hcontrol, hscheme⟩, hcut⟩ := h.cut_fragment hs (t := t)
  have hslash : control '/' = false := by decide
  by_cases ht : (cut '#' t).1.any control = true
  · rw [if_pos ht]
    have hany : (cut '#' (s ++ '/' :: t)).1.any control = true := by
      rw [hcut, List.any_append, List.any_cons, ht, Bool.or_true, Bool.or_true]
    simp [parse, parseMain, hany]
  · rw [if_neg ht]
    have hrest : '?' ∉ rest := fun hmem =>
      hq ((mem_of_getScheme hscheme (by decide) (by decide)).mp hmem)
    have hauthority : rest = '/' :: '/' :: more := by
      have := h.authority
      rwa [cut_of_not_mem hrest] at this
    have hcutq : cut '?' (rest ++ '/' :: (cut '#' t).1) =
        (rest ++ '/' :: (cut '?' (cut '#' t).1).1, (cut '?' (cut '#' t).1).2) := by
      rw [cut_append_of_not_mem hrest, cut_slash (by decide)]
    have hroot : scheme ≠ [] ∨ (more ++ '/' :: (cut '?' (cut '#' t).1).1).head? ≠ some '/' := by
      cases more with
      | nil => exact absurd (Option.some.inj h.host).symm hhost
      | cons c more => simpa using h.rooted
    have hnot : decide ('/' ≠ '/') = false := by decide
    have hnone : (cut '#' (s ++ '/' :: t)).1.any control = false := by
      simp [hcut, hcontrol, hslash, ht]
    have hparts : getScheme (cut '#' (s ++ '/' :: t)).1 =
        some (scheme, rest ++ '/' :: (cut '#' t).1) := by
      rw [hcut, getScheme_append, hscheme, Option.map_some]
    rw [parse_authority hnone hparts (by rw [hcutq, hauthority]; rfl) hroot,
      takeWhile_append_cons hnot, dropWhile_append_cons hnot, h.host, decode_append h.path,
      decode_slash, hcut, hcutq]
    simp only [Option.bind_some, Option.map_map]
    cases decode (cut '?' (cut '#' t).1).1 with
    | none => rfl
    | some path =>
      simp only [Option.map_some, Option.bind_some]
      congr 1
      funext b
      rw [h.eq]
      simp [hrest]

/-- What is behind a URL does not change where it leads to. -/
theorem host_of_parse_append {u' : Url} (h : parse s = some u) (hhost : u.host ≠ [])
    (h' : parse (s ++ '/' :: t) = some u') : u'.scheme = u.scheme ∧ u'.host = u.host := by
  obtain ⟨scheme, rest, more, hs⟩ := exists_authority h hhost
  by_cases hf : '#' ∈ s
  · rw [hs.parse_fragment hf] at h'
    obtain ⟨b, _, rfl⟩ := Option.map_eq_some_iff.mp h'
    exact ⟨rfl, rfl⟩
  by_cases hq : '?' ∈ s
  · rw [hs.parse_query hf hq] at h'
    split at h'
    · cases h'
    · obtain ⟨b, _, rfl⟩ := Option.map_eq_some_iff.mp h'
      exact ⟨rfl, rfl⟩
  · rw [hs.parse_path hhost hf hq] at h'
    split at h'
    · cases h'
    · obtain ⟨path, _, h'⟩ := Option.bind_eq_some_iff.mp h'
      obtain ⟨b, _, rfl⟩ := Option.map_eq_some_iff.mp h'
      exact ⟨rfl, rfl⟩

/-- The start of a text that is not query and not fragment. -/
def pathPart (t : List Char) : List Char := (cut '?' (cut '#' t).1).1

/-- Whether a path is read behind a URL: no part of it has a bad escape, and no part but
the fragment a control character. -/
def follows (s t : List Char) : Bool :=
  if '#' ∈ s then (decode t).isSome
  else !(cut '#' t).1.any control && (decode (cut '#' t).2).isSome &&
    ('?' ∈ s || (decode (pathPart t)).isSome)

theorem parse_append_isSome (h : parse s = some u) (hhost : u.host ≠ []) :
    (parse (s ++ '/' :: t)).isSome = follows s ('/' :: t) := by
  obtain ⟨scheme, rest, more, hs⟩ := exists_authority h hhost
  have hslash : control '/' = false := by decide
  unfold follows pathPart
  rw [cut_slash (by decide), cut_slash (by decide), decode_slash, decode_slash]
  simp only [List.any_cons, hslash, Bool.false_or, Option.isSome_map]
  by_cases hf : '#' ∈ s
  · rw [hs.parse_fragment hf, if_pos hf, Option.isSome_map, decode_slash, Option.isSome_map]
  rw [if_neg hf]
  by_cases hq : '?' ∈ s
  · rw [hs.parse_query hf hq]
    cases (cut '#' t).1.any control with
    | true => rfl
    | false => cases decode (cut '#' t).2 <;> simp [hq]
  · rw [hs.parse_path hhost hf hq]
    cases (cut '#' t).1.any control with
    | true => rfl
    | false =>
      cases decode (cut '?' (cut '#' t).1).1 <;> cases decode (cut '#' t).2 <;> simp [hq]

/-- A path behind a URL is its path if the URL ends with its own path. -/
theorem path_of_parse_append {u' : Url} (h : parse s = some u) (hhost : u.host ≠ [])
    (h' : parse (s ++ '/' :: t) = some u') :
    (('#' ∈ s ∨ '?' ∈ s) ∧ u'.path = u.path ∧ (u'.rawQuery ≠ [] ∨ u'.fragment ≠ [])) ∨
    ('#' ∉ s ∧ '?' ∉ s ∧ u'.rawQuery = (cut '?' (cut '#' t).1).2 ∧
      decode (cut '#' t).2 = some u'.fragment ∧
      ∃ b, decode (pathPart t) = some b ∧ u'.path = u.path ++ 47 :: b) := by
  obtain ⟨scheme, rest, more, hs⟩ := exists_authority h hhost
  by_cases hf : '#' ∈ s
  · rw [hs.parse_fragment hf] at h'
    rw [decode_slash, Option.map_map] at h'
    obtain ⟨b, _, rfl⟩ := Option.map_eq_some_iff.mp h'
    exact .inl ⟨.inl hf, rfl, .inr (by simp)⟩
  by_cases hq : '?' ∈ s
  · rw [hs.parse_query hf hq] at h'
    split at h'
    · cases h'
    · obtain ⟨b, _, rfl⟩ := Option.map_eq_some_iff.mp h'
      exact .inl ⟨.inr hq, rfl, .inl (by simp)⟩
  · rw [hs.parse_path hhost hf hq] at h'
    split at h'
    · cases h'
    · obtain ⟨path, hpath, h'⟩ := Option.bind_eq_some_iff.mp h'
      obtain ⟨b, hb, rfl⟩ := Option.map_eq_some_iff.mp h'
      exact .inr ⟨hf, hq, rfl, hb, path, hpath, rfl⟩

theorem cut_eq (c : Char) (t : List Char) :
    (c ∉ t ∧ cut c t = (t, [])) ∨ t = (cut c t).1 ++ c :: (cut c t).2 := by
  induction t with
  | nil => exact .inl ⟨List.not_mem_nil, rfl⟩
  | cons d t ih =>
    by_cases hd : d = c
    · subst hd
      exact .inr (by simp [cut])
    · have hstep : cut c (d :: t) = (d :: (cut c t).1, (cut c t).2) :=
        cut_append_of_not_mem (s := [d]) (by simpa using Ne.symm hd) t
      rw [hstep]
      rcases ih with ⟨hmem, hcut⟩ | heq
      · refine .inl ⟨?_, by rw [hcut]⟩
        rw [List.mem_cons, not_or]
        exact ⟨Ne.symm hd, hmem⟩
      · exact .inr (congrArg (d :: ·) heq)

/-- A text is its own path part, or goes on with a mark. -/
theorem pathPart_eq (t : List Char) :
    ('#' ∉ t ∧ '?' ∉ t ∧ pathPart t = t) ∨ ∃ c rest, (c = '#' ∨ c = '?') ∧
      t = pathPart t ++ c :: rest := by
  rcases cut_eq '#' t with ⟨hf, hcut⟩ | hcut
  · rcases cut_eq '?' t with ⟨hq, hcutq⟩ | hcutq
    · exact .inl ⟨hf, hq, by rw [pathPart, hcut, hcutq]⟩
    · exact .inr ⟨'?', (cut '?' t).2, .inr rfl, by rw [pathPart, hcut]; exact hcutq⟩
  · rcases cut_eq '?' (cut '#' t).1 with ⟨_, hcutq⟩ | hcutq
    · exact .inr ⟨'#', (cut '#' t).2, .inl rfl, by rw [pathPart, hcutq]; exact hcut⟩
    · refine .inr ⟨'?', (cut '?' (cut '#' t).1).2 ++ '#' :: (cut '#' t).2, .inr rfl, ?_⟩
      rw [pathPart, ← List.cons_append, ← List.append_assoc, ← hcutq]
      exact hcut

/-- A path arrives as it was written behind a URL that ends with its own path, if it has
no marks. -/
theorem path_eq_encode_iff {u' : Url} (h : parse s = some u) (hhost : u.host ≠ [])
    (h' : parse (s ++ '/' :: t) = some u') :
    u'.path = u.path ++ 47 :: encode t ↔
      ('#' ∉ s ∧ '?' ∉ s) ∧ '#' ∉ t ∧ '?' ∉ t ∧ '%' ∉ t := by
  rcases path_of_parse_append h hhost h' with ⟨hmark, hpath, _⟩ | ⟨hf, hq, _, _, b, hb, hpath⟩
  · constructor
    · intro heq
      rw [hpath] at heq
      exact absurd (congrArg List.length heq) (by simp)
    · rintro ⟨⟨hf, hq⟩, _⟩
      exact absurd hmark (by simp [hf, hq])
  · rw [hpath, List.append_cancel_left_eq, List.cons.injEq, and_iff_right rfl]
    rcases pathPart_eq t with ⟨htf, htq, hpart⟩ | ⟨c, rest, hc, hpart⟩
    · rw [hpart] at hb
      constructor
      · intro heq
        exact ⟨⟨hf, hq⟩, htf, htq, not_mem_of_decode (heq ▸ hb)⟩
      · rintro ⟨_, _, _, hpct⟩
        rw [decode_of_not_mem hpct] at hb
        exact (Option.some.inj hb).symm
    · constructor
      · intro heq
        have hle := (length_decode hb).1
        have hlen := congrArg (fun t => (encode t).length) hpart
        have hpos := length_encode_pos c rest
        simp only [encode_append, List.length_append] at hlen
        rw [heq] at hle
        omega
      · rintro ⟨_, htf, htq, _⟩
        have hmem : c ∈ t := hpart ▸ List.mem_append_right _ (List.mem_cons_self ..)
        rcases hc with rfl | rfl
        · exact absurd hmem htf
        · exact absurd hmem htq

/-- The path of a URL with a host is empty or starts with a slash. -/
theorem HasAuthority.path_head (h : HasAuthority s u scheme rest more) :
    u.path = [] ∨ u.path.head? = some 47 := by
  have hpath := h.path
  cases hdrop : more.dropWhile (· ≠ '/') with
  | nil =>
    rw [hdrop] at hpath
    exact .inl (Option.some.inj hpath).symm
  | cons c more' =>
    have hc : c = '/' := by
      have := List.head?_dropWhile_not (fun c => decide (c ≠ '/')) more
      rw [hdrop] at this
      simpa using this
    rw [hdrop, hc, decode_slash] at hpath
    obtain ⟨b, _, hb⟩ := Option.map_eq_some_iff.mp hpath
    exact .inr (hb ▸ rfl)

theorem decode_of_append_slash {a : Bytes} (h : decode (s ++ '/' :: t) = some a) :
    ∃ b, decode s = some b := by
  rw [decode_append_slash] at h
  obtain ⟨b, hb, _⟩ := Option.bind_eq_some_iff.mp h
  exact ⟨b, hb⟩

theorem head?_of_cut {c x : Char} (h : (cut c s).1.head? = some x) : s.head? = some x := by
  rw [cut, List.head?_takeWhile] at h
  exact (Option.filter_eq_some_iff.mp h).1

theorem suffix_of_getScheme (h : getScheme s = some (scheme, rest)) : rest <:+ s := by
  unfold getScheme at h
  split at h
  · next rest' hdrop =>
    have hsuffix : ':' :: rest' <:+ s := hdrop ▸ List.dropWhile_suffix schemeChar
    split at h
    · cases h
    · split at h
      · cases h
        exact (List.suffix_cons ':' rest).trans hsuffix
      · cases h
        exact List.suffix_rfl
  · cases h
    exact List.suffix_rfl

theorem getLast?_of_suffix {x : Char} (h : rest <:+ s) (hx : rest.getLast? = some x) :
    s.getLast? = some x := by
  obtain ⟨before, rfl⟩ := h
  rw [List.getLast?_append, hx]
  rfl

/-- Two slashes in front are not made by a path alone. -/
theorem authority_of_append (h : rest ++ '/' :: t = '/' :: '/' :: more) (hrest : rest ≠ ['/'])
    (ht : t.head? ≠ some '/') : ∃ more₀, rest = '/' :: '/' :: more₀ ∧ more = more₀ ++ '/' :: t := by
  cases rest with
  | nil =>
    cases h
    exact absurd rfl ht
  | cons c rest =>
    cases rest with
    | nil =>
      cases h
      exact absurd rfl hrest
    | cons d rest =>
      cases h
      exact ⟨rest, rfl, rfl⟩

/-- A path does not make a URL of a text that has no host of its own. -/
theorem exists_of_parse_append (h : parse (s ++ '/' :: t) = some u) (hhost : u.host ≠ [])
    (hscheme : u.scheme ≠ []) (hlast : s.getLast? ≠ some '/') (ht : t.head? ≠ some '/') :
    ∃ server, parse s = some server ∧ server.host ≠ [] := by
  obtain ⟨scheme, rest, more, hu⟩ := exists_authority h hhost
  have hscheme' : scheme ≠ [] := by
    rintro rfl
    exact hscheme (by rw [hu.eq]; rfl)
  -- the parts of the text itself, from those of the whole
  obtain ⟨rest₀, more₀, hcontrol, hparts, hauthority, hhost₀, ⟨path, hpath⟩, fragment, hfragment⟩ :
      ∃ rest₀ more₀, (cut '#' s).1.any control = false ∧
        getScheme (cut '#' s).1 = some (scheme, rest₀) ∧
        (cut '?' rest₀).1 = '/' :: '/' :: more₀ ∧
        parseAuthority (more₀.takeWhile (· ≠ '/')) = some u.host ∧
        (∃ b, decode (more₀.dropWhile (· ≠ '/')) = some b) ∧
        ∃ b, decode (cut '#' s).2 = some b := by
    by_cases hf : '#' ∈ s
    · have hcut := cut_append_of_mem hf ('/' :: t)
      have hcontrol := hu.noControl
      have hparts := hu.scheme_eq
      have hfrag := hu.fragment
      rw [hcut] at hcontrol hparts hfrag
      exact ⟨rest, more, hcontrol, hparts, hu.authority, hu.host, ⟨_, hu.path⟩,
        decode_of_append_slash hfrag⟩
    · have hcut : cut '#' (s ++ '/' :: t) = (s ++ '/' :: (cut '#' t).1, (cut '#' t).2) := by
        rw [cut_append_of_not_mem hf, cut_slash (by decide)]
      have hcontrol := hu.noControl
      have hparts := hu.scheme_eq
      rw [hcut, List.any_append, Bool.or_eq_false_iff] at hcontrol
      rw [hcut, getScheme_append] at hparts
      obtain ⟨⟨scheme₀, rest₀⟩, hscheme₀, heq⟩ := Option.map_eq_some_iff.mp hparts
      cases heq
      have hauthority := hu.authority
      rw [cut_of_not_mem hf]
      by_cases hq : '?' ∈ rest₀
      · rw [cut_append_of_mem hq] at hauthority
        exact ⟨rest₀, more, hcontrol.1, hscheme₀, hauthority, hu.host, ⟨_, hu.path⟩, [], rfl⟩
      · rw [cut_append_of_not_mem hq, cut_slash (by decide)] at hauthority
        have hrest : rest₀ ≠ ['/'] := by
          rintro rfl
          exact hlast (getLast?_of_suffix (suffix_of_getScheme hscheme₀) rfl)
        have hhead : (pathPart t).head? ≠ some '/' := fun h => ht (head?_of_cut (head?_of_cut h))
        obtain ⟨more₀, hrest₀, rfl⟩ := authority_of_append hauthority hrest hhead
        have hnot : decide ('/' ≠ '/') = false := by decide
        have hhost₀ := hu.host
        have hpath := hu.path
        rw [takeWhile_append_cons hnot] at hhost₀
        rw [dropWhile_append_cons hnot] at hpath
        exact ⟨rest₀, more₀, hcontrol.1, hscheme₀, by rw [cut_of_not_mem hq, hrest₀], hhost₀,
          decode_of_append_slash hpath, [], rfl⟩
  have hparse := parse_authority hcontrol hparts hauthority (.inl hscheme')
  rw [hhost₀, Option.bind_some, hpath, Option.bind_some, hfragment, Option.map_some] at hparse
  exact ⟨_, hparse, hhost⟩

end Append

end UrlText

import IronStock.Crypto
import IronStock.Lib.IdealAead
import IronStock.Lib.TextEncoding

/-!
# Encryption in the browser

`shared/pkg/src/crypto.ts`, and the sealing the item form brings itself.
`crypto.subtle` and `hash-wasm` are parameters; what a function draws is an argument.
An exception of theirs is `none`.
-/
namespace IronStock

/-- The parameters of Argon2id beside the salt. -/
structure KEKParams where
  t : Nat
  m : Nat
  p : Nat
  v : Option Nat
deriving DecidableEq

def defaultKEKParams : KEKParams := ⟨3, 65536, 4, some 19⟩

structure SubtleCrypto where
  /-- AES-GCM without associated data -/
  aesGCM : IdealAead.Scheme Bytes Bytes Unit Bytes Bytes
  sha256 : Bytes → Bytes
  /-- the public key of an X25519 private key -/
  publicKey : Bytes → Bytes
  /-- `deriveBits`, from a private and another's public key -/
  deriveBits : Bytes → Bytes → Option Bytes
  argon2id : String → Bytes → KEKParams → Option Bytes

/-- What the pages rely on. -/
structure SubtleCrypto.Ideal (s : SubtleCrypto) : Prop where
  aesGCM : IdealAead.Ideal s.aesGCM
  /-- there is room for the tag -/
  tag : ∀ k n p, 16 ≤ (s.aesGCM.encrypt k n p ()).length
  length_sha256 : ∀ b, (s.sha256 b).length = 32
  length_publicKey : ∀ k, (s.publicKey k).length = 32
  length_deriveBits : ∀ k p b, s.deriveBits k p = some b → b.length = 32
  /-- both sides derive the same bits -/
  agree : ∀ a b, s.deriveBits a (s.publicKey b) = s.deriveBits b (s.publicKey a)

namespace SubtleCrypto

variable (s : SubtleCrypto)

/-- `importKey('raw', key, 'AES-GCM', …)` takes 128, 192 and 256 bits. -/
def isAESKey (key : Bytes) : Bool := key.length = 16 ∨ key.length = 24 ∨ key.length = 32

def encrypt (key : Bytes) (nonce : Nonce) (plaintext : Bytes) : Option Bytes :=
  if isAESKey key then some (s.aesGCM.encrypt key nonce.bytes plaintext ()) else none

def decrypt (key nonce body : Bytes) : Option Bytes :=
  if isAESKey key then s.aesGCM.decrypt key nonce body () else none

/-- A raw X25519 key has 32 bytes. -/
def deriveSharedBits (privateKey publicKey : Bytes) : Option Bytes :=
  if privateKey.length = 32 ∧ publicKey.length = 32 then s.deriveBits privateKey publicKey
  else none

variable {s}

theorem encrypt_eq_some {key plaintext c : Bytes} {nonce : Nonce} :
    s.encrypt key nonce plaintext = some c ↔
      isAESKey key = true ∧ s.aesGCM.encrypt key nonce.bytes plaintext () = c := by
  simp [encrypt]

/-- What was encrypted opens under its own key only. -/
theorem decrypt_of_encrypt (hs : s.Ideal) {key plaintext c : Bytes} {nonce : Nonce}
    (h : s.encrypt key nonce plaintext = some c) (key' : Bytes) :
    s.decrypt key' nonce.bytes c = if key' = key then some plaintext else none := by
  obtain ⟨hkey, rfl⟩ := encrypt_eq_some.mp h
  by_cases heq : key' = key
  · rw [if_pos heq, heq, decrypt, if_pos hkey]
    exact hs.aesGCM.decrypt_encrypt key nonce.bytes plaintext ()
  · rw [if_neg heq, decrypt]
    split
    · apply Option.eq_none_iff_forall_ne_some.mpr
      intro p hopen
      have hsame := (hs.aesGCM.decrypt_eq_some key' nonce.bytes _ () p).mp hopen
      exact heq (hs.aesGCM.encrypt_inj key nonce.bytes plaintext () key' nonce.bytes p ()
        hsame).1.symm
    · rfl

theorem length_encrypt (hs : s.Ideal) {key plaintext c : Bytes} {nonce : Nonce}
    (h : s.encrypt key nonce plaintext = some c) : 16 ≤ c.length := by
  obtain ⟨_, rfl⟩ := encrypt_eq_some.mp h
  exact hs.tag key nonce.bytes plaintext

end SubtleCrypto

/-! ## Wrapped private keys -/

/-- `decryptPrivateKey`, with the message of an exception of its own. -/
def decryptPrivateKey (s : SubtleCrypto) (privateKeyEnc kek : Bytes) :
    Except (Option String) Bytes :=
  if privateKeyEnc.length < headerLen + aesGcmNonceLen + 16 then
    .error (some "private_key_enc çok kısa (header+nonce+tag eksik)")
  else if privateKeyEnc.getD 0 0 ≠ version1 then
    .error (some ("Beklenmeyen blob versiyonu: " ++ toString (privateKeyEnc.getD 0 0)))
  else if privateKeyEnc.getD 1 0 ≠ algAESGCM then
    .error (some ("Beklenmeyen algoritma: " ++ toString (privateKeyEnc.getD 1 0)))
  else
    let nonce := (privateKeyEnc.drop headerLen).take aesGcmNonceLen
    let cipherWithTag := privateKeyEnc.drop (headerLen + aesGcmNonceLen)
    match s.decrypt kek nonce cipherWithTag with
    | some plaintext => .ok plaintext
    | none => .error none

/-- `encryptPrivateKey`. -/
def encryptPrivateKey (s : SubtleCrypto) (nonce : Nonce) (plaintext kek : Bytes) : Option Bytes :=
  (s.encrypt kek nonce plaintext).map fun cipherWithTag =>
    pack ⟨version1, algAESGCM, nonce.bytes, cipherWithTag⟩

theorem decryptPrivateKey_pack {s : SubtleCrypto} {nonce : Nonce} {body : Bytes}
    (hbody : 16 ≤ body.length) (kek : Bytes) :
    decryptPrivateKey s (pack ⟨version1, algAESGCM, nonce.bytes, body⟩) kek =
      match s.decrypt kek nonce.bytes body with
      | some plaintext => .ok plaintext
      | none => .error none := by
  have hlen := nonce.length_bytes
  have hshort : ¬ (pack ⟨version1, algAESGCM, nonce.bytes, body⟩).length <
      headerLen + aesGcmNonceLen + 16 := by
    simp only [pack, List.length_cons, List.length_append, hlen, headerLen]
    omega
  have htake : ((pack ⟨version1, algAESGCM, nonce.bytes, body⟩).drop headerLen).take
      aesGcmNonceLen = nonce.bytes := by
    simp only [pack, headerLen, List.drop_succ_cons, List.drop_zero]
    rw [← hlen, List.take_left]
  have hdrop : (pack ⟨version1, algAESGCM, nonce.bytes, body⟩).drop
      (headerLen + aesGcmNonceLen) = body := by
    rw [← List.drop_drop, pack, headerLen, ← hlen]
    simp
  rw [decryptPrivateKey, if_neg hshort, if_neg (by simp [pack]), if_neg (by simp [pack])]
  dsimp only
  rw [htake, hdrop]

/-- A wrapped key opens under the key it was wrapped with only. -/
theorem decryptPrivateKey_of_encrypt {s : SubtleCrypto} (hs : s.Ideal) {nonce : Nonce}
    {plaintext kek blob : Bytes} (h : encryptPrivateKey s nonce plaintext kek = some blob)
    (kek' : Bytes) :
    decryptPrivateKey s blob kek' = if kek' = kek then .ok plaintext else .error none := by
  obtain ⟨c, hc, rfl⟩ := Option.map_eq_some_iff.mp h
  rw [decryptPrivateKey_pack (SubtleCrypto.length_encrypt hs hc),
    SubtleCrypto.decrypt_of_encrypt hs hc]
  split
  · next p hp =>
    split at hp
    · next heq => rw [if_pos heq, ← Option.some.inj hp]
    · cases hp
  · next hp =>
    split at hp
    · cases hp
    · next hne => rw [if_neg hne]

/-- The blob is one the server's `Cipher.Open` reads the same way. -/
theorem openBlob_encryptPrivateKey {s : SubtleCrypto} {nonce : Nonce}
    {plaintext kek blob : Bytes} (h : encryptPrivateKey s nonce plaintext kek = some blob)
    (c : Aead) (aad : Bytes) :
    c.openBlob blob aad =
      c.decrypt nonce.bytes (s.aesGCM.encrypt kek nonce.bytes plaintext ()) aad := by
  obtain ⟨body, hbody, rfl⟩ := Option.map_eq_some_iff.mp h
  obtain ⟨_, rfl⟩ := SubtleCrypto.encrypt_eq_some.mp hbody
  have hun := unpack_pack
    (b := ⟨version1, algAESGCM, nonce.bytes, s.aesGCM.encrypt kek nonce.bytes plaintext ()⟩) rfl
  rw [nonce.length_bytes] at hun
  rw [Aead.openBlob, hun]
  rfl

/-! ## Wrapped DEKs -/

/-- `sealDEKWithKEK` of the item form: a placeholder where a sealed box has its
ephemeral key. -/
def sealDEKWithKEK (s : SubtleCrypto) (nonce : Nonce) (ephPubPlaceholder dek privateKey : Bytes) :
    Option (Bytes × Nonce) :=
  (s.encrypt (s.sha256 privateKey) nonce dek).map fun ctWithTag =>
    (ephPubPlaceholder ++ ctWithTag, nonce)

/-- `openDEKWithKEK`. -/
def openDEKWithKEK (s : SubtleCrypto) (wrapped nonce privateKey : Bytes) : Option Bytes :=
  if wrapped.length < 32 + 16 then none
  else s.decrypt (s.sha256 privateKey) nonce (wrapped.drop 32)

/-- `sealDEK`, a sealed box. -/
def sealDEK (s : SubtleCrypto) (nonce : Nonce) (ephemeral dek recipientPublicKey : Bytes) :
    Option (Bytes × Nonce) :=
  match s.deriveSharedBits ephemeral recipientPublicKey with
  | none => none
  | some sharedBits => (s.encrypt sharedBits nonce dek).map fun ctWithTag =>
      (s.publicKey ephemeral ++ ctWithTag, nonce)

/-- `openDEK`. -/
def openDEK (s : SubtleCrypto) (wrapped nonce privateKey : Bytes) : Option Bytes :=
  match s.deriveSharedBits privateKey (wrapped.take 32) with
  | none => none
  | some sharedBits => s.decrypt sharedBits nonce (wrapped.drop 32)

/-- A wrap of a DEK: the 32 bytes in front of it, and the AES key it is under. -/
structure SealedKey where
  front : Bytes
  wrapKey : Bytes
  dek : Bytes
deriving DecidableEq

structure Wraps (s : SubtleCrypto) (key : SealedKey) (wrapped : Bytes) (nonce : Nonce) : Prop where
  length_front : key.front.length = 32
  body : ∃ ctWithTag, wrapped = key.front ++ ctWithTag ∧
    s.encrypt key.wrapKey nonce key.dek = some ctWithTag

section Wraps

variable {s : SubtleCrypto} {nonce nonce' : Nonce} {dek wrapped privateKey : Bytes}
  {key : SealedKey}

theorem sealDEKWithKEK_wraps {placeholder : Bytes} (hlen : placeholder.length = 32)
    (h : sealDEKWithKEK s nonce placeholder dek privateKey = some (wrapped, nonce')) :
    nonce' = nonce ∧ Wraps s ⟨placeholder, s.sha256 privateKey, dek⟩ wrapped nonce := by
  obtain ⟨c, hc, heq⟩ := Option.map_eq_some_iff.mp h
  cases heq
  exact ⟨rfl, hlen, c, rfl, hc⟩

theorem sealDEK_wraps (hs : s.Ideal) {ephemeral recipient : Bytes}
    (h : sealDEK s nonce ephemeral dek recipient = some (wrapped, nonce')) :
    nonce' = nonce ∧ ∃ bits, s.deriveSharedBits ephemeral recipient = some bits ∧
      Wraps s ⟨s.publicKey ephemeral, bits, dek⟩ wrapped nonce := by
  unfold sealDEK at h
  split at h
  · cases h
  · next bits hbits =>
    obtain ⟨c, hc, heq⟩ := Option.map_eq_some_iff.mp h
    cases heq
    exact ⟨rfl, bits, hbits, hs.length_publicKey ephemeral, c, rfl, hc⟩

theorem Wraps.length_le (hs : s.Ideal) (h : Wraps s key wrapped nonce) :
    32 + 16 ≤ wrapped.length := by
  obtain ⟨hfront, c, rfl, hc⟩ := h
  have htag := SubtleCrypto.length_encrypt hs hc
  rw [List.length_append]
  omega

/-- The pages open a wrap under the digest of their private key only. -/
theorem Wraps.openDEKWithKEK (hs : s.Ideal) (h : Wraps s key wrapped nonce) :
    openDEKWithKEK s wrapped nonce.bytes privateKey =
      if s.sha256 privateKey = key.wrapKey then some key.dek else none := by
  have hlen := h.length_le hs
  obtain ⟨hfront, c, rfl, hc⟩ := h
  rw [IronStock.openDEKWithKEK, if_neg (by omega), List.drop_left' hfront,
    SubtleCrypto.decrypt_of_encrypt hs hc]

/-- `openDEK` opens it under the bits shared with what is in front. -/
theorem Wraps.openDEK (hs : s.Ideal) (h : Wraps s key wrapped nonce) :
    openDEK s wrapped nonce.bytes privateKey =
      if s.deriveSharedBits privateKey key.front = some key.wrapKey then some key.dek
      else none := by
  obtain ⟨hfront, c, rfl, hc⟩ := h
  rw [IronStock.openDEK, List.take_left' hfront, List.drop_left' hfront]
  cases s.deriveSharedBits privateKey key.front with
  | none => rfl
  | some bits =>
    dsimp only
    rw [SubtleCrypto.decrypt_of_encrypt hs hc]
    by_cases hbits : bits = key.wrapKey
    · rw [if_pos hbits, if_pos (congrArg some hbits)]
    · rw [if_neg hbits, if_neg fun h => hbits (Option.some.inj h)]

/-- The recipient of a sealed box derives the bits of the sender. -/
theorem deriveSharedBits_recipient (hs : s.Ideal) {ephemeral bits : Bytes}
    (hpriv : privateKey.length = 32)
    (h : s.deriveSharedBits ephemeral (s.publicKey privateKey) = some bits) :
    s.deriveSharedBits privateKey (s.publicKey ephemeral) = some bits := by
  have heph : ephemeral.length = 32 := by
    simp only [SubtleCrypto.deriveSharedBits, Option.ite_none_right_eq_some] at h
    exact h.1.1
  rw [← h, SubtleCrypto.deriveSharedBits, SubtleCrypto.deriveSharedBits,
    if_pos ⟨hpriv, hs.length_publicKey ephemeral⟩,
    if_pos ⟨heph, hs.length_publicKey privateKey⟩, hs.agree]

end Wraps

/-! ## Field values -/

/-- `encryptField`. -/
def encryptField (s : SubtleCrypto) (nonce : Nonce) (value : String) (dek : Bytes) :
    Option (Bytes × Nonce) :=
  (s.encrypt dek nonce (TextEncoding.encode value)).map (·, nonce)

/-- `decryptField`. -/
def decryptField (s : SubtleCrypto) (valueEnc valueNonce dek : Bytes) : Option String :=
  (s.decrypt dek valueNonce valueEnc).map TextEncoding.decode

/-- White space and line ends for `String.prototype.trim`. -/
def isJSSpace (c : Char) : Bool :=
  [0x09, 0x0A, 0x0B, 0x0C, 0x0D, 0x20, 0xA0, 0x1680, 0x2028, 0x2029, 0x202F, 0x205F, 0x3000,
    0xFEFF].contains c.toNat || (0x2000 ≤ c.toNat && c.toNat ≤ 0x200A)

/-- `value.trim()`. -/
def jsTrim (value : String) : String :=
  String.ofList (((value.toList.dropWhile isJSSpace).reverse).dropWhile isJSSpace).reverse

/-- A trimmed text does not begin with a byte order mark, which is a space. -/
theorem head?_jsTrim (value : String) :
    (jsTrim value).toList.head? ≠ some TextEncoding.byteOrderMark := by
  have hprefix : ((value.toList.dropWhile isJSSpace).reverse.dropWhile isJSSpace).reverse <+:
      value.toList.dropWhile isJSSpace := by
    rw [← List.reverse_suffix, List.reverse_reverse]
    exact List.dropWhile_suffix isJSSpace
  rw [jsTrim, String.toList_ofList]
  intro h
  obtain ⟨rest, hrest⟩ := hprefix
  have hhead : (value.toList.dropWhile isJSSpace).head? = some TextEncoding.byteOrderMark := by
    rw [← hrest, List.head?_append, h]
    rfl
  have hnot := List.head?_dropWhile_not isJSSpace value.toList
  rw [hhead] at hnot
  exact absurd hnot (by decide)

/-- A text as the pages store it. -/
structure FieldText where
  text : String
  head : text.toList.head? ≠ some TextEncoding.byteOrderMark
deriving DecidableEq

def FieldText.ofTyped (value : String) : FieldText := ⟨jsTrim value, head?_jsTrim value⟩

/-- A field value opens under the DEK it was encrypted with only, and then to the
text. -/
theorem decryptField_of_encrypt {s : SubtleCrypto} (hs : s.Ideal) {nonce : Nonce} {dek : Bytes}
    {text : FieldText} {v : Bytes × Nonce} (h : encryptField s nonce text.text dek = some v)
    (dek' : Bytes) :
    decryptField s v.1 v.2.bytes dek' = if dek' = dek then some text.text else none := by
  obtain ⟨c, hc, rfl⟩ := Option.map_eq_some_iff.mp h
  rw [decryptField, SubtleCrypto.decrypt_of_encrypt hs hc]
  split
  · rw [Option.map_some, TextEncoding.decode_encode_of_head text.head]
  · rfl

/-! ## Crypto for concrete runs -/

section Sample

/-- The first 32 bytes, filled up with zeros. -/
def to32 (b : Bytes) : Bytes := b.take 32 ++ List.replicate (32 - b.length) 0

theorem length_to32 (b : Bytes) : (to32 b).length = 32 := by
  rw [to32, List.length_append, List.length_take, List.length_replicate]
  omega

theorem to32_to32 (b : Bytes) : to32 (to32 b) = to32 b := by
  rw [to32, length_to32, List.take_of_length_le (Nat.le_of_eq (length_to32 b))]
  exact List.append_nil _

/-- An ideal scheme whose ciphertexts have room for a tag. -/
def sampleAESGCM : IdealAead.Scheme Bytes Bytes Unit Bytes Bytes where
  encrypt k n p _ := List.replicate 16 0 ++ (IdealAead.tagged 1 0).encrypt k n p []
  decrypt k n c _ :=
    if List.replicate 16 0 = c.take 16 then (IdealAead.tagged 1 0).decrypt k n (c.drop 16) []
    else none

theorem sampleAESGCM_ideal : IdealAead.Ideal sampleAESGCM where
  decrypt_eq_some k n c _ p := by
    have htagged : IdealAead.Ideal (IdealAead.tagged (1 : UInt8) 0) :=
      IdealAead.tagged_ideal (by decide)
    simp only [sampleAESGCM, Option.ite_none_right_eq_some, htagged.decrypt_eq_some]
    constructor
    · rintro ⟨hzeros, hrest⟩
      rw [← hrest, hzeros, List.take_append_drop]
    · rintro rfl
      have hlen : (List.replicate 16 (0 : UInt8)).length = 16 := List.length_replicate
      exact ⟨(List.take_left' hlen).symm, List.drop_left' hlen⟩
  encrypt_inj k n p _ k' n' p' _ h := by
    have htagged : IdealAead.Ideal (IdealAead.tagged (1 : UInt8) 0) :=
      IdealAead.tagged_ideal (by decide)
    obtain ⟨hk, hn, hp, _⟩ := htagged.encrypt_inj k n p [] k' n' p' []
      (List.append_cancel_left h)
    exact ⟨hk, hn, hp, rfl⟩

/-- Keys are their own public keys, and shared bits are sums. -/
def sampleSubtle : SubtleCrypto where
  aesGCM := sampleAESGCM
  sha256 b := 1 :: (to32 b).take 31
  publicKey := to32
  deriveBits a p := some (0 :: (List.zipWith (· + ·) (to32 a) (to32 p)).take 31)
  argon2id password salt params := some (to32 (bytesOf password ++ salt ++ [params.t.toUInt8]))

theorem sampleSubtle_ideal : sampleSubtle.Ideal where
  aesGCM := sampleAESGCM_ideal
  tag k n p := by
    show 16 ≤ (List.replicate 16 0 ++ (IdealAead.tagged 1 0).encrypt k n p []).length
    rw [List.length_append, List.length_replicate]
    omega
  length_sha256 b := by
    show ((to32 b).take 31).length + 1 = 32
    rw [List.length_take, length_to32]
    rfl
  length_publicKey k := length_to32 k
  length_deriveBits k p b h := by
    rw [← Option.some.inj h, List.length_cons, List.length_take, List.length_zipWith, length_to32,
      length_to32]
    rfl
  agree a b := by
    show some (0 :: (List.zipWith (· + ·) (to32 a) (to32 (to32 b))).take 31) =
      some (0 :: (List.zipWith (· + ·) (to32 b) (to32 (to32 a))).take 31)
    rw [to32_to32, to32_to32, List.zipWith_comm]
    simp only [UInt8.add_comm]

/-- Digests and shared bits differ. -/
theorem sampleSubtle_apart (k p b : Bytes) :
    sampleSubtle.deriveBits k p ≠ some (sampleSubtle.sha256 b) := by
  intro h
  have hhead := List.head_eq_of_cons_eq (Option.some.inj h)
  exact absurd hhead (by decide)

end Sample

end IronStock

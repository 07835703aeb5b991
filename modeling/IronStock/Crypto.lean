import Mathlib.Data.List.Basic

/-!
# Envelope encryption

The blob format, the associated data and the sealing of `internal/crypto`.
AES-256-GCM and HMAC-SHA256 themselves are parameters of the server.
-/
namespace IronStock

abbrev Bytes := List UInt8

/-- `[]byte(s)`. -/
def bytesOf (s : String) : Bytes := s.toByteArray.data.toList

def aesGcmNonceLen : Nat := 12
def keyLength : Nat := 32
def headerLen : Nat := 2
def searchHashLen : Nat := 16

/-- A value of a column with the check `octet_length(nonce) = 12`. -/
structure Nonce where
  bytes : Bytes
  length_bytes : bytes.length = aesGcmNonceLen
deriving DecidableEq

def Nonce.ofBytes (b : Bytes) : Option Nonce :=
  if h : b.length = aesGcmNonceLen then some ⟨b, h⟩ else none

@[simp] theorem Nonce.ofBytes_bytes (n : Nonce) : Nonce.ofBytes n.bytes = some n := by
  simp [Nonce.ofBytes, n.length_bytes]

/-- An AEAD under one key, `cipher.AEAD`. -/
structure Aead where
  encrypt : (nonce plaintext aad : Bytes) → Bytes
  decrypt : (nonce body aad : Bytes) → Option Bytes

structure Blob where
  version : UInt8
  algID : UInt8
  nonce : Bytes
  body : Bytes

def version1 : UInt8 := 1
def algAESGCM : UInt8 := 1

def pack (b : Blob) : Bytes := b.version :: b.algID :: (b.nonce ++ b.body)

def unpack (data : Bytes) (nonceLen : Nat) : Option Blob :=
  match data with
  | version :: algID :: rest =>
    if rest.length < nonceLen then none
    else if version ≠ version1 then none
    else some ⟨version, algID, rest.take nonceLen, rest.drop nonceLen⟩
  | _ => none

/-- `MakeAAD`: what binds a ciphertext to its row and column. -/
def makeAAD (table rowID column : String) : Bytes :=
  bytesOf (table ++ ":" ++ rowID ++ ":" ++ column)

/-- `Cipher.Seal` with the nonce it drew. -/
def Aead.sealBlob (c : Aead) (nonce : Nonce) (plaintext aad : Bytes) : Bytes :=
  pack ⟨version1, algAESGCM, nonce.bytes, c.encrypt nonce.bytes plaintext aad⟩

/-- `Cipher.Open`. -/
def Aead.openBlob (c : Aead) (blob aad : Bytes) : Option Bytes :=
  match unpack blob aesGcmNonceLen with
  | none => none
  | some b => if b.algID ≠ algAESGCM then none else c.decrypt b.nonce b.body aad

/-- The nonce a handler stores beside a blob. -/
def extractNonce (blob : Bytes) : Option Nonce :=
  if blob.length < headerLen + aesGcmNonceLen then none
  else Nonce.ofBytes ((blob.drop headerLen).take aesGcmNonceLen)

@[simp] theorem extractNonce_sealBlob (c : Aead) (n : Nonce) (p aad : Bytes) :
    extractNonce (c.sealBlob n p aad) = some n := by
  have hlen : n.bytes.length = aesGcmNonceLen := n.length_bytes
  have hge : ¬ (c.sealBlob n p aad).length < headerLen + aesGcmNonceLen := by
    simp only [Aead.sealBlob, pack, List.length_cons, List.length_append, hlen, headerLen]
    omega
  have htake : ((c.sealBlob n p aad).drop headerLen).take aesGcmNonceLen = n.bytes := by
    simp only [Aead.sealBlob, pack, headerLen, List.drop_succ_cons, List.drop_zero]
    rw [← hlen, List.take_left]
  rw [extractNonce, if_neg hge, htake, Nonce.ofBytes_bytes]

theorem unpack_pack {b : Blob} (hv : b.version = version1) :
    unpack (pack b) b.nonce.length = some b := by
  have hge : ¬ (b.nonce ++ b.body).length < b.nonce.length := by
    rw [List.length_append]
    omega
  simp only [unpack, pack, if_neg hge, hv, ne_eq, not_true_eq_false, if_false,
    List.take_left, List.drop_left]
  rw [← hv]

/-- Opening what was sealed is decrypting under the opener's key. -/
@[simp] theorem openBlob_sealBlob (c d : Aead) (n : Nonce) (p aad aad' : Bytes) :
    d.openBlob (c.sealBlob n p aad) aad' = d.decrypt n.bytes (c.encrypt n.bytes p aad) aad' := by
  have hun := unpack_pack (b := ⟨version1, algAESGCM, n.bytes, c.encrypt n.bytes p aad⟩) rfl
  rw [n.length_bytes] at hun
  rw [Aead.openBlob, Aead.sealBlob, hun]
  rfl

end IronStock

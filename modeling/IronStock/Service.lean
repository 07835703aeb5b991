import IronStock.Database
import IronStock.Jwt
import IronStock.Passwords

/-!
# The server's service value

`auth.Service`: the master cipher, the search key, and the library functions
the handlers call. The library functions are fields, so every result holds for
any implementation of them.
-/
namespace IronStock

/-- `vault.ExternalSourceVault`. -/
structure ExternalSourceVault where
  type : String
  mount : String
  path : String
  kvVersion : Int
  keyMapping : List (String × String)
  dynamic : Bool
  ttl : String
deriving DecidableEq

structure Service where
  /-- AES-256-GCM under a key -/
  aes : Bytes → Aead
  /-- the key of `Service.Master` -/
  masterKey : Bytes
  searchKey : Bytes
  jwt : JWTSigner
  passwords : PasswordHasher
  hmacSha256 : (key message : Bytes) → Bytes
  sha256 : Bytes → Digest
  /-- `totp.ValidateCustom` with the raw secret -/
  validateTOTP : Time → (secret : Bytes) → (code : String) → Bool
  /-- the address and the base32 text `totp.Generate` makes of an account name
  and a secret -/
  enrollTOTP : (account : String) → (secret : Bytes) → Option (String × String)
  /-- `base64.RawURLEncoding.DecodeString` -/
  decodeBase64URL : String → Option Bytes
  /-- `clientcert.ValidateCertForUser` on a fingerprint -/
  clientCertTrusted : Time → String → Uuid → Bool
  /-- `geoip.CheckIP` on an address and a user's restrictions: the reason of a
  refusal -/
  deniedIP : String → User → Option String
  /-- `strings.ToLower` -/
  toLower : String → String
  /-- the input function of `timestamptz` -/
  castTimestamptz : String → Option Time
  /-- `timestamptz::text` -/
  timestampText : Time → String
  /-- the input function of `jsonb` together with the CHECK that the value is
  an object with a key `type` -/
  isTypedObject : String → Bool
  /-- `json.Unmarshal` into an `ExternalSourceVault` -/
  unmarshalSource : String → Option ExternalSourceVault

def Service.master (svc : Service) : Aead := svc.aes svc.masterKey

/-- `crypto.NewCipher`. -/
def Service.newCipher (svc : Service) (key : Bytes) : Option Aead :=
  if key.length = keyLength then some (svc.aes key) else none

/-- `crypto.SearchHash`. -/
def Service.searchHash (svc : Service) (value : String) : Option Bytes :=
  if svc.searchKey.length = keyLength then
    some ((svc.hmacSha256 svc.searchKey (bytesOf (svc.toLower value))).take searchHashLen)
  else none

/-- A cipher that only checks its associated data, for concrete runs: it opens
what it sealed and nothing sealed for another row. -/
def checkingAead : Aead where
  encrypt _ plaintext aad := UInt8.ofNat aad.length :: (aad ++ plaintext)
  decrypt _ body aad :=
    match body with
    | [] => none
    | n :: rest =>
      if n = UInt8.ofNat aad.length ∧ rest.take aad.length = aad then some (rest.drop aad.length)
      else none

/-- A service value for concrete runs. -/
def sampleService : Service where
  aes _ := checkingAead
  masterKey := List.replicate keyLength 1
  searchKey := List.replicate keyLength 2
  jwt := sampleSigner []
  passwords := samplePasswordHasher
  hmacSha256 _ message := message ++ List.replicate 32 0
  sha256 message := ⟨(message ++ List.replicate 32 0).take 32, by simp⟩
  validateTOTP _ _ _ := false
  enrollTOTP account _ := some ("otpauth://totp/Envanter:" ++ account, "")
  decodeBase64URL _ := none
  clientCertTrusted _ _ _ := true
  deniedIP _ _ := none
  toLower s := String.ofList (s.toList.map Char.toLower)
  castTimestamptz _ := none
  timestampText _ := "2026-01-01 00:00:00+00"
  isTypedObject _ := true
  unmarshalSource _ := none

def sampleNonce : Nonce := ⟨List.replicate aesGcmNonceLen 0, rfl⟩

/-- A user for concrete states. -/
def sampleUser (id : Nat) (username : String) : User where
  id := Uuid.ofNat id
  username := username
  email := username ++ "@bootstrap.local"
  passwordHash := []
  argon2Params := "{}"

/-- A root folder for concrete states. -/
def sampleFolder (id createdBy : Nat) : Folder where
  id := Uuid.ofNat id
  parentId := none
  nameEnc := []
  nameNonce := sampleNonce
  nameSearch := []
  position := 0
  createdBy := Uuid.ofNat createdBy
  createdAt := 0
  updatedAt := 0
  noSelfParent := nofun

/-- An item for concrete states. -/
def sampleItem (id folder createdBy : Nat) : Item where
  id := Uuid.ofNat id
  folderId := Uuid.ofNat folder
  itemTypeId := 1
  nameEnc := []
  nameNonce := sampleNonce
  nameSearch := []
  namePlain := none
  serverDekWrapped := []
  description := none
  externalSource := none
  createdBy := Uuid.ofNat createdBy
  createdAt := 0
  updatedAt := 0
  expiresAt := none
  rotationIntervalDays := none
  lastRotatedAt := none
  requiresApproval := false
  rotationPos := rfl

end IronStock

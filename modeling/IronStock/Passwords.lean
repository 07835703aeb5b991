import IronStock.Crypto

/-!
# Passwords and recovery codes

`crypto/argon2.go`, `auth/password.go` and `auth/recovery.go` over the
Argon2id function of the crypto library.
-/
namespace IronStock

structure Argon2Params where
  timeCost : UInt32
  memoryCost : UInt32
  parallelism : UInt8
  saltLength : UInt32
  keyLength : UInt32
deriving DecidableEq

def defaultArgon2Params : Argon2Params := ⟨3, 64 * 1024, 4, 16, 32⟩

/-- `Validate` returns no error. The product with the lane count is a `uint32`
one. -/
def Argon2Params.valid (p : Argon2Params) : Bool :=
  p.timeCost ≠ 0 && 8 * p.parallelism.toUInt32 ≤ p.memoryCost && p.parallelism ≠ 0 &&
    8 ≤ p.saltLength && 16 ≤ p.keyLength

/-- The functions passwords are kept with. -/
structure PasswordHasher where
  /-- `argon2.IDKey` -/
  idKey : (password salt : Bytes) → Argon2Params → Bytes
  /-- the parameters in an `argon2_params` value -/
  unmarshalParams : String → Option Argon2Params
  /-- the salt in an `argon2_params` value -/
  extractSalt : String → Option Bytes
  /-- an `argon2_params` value with these parameters and this salt -/
  paramsWithSalt : Argon2Params → Bytes → String

namespace PasswordHasher

variable (hasher : PasswordHasher)

/-- `crypto.VerifyPassword`. -/
def verify (password : String) (hash salt : Bytes) (params : Argon2Params) : Bool :=
  if hash.length = 0 ∨ salt.length = 0 then false
  else if ¬ params.valid then false
  else hasher.idKey (bytesOf password) salt params = hash

/-- `auth.VerifyPassword`; nothing when the parameters cannot be read. -/
def verifyPassword (candidate : String) (hash salt : Bytes) (paramsJSON : String) : Option Bool :=
  (hasher.unmarshalParams paramsJSON).map (hasher.verify candidate hash salt)

/-- `auth.HashPassword` with the salt it drew: the hash and `argon2_params` as
they are stored. -/
def hashPassword (password : String) (salt : Bytes) : Bytes × String :=
  (hasher.idKey (bytesOf password) salt defaultArgon2Params,
    hasher.paramsWithSalt defaultArgon2Params salt)

/-- One code of `auth.GenerateRecoveryCodes`: salt, then hash. -/
def hashRecoveryCode (code : String) (salt : Bytes) : Bytes :=
  salt ++ hasher.idKey (bytesOf code) salt defaultArgon2Params

def verifyRecoveryCode (code : String) (blob : Bytes) : Bool :=
  if blob.length ≤ 16 then false
  else hasher.verify code (blob.drop 16) (blob.take 16) defaultArgon2Params

end PasswordHasher

/-- A hasher for concrete runs: every value is the salt itself. -/
def samplePasswordHasher : PasswordHasher where
  idKey password salt _ := password ++ salt
  unmarshalParams _ := some defaultArgon2Params
  extractSalt _ := some (List.replicate 16 0)
  paramsWithSalt _ _ := "{}"

end IronStock

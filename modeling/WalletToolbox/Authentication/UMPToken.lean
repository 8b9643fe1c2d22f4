import Mathlib.Logic.Basic

/-! The token of the User Management Protocol. It holds the root keys of an account, each
encrypted with pairs of the account's factors: a password, a presentation key and a
recovery key. Ciphers, hashes and randomness come from outside. -/

namespace WalletToolbox

abbrev Octets := List UInt8

inductive WalletManagerError where
  | error (message : String)
deriving DecidableEq, Repr

inductive KdfAlgorithm where
  | pbkdf2Sha512
  | argon2id
  | other (name : Octets)
deriving DecidableEq, Repr

structure PasswordKdf where
  algorithm : KdfAlgorithm
  iterations : Option Nat
  memoryKiB : Option Nat := none
  parallelism : Option Nat := none
  hashLength : Option Nat := none
deriving DecidableEq, Repr

def PBKDF2_NUM_ROUNDS : Nat := 7777
def ARGON2ID_DEFAULT_ITERATIONS : Nat := 7
def ARGON2ID_DEFAULT_MEMORY_KIB : Nat := 131072
def ARGON2ID_DEFAULT_PARALLELISM : Nat := 1
def ARGON2ID_DEFAULT_HASH_LENGTH : Nat := 32

/-- What the constructor makes of a `kdfConfig`. -/
def PasswordKdf.required (algorithm : Option KdfAlgorithm) (iterations memoryKiB parallelism hashLength : Option Nat) : PasswordKdf where
  algorithm := algorithm.getD .argon2id
  iterations := some (iterations.getD ARGON2ID_DEFAULT_ITERATIONS)
  memoryKiB := some (memoryKiB.getD ARGON2ID_DEFAULT_MEMORY_KIB)
  parallelism := some (parallelism.getD ARGON2ID_DEFAULT_PARALLELISM)
  hashLength := some (hashLength.getD ARGON2ID_DEFAULT_HASH_LENGTH)

structure Profile where
  name : String
  id : Octets
  primaryPad : Octets
  privilegedPad : Octets
  createdAt : Nat
deriving DecidableEq, Repr

structure UMPToken where
  passwordPresentationPrimary : Octets
  passwordRecoveryPrimary : Octets
  presentationRecoveryPrimary : Octets
  passwordPrimaryPrivileged : Octets
  presentationRecoveryPrivileged : Octets
  presentationHash : Octets
  passwordSalt : Octets
  recoveryHash : Octets
  presentationKeyEncrypted : Octets
  recoveryKeyEncrypted : Octets
  passwordKeyEncrypted : Octets
  profilesEncrypted : Option Octets
  umpVersion : Option Nat
  passwordKdf : Option PasswordKdf
  currentOutpoint : Option String
deriving DecidableEq, Repr

/-- What the wallet manager has from the language, the SDK and the hash functions. -/
structure Cryptography where
  sha256 : Octets → Octets
  /-- `new SymmetricKey(key).encrypt(plaintext)`, with the random bytes it draws. -/
  encrypt : (key plaintext random : Octets) → Octets
  /-- `new SymmetricKey(key).decrypt(ciphertext)`, unless it throws. -/
  decrypt : (key ciphertext : Octets) → Option Octets
  pbkdf2 : (password salt : Octets) → (iterations : Nat) → Octets
  argon2id : (password salt : Octets) → (iterations memorySize parallelism hashLength : Nat) → Option Octets
  /-- The number of `new PrivateKey(bytes)`, and `toArray` of a private key. -/
  privateKey : Octets → Nat
  keyBytes : Nat → Octets
  /-- Encryption with the key `admin key wrapping` of a private key. -/
  wrap : (privilegedKey : Nat) → (plaintext random : Octets) → Octets
  unwrap : (privilegedKey : Nat) → (ciphertext : Octets) → Option Octets
  /-- The bytes of `JSON.stringify(profiles)`, and the profiles such bytes spell. -/
  stringifyProfiles : List Profile → Octets
  parseProfiles : Octets → Option (List Profile)
  toLowerCase : String → String
  /-- The random bytes drawn at a time, and the seconds since the epoch. -/
  random : (draw length : Nat) → Octets
  now : (draw : Nat) → Nat

structure Cryptography.Sound (crypto : Cryptography) : Prop where
  decrypt_encrypt : ∀ key plaintext random, crypto.decrypt key (crypto.encrypt key plaintext random) = some plaintext
  authentic : ∀ key other plaintext random, key.length = 32 → other.length = 32 → other ≠ key →
    crypto.decrypt other (crypto.encrypt key plaintext random) = none
  encrypt_ne_nil : ∀ key plaintext random, crypto.encrypt key plaintext random ≠ []
  unwrap_wrap : ∀ key plaintext random, crypto.unwrap key (crypto.wrap key plaintext random) = some plaintext
  key_of_bytes : ∀ bytes, crypto.privateKey (crypto.keyBytes (crypto.privateKey bytes)) = crypto.privateKey bytes
  parse_stringify : ∀ profiles, crypto.parseProfiles (crypto.stringifyProfiles profiles) = some profiles
  random_length : ∀ draw length, (crypto.random draw length).length = length

def xorBytes (n1 n2 : Octets) : Except WalletManagerError Octets :=
  if n1.length = n2.length then .ok (List.zipWith (· ^^^ ·) n1 n2)
  else .error (.error ("XOR length mismatch: " ++ toString n1.length ++ " vs " ++ toString n2.length))

namespace Cryptography
variable (crypto : Cryptography)

def decryptOrThrow (key ciphertext : Octets) : Except WalletManagerError Octets :=
  match crypto.decrypt key ciphertext with
  | some plaintext => .ok plaintext
  | none => .error (.error "Decryption failed!")

def derivePasswordKey (passwordSalt : Octets) (passwordKdf : Option PasswordKdf) (password : Octets) : Except WalletManagerError Octets :=
  match passwordKdf with
  | none => .ok (crypto.pbkdf2 password passwordSalt PBKDF2_NUM_ROUNDS)
  | some kdf =>
    match kdf.algorithm with
    | .pbkdf2Sha512 => .ok (crypto.pbkdf2 password passwordSalt (kdf.iterations.getD PBKDF2_NUM_ROUNDS))
    | .argon2id =>
      match crypto.argon2id password passwordSalt (kdf.iterations.getD ARGON2ID_DEFAULT_ITERATIONS)
          (kdf.memoryKiB.getD ARGON2ID_DEFAULT_MEMORY_KIB) (kdf.parallelism.getD ARGON2ID_DEFAULT_PARALLELISM)
          (kdf.hashLength.getD ARGON2ID_DEFAULT_HASH_LENGTH) with
      | some key => .ok key
      | none => .error (.error "argon2id")
    | .other _ => .error (.error "Unsupported KDF algorithm")

structure RootKeys where
  primary : Octets
  privileged : Octets
deriving DecidableEq, Repr

def openPresentationPassword (token : UMPToken) (presentationKey password : Octets) : Except WalletManagerError RootKeys := do
  let passwordKey ← crypto.derivePasswordKey token.passwordSalt token.passwordKdf password
  let primary ← crypto.decryptOrThrow (← xorBytes presentationKey passwordKey) token.passwordPresentationPrimary
  let privileged ← crypto.decryptOrThrow (← xorBytes primary passwordKey) token.passwordPrimaryPrivileged
  return ⟨primary, privileged⟩

def openRecoveryPassword (token : UMPToken) (recoveryKey password : Octets) : Except WalletManagerError RootKeys := do
  let passwordKey ← crypto.derivePasswordKey token.passwordSalt token.passwordKdf password
  let primary ← crypto.decryptOrThrow (← xorBytes recoveryKey passwordKey) token.passwordRecoveryPrimary
  let privileged ← crypto.decryptOrThrow (← xorBytes primary passwordKey) token.passwordPrimaryPrivileged
  return ⟨primary, privileged⟩

def openPresentationRecovery (token : UMPToken) (presentationKey recoveryKey : Octets) : Except WalletManagerError RootKeys := do
  let key ← xorBytes presentationKey recoveryKey
  let primary ← crypto.decryptOrThrow key token.presentationRecoveryPrimary
  let privileged ← crypto.decryptOrThrow key token.presentationRecoveryPrivileged
  return ⟨primary, privileged⟩

def readProfiles (token : UMPToken) (rootPrimaryKey : Octets) : Except WalletManagerError (List Profile) :=
  match token.profilesEncrypted with
  | none | some [] => .ok []
  | some ciphertext =>
    match (crypto.decrypt rootPrimaryKey ciphertext).bind crypto.parseProfiles with
    | some profiles => .ok profiles
    | none => .error (.error "Failed to load profiles")

end Cryptography
end WalletToolbox

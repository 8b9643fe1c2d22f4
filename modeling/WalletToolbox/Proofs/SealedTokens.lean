import WalletToolbox.Authentication.CWIStyleWalletManager
import Mathlib.Logic.Equiv.List
import Mathlib.Algebra.GroupWithZero.Nat

/-! What the factors of an account open. A token seals factors when each of its
ciphertexts is an encryption of the key it is for; such a token opens with every two
current factors, and with no factor that has been replaced. -/

namespace WalletToolbox
open Effects

def xor (n1 n2 : Octets) : Octets := List.zipWith (· ^^^ ·) n1 n2

theorem xorBytes_eq (same : n1.length = n2.length) : xorBytes n1 n2 = .ok (xor n1 n2) := by
  rw [xorBytes, if_pos same]
  rfl

theorem xorBytes_ok (done : xorBytes n1 n2 = .ok bytes) : n1.length = n2.length ∧ bytes = xor n1 n2 := by
  unfold xorBytes at done
  split at done
  next same => exact ⟨same, (Except.ok.inj done).symm⟩
  next => cases done

theorem length_xor (first : n1.length = length) (second : n2.length = length) :
    (xor n1 n2).length = length := by
  rw [xor, List.length_zipWith, first, second, Nat.min_self]

theorem xor_comm (n1 n2 : Octets) : xor n1 n2 = xor n2 n1 := List.zipWith_comm_of_comm UInt8.xor_comm

theorem xor_inj (first : n1.length = key.length) (second : n2.length = key.length)
    (same : xor key n1 = xor key n2) : n1 = n2 := by
  induction key generalizing n1 n2 with
  | nil => rw [List.length_eq_zero_iff.mp first, List.length_eq_zero_iff.mp second]
  | cons byte rest ih =>
    cases n1 with
    | nil => cases first
    | cons byte1 rest1 =>
      cases n2 with
      | nil => cases second
      | cons byte2 rest2 =>
        obtain ⟨heads, tails⟩ := List.cons.inj same
        rw [ih (Nat.succ.inj first) (Nat.succ.inj second) tails]
        rw [(UInt8.xor_right_inj byte).mp heads]

def AuthFactors.key (factors : AuthFactors) : Factor → Octets
  | .passwordKey => factors.passwordKey
  | .presentationKey => factors.presentationKey
  | .recoveryKey => factors.recoveryKey

structure AuthFactors.Long (factors : AuthFactors) : Prop where
  keys : ∀ factor, (factors.key factor).length = 32
  primary : factors.rootPrimaryKey.length = 32

namespace UMPToken

structure Seals (crypto : Cryptography) (factors : AuthFactors) (token : UMPToken) : Prop where
  salt : token.passwordSalt = factors.passwordSalt
  passwordPresentation : ∃ random, token.passwordPresentationPrimary =
    crypto.encrypt (xor factors.presentationKey factors.passwordKey) factors.rootPrimaryKey random
  passwordRecovery : ∃ random, token.passwordRecoveryPrimary =
    crypto.encrypt (xor factors.recoveryKey factors.passwordKey) factors.rootPrimaryKey random
  presentationRecovery : ∃ random, token.presentationRecoveryPrimary =
    crypto.encrypt (xor factors.presentationKey factors.recoveryKey) factors.rootPrimaryKey random
  passwordPrivileged : ∃ random, token.passwordPrimaryPrivileged =
    crypto.encrypt (xor factors.rootPrimaryKey factors.passwordKey) factors.rootPrivilegedKey random
  presentationRecoveryPrivileged : ∃ random, token.presentationRecoveryPrivileged =
    crypto.encrypt (xor factors.presentationKey factors.recoveryKey) factors.rootPrivilegedKey random
  presentationHash : token.presentationHash = crypto.sha256 factors.presentationKey
  recoveryHash : token.recoveryHash = crypto.sha256 factors.recoveryKey
  wrapped : ∀ factor, ∃ random, token.wrapped factor =
    crypto.wrap (crypto.privateKey factors.rootPrivilegedKey) (factors.key factor) random
  profiles : crypto.readProfiles token factors.rootPrimaryKey = .ok factors.profiles

variable {crypto : Cryptography} {factors : AuthFactors} {token : UMPToken}

theorem Seals.published (seals : token.Seals crypto factors) (outpoint : Option String) :
    ({ token with currentOutpoint := outpoint }).Seals crypto factors where
  salt := seals.salt
  passwordPresentation := seals.passwordPresentation
  passwordRecovery := seals.passwordRecovery
  presentationRecovery := seals.presentationRecovery
  passwordPrivileged := seals.passwordPrivileged
  presentationRecoveryPrivileged := seals.presentationRecoveryPrivileged
  presentationHash := seals.presentationHash
  recoveryHash := seals.recoveryHash
  wrapped := fun factor => by
    have wraps := seals.wrapped factor
    cases factor <;> exact wraps
  profiles := seals.profiles

end UMPToken

namespace Cryptography
variable {crypto : Cryptography} {factors : AuthFactors} {token : UMPToken} {kdf : Option PasswordKdf} {draw : Nat}

theorem readProfiles_sealed (sound : crypto.Sound) {profiles key random}
    (encrypted : token.profilesEncrypted =
      if profiles = [] then none else some (crypto.encrypt key (crypto.stringifyProfiles profiles) random)) :
    crypto.readProfiles token key = .ok profiles := by
  unfold readProfiles
  rw [encrypted]
  by_cases empty : profiles = []
  · rw [if_pos empty, empty]
  · rw [if_neg empty]
    have written := sound.encrypt_ne_nil key (crypto.stringifyProfiles profiles) random
    cases ciphertext : crypto.encrypt key (crypto.stringifyProfiles profiles) random with
    | nil => exact absurd ciphertext written
    | cons first rest =>
      dsimp only
      rw [← ciphertext, sound.decrypt_encrypt, Option.bind_some, sound.parse_stringify]

/-- What `sealToken` makes. -/
theorem sealToken_seals (sound : crypto.Sound) (made : crypto.sealToken kdf factors draw = .ok token) :
    token.Seals crypto factors ∧ token.passwordKdf = kdf ∧ token.currentOutpoint = none ∧
      (factors.rootPrimaryKey.length = 32 → factors.Long) := by
  unfold sealToken at made
  obtain ⟨presentationPassword, first, made⟩ := bind_eq_ok.mp made
  obtain ⟨presentationRecovery, second, made⟩ := bind_eq_ok.mp made
  obtain ⟨recoveryPassword, third, made⟩ := bind_eq_ok.mp made
  obtain ⟨primaryPassword, fourth, made⟩ := bind_eq_ok.mp made
  obtain ⟨passwordLength, rfl⟩ := xorBytes_ok first
  obtain ⟨recoveryLength, rfl⟩ := xorBytes_ok second
  obtain ⟨-, rfl⟩ := xorBytes_ok third
  obtain ⟨primaryLength, rfl⟩ := xorBytes_ok fourth
  cases made
  refine ⟨?_, rfl, rfl, fun long => ?_⟩
  · constructor
    case wrapped =>
      intro factor
      cases factor <;> exact ⟨_, rfl⟩
    case profiles => exact readProfiles_sealed sound rfl
    all_goals first | rfl | exact ⟨_, rfl⟩
  · refine ⟨fun factor => ?_, long⟩
    cases factor
    case passwordKey => exact primaryLength.symm.trans long
    case presentationKey => exact passwordLength.trans (primaryLength.symm.trans long)
    case recoveryKey => exact recoveryLength.symm.trans (passwordLength.trans (primaryLength.symm.trans long))

theorem decryptOrThrow_encrypt (sound : crypto.Sound) (key plaintext random : Octets) :
    crypto.decryptOrThrow key (crypto.encrypt key plaintext random) = .ok plaintext := by
  rw [decryptOrThrow, sound.decrypt_encrypt]

theorem decryptOrThrow_ok (sound : crypto.Sound) {key other plaintext random text} (long : key.length = 32)
    (otherLong : other.length = 32) (decrypted : crypto.decryptOrThrow other (crypto.encrypt key plaintext random) = .ok text) :
    other = key ∧ text = plaintext := by
  by_cases same : other = key
  · rw [same, decryptOrThrow_encrypt sound] at decrypted
    exact ⟨same, (Except.ok.inj decrypted).symm⟩
  · rw [decryptOrThrow, sound.authentic key other plaintext random long otherLong same] at decrypted
    cases decrypted

theorem half_of_decrypted (sound : crypto.Sound) {known half other plaintext random text} (knownLong : known.length = 32)
    (long : half.length = 32)
    (decrypted : (xorBytes known other >>= fun key => crypto.decryptOrThrow key (crypto.encrypt (xor known half) plaintext random)) = .ok text) :
    other = half := by
  obtain ⟨key, xored, decrypts⟩ := bind_eq_ok.mp decrypted
  obtain ⟨lengths, rfl⟩ := xorBytes_ok xored
  have otherLong := lengths.symm.trans knownLong
  obtain ⟨same, -⟩ := decryptOrThrow_ok sound (length_xor knownLong long) (length_xor knownLong otherLong) decrypts
  apply xor_inj ?_ ?_ same
  · exact otherLong.trans knownLong.symm
  · exact long.trans knownLong.symm

theorem xorBytes_comm (done : xorBytes n1 n2 = .ok bytes) : xorBytes n2 n1 = .ok bytes := by
  obtain ⟨lengths, rfl⟩ := xorBytes_ok done
  rw [xorBytes_eq lengths.symm, xor_comm]

theorem first_half_of_decrypted (sound : crypto.Sound) {known half other plaintext random text} (knownLong : known.length = 32)
    (long : half.length = 32)
    (decrypted : (xorBytes other known >>= fun key => crypto.decryptOrThrow key (crypto.encrypt (xor half known) plaintext random)) = .ok text) :
    other = half := by
  obtain ⟨key, xored, decrypts⟩ := bind_eq_ok.mp decrypted
  rw [xor_comm] at decrypts
  exact half_of_decrypted sound knownLong long (bind_eq_ok.mpr ⟨key, xorBytes_comm xored, decrypts⟩)

end Cryptography

/-- The factors and keys of an account. A privileged key is its number: its bytes may lose leading zeros. -/
structure Account where
  password : Octets
  presentationKey : Octets
  recoveryKey : Octets
  rootPrimaryKey : Octets
  rootPrivilegedKey : Nat
  profiles : List Profile
deriving DecidableEq, Repr

structure UMPToken.Opens (crypto : Cryptography) (account : Account) (token : UMPToken) : Prop where
  keys : ∃ keys : Cryptography.RootKeys, keys.primary = account.rootPrimaryKey ∧
    crypto.privateKey keys.privileged = account.rootPrivilegedKey ∧
    crypto.openPresentationPassword token account.presentationKey account.password = .ok keys ∧
    crypto.openRecoveryPassword token account.recoveryKey account.password = .ok keys ∧
    crypto.openPresentationRecovery token account.presentationKey account.recoveryKey = .ok keys
  presentationHash : token.presentationHash = crypto.sha256 account.presentationKey
  recoveryHash : token.recoveryHash = crypto.sha256 account.recoveryKey
  presentationKey : crypto.unwrap account.rootPrivilegedKey token.presentationKeyEncrypted = some account.presentationKey
  recoveryKey : crypto.unwrap account.rootPrivilegedKey token.recoveryKeyEncrypted = some account.recoveryKey
  passwordKey : ∃ passwordKey, crypto.derivePasswordKey token.passwordSalt token.passwordKdf account.password = .ok passwordKey ∧
    crypto.unwrap account.rootPrivilegedKey token.passwordKeyEncrypted = some passwordKey
  profiles : crypto.readProfiles token account.rootPrimaryKey = .ok account.profiles

structure UMPToken.Locked (crypto : Cryptography) (account : Account) (token : UMPToken) : Prop where
  presentationKey : ∀ key, key ≠ account.presentationKey → ∀ keys,
    crypto.openPresentationPassword token key account.password ≠ .ok keys ∧
    crypto.openPresentationRecovery token key account.recoveryKey ≠ .ok keys
  recoveryKey : ∀ key, key ≠ account.recoveryKey → ∀ keys,
    crypto.openRecoveryPassword token key account.password ≠ .ok keys ∧
    crypto.openPresentationRecovery token account.presentationKey key ≠ .ok keys
  password : ∀ password, crypto.derivePasswordKey token.passwordSalt token.passwordKdf password ≠
      crypto.derivePasswordKey token.passwordSalt token.passwordKdf account.password → ∀ keys,
    crypto.openPresentationPassword token account.presentationKey password ≠ .ok keys ∧
    crypto.openRecoveryPassword token account.recoveryKey password ≠ .ok keys

structure Account.HasFactors (crypto : Cryptography) (account : Account) (token : UMPToken) (factors : AuthFactors) : Prop where
  long : factors.Long
  seals : token.Seals crypto factors
  passwordKey : crypto.derivePasswordKey token.passwordSalt token.passwordKdf account.password = .ok factors.passwordKey
  presentationKey : factors.presentationKey = account.presentationKey
  recoveryKey : factors.recoveryKey = account.recoveryKey
  primary : factors.rootPrimaryKey = account.rootPrimaryKey
  privileged : crypto.privateKey factors.rootPrivilegedKey = account.rootPrivilegedKey
  profiles : factors.profiles = account.profiles

namespace Account.HasFactors
variable {crypto : Cryptography} {account : Account} {token : UMPToken} {factors : AuthFactors}

theorem lengths (has : account.HasFactors crypto token factors) :
    account.presentationKey.length = 32 ∧ account.recoveryKey.length = 32 ∧ account.rootPrimaryKey.length = 32 ∧ factors.passwordKey.length = 32 :=
  ⟨has.presentationKey ▸ has.long.keys .presentationKey, has.recoveryKey ▸ has.long.keys .recoveryKey, has.primary ▸ has.long.primary,
    has.long.keys .passwordKey⟩

theorem opens (sound : crypto.Sound) (has : account.HasFactors crypto token factors) : token.Opens crypto account := by
  obtain ⟨presentation, recovery, primary, password⟩ := has.lengths
  obtain ⟨_, presentationPassword⟩ := has.presentationKey ▸ has.primary ▸ has.seals.passwordPresentation
  obtain ⟨_, recoveryPassword⟩ := has.recoveryKey ▸ has.primary ▸ has.seals.passwordRecovery
  obtain ⟨_, presentationRecovery⟩ := has.presentationKey ▸ has.recoveryKey ▸ has.primary ▸ has.seals.presentationRecovery
  obtain ⟨_, primaryPrivileged⟩ := has.primary ▸ has.seals.passwordPrivileged
  obtain ⟨_, presentationRecoveryPrivileged⟩ := has.presentationKey ▸ has.recoveryKey ▸ has.seals.presentationRecoveryPrivileged
  constructor
  case keys =>
    refine ⟨⟨account.rootPrimaryKey, factors.rootPrivilegedKey⟩, rfl, has.privileged, ?_, ?_, ?_⟩
    · rw [Cryptography.openPresentationPassword, has.passwordKey, ok_bind, xorBytes_eq (presentation.trans password.symm), ok_bind,
        presentationPassword, Cryptography.decryptOrThrow_encrypt sound, ok_bind, xorBytes_eq (primary.trans password.symm), ok_bind,
        primaryPrivileged, Cryptography.decryptOrThrow_encrypt sound]
      rfl
    · rw [Cryptography.openRecoveryPassword, has.passwordKey, ok_bind, xorBytes_eq (recovery.trans password.symm), ok_bind,
        recoveryPassword, Cryptography.decryptOrThrow_encrypt sound, ok_bind, xorBytes_eq (primary.trans password.symm), ok_bind,
        primaryPrivileged, Cryptography.decryptOrThrow_encrypt sound]
      rfl
    · rw [Cryptography.openPresentationRecovery, xorBytes_eq (presentation.trans recovery.symm), ok_bind, presentationRecovery,
        Cryptography.decryptOrThrow_encrypt sound, ok_bind, presentationRecoveryPrivileged, Cryptography.decryptOrThrow_encrypt sound]
      rfl
  case presentationHash => rw [has.seals.presentationHash, has.presentationKey]
  case recoveryHash => rw [has.seals.recoveryHash, has.recoveryKey]
  case presentationKey =>
    obtain ⟨_, wrapped⟩ := has.seals.wrapped .presentationKey
    rw [show token.presentationKeyEncrypted = _ from wrapped, has.privileged, sound.unwrap_wrap]
    exact congrArg some has.presentationKey
  case recoveryKey =>
    obtain ⟨_, wrapped⟩ := has.seals.wrapped .recoveryKey
    rw [show token.recoveryKeyEncrypted = _ from wrapped, has.privileged, sound.unwrap_wrap]
    exact congrArg some has.recoveryKey
  case passwordKey =>
    obtain ⟨_, wrapped⟩ := has.seals.wrapped .passwordKey
    refine ⟨factors.passwordKey, has.passwordKey, ?_⟩
    rw [show token.passwordKeyEncrypted = _ from wrapped, has.privileged, sound.unwrap_wrap]
    rfl
  case profiles => rw [← has.primary, has.seals.profiles, has.profiles]

theorem locked (sound : crypto.Sound) (has : account.HasFactors crypto token factors) : token.Locked crypto account := by
  obtain ⟨presentation, recovery, primary, password⟩ := has.lengths
  obtain ⟨_, presentationPassword⟩ := has.presentationKey ▸ has.seals.passwordPresentation
  obtain ⟨_, recoveryPassword⟩ := has.recoveryKey ▸ has.seals.passwordRecovery
  obtain ⟨_, presentationRecovery⟩ := has.presentationKey ▸ has.recoveryKey ▸ has.seals.presentationRecovery
  constructor
  case presentationKey =>
    refine fun key other keys => ⟨fun opened => other ?_, fun opened => other ?_⟩
    · obtain ⟨_, derived, opened⟩ := bind_eq_ok.mp opened
      cases has.passwordKey.symm.trans derived
      obtain ⟨_, xored, opened⟩ := bind_eq_ok.mp opened
      obtain ⟨_, decrypted, -⟩ := bind_eq_ok.mp opened
      rw [presentationPassword] at decrypted
      exact Cryptography.first_half_of_decrypted sound password presentation (bind_eq_ok.mpr ⟨_, xored, decrypted⟩)
    · obtain ⟨_, xored, opened⟩ := bind_eq_ok.mp opened
      obtain ⟨_, decrypted, -⟩ := bind_eq_ok.mp opened
      rw [presentationRecovery] at decrypted
      exact Cryptography.first_half_of_decrypted sound recovery presentation (bind_eq_ok.mpr ⟨_, xored, decrypted⟩)
  case recoveryKey =>
    refine fun key other keys => ⟨fun opened => other ?_, fun opened => other ?_⟩
    · obtain ⟨_, derived, opened⟩ := bind_eq_ok.mp opened
      cases has.passwordKey.symm.trans derived
      obtain ⟨_, xored, opened⟩ := bind_eq_ok.mp opened
      obtain ⟨_, decrypted, -⟩ := bind_eq_ok.mp opened
      rw [recoveryPassword] at decrypted
      exact Cryptography.first_half_of_decrypted sound password recovery (bind_eq_ok.mpr ⟨_, xored, decrypted⟩)
    · obtain ⟨_, xored, opened⟩ := bind_eq_ok.mp opened
      obtain ⟨_, decrypted, -⟩ := bind_eq_ok.mp opened
      rw [presentationRecovery] at decrypted
      exact Cryptography.half_of_decrypted sound presentation recovery (bind_eq_ok.mpr ⟨_, xored, decrypted⟩)
  case password =>
    refine fun other another keys => ⟨fun opened => another ?_, fun opened => another ?_⟩
    · obtain ⟨_, derived, opened⟩ := bind_eq_ok.mp opened
      obtain ⟨_, xored, opened⟩ := bind_eq_ok.mp opened
      obtain ⟨_, decrypted, -⟩ := bind_eq_ok.mp opened
      rw [presentationPassword] at decrypted
      rw [derived, has.passwordKey, Cryptography.half_of_decrypted sound presentation password (bind_eq_ok.mpr ⟨_, xored, decrypted⟩)]
    · obtain ⟨_, derived, opened⟩ := bind_eq_ok.mp opened
      obtain ⟨_, xored, opened⟩ := bind_eq_ok.mp opened
      obtain ⟨_, decrypted, -⟩ := bind_eq_ok.mp opened
      rw [recoveryPassword] at decrypted
      rw [derived, has.passwordKey, Cryptography.half_of_decrypted sound recovery password (bind_eq_ok.mpr ⟨_, xored, decrypted⟩)]

end Account.HasFactors
/-! ### Sound ciphers

Transparent ones, for runs on fixed inputs. -/

def bigEndian : Nat → Nat → Octets
  | 0, _ => []
  | length + 1, number => bigEndian length (number / 256) ++ [UInt8.ofNat (number % 256)]

def fromBigEndian (bytes : Octets) : Nat := bytes.foldl (fun number byte => number * 256 + byte.toNat) 0

theorem fromBigEndian_bigEndian (length number : Nat) : fromBigEndian (bigEndian length number) = number % 256 ^ length := by
  induction length generalizing number with
  | zero => exact (Nat.mod_one number).symm
  | succ length ih =>
    have last : (UInt8.ofNat (number % 256)).toNat = number % 256 := by
      rw [UInt8.toNat_ofNat', Nat.mod_mod_of_dvd _ (Nat.dvd_refl 256)]
    have split := Nat.mod_mul (x := number) (a := 256) (b := 256 ^ length)
    unfold fromBigEndian at ih ⊢
    rw [bigEndian, List.foldl_append, ih]
    simp only [List.foldl_cons, List.foldl_nil]
    rw [last, Nat.pow_succ']
    omega

/-- A profile as lists of numbers. -/
instance : Encodable Profile := Encodable.ofLeftInverse
  (fun profile => (profile.name.toList.map Char.toNat, profile.id.map UInt8.toNat, profile.primaryPad.map UInt8.toNat,
    profile.privilegedPad.map UInt8.toNat, profile.createdAt))
  (fun (name, id, primaryPad, privilegedPad, createdAt) =>
    ⟨String.ofList (name.map Char.ofNat), id.map UInt8.ofNat, primaryPad.map UInt8.ofNat, privilegedPad.map UInt8.ofNat, createdAt⟩)
  (fun profile => by
    have bytes : ∀ octets : Octets, (octets.map UInt8.toNat).map UInt8.ofNat = octets := by
      intro octets
      rw [List.map_map]
      exact (List.map_congr_left fun byte _ => UInt8.ofNat_toNat).trans (List.map_id octets)
    have name : (profile.name.toList.map Char.toNat).map Char.ofNat = profile.name.toList := by
      rw [List.map_map]
      exact (List.map_congr_left fun char _ => Char.ofNat_toNat char).trans (List.map_id _)
    simp only [bytes, name, String.ofList_toList])

def sealWith (key text : Octets) : Octets := 1 :: (key ++ text)

def unsealWith (key ciphertext : Octets) : Option Octets :=
  if key.isPrefixOf ciphertext.tail = true then some (ciphertext.tail.drop key.length) else none

theorem unsealWith_sealWith (key text : Octets) : unsealWith key (sealWith key text) = some text := by
  rw [unsealWith, sealWith, List.tail_cons, if_pos (List.isPrefixOf_iff_prefix.mpr (List.prefix_append key text)), List.drop_left]

theorem unsealWith_other (text : Octets) (lengths : other.length = key.length) (different : other ≠ key) :
    unsealWith other (sealWith key text) = none := by
  rw [unsealWith, sealWith, List.tail_cons]
  apply if_neg
  intro isPrefix
  have start := List.prefix_iff_eq_take.mp (List.isPrefixOf_iff_prefix.mp isPrefix)
  rw [lengths, List.take_left] at start
  exact different start

def transparent : Cryptography where
  sha256 bytes := bytes
  encrypt key plaintext _ := sealWith key plaintext
  decrypt key ciphertext := unsealWith key ciphertext
  pbkdf2 password salt iterations := (UInt8.ofNat iterations :: (password ++ salt ++ List.replicate 32 0)).take 32
  argon2id password salt iterations _ _ hashLength :=
    some ((UInt8.ofNat iterations :: (password ++ salt ++ List.replicate hashLength 0)).take hashLength)
  privateKey bytes := fromBigEndian bytes % 256 ^ 32
  keyBytes number := bigEndian 32 number
  wrap privilegedKey plaintext _ := sealWith (bigEndian 32 privilegedKey) plaintext
  unwrap privilegedKey ciphertext := unsealWith (bigEndian 32 privilegedKey) ciphertext
  stringifyProfiles profiles := List.replicate (Encodable.encode profiles) 1
  parseProfiles bytes := Encodable.decode bytes.length
  toLowerCase text := String.ofList (text.toList.map Char.toLower)
  random draw length := List.replicate length (UInt8.ofNat (draw + 1))
  now _ := 0

theorem transparent_keys (bytes : Octets) :
    transparent.privateKey (transparent.keyBytes (transparent.privateKey bytes)) = transparent.privateKey bytes := by
  simp only [transparent, fromBigEndian_bigEndian, Nat.mod_mod]

theorem transparent_unwraps (key : Nat) (plaintext random : Octets) :
    transparent.unwrap key (transparent.wrap key plaintext random) = some plaintext := by
  simp only [transparent, unsealWith_sealWith]

theorem transparent_sound : transparent.Sound where
  decrypt_encrypt key plaintext _ := unsealWith_sealWith key plaintext
  authentic _ _ plaintext _ long otherLong different := unsealWith_other plaintext (otherLong.trans long.symm) different
  encrypt_ne_nil _ _ _ := List.cons_ne_nil _ _
  unwrap_wrap key plaintext random := transparent_unwraps key plaintext random
  key_of_bytes bytes := transparent_keys bytes
  parse_stringify profiles := by
    have length : (List.replicate (Encodable.encode profiles) (1 : UInt8)).length = _ := List.length_replicate
    exact (congrArg Encodable.decode length).trans (Encodable.encodek profiles)
  random_length _ _ := List.length_replicate

end WalletToolbox

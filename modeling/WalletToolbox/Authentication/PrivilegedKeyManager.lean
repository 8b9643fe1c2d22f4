import WalletToolbox.Authentication.CWIStyleWalletManager
import Mathlib.Data.Nat.Digits.Defs

/-! `PrivilegedKeyManager`, and the managers that `switchProfile` makes: one for the root
privileged key of an account, and for each wallet it has built one whose key getter asks
the root manager and applies the pad of the profile. -/

namespace WalletToolbox
open Async Effects

def CURVE_ORDER : Nat := 0xFFFFFFFFFFFFFFFFFFFFFFFFFFFFFFFEBAAEDCE6AF48A03BBFD25E8CD0364141

structure PrivateKey where
  number : Nat
  inField : number < CURVE_ORDER
deriving DecidableEq

namespace PrivateKey

def spelled (bytes : Octets) : Nat := Nat.ofDigits 256 (bytes.reverse.map UInt8.toNat)

def ofBytes (bytes : Octets) : PrivateKey := ⟨spelled bytes % CURVE_ORDER, Nat.mod_lt _ (by decide)⟩

def toArray (key : PrivateKey) : Octets :=
  if key.number = 0 then [0] else ((Nat.digits 256 key.number).map UInt8.ofNat).reverse

end PrivateKey

def Cryptography.withPrivateKeys (crypto : Cryptography) : Cryptography :=
  { crypto with
    privateKey := fun bytes => (PrivateKey.ofBytes bytes).number
    keyBytes := fun number => (PrivateKey.mk (number % CURVE_ORDER) (Nat.mod_lt _ (by decide))).toArray }

inductive PrivilegedKeyError where
  | keyGetter (message : String)
  | thrown (error : WalletManagerError)
deriving DecidableEq, Repr

/-- The random property names and bytes of a manager, each by how much was drawn before.
No two names of one key are the same. -/
structure PropRandomness where
  propName : Nat → String
  random : (draw length : Nat) → Octets
  random_length : ∀ draw length, (random draw length).length = length
  apart : ∀ draw first second, first < second → second < 10 → propName (draw + first) ≠ propName (draw + second)

/-- What a manager has in memory. The timer that destroys the key may go off at any time. -/
structure PrivilegedKeyManager where
  chunkPropNames : List String := []
  chunkPadPropNames : List String := []
  decoyPropNamesDestroy : List String := []
  decoyPropNamesRemain : List String := []
  props : String → Option Octets := fun _ => none
  draws : Nat := 0

namespace PrivilegedKeyManager

def CHUNK_COUNT : Nat := 4

def xorChunk (a b : Octets) : Octets := a.mapIdx fun index byte => byte ^^^ b.getD index 0

def deleteProps (names : List String) (props : String → Option Octets) : String → Option Octets :=
  fun name => if name ∈ names then none else props name

def destroyKey (manager : PrivilegedKeyManager) : PrivilegedKeyManager where
  decoyPropNamesRemain := manager.decoyPropNamesRemain
  props := deleteProps (manager.chunkPropNames ++ manager.chunkPadPropNames ++ manager.decoyPropNamesDestroy) manager.props
  draws := manager.draws

def chunksFrom (chunkSize : Nat) : Nat → Octets → List Octets
  | 0, _ => []
  | 1, bytes => [bytes]
  | count + 1, bytes => bytes.take chunkSize :: chunksFrom chunkSize count (bytes.drop chunkSize)

def splitKeyIntoChunks (keyBytes : Octets) : List Octets := chunksFrom (keyBytes.length / CHUNK_COUNT) CHUNK_COUNT keyBytes

def rawChunk (props : String → Option Octets) (names : String × String) : Option Octets := do
  let chunkEnc ← props names.1
  let chunkPad ← props names.2
  if chunkEnc.length ≠ chunkPad.length then none else some (xorChunk chunkEnc chunkPad)

def reassembleKeyFromChunks (manager : PrivilegedKeyManager) : Option Octets :=
  if manager.chunkPadPropNames.length < manager.chunkPropNames.length then none
  else do
    let chunkArrays ← (manager.chunkPropNames.zip manager.chunkPadPropNames).mapM (rawChunk manager.props)
    if (chunkArrays.map List.length).sum ≠ 32 then none else some chunkArrays.flatten

def get32ByteRepresentation (privKey : PrivateKey) : Except WalletManagerError Octets :=
  let buf := privKey.toArray
  if 32 < buf.length then .error (.error "PrivilegedKeyManager: Expected a 32-byte key, but got more.")
  else .ok (List.replicate (32 - buf.length) 0 ++ buf)

/-- The key in memory, where there is one. -/
def retainedKey (manager : PrivilegedKeyManager) : Option PrivateKey :=
  if 0 < manager.chunkPropNames.length ∧ 0 < manager.chunkPadPropNames.length then
    manager.reassembleKeyFromChunks.map PrivateKey.ofBytes
  else none

section
variable (source : PropRandomness)

def setProp (manager : PrivilegedKeyManager) (name : String) (bytes : Octets) : PrivilegedKeyManager :=
  { manager with props := Function.update manager.props name (some bytes) }

def addRemainingDecoy (manager : PrivilegedKeyManager) : PrivilegedKeyManager :=
  let propName := source.propName manager.draws
  let named := { manager with
    decoyPropNamesRemain := manager.decoyPropNamesRemain ++ [propName]
    draws := manager.draws + 1 }
  named.setProp propName (source.random manager.draws 16)

def construct : PrivilegedKeyManager := (addRemainingDecoy source {}).addRemainingDecoy source

def storeChunk (manager : PrivilegedKeyManager) (chunk : Octets) : PrivilegedKeyManager :=
  let chunkProp := source.propName manager.draws
  let padProp := source.propName (manager.draws + 1)
  let pad := source.random manager.draws chunk.length
  let named := { manager with
    chunkPropNames := manager.chunkPropNames ++ [chunkProp]
    chunkPadPropNames := manager.chunkPadPropNames ++ [padProp]
    draws := manager.draws + 2 }
  (named.setProp chunkProp (xorChunk chunk pad)).setProp padProp pad

def storeDecoy (manager : PrivilegedKeyManager) : PrivilegedKeyManager :=
  let decoyProp := source.propName manager.draws
  let named := { manager with
    decoyPropNamesDestroy := manager.decoyPropNamesDestroy ++ [decoyProp]
    draws := manager.draws + 1 }
  named.setProp decoyProp (source.random manager.draws 32)

def storeKey (keyBytes : Octets) (manager : PrivilegedKeyManager) : PrivilegedKeyManager :=
  (((splitKeyIntoChunks keyBytes).foldl (storeChunk source) manager.destroyKey).storeDecoy source).storeDecoy source

end
end PrivilegedKeyManager

structure FetchRootKey where
  reason : String
deriving DecidableEq

abbrev rootKeyFetches : Interface := ⟨FetchRootKey, fun _ => Except String PrivateKey⟩

abbrev AccountKeyManagers (κ : Type) := Option κ → PrivilegedKeyManager

abbrev keyManagers (κ : Type) : Interface := sections PrivilegedKeyError (AccountKeyManagers κ) rootKeyFetches

abbrev KeyM (κ : Type) := Program (keyManagers κ) PrivilegedKeyError

namespace AccountKeyManagers
variable {κ : Type} [DecidableEq κ] (source : PropRandomness)

def throwing {α : Type} (result : Except WalletManagerError α) : KeyM κ α := .ofExcept (result.mapError .thrown)

def modify (manager : Option κ) (change : PrivilegedKeyManager → PrivilegedKeyManager) : KeyM κ Unit := do
  let _ ← Program.enter (Fallible.change fun managers => Function.update managers manager (change (managers manager)))

def getPrivilegedKey (manager : Option κ) (keyGetter : KeyM κ PrivateKey) : KeyM κ PrivateKey := do
  let managers ← Program.enter (pure ())
  match (managers manager).retainedKey with
  | some key => return key
  | none =>
    let fetchedKey ← keyGetter
    let keyBytes ← throwing (PrivilegedKeyManager.get32ByteRepresentation fetchedKey)
    modify manager (PrivilegedKeyManager.storeKey source keyBytes)
    return fetchedKey

def fetchRootKey (reason : String) : KeyM κ PrivateKey :=
  .await (.outside (FetchRootKey.mk reason)) fun fetched => .ofExcept (fetched.mapError .keyGetter)

def getRootPrivilegedKey (reason : String) : KeyM κ PrivateKey := getPrivilegedKey source none (fetchRootKey reason)

def profileKeyGetter (profilePrivilegedPad : Option Octets) (reason : String) : KeyM κ PrivateKey := do
  let rootPrivileged ← getRootPrivilegedKey source reason
  let rootPrivilegedBytes := rootPrivileged.toArray
  let profilePrivilegedBytes ← throwing (match profilePrivilegedPad with
    | none => .ok rootPrivilegedBytes
    | some pad => xorBytes rootPrivilegedBytes pad)
  return PrivateKey.ofBytes profilePrivilegedBytes

inductive KeyCall (κ : Type) where
  | getPrivilegedKey (manager : Option κ) (reason : String)
  | destroyKey (manager : Option κ)

def KeyCall.program (built : κ → ProfileWallet) : KeyCall κ → KeyM κ (Option PrivateKey)
  | .getPrivilegedKey none reason => some <$> AccountKeyManagers.getRootPrivilegedKey source reason
  | .getPrivilegedKey (some wallet) reason =>
    some <$> AccountKeyManagers.getPrivilegedKey source (some wallet) (profileKeyGetter source (built wallet).profilePrivilegedPad reason)
  | .destroyKey manager => do
    modify manager PrivilegedKeyManager.destroyKey
    return none

end AccountKeyManagers
end WalletToolbox

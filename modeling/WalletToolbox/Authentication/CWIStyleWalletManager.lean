import WalletToolbox.Async.Sections
import WalletToolbox.Authentication.UMPToken

/-! The methods of `CWIStyleWalletManager`: logging in, the profiles of an account and the
changes of its factors. What a method does to the fields between two awaits is a section;
where the source does more than one thing between two awaits, it may be cut into several. -/

namespace WalletToolbox
open Async Effects

def DEFAULT_PROFILE_ID : Octets := List.replicate 16 0

inductive AuthenticationMode where
  | presentationKeyAndPassword
  | presentationKeyAndRecoveryKey
  | recoveryKeyAndPassword
deriving DecidableEq, Repr

inductive AuthenticationFlow where
  | newUser | existingUser
deriving DecidableEq, Repr

structure RootPrivilegedKeyManager where
  number : Nat
  oneTimePrivilegedKey : Option Nat
  retained : Option Nat
deriving DecidableEq, Repr

structure ProfileWallet where
  profilePrimaryKey : Octets
  profilePrivilegedPad : Option Octets
  profileId : Octets
deriving DecidableEq, Repr

structure CWIStyleWalletManager where
  authenticated : Bool := false
  authenticationMode : AuthenticationMode := .presentationKeyAndPassword
  authenticationFlow : AuthenticationFlow := .newUser
  currentUMPToken : Option UMPToken := none
  presentationKey : Option Octets := none
  recoveryKey : Option Octets := none
  rootPrimaryKey : Option Octets := none
  activeProfileId : Octets := DEFAULT_PROFILE_ID
  profiles : List Profile := []
  underlying : Option ProfileWallet := none
  rootPrivilegedKeyManager : Option RootPrivilegedKeyManager := none
  /-- How many managers have been made, and how often random bytes have been drawn. -/
  managers : Nat := 0
  draws : Nat := 0
deriving DecidableEq, Repr

structure WalletManagerConfig where
  crypto : Cryptography
  adminOriginator : String
  kdfConfig : PasswordKdf
  hasNewWalletFunder : Bool

inductive WalletManagerOp where
  | findByPresentationKeyHash (hash : Octets)
  | findByRecoveryKeyHash (hash : Octets)
  | buildAndSend (wallet : ProfileWallet) (token : UMPToken) (oldTokenToConsume : Option UMPToken)
  | passwordRetriever (reason : String)
  | recoveryKeySaver (key : Octets)
  | newWalletFunder (presentationKey : Option Octets) (wallet : ProfileWallet)
  | walletBuilder (wallet : ProfileWallet)
  /-- Whether the retention period of a privileged key is not over. -/
  | keyRetained
  | walletCall (wallet : ProfileWallet)

@[reducible] def WalletManagerOp.Reply : WalletManagerOp → Type
  | .passwordRetriever _ => Except WalletManagerError Octets
  | .findByPresentationKeyHash _ | .findByRecoveryKeyHash _ => Except WalletManagerError (Option UMPToken)
  | .buildAndSend _ _ _ => Except WalletManagerError String
  | .recoveryKeySaver _ | .newWalletFunder _ _ | .walletBuilder _ | .walletCall _ => Except WalletManagerError Unit
  | .keyRetained => Bool

abbrev outsideManager : Interface := ⟨WalletManagerOp, WalletManagerOp.Reply⟩

abbrev walletManager : Interface := sections WalletManagerError CWIStyleWalletManager outsideManager

abbrev WalletManagerM := Program walletManager WalletManagerError

abbrev SectionM := Fallible WalletManagerError CWIStyleWalletManager

abbrev WalletManagerOp.await (op : WalletManagerOp) : WalletManagerM op.Reply := .await (.outside op) .done

inductive Factor where
  | passwordKey | presentationKey | recoveryKey
deriving DecidableEq, Repr

def Factor.text : Factor → String
  | .passwordKey => "passwordKey"
  | .presentationKey => "presentationKey"
  | .recoveryKey => "recoveryKey"

def UMPToken.wrapped (token : UMPToken) : Factor → Octets
  | .passwordKey => token.passwordKeyEncrypted
  | .presentationKey => token.presentationKeyEncrypted
  | .recoveryKey => token.recoveryKeyEncrypted

structure AuthFactors where
  passwordSalt : Octets
  passwordKey : Octets
  presentationKey : Octets
  recoveryKey : Octets
  rootPrimaryKey : Octets
  rootPrivilegedKey : Octets
  profiles : List Profile
deriving DecidableEq, Repr

namespace Cryptography
variable (crypto : Cryptography)

def sealToken (passwordKdf : Option PasswordKdf) (factors : AuthFactors) (draw : Nat) : Except WalletManagerError UMPToken := do
  let presentationPassword ← xorBytes factors.presentationKey factors.passwordKey
  let presentationRecovery ← xorBytes factors.presentationKey factors.recoveryKey
  let recoveryPassword ← xorBytes factors.recoveryKey factors.passwordKey
  let primaryPassword ← xorBytes factors.rootPrimaryKey factors.passwordKey
  let encrypt (key plaintext : Octets) (index : Nat) : Octets := crypto.encrypt key plaintext (crypto.random (draw + index) 32)
  let wrap (plaintext : Octets) (index : Nat) : Octets :=
    crypto.wrap (crypto.privateKey factors.rootPrivilegedKey) plaintext (crypto.random (draw + index) 32)
  return {
    passwordSalt := factors.passwordSalt
    passwordPresentationPrimary := encrypt presentationPassword factors.rootPrimaryKey 0
    passwordRecoveryPrimary := encrypt recoveryPassword factors.rootPrimaryKey 1
    presentationRecoveryPrimary := encrypt presentationRecovery factors.rootPrimaryKey 2
    passwordPrimaryPrivileged := encrypt primaryPassword factors.rootPrivilegedKey 3
    presentationRecoveryPrivileged := encrypt presentationRecovery factors.rootPrivilegedKey 4
    presentationHash := crypto.sha256 factors.presentationKey
    recoveryHash := crypto.sha256 factors.recoveryKey
    presentationKeyEncrypted := wrap factors.presentationKey 5
    passwordKeyEncrypted := wrap factors.passwordKey 6
    recoveryKeyEncrypted := wrap factors.recoveryKey 7
    profilesEncrypted :=
      if factors.profiles = [] then none
      else some (encrypt factors.rootPrimaryKey (crypto.stringifyProfiles factors.profiles) 8)
    umpVersion := passwordKdf.map fun _ => 3
    passwordKdf := passwordKdf
    currentOutpoint := none }

end Cryptography

def sealDraws : Nat := 9

namespace CWIStyleWalletManager

def isDefaultId (profileId : Octets) : Bool := profileId.all (· = 0)

def sameId (id profileId : Octets) : Bool := id.isPrefixOf profileId

def findProfile (fields : CWIStyleWalletManager) (profileId : Octets) : Option Profile :=
  fields.profiles.find? fun profile => sameId profile.id profileId

def profileWallet (fields : CWIStyleWalletManager) (rootPrimaryKey profileId : Octets) : Except WalletManagerError ProfileWallet :=
  if isDefaultId profileId then .ok ⟨rootPrimaryKey, none, DEFAULT_PROFILE_ID⟩
  else
    match fields.findProfile profileId with
    | none => .error (.error "Profile not found.")
    | some profile => do return ⟨← xorBytes rootPrimaryKey profile.primaryPad, some profile.privilegedPad, profileId⟩

def read : WalletManagerM CWIStyleWalletManager := Program.enter (pure ())

def fails {α : Type} (message : String) : WalletManagerM α := .fail (.error message)

/-- Await a computation whose value does not depend on the time. -/
def resolved {α : Type} (value : Except WalletManagerError α) : WalletManagerM α := do
  let _ ← read
  .ofExcept value

def present {α : Type} : Option α → Except WalletManagerError α
  | some value => .ok value
  | none => .error (.error "Cannot read properties of undefined")

def throwing {α : Type} : Except WalletManagerError α → SectionM α
  | .ok value => pure value
  | .error error => Fallible.throws error

def chooseProfile (choose : CWIStyleWalletManager → Octets) : SectionM Unit := do
  let fields ← Fallible.current
  Fallible.require (fields.authenticated = true ∧ fields.rootPrimaryKey ≠ none ∧ fields.rootPrivilegedKeyManager ≠ none)
    (.error "Cannot switch profile: Wallet not authenticated or root keys missing.")
  let wallet ← throwing (fields.profileWallet (fields.rootPrimaryKey.getD []) (choose fields))
  Fallible.change fun fields => { fields with activeProfileId := wallet.profileId }

def switchTo (choose : CWIStyleWalletManager → Octets) : WalletManagerM Unit := do
  let fields ← Program.enter (chooseProfile choose)
  let wallet ← .ofExcept (fields.profileWallet (fields.rootPrimaryKey.getD []) (choose fields))
  .ofExcept (← (WalletManagerOp.walletBuilder wallet).await)
  let _ ← Program.enter (Fallible.change fun fields => { fields with underlying := some wallet })

def switchProfile (profileId : Octets) : WalletManagerM Unit := switchTo fun _ => profileId

section
variable (config : WalletManagerConfig)

def privilegedKeyFromPassword (reason : String) : WalletManagerM Nat := do
  let password ← .ofExcept (← (WalletManagerOp.passwordRetriever reason).await)
  let token ← .ofExcept (present (← read).currentUMPToken)
  let derivedPasswordKey ← resolved (config.crypto.derivePasswordKey token.passwordSalt token.passwordKdf password)
  let fields ← read
  let rootPrimaryKey ← .ofExcept (present fields.rootPrimaryKey)
  let token ← .ofExcept (present fields.currentUMPToken)
  let decryptor ← .ofExcept (xorBytes rootPrimaryKey derivedPasswordKey)
  let privileged ← .ofExcept (config.crypto.decryptOrThrow decryptor token.passwordPrimaryPrivileged)
  return config.crypto.privateKey privileged

def keyGetter (manager : RootPrivilegedKeyManager) (reason : String) : WalletManagerM Nat :=
  match manager.oneTimePrivilegedKey with
  | some key => .done key
  | none => privilegedKeyFromPassword config reason

/-- A key that is to be used once is gone as soon as the key getter has been asked for it. -/
def askKeyGetter (kept : Bool) (fields : CWIStyleWalletManager) : CWIStyleWalletManager :=
  { fields with
    rootPrivilegedKeyManager := fields.rootPrivilegedKeyManager.map fun manager =>
      if kept = true ∧ manager.retained ≠ none then manager else { manager with oneTimePrivilegedKey := none } }

def retainKey (number key : Nat) (fields : CWIStyleWalletManager) : CWIStyleWalletManager :=
  { fields with
    rootPrivilegedKeyManager := fields.rootPrivilegedKeyManager.map fun manager =>
      if manager.number = number then { manager with retained := some key } else manager }

def getPrivilegedKey (reason : String) : WalletManagerM Nat := do
  let kept ← WalletManagerOp.keyRetained.await
  let fields ← Program.enter (Fallible.change (askKeyGetter kept))
  let manager ← .ofExcept (present fields.rootPrivilegedKeyManager)
  match if kept = true then manager.retained else none with
  | some key => return key
  | none =>
    let key ← keyGetter config manager reason
    let _ ← Program.enter (Fallible.change (retainKey manager.number key))
    return key

def factorError (factor : String) : WalletManagerError → WalletManagerError
  | .error message => .error ("Failed to decrypt factor \"" ++ factor ++ "\": " ++ message)

/-- The check of `getFactor`. -/
def factorReady (factor : String) : WalletManagerM CWIStyleWalletManager := Program.enter do
  let fields ← Fallible.current
  Fallible.require (fields.authenticated = true ∧ fields.currentUMPToken ≠ none ∧ fields.rootPrivilegedKeyManager ≠ none)
    (.error ("Cannot get factor \"" ++ factor ++ "\": Wallet not ready."))

def unwrapOrThrow (privilegedKey : Nat) (ciphertext : Octets) : Except WalletManagerError Octets :=
  match config.crypto.unwrap privilegedKey ciphertext with
  | some plaintext => .ok plaintext
  | none => .error (.error "Decryption failed!")

def getFactor (factor : Factor) : WalletManagerM Octets := do
  let fields ← factorReady factor.text
  Program.handle
    (do
      let token ← .ofExcept (present fields.currentUMPToken)
      let privilegedKey ← getPrivilegedKey config ""
      .ofExcept (unwrapOrThrow config privilegedKey (token.wrapped factor)))
    fun error => .fail (factorError factor.text error)

/-- `getFactor('privilegedKey')` -/
def getRootPrivilegedKey : WalletManagerM Octets := do
  let _ ← factorReady "privilegedKey"
  Program.handle
    (do
      let privilegedKey ← getPrivilegedKey config "UMP token update"
      return config.crypto.keyBytes privilegedKey)
    fun error => .fail (factorError "privilegedKey" error)

def updateReady (fields : CWIStyleWalletManager) : Prop :=
  fields.authenticated = true ∧ fields.rootPrimaryKey ≠ none ∧ fields.currentUMPToken ≠ none

instance (fields : CWIStyleWalletManager) : Decidable fields.updateReady := inferInstanceAs (Decidable (_ ∧ _))

def publishToken (wallet : ProfileWallet) (newToken oldToken : UMPToken) : WalletManagerM Unit := do
  let outpoint ← .ofExcept (← (WalletManagerOp.buildAndSend wallet newToken (some oldToken)).await)
  let _ ← Program.enter (Fallible.change fun fields =>
    { fields with currentUMPToken := some { newToken with currentOutpoint := some outpoint } })

def startUpdate : SectionM Unit := do
  let fields ← Fallible.current
  Fallible.require fields.updateReady (.error "Wallet is not properly authenticated or missing data for update.")
  Fallible.require ((fields.currentUMPToken.bind UMPToken.currentOutpoint).isSome = true)
    (.error "Cannot update UMP token: Old token has no outpoint.")
  Fallible.change fun fields => { fields with draws := fields.draws + sealDraws }

def updateAuthFactors (factors : AuthFactors) : WalletManagerM Unit := do
  let fields ← Program.enter startUpdate
  let oldToken ← .ofExcept (present fields.currentUMPToken)
  let newToken ← .ofExcept (config.crypto.sealToken oldToken.passwordKdf factors fields.draws)
  let _ ← resolved (.ok newToken.presentationKeyEncrypted)
  let _ ← resolved (.ok newToken.passwordKeyEncrypted)
  let _ ← resolved (.ok newToken.recoveryKeyEncrypted)
  let here ← read
  if isDefaultId here.activeProfileId then
    match here.underlying with
    | none => fails "Default profile wallet could not be activated for UMP token update."
    | some wallet => publishToken wallet newToken oldToken
  else
    switchProfile DEFAULT_PROFILE_ID
    match (← read).underlying with
    | none => fails "Default profile wallet could not be activated for UMP token update."
    | some wallet => Program.ensuring (publishToken wallet newToken oldToken) (switchProfile here.activeProfileId)

def ready (fields : CWIStyleWalletManager) : Prop :=
  fields.authenticated = true ∧ fields.rootPrimaryKey ≠ none ∧ fields.currentUMPToken ≠ none ∧ fields.rootPrivilegedKeyManager ≠ none

instance (fields : CWIStyleWalletManager) : Decidable fields.ready := inferInstanceAs (Decidable (_ ∧ _))

/-- The factors as the token holds them, with the salt it had before, and the update. -/
def updateProfiles (passwordSalt : Octets) : WalletManagerM Unit := do
  let passwordKey ← getFactor config .passwordKey
  let presentationKey ← getFactor config .presentationKey
  let recoveryKey ← getFactor config .recoveryKey
  let rootPrimaryKey ← .ofExcept (present (← read).rootPrimaryKey)
  let rootPrivilegedKey ← getRootPrivilegedKey config
  let profiles := (← read).profiles
  updateAuthFactors config { passwordSalt, passwordKey, presentationKey, recoveryKey, rootPrimaryKey, rootPrivilegedKey, profiles }

def nameTaken (fields : CWIStyleWalletManager) (name : String) : Bool :=
  name = "default" || fields.profiles.any fun profile => config.crypto.toLowerCase profile.name = config.crypto.toLowerCase name

def newProfile (fields : CWIStyleWalletManager) (name : String) : Profile where
  name
  id := config.crypto.random fields.draws 16
  primaryPad := config.crypto.random (fields.draws + 1) 32
  privilegedPad := config.crypto.random (fields.draws + 2) 32
  createdAt := config.crypto.now fields.draws

def addProfile (name : String) : WalletManagerM Octets := do
  let fields ← Program.enter do
    let fields ← Fallible.current
    Fallible.require fields.ready (.error "Wallet not fully initialized or authenticated.")
    Fallible.require (nameTaken config fields name = false) (.error ("Profile name \"" ++ name ++ "\" is already in use."))
    Fallible.change fun fields =>
      { fields with profiles := fields.profiles ++ [newProfile config fields name], draws := fields.draws + 3 }
  let token ← .ofExcept (present fields.currentUMPToken)
  updateProfiles config token.passwordSalt
  return (newProfile config fields name).id

def removeProfile (profiles : List Profile) (profileId : Octets) : List Profile :=
  profiles.eraseP fun profile => sameId profile.id profileId

def deleteProfile (profileId : Octets) : WalletManagerM Unit := do
  let fields ← Program.enter do
    let fields ← Fallible.current
    Fallible.require fields.ready (.error "Wallet not fully initialized or authenticated.")
    Fallible.require (isDefaultId profileId = false) (.error "Cannot delete the default profile.")
    Fallible.require ((fields.findProfile profileId).isSome = true) (.error "Profile not found.")
    Fallible.change fun fields => { fields with profiles := removeProfile fields.profiles profileId }
  if sameId fields.activeProfileId profileId then switchProfile DEFAULT_PROFILE_ID
  let token ← .ofExcept (present (← read).currentUMPToken)
  updateProfiles config token.passwordSalt

def changePassword (newPassword : Octets) : WalletManagerM Unit := do
  let fields ← Program.enter do
    let fields ← Fallible.current
    Fallible.require fields.ready (.error "Not authenticated or missing required data.")
    Fallible.change fun fields => { fields with draws := fields.draws + 1 }
  let token ← .ofExcept (present fields.currentUMPToken)
  let passwordSalt := config.crypto.random fields.draws 32
  let kdfToUse := token.passwordKdf.getD config.kdfConfig
  let passwordKey ← resolved (config.crypto.derivePasswordKey passwordSalt (some kdfToUse) newPassword)
  let recoveryKey ← getFactor config .recoveryKey
  let presentationKey ← getFactor config .presentationKey
  let rootPrivilegedKey ← getRootPrivilegedKey config
  let here ← read
  let rootPrimaryKey ← .ofExcept (present here.rootPrimaryKey)
  updateAuthFactors config
    { passwordSalt, passwordKey, presentationKey, recoveryKey, rootPrimaryKey, rootPrivilegedKey, profiles := here.profiles }

def changeRecoveryKey : WalletManagerM Unit := do
  let _ ← Program.enter do
    let fields ← Fallible.current
    Fallible.require fields.ready (.error "Not authenticated or missing required data.")
  let passwordKey ← getFactor config .passwordKey
  let presentationKey ← getFactor config .presentationKey
  let rootPrivilegedKey ← getRootPrivilegedKey config
  let fields ← Program.enter (Fallible.change fun fields => { fields with draws := fields.draws + 1 })
  let recoveryKey := config.crypto.random fields.draws 32
  .ofExcept (← (WalletManagerOp.recoveryKeySaver recoveryKey).await)
  let here ← read
  let token ← .ofExcept (present here.currentUMPToken)
  let rootPrimaryKey ← .ofExcept (present here.rootPrimaryKey)
  updateAuthFactors config
    { passwordSalt := token.passwordSalt, passwordKey, presentationKey, recoveryKey, rootPrimaryKey, rootPrivilegedKey
      profiles := here.profiles }

def changePresentationKey (newPresentationKey : Octets) : WalletManagerM Unit := do
  let _ ← Program.enter do
    let fields ← Fallible.current
    Fallible.require fields.ready (.error "Not authenticated or missing required data.")
    Fallible.require (newPresentationKey.length = 32) (.error "Presentation key must be 32 bytes.")
  let recoveryKey ← getFactor config .recoveryKey
  let passwordKey ← getFactor config .passwordKey
  let rootPrivilegedKey ← getRootPrivilegedKey config
  let here ← read
  let token ← .ofExcept (present here.currentUMPToken)
  let rootPrimaryKey ← .ofExcept (present here.rootPrimaryKey)
  updateAuthFactors config
    { passwordSalt := token.passwordSalt, passwordKey, presentationKey := newPresentationKey, recoveryKey, rootPrimaryKey
      rootPrivilegedKey, profiles := here.profiles }
  let _ ← Program.enter (Fallible.change fun fields =>
    { fields with presentationKey := fields.presentationKey.map fun _ => newPresentationKey })

def setupRootInfrastructure (rootPrimaryKey : Octets) (ephemeralRootPrivilegedKey : Option Octets) : SectionM Unit := do
  let fields ← Fallible.current
  Fallible.require (fields.currentUMPToken ≠ none) (.error "A UMP token must exist before setting up root infrastructure!")
  let token ← throwing (present fields.currentUMPToken)
  Fallible.change fun fields =>
    { fields with
      rootPrimaryKey := some rootPrimaryKey
      rootPrivilegedKeyManager := some ⟨fields.managers, ephemeralRootPrivilegedKey.map config.crypto.privateKey, none⟩
      managers := fields.managers + 1
      profiles := [] }
  let profiles ← throwing (config.crypto.readProfiles token rootPrimaryKey)
  Fallible.change fun fields => { fields with profiles, authenticated := true }

def providePresentationKey (key : Octets) : WalletManagerM Unit := do
  let _ ← Program.enter do
    let fields ← Fallible.current
    Fallible.require (fields.authenticated = false) (.error "User is already authenticated")
    Fallible.require (fields.authenticationMode ≠ .recoveryKeyAndPassword) (.error "Presentation key is not needed in this mode")
  let found ← .ofExcept (← (WalletManagerOp.findByPresentationKeyHash (config.crypto.sha256 key)).await)
  let _ ← Program.enter (Fallible.change fun fields =>
    match found with
    | none => { fields with authenticationFlow := .newUser, presentationKey := some key }
    | some token => { fields with authenticationFlow := .existingUser, presentationKey := some key, currentUMPToken := some token })

def openWithPassword (fields : CWIStyleWalletManager) (token : UMPToken) (derivedPasswordKey : Octets) :
    Except WalletManagerError (Octets × Option Octets) :=
  if fields.authenticationMode = .presentationKeyAndPassword then
    match fields.presentationKey with
    | none => .error (.error "No presentation key found!")
    | some presentationKey => do
      return (← config.crypto.decryptOrThrow (← xorBytes presentationKey derivedPasswordKey) token.passwordPresentationPrimary, none)
  else
    match fields.recoveryKey with
    | none => .error (.error "No recovery key found!")
    | some recoveryKey => do
      let primary ← config.crypto.decryptOrThrow (← xorBytes recoveryKey derivedPasswordKey) token.passwordRecoveryPrimary
      let privileged ← config.crypto.decryptOrThrow (← xorBytes primary derivedPasswordKey) token.passwordPrimaryPrivileged
      return (primary, some privileged)

def handleExistingUserPassword (password : Octets) : WalletManagerM Unit := do
  match (← read).currentUMPToken with
  | none => fails "Provide presentation or recovery key first."
  | some token =>
    let derivedPasswordKey ← resolved (config.crypto.derivePasswordKey token.passwordSalt token.passwordKdf password)
    let _ ← Program.enter do
      let fields ← Fallible.current
      let token ← throwing (present fields.currentUMPToken)
      let keys ← throwing (openWithPassword config fields token derivedPasswordKey)
      setupRootInfrastructure config keys.1 keys.2
    switchTo CWIStyleWalletManager.activeProfileId

/-- The keys of a new account. -/
def newFactors (presentationKey recoveryKey passwordSalt passwordKey : Octets) (draw : Nat) : AuthFactors where
  passwordSalt
  passwordKey
  presentationKey
  recoveryKey
  rootPrimaryKey := config.crypto.random draw 32
  rootPrivilegedKey := config.crypto.random (draw + 1) 32
  profiles := []

def fundNewWallet : WalletManagerM Unit := do
  let fields ← read
  match config.hasNewWalletFunder, fields.underlying with
  | true, some wallet =>
    Program.handle (do .ofExcept (← (WalletManagerOp.newWalletFunder fields.presentationKey wallet).await))
      fun | .error message => fails ("Failed to fund new wallet before publishing UMP token: " ++ message)
  | _, _ => return

def withOutpoint (token : UMPToken) (outpoint : String) (fields : CWIStyleWalletManager) : CWIStyleWalletManager :=
  if fields.currentUMPToken = some token then { fields with currentUMPToken := some { token with currentOutpoint := some outpoint } }
  else fields

/-- The first token of an account consumes none. The token that was current before gets the outpoint. -/
def publishNewToken (newToken : UMPToken) : WalletManagerM Unit := do
  let here ← read
  match here.underlying with
  | none => fails "Default profile wallet not built before attempting to publish UMP token."
  | some wallet =>
    let outpoint ← .ofExcept (← (WalletManagerOp.buildAndSend wallet newToken none).await)
    let token ← .ofExcept (present here.currentUMPToken)
    let _ ← Program.enter (Fallible.change (withOutpoint token outpoint))

def handleNewUserPassword (password : Octets) : WalletManagerM Unit := do
  let fields ← Program.enter do
    let fields ← Fallible.current
    Fallible.require (fields.authenticationMode = .presentationKeyAndPassword)
      (.error "New-user flow requires presentation key and password mode.")
    Fallible.require (fields.presentationKey ≠ none) (.error "No presentation key provided for new-user flow.")
    Fallible.change fun fields => { fields with draws := fields.draws + 1 }
  let recoveryKey := config.crypto.random fields.draws 32
  .ofExcept (← (WalletManagerOp.recoveryKeySaver recoveryKey).await)
  let fields ← Program.enter (Fallible.change fun fields => { fields with draws := fields.draws + 1 })
  let passwordSalt := config.crypto.random fields.draws 32
  let passwordKey ← resolved (config.crypto.derivePasswordKey passwordSalt (some config.kdfConfig) password)
  let fields ← Program.enter (Fallible.change fun fields => { fields with draws := fields.draws + 2 + sealDraws })
  let presentationKey ← .ofExcept (present fields.presentationKey)
  let factors := newFactors config presentationKey recoveryKey passwordSalt passwordKey fields.draws
  let newToken ← .ofExcept (config.crypto.sealToken (some config.kdfConfig) factors (fields.draws + 2))
  let _ ← resolved (.ok newToken.presentationKeyEncrypted)
  let _ ← resolved (.ok newToken.passwordKeyEncrypted)
  let _ ← resolved (.ok newToken.recoveryKeyEncrypted)
  let _ ← Program.enter do
    Fallible.change fun fields => { fields with currentUMPToken := some newToken }
    setupRootInfrastructure config factors.rootPrimaryKey none
  switchProfile DEFAULT_PROFILE_ID
  fundNewWallet config
  publishNewToken newToken

def providePassword (password : Octets) : WalletManagerM Unit := do
  let fields ← Program.enter do
    let fields ← Fallible.current
    Fallible.require (fields.authenticated = false) (.error "User is already authenticated")
    Fallible.require (fields.authenticationMode ≠ .presentationKeyAndRecoveryKey) (.error "Password is not needed in this mode")
  match fields.authenticationFlow with
  | .existingUser => handleExistingUserPassword config password
  | .newUser => handleNewUserPassword config password

end
end CWIStyleWalletManager
end WalletToolbox

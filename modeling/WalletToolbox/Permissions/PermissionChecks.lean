import WalletToolbox.Permissions.Names

/-! The permission checks of `WalletPermissionsManager`. Each answers from the cache, from
the recent grants, from a token, or asks the user. What is awaited, and whatever depends
on the time or on the maps the manager keeps, is an operation here. -/

namespace WalletToolbox
open Async

inductive LineItemType where
  | input | output | fee
deriving DecidableEq, Repr

structure LineItem where
  type : LineItemType
  description : String
  satoshis : Int
deriving DecidableEq, Repr

inductive Permission where
  | protocol (privileged : Bool) (protocolID : WalletProtocol) (counterparty : String)
  | basket (basket : String)
  | certificate (privileged : Bool) (verifier certType : String) (fields : List String)
  | spending (satoshis : Int) (lineItems : List LineItem)
deriving DecidableEq, Repr

structure PermissionToken where
  txid : String
  outputIndex : Nat
  originator : String
  rawOriginator : Option String
  expiry : Nat
  privileged : Bool
  protocol : Option String
  securityLevel : Option SecurityLevel
  counterparty : Option String
  basketName : Option String
  verifier : Option String
  certType : Option String
  certFields : List String
  authorizedAmount : Option Nat
deriving DecidableEq, Repr

structure PermissionRequest where
  originator : String
  displayOriginator : Option String := none
  usageType : String
  permission : Permission
  reason : Option String
  renewal : Bool := false
  previousToken : Option PermissionToken := none
deriving DecidableEq, Repr

inductive ProtocolUsage where
  | signing | encrypting | hmac | publicKey | identityKey | linkageRevelation | generic
deriving DecidableEq, Repr

inductive BasketUsage where
  | insertion | removal | listing
deriving DecidableEq, Repr

inductive LabelUsage where
  | apply | list
deriving DecidableEq, Repr

def ProtocolUsage.text : ProtocolUsage → String
  | .signing => "signing"
  | .encrypting => "encrypting"
  | .hmac => "hmac"
  | .publicKey => "publicKey"
  | .identityKey => "identityKey"
  | .linkageRevelation => "linkageRevelation"
  | .generic => "generic"

def BasketUsage.text : BasketUsage → String
  | .insertion => "insertion"
  | .removal => "removal"
  | .listing => "listing"

structure PermissionsManagerConfig where
  seekProtocolPermissionsForSigning : Bool := true
  seekProtocolPermissionsForEncrypting : Bool := true
  seekProtocolPermissionsForHMAC : Bool := true
  seekPermissionsForKeyLinkageRevelation : Bool := true
  seekPermissionsForPublicKeyRevelation : Bool := true
  seekPermissionsForIdentityKeyRevelation : Bool := true
  seekBasketInsertionPermissions : Bool := true
  seekBasketRemovalPermissions : Bool := true
  seekBasketListingPermissions : Bool := true
  seekPermissionWhenApplyingActionLabels : Bool := true
  seekPermissionWhenListingActionsByLabel : Bool := true
  seekCertificateDisclosurePermissions : Bool := true
  seekSpendingPermissions : Bool := true
  seekGroupedPermission : Bool := true
  differentiatePrivilegedOperations : Bool := true
  whitelistedCounterparties : List (String × List String) := []
  permissionModules : List String := []

structure PermissionsManager where
  platform : Platform
  adminOriginator : String
  config : PermissionsManagerConfig

namespace PermissionsManager

def new (platform : Platform) (adminOriginator : String) (config : PermissionsManagerConfig) : PermissionsManager :=
  ⟨platform, orElseText (normalizeOriginator platform (some adminOriginator)) adminOriginator, config⟩

variable (manager : PermissionsManager)

def isAdminOriginator (originator : Option String) : Bool :=
  normalizeOriginator manager.platform originator = manager.adminOriginator

def isProtocolUsageTypeExempted : ProtocolUsage → Bool
  | .signing => !manager.config.seekProtocolPermissionsForSigning
  | .encrypting => !manager.config.seekProtocolPermissionsForEncrypting
  | .hmac => !manager.config.seekProtocolPermissionsForHMAC
  | .publicKey => !manager.config.seekPermissionsForPublicKeyRevelation
  | .identityKey => !manager.config.seekPermissionsForIdentityKeyRevelation
  | .linkageRevelation => !manager.config.seekPermissionsForKeyLinkageRevelation
  | .generic => false

def isBasketUsageRequired : BasketUsage → Bool
  | .insertion => manager.config.seekBasketInsertionPermissions
  | .removal => manager.config.seekBasketRemovalPermissions
  | .listing => manager.config.seekBasketListingPermissions

def isWhitelistedCounterpartyProtocol (counterparty : String) (protocolID : WalletProtocol) : Bool :=
  if counterparty ∈ ["", "self", "anyone"] then false
  else
    let whitelist := manager.config.whitelistedCounterparties
    match ((whitelist.lookup counterparty).or (whitelist.lookup (manager.platform.toLowerCase counterparty))).or
        (whitelist.lookup (manager.platform.toUpperCase counterparty)) with
    | none => false
    | some protocols =>
      let protoName := manager.platform.toLowerCase protocolID.name
      protoName ≠ "" && protocols.any fun name => manager.platform.toLowerCase name = protoName

def buildRequestKey (request : PermissionRequest) : String :=
  let origin := normalizeOriginator manager.platform (some request.originator)
  match request.permission with
  | .protocol privileged protocolID counterparty =>
    "proto:" ++ origin ++ ":" ++ toString privileged ++ ":" ++ toString protocolID.level.val ++ "," ++ protocolID.name ++ ":" ++ counterparty
  | .basket basket => "basket:" ++ origin ++ ":" ++ basket
  | .certificate privileged verifier certType fields =>
    "cert:" ++ origin ++ ":" ++ toString privileged ++ ":" ++ verifier ++ ":" ++ certType ++ ":" ++ "|".intercalate fields
  | .spending satoshis _ => "spend:" ++ origin ++ ":" ++ toString satoshis

end PermissionsManager

structure SignableTransaction where
  reference : String
  inputs : List (String × Nat)
  fee : Nat
deriving DecidableEq, Repr

structure WalletResult where
  content : String
  signableTransaction : Option SignableTransaction := none
deriving DecidableEq, Repr

structure ActionInput where
  outpoint : String
  inputDescription : String
deriving DecidableEq, Repr

structure ActionOutput where
  satoshis : Nat
  basket : Option String
  outputDescription : String
  customInstructions : Option String
deriving DecidableEq, Repr

structure CreateActionArgs where
  description : String
  inputs : List ActionInput
  outputs : List ActionOutput
  labels : List String
  signAndProcess : Option Bool
deriving DecidableEq, Repr

inductive InternalizeOutput where
  | walletPayment
  | basketInsertion (basket : String) (customInstructions : Option String)
deriving DecidableEq, Repr

structure InternalizeActionArgs where
  description : String
  outputs : List InternalizeOutput
  labels : List String
deriving DecidableEq, Repr

structure GetPublicKeyArgs where
  protocolID : Option WalletProtocol
  identityKey : Bool
  counterparty : Option String
  privileged : Bool
  privilegedReason : Option String
deriving DecidableEq, Repr

structure RevealSpecificKeyLinkageArgs where
  protocolID : WalletProtocol
  keyID : String
  verifier : String
  privileged : Bool
  privilegedReason : Option String
deriving DecidableEq, Repr

inductive KeyMethod where
  | encrypt | decrypt | createHmac | verifyHmac | createSignature | verifySignature
deriving DecidableEq, Repr

structure KeyArgs where
  protocolID : WalletProtocol
  counterparty : Option String
  privileged : Bool
  privilegedReason : Option String
deriving DecidableEq, Repr

/-- A call of a method that takes a protocol, a basket or labels. -/
inductive WalletCall where
  | createAction (args : CreateActionArgs)
  | listActions (labels : List String)
  | internalizeAction (args : InternalizeActionArgs)
  | listOutputs (basket : String)
  | relinquishOutput (basket : String)
  | getPublicKey (args : GetPublicKeyArgs)
  | revealSpecificKeyLinkage (args : RevealSpecificKeyLinkageArgs)
  | useKey (method : KeyMethod) (args : KeyArgs)
deriving DecidableEq, Repr

/-- What the manager awaits or looks up. -/
inductive PermissionsOp where
  | isPermissionCached (key : String)
  | isRecentlyGranted (key : String)
  | isTokenExpired (expiry : Nat)
  | cachePermission (key : String) (expiry : Nat)
  /-- The lookup of a token of the permission for one of the originators. -/
  | findToken (originator : String) (permission : Permission) (lookupValues : List String)
  | querySpentSince (token : PermissionToken)
  | requestPermissionFlow (request : PermissionRequest)
  | getCurrentMonthYearUTC
  | maybeEncryptMetadata (plaintext : String)
  | decryptMetadata (result : WalletResult)
  | isSignAction (args : CreateActionArgs)
  | onRequest (scheme : String) (call : WalletCall) (originator : Option String)
  | onResponse (scheme : String) (result : Option WalletResult) (originator : Option String)
  | underlying (call : WalletCall) (originator : Option String)
  | signAction (reference : String) (originator : Option String)
  | abortAction (reference : String)

@[reducible] def PermissionsOp.Reply : PermissionsOp → Type
  | .isPermissionCached _ | .isRecentlyGranted _ | .isTokenExpired _ => Bool
  | .cachePermission _ _ => Unit
  | .findToken _ _ _ => Except PermissionsError (Option PermissionToken)
  | .querySpentSince _ => Except PermissionsError Nat
  | .requestPermissionFlow _ | .isSignAction _ => Except PermissionsError Bool
  | .getCurrentMonthYearUTC => String
  | .maybeEncryptMetadata _ => Except PermissionsError String
  | .onRequest _ _ _ => Except PermissionsError WalletCall
  | .onResponse _ _ _ => Except PermissionsError (Option WalletResult)
  | .decryptMetadata _ | .underlying _ _ | .signAction _ _ => Except PermissionsError WalletResult
  | .abortAction _ => Except PermissionsError Unit

abbrev permissionsManager : Interface := ⟨PermissionsOp, PermissionsOp.Reply⟩

abbrev PermissionsM := Program permissionsManager PermissionsError

abbrev PermissionsOp.await (op : PermissionsOp) : PermissionsM op.Reply := .await op .done

namespace PermissionsManager
variable (manager : PermissionsManager)

/-- The end of a check: the cache, the recent grants, a token that is not expired, or the user. -/
def ensureToken (request : PermissionRequest) (lookupValues : List String) (seekPermission : Bool) (missing expired : String) :
    PermissionsM Bool := do
  let cacheKey := manager.buildRequestKey request
  if ← (PermissionsOp.isPermissionCached cacheKey).await then return true
  else if ← (PermissionsOp.isRecentlyGranted cacheKey).await then return true
  else
    match ← .ofExcept (← (PermissionsOp.findToken request.originator request.permission lookupValues).await) with
    | none =>
      if !seekPermission then throw (.error missing)
      else .ofExcept (← (PermissionsOp.requestPermissionFlow request).await)
    | some token =>
      if ← (PermissionsOp.isTokenExpired token.expiry).await then
        if !seekPermission then throw (.error expired)
        else .ofExcept (← (PermissionsOp.requestPermissionFlow { request with renewal := true, previousToken := some token }).await)
      else
        (PermissionsOp.cachePermission cacheKey token.expiry).await
        return true

structure ProtocolCheck where
  originator : Option String
  privileged : Bool
  protocolID : WalletProtocol
  counterparty : String
  reason : Option String
  seekPermission : Bool := true
  usageType : ProtocolUsage

def ensureProtocolPermission (check : ProtocolCheck) : PermissionsM Bool := do
  let prepared ← .ofExcept (prepareOriginator manager.platform check.originator)
  let originator := prepared.normalized
  if manager.isAdminOriginator (some originator) then return true
  else if check.protocolID.level = 0 then return true
  else
    let counterparty := if check.protocolID.level = 1 then "" else check.counterparty
    if isAdminProtocol check.protocolID then throw (.error ("Protocol “" ++ check.protocolID.name ++ "” is admin-only."))
    else if manager.isProtocolUsageTypeExempted check.usageType then return true
    else
      let privileged := check.privileged && manager.config.differentiatePrivilegedOperations
      if !privileged && manager.isWhitelistedCounterpartyProtocol counterparty check.protocolID then return true
      else
        manager.ensureToken
          { originator, usageType := check.usageType.text, reason := check.reason
            permission := .protocol privileged check.protocolID counterparty }
          prepared.lookupValues check.seekPermission "No protocol permission token found (seekPermission=false)."
          "Protocol permission expired and no further user consent allowed (seekPermission=false)."

structure BasketCheck where
  originator : Option String
  basket : String
  reason : Option String
  seekPermission : Bool := true
  usageType : BasketUsage

def ensureBasketAccess (check : BasketCheck) : PermissionsM Bool := do
  let prepared ← .ofExcept (prepareOriginator manager.platform check.originator)
  let originator := prepared.normalized
  if manager.isAdminOriginator (some originator) then return true
  else if isAdminBasket check.basket then throw (.error ("Basket “" ++ check.basket ++ "” is admin-only."))
  else if !manager.isBasketUsageRequired check.usageType then return true
  else
    manager.ensureToken
      { originator, usageType := check.usageType.text, reason := check.reason, permission := .basket check.basket }
      prepared.lookupValues check.seekPermission
      "No basket permission found, and no user consent allowed (seekPermission=false)."
      "Basket permission expired (seekPermission=false)."

structure CertificateCheck where
  originator : Option String
  privileged : Bool
  verifier : String
  certType : String
  fields : List String
  reason : Option String
  seekPermission : Bool := true

def ensureCertificateAccess (check : CertificateCheck) : PermissionsM Bool := do
  let prepared ← .ofExcept (prepareOriginator manager.platform check.originator)
  let originator := prepared.normalized
  if manager.isAdminOriginator (some originator) then return true
  else if !manager.config.seekCertificateDisclosurePermissions then return true
  else
    let privileged := check.privileged && manager.config.differentiatePrivilegedOperations
    manager.ensureToken
      { originator, usageType := "disclosure", reason := check.reason
        permission := .certificate privileged check.verifier check.certType check.fields }
      prepared.lookupValues check.seekPermission "No certificate permission found (seekPermission=false)."
      "Certificate permission expired (seekPermission=false)."

structure SpendingCheck where
  originator : Option String
  satoshis : Int
  lineItems : List LineItem
  reason : Option String
  seekPermission : Bool := true

def ensureSpendingAuthorization (check : SpendingCheck) : PermissionsM Bool := do
  let prepared ← .ofExcept (prepareOriginator manager.platform check.originator)
  let originator := prepared.normalized
  if manager.isAdminOriginator (some originator) then return true
  else if !manager.config.seekSpendingPermissions then return true
  else
    let request : PermissionRequest :=
      { originator, usageType := "", reason := check.reason, permission := .spending check.satoshis check.lineItems }
    let cacheKey := manager.buildRequestKey request
    if ← (PermissionsOp.isPermissionCached cacheKey).await then return true
    else
      let token ← .ofExcept (← (PermissionsOp.findToken originator request.permission prepared.lookupValues).await)
      match token, token.bind (·.authorizedAmount) with
      | some token, some authorizedAmount =>
        if authorizedAmount = 0 then requestNew request
        else
          let spentSoFar ← .ofExcept (← (PermissionsOp.querySpentSince token).await)
          if (spentSoFar : Int) + check.satoshis ≤ authorizedAmount then
            (PermissionsOp.cachePermission cacheKey token.expiry).await
            return true
          else if !check.seekPermission then
            throw (.error ("Spending authorization insufficient for " ++ toString check.satoshis ++
              ", no user consent (seekPermission=false)."))
          else .ofExcept (← (PermissionsOp.requestPermissionFlow { request with renewal := true, previousToken := some token }).await)
      | _, _ => requestNew request
where
  requestNew (request : PermissionRequest) : PermissionsM Bool := do
    if !check.seekPermission then throw (.error "No spending authorization found, (seekPermission=false).")
    else .ofExcept (← (PermissionsOp.requestPermissionFlow request).await)

structure LabelCheck where
  originator : Option String
  label : String
  reason : Option String
  seekPermission : Bool := true
  usageType : LabelUsage

def ensureLabelAccess (check : LabelCheck) : PermissionsM Bool := do
  let prepared ← .ofExcept (prepareOriginator manager.platform check.originator)
  let originator := prepared.normalized
  if manager.isAdminOriginator (some originator) then return true
  else if isAdminLabel check.label then throw (.error ("Label “" ++ check.label ++ "” is admin-only."))
  else if check.usageType = .apply && !manager.config.seekPermissionWhenApplyingActionLabels then return true
  else if check.usageType = .list && !manager.config.seekPermissionWhenListingActionsByLabel then return true
  else
    let protocolID : WalletProtocol := ⟨1, "action label " ++ check.label⟩
    let cacheKey := manager.buildRequestKey
      { originator, usageType := "", reason := none, permission := .protocol false protocolID "self" }
    if ← (PermissionsOp.isPermissionCached cacheKey).await then return true
    else
      manager.ensureProtocolPermission
        { originator := some originator, privileged := false, protocolID, counterparty := "self", reason := check.reason
          seekPermission := check.seekPermission, usageType := .generic }

end PermissionsManager
end WalletToolbox

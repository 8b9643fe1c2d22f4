import WalletToolbox.Permissions.PermissionChecks
import Mathlib.Algebra.Ring.Int.Defs

/-! The methods of `WalletPermissionsManager` that take a protocol, a basket or labels. A
name of a permission module goes to its module; any other is checked before the call
reaches the underlying wallet. -/

namespace WalletToolbox
open Async PermissionsOp

structure ActionTimeFilter where
  from' : Option Nat := none
  to' : Option Nat := none

def timestampError (text : String) : PermissionsError := .invalidParameter "labels" ("valid. " ++ text)

def parseTimestamp (label name start : String) : Except PermissionsError Nat :=
  let digits := label.toList.drop start.length
  let value := digits.foldl (fun value digit => 10 * value + (digit.toNat - '0'.toNat)) 0
  if digits ≠ [] ∧ digits.all (·.isDigit) ∧ value ≤ 8640000000000000 then .ok value
  else .error (timestampError ("Invalid action time " ++ name ++ " timestamp value."))

def parseActionTimeLabels : List String → ActionTimeFilter → Except PermissionsError (List String × ActionTimeFilter)
  | [], filter =>
    match filter.from', filter.to' with
    | some first, some last =>
      if last ≤ first then .error (timestampError "action time from must be less than action time to.") else .ok ([], filter)
    | _, _ => .ok ([], filter)
  | label :: rest, filter =>
    if Text.startsWith label "action time from " then
      if filter.from'.isSome then .error (timestampError "Duplicate action time from label.")
      else do parseActionTimeLabels rest { filter with from' := some (← parseTimestamp label "from" "action time from ") }
    else if Text.startsWith label "action time to " then
      if filter.to'.isSome then .error (timestampError "Duplicate action time to label.")
      else do parseActionTimeLabels rest { filter with to' := some (← parseTimestamp label "to" "action time to ") }
    else do
      let (remaining, filter) ← parseActionTimeLabels rest filter
      return (label :: remaining, filter)

def parseBrc114ActionTimeLabels (labels : List String) : Except PermissionsError (List String) :=
  (parseActionTimeLabels labels {}).map Prod.fst

namespace PermissionsManager
variable (manager : PermissionsManager)

def isDelegated (name : String) : Bool := Text.startsWith name "p "

def delegateToPModuleIfNeeded (basketOrProtocolName : String) (call : WalletCall) (originator : Option String)
    (underlyingCall : WalletCall → PermissionsM WalletResult) : PermissionsM (Option WalletResult) := do
  if !isDelegated basketOrProtocolName then return none
  else
    let schemeID := Text.secondWord basketOrProtocolName
    if schemeID ∉ manager.config.permissionModules then throw (.error ("Unsupported P-module scheme: p " ++ schemeID))
    else
      let transformed ← .ofExcept (← (onRequest schemeID call originator).await)
      let results ← underlyingCall transformed
      .ofExcept (← (onResponse schemeID (some results) originator).await)

/-- `kind` is `label` or `basket`. -/
def addPModuleByScheme (schemeID kind : String) (modules : List String) : Except PermissionsError (List String) :=
  if schemeID ∈ modules then .ok modules
  else if schemeID ∈ manager.config.permissionModules then .ok (modules ++ [schemeID])
  else .error (.error ("Unsupported P-" ++ kind ++ " scheme: p " ++ schemeID))

/-- The module of a label: a word, one space and a payload after the marker. -/
def parsePLabel (label : String) : Except PermissionsError String :=
  let remainder := label.toList.drop 2
  match remainder.takeWhile (· ≠ ' '), remainder.dropWhile (· ≠ ' ') with
  | [], _ | _, [] | _, [_] => .error (.error ("Invalid P-label format: " ++ label))
  | schemeID, _ :: second :: _ =>
    if second = ' ' then .error (.error ("Invalid P-label format: " ++ label)) else .ok (String.ofList schemeID)

def splitLabelsByPermissionModule : List String → List String → Except PermissionsError (List String × List String)
  | [], modules => .ok ([], modules)
  | label :: rest, modules =>
    if isDelegated label then do
      let schemeID ← parsePLabel label
      splitLabelsByPermissionModule rest (← manager.addPModuleByScheme schemeID "label" modules)
    else do
      let (nonPLabels, modules) ← splitLabelsByPermissionModule rest modules
      return (label :: nonPLabels, modules)

def collectNonPBaskets : List String → List String → Except PermissionsError (List String × List String)
  | [], modules => .ok ([], modules)
  | basket :: rest, modules =>
    if isDelegated basket then do
      collectNonPBaskets rest (← manager.addPModuleByScheme (Text.secondWord basket) "basket" modules)
    else do
      let (nonPBaskets, modules) ← collectNonPBaskets rest modules
      return (basket :: nonPBaskets, modules)

def outputBaskets (outputs : List ActionOutput) : List String :=
  (outputs.filterMap ActionOutput.basket).filter (· ≠ "")

def onRequests (modules : List String) (call : WalletCall) (originator : Option String) : PermissionsM WalletCall :=
  modules.foldlM (fun call scheme => do .ofExcept (← (onRequest scheme call originator).await)) call

def onResponses (modules : List String) (result : Option WalletResult) (originator : Option String) : PermissionsM (Option WalletResult) :=
  modules.reverse.foldlM (fun result scheme => do .ofExcept (← (onResponse scheme result originator).await)) result

def callUnderlying (call : WalletCall) (originator : Option String) : PermissionsM WalletResult := do
  .ofExcept (← (underlying call originator).await)

def decryptMetadata (result : WalletResult) : PermissionsM WalletResult := do
  .ofExcept (← (PermissionsOp.decryptMetadata result).await)

def nonNull (result : Option WalletResult) : PermissionsM WalletResult :=
  match result with
  | some result => return result
  | none => throw (.error "Cannot read properties of null")

def callWithPModules (modules : List String) (call : WalletCall) (originator : Option String) : PermissionsM (Option WalletResult) := do
  let transformed ← onRequests modules call originator
  let result ← callUnderlying transformed originator
  onResponses modules (some result) originator

def maybeEncryptMetadata (plaintext : String) : PermissionsM String := do
  .ofExcept (← (PermissionsOp.maybeEncryptMetadata plaintext).await)

def encryptText (text : String) : PermissionsM String := if text = "" then return text else maybeEncryptMetadata text

def encryptOption (text : Option String) : PermissionsM (Option String) :=
  match text with
  | none => return none
  | some text => return some (← encryptText text)

def encryptInput (input : ActionInput) : PermissionsM ActionInput := do
  return { input with inputDescription := ← encryptText input.inputDescription }

def encryptOutput (output : ActionOutput) : PermissionsM ActionOutput := do
  let outputDescription ← encryptText output.outputDescription
  return { output with outputDescription, customInstructions := ← encryptOption output.customInstructions }

def encryptActionMetadata (args : CreateActionArgs) : PermissionsM CreateActionArgs := do
  let description ← maybeEncryptMetadata args.description
  let inputs ← args.inputs.mapM encryptInput
  let outputs ← args.outputs.mapM encryptOutput
  return { args with description, inputs, outputs }

def enforceSignAndProcess (signAndProcess : Option Bool) (originator : Option String) : Except PermissionsError Bool :=
  if signAndProcess ≠ some true then .ok false
  else if manager.isAdminOriginator originator then .ok true
  else .error (.error "Only the admin originator can set signAndProcess=true explicitly.")

def ensureBaskets (originator : Option String) (reason : String) (baskets : List String) : PermissionsM Unit :=
  baskets.forM fun basket => do
    let _ ← manager.ensureBasketAccess { originator, basket, reason := some reason, usageType := .insertion }

def ensureLabels (originator : Option String) (reason : String) (usageType : LabelUsage) (labels : List String) : PermissionsM Unit :=
  labels.forM fun label => do
    let _ ← manager.ensureLabelAccess { originator, label, reason := some reason, usageType }

def describe (description missing : String) : String := orElseText description missing

def ownInputs (tx : SignableTransaction) (args : CreateActionArgs) : List LineItem :=
  tx.inputs.filterMap fun (outpoint, satoshis) =>
    (args.inputs.find? (·.outpoint = outpoint)).map fun input =>
      ⟨.input, describe input.inputDescription "No input description provided", satoshis⟩

def computeNetSpend (tx : SignableTransaction) (args : CreateActionArgs) : Int × List LineItem :=
  let inputs := ownInputs tx args
  let outputs := args.outputs.map fun output : ActionOutput =>
    (⟨.output, describe output.outputDescription "No output description provided", output.satoshis⟩ : LineItem)
  let netSpent := (outputs.map LineItem.satoshis).sum + tx.fee - (inputs.map LineItem.satoshis).sum
  (netSpent, inputs ++ outputs ++ [⟨.fee, "Network fee", tx.fee⟩])

def ensureNetSpend (tx : SignableTransaction) (args : CreateActionArgs) (originator : Option String) : PermissionsM Unit := do
  let (netSpent, lineItems) := computeNetSpend tx args
  if 0 < netSpent then
    match ← (manager.ensureSpendingAuthorization { originator, satoshis := netSpent, lineItems, reason := some args.description }).settle with
    | .ok _ => return
    | .error error =>
      .ofExcept (← (abortAction tx.reference).await)
      throw error
  else return

def actionLabels (labels : List String) (originator : Option String) (month : String) : List String :=
  labels ++ ["admin originator " ++ originator.getD "undefined", "admin month " ++ month]

def createAction (args : CreateActionArgs) (originator : Option String) : PermissionsM (Option WalletResult) := do
  let (nonPBaskets, modules) ← .ofExcept (manager.collectNonPBaskets (outputBaskets args.outputs) [])
  let (nonPLabels, modules) ← .ofExcept (manager.splitLabelsByPermissionModule args.labels modules)
  manager.ensureBaskets originator args.description nonPBaskets
  manager.ensureLabels originator args.description .apply nonPLabels
  let signAndProcess ← .ofExcept (manager.enforceSignAndProcess args.signAndProcess originator)
  let encrypted ← encryptActionMetadata args
  let month ← (getCurrentMonthYearUTC).await
  let finalArgs := { encrypted with labels := actionLabels args.labels originator month, signAndProcess := some signAndProcess }
  let createResult ← nonNull (← callWithPModules modules (.createAction finalArgs) originator)
  match createResult.signableTransaction with
  | none => return some createResult
  | some tx =>
    manager.ensureNetSpend tx args originator
    if ← .ofExcept (← (isSignAction encrypted).await) then return some createResult
    else
      let signed ← .ofExcept (← (PermissionsOp.signAction tx.reference originator).await)
      return some { signed with signableTransaction := none }

def listActions (labels : List String) (originator : Option String) : PermissionsM (Option WalletResult) := do
  let remaining ← .ofExcept (parseBrc114ActionTimeLabels labels)
  let (nonPLabels, modules) ← .ofExcept (manager.splitLabelsByPermissionModule remaining [])
  manager.ensureLabels originator "listActions" .list nonPLabels
  let results ← nonNull (← callWithPModules modules (.listActions labels) originator)
  return some (← decryptMetadata results)

def insertionBaskets (outputs : List InternalizeOutput) : List String :=
  outputs.filterMap fun
    | .walletPayment => none
    | .basketInsertion basket _ => some basket

def encryptInsertion (output : InternalizeOutput) : PermissionsM InternalizeOutput :=
  match output with
  | .walletPayment => return .walletPayment
  | .basketInsertion basket customInstructions => return .basketInsertion basket (← encryptOption customInstructions)

def ensureInsertion (originator : Option String) (reason : String) (output : InternalizeOutput) : PermissionsM InternalizeOutput :=
  match output with
  | .walletPayment => return .walletPayment
  | .basketInsertion basket customInstructions => do
    if isDelegated basket then return .basketInsertion basket customInstructions
    else
      let _ ← manager.ensureBasketAccess { originator, basket, reason := some reason, usageType := .insertion }
      encryptInsertion (.basketInsertion basket customInstructions)

def encryptInsertions (call : WalletCall) : PermissionsM WalletCall :=
  match call with
  | .internalizeAction args => return .internalizeAction { args with outputs := ← args.outputs.mapM encryptInsertion }
  | other => return other

def internalizeAction (args : InternalizeActionArgs) (originator : Option String) : PermissionsM (Option WalletResult) := do
  let (_, modules) ← .ofExcept (manager.collectNonPBaskets (insertionBaskets args.outputs) [])
  let (nonPLabels, modules) ← .ofExcept (manager.splitLabelsByPermissionModule args.labels modules)
  let outputs ← args.outputs.mapM (manager.ensureInsertion originator args.description)
  manager.ensureLabels originator args.description .apply nonPLabels
  let requestArgs := { args with outputs }
  if modules = [] then return some (← callUnderlying (.internalizeAction requestArgs) originator)
  else
    let transformed ← onRequests modules (.internalizeAction requestArgs) originator
    let results ← callUnderlying (← encryptInsertions transformed) originator
    onResponses modules (some results) originator

def listOutputs (basket : String) (originator : Option String) : PermissionsM (Option WalletResult) := do
  let delegated ← manager.delegateToPModuleIfNeeded basket (.listOutputs basket) originator fun call => do
    decryptMetadata (← callUnderlying call originator)
  if delegated.isSome then return delegated
  else
    let _ ← manager.ensureBasketAccess { originator, basket, reason := some "listOutputs", usageType := .listing }
    return some (← decryptMetadata (← callUnderlying (.listOutputs basket) originator))

def relinquishOutput (basket : String) (originator : Option String) : PermissionsM (Option WalletResult) := do
  let delegated ← manager.delegateToPModuleIfNeeded basket (.relinquishOutput basket) originator fun call =>
    callUnderlying call originator
  if delegated.isSome then return delegated
  else
    let _ ← manager.ensureBasketAccess { originator, basket, reason := some "relinquishOutput", usageType := .removal }
    return some (← callUnderlying (.relinquishOutput basket) originator)

/-- The check of the methods that use a key, with the counterparty they default to. -/
def keyCheck (args : KeyArgs) (originator : Option String) (usageType : ProtocolUsage) : ProtocolCheck where
  originator
  privileged := args.privileged
  protocolID := args.protocolID
  counterparty := orElseText (args.counterparty.getD "") "self"
  reason := args.privilegedReason
  usageType

def useKey (method : KeyMethod) (usageType : ProtocolUsage) (args : KeyArgs) (originator : Option String) :
    PermissionsM (Option WalletResult) := do
  let delegated ← manager.delegateToPModuleIfNeeded args.protocolID.name (.useKey method args) originator fun call =>
    callUnderlying call originator
  if delegated.isSome then return delegated
  else
    let _ ← manager.ensureProtocolPermission (keyCheck args originator usageType)
    return some (← callUnderlying (.useKey method args) originator)

def encrypt := manager.useKey .encrypt .encrypting
def decrypt := manager.useKey .decrypt .encrypting
def createHmac := manager.useKey .createHmac .hmac
def verifyHmac := manager.useKey .verifyHmac .hmac
def createSignature := manager.useKey .createSignature .signing
def verifySignature := manager.useKey .verifySignature .signing

def checkKeyProtocol (args : GetPublicKeyArgs) (originator : Option String) (protocolID : WalletProtocol) :
    PermissionsM (Option WalletResult) := do
  let delegated ← manager.delegateToPModuleIfNeeded protocolID.name (.getPublicKey args) originator fun call =>
    callUnderlying call originator
  if delegated.isSome then return delegated
  else
    let _ ← manager.ensureProtocolPermission
      (keyCheck ⟨protocolID, args.counterparty, args.privileged, args.privilegedReason⟩ originator .publicKey)
    return none

def checkIdentityKey (args : GetPublicKeyArgs) (originator : Option String) : PermissionsM Unit := do
  if args.identityKey then
    let _ ← manager.ensureProtocolPermission
      { originator, privileged := args.privileged, protocolID := ⟨1, "identity key retrieval"⟩, counterparty := "self"
        reason := args.privilegedReason, usageType := .identityKey }

def getPublicKey (args : GetPublicKeyArgs) (originator : Option String) : PermissionsM (Option WalletResult) := do
  let delegated ← match args.protocolID with
    | some protocolID => manager.checkKeyProtocol args originator protocolID
    | none => pure none
  if delegated.isSome then return delegated
  else
    manager.checkIdentityKey args originator
    return some (← callUnderlying (.getPublicKey args) originator)

def linkageProtocol (args : RevealSpecificKeyLinkageArgs) : WalletProtocol :=
  let key := if args.protocolID.level = 2 then args.keyID else "all"
  ⟨2, "specific key linkage revelation " ++ args.protocolID.name ++ " " ++ key⟩

def revealSpecificKeyLinkage (args : RevealSpecificKeyLinkageArgs) (originator : Option String) : PermissionsM (Option WalletResult) := do
  let _ ← manager.ensureProtocolPermission
    { originator, privileged := args.privileged, protocolID := linkageProtocol args
      counterparty := args.verifier, reason := args.privilegedReason, usageType := .linkageRevelation }
  return some (← callUnderlying (.revealSpecificKeyLinkage args) originator)

/-- The method a call is of. -/
def perform (originator : Option String) : WalletCall → PermissionsM (Option WalletResult)
  | .createAction args => manager.createAction args originator
  | .listActions labels => manager.listActions labels originator
  | .internalizeAction args => manager.internalizeAction args originator
  | .listOutputs basket => manager.listOutputs basket originator
  | .relinquishOutput basket => manager.relinquishOutput basket originator
  | .getPublicKey args => manager.getPublicKey args originator
  | .revealSpecificKeyLinkage args => manager.revealSpecificKeyLinkage args originator
  | .useKey .encrypt args => manager.encrypt args originator
  | .useKey .decrypt args => manager.decrypt args originator
  | .useKey .createHmac args => manager.createHmac args originator
  | .useKey .verifyHmac args => manager.verifyHmac args originator
  | .useKey .createSignature args => manager.createSignature args originator
  | .useKey .verifySignature args => manager.verifySignature args originator

end PermissionsManager
end WalletToolbox

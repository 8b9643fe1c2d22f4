import WalletToolbox.Signer.Transactions
import WalletToolbox.Storage.Tables

/-! The transaction of an action: built from what storage has planned, completed with
unlocking scripts, and checked against the outputs it spends. -/

namespace WalletToolbox
open Effects

structure OutPoint where
  txid : String
  vout : Nat
deriving DecidableEq, Repr

structure ValidCreateActionInput where
  outpoint : OutPoint
  sequenceNumber : Nat
  unlockingScript : Option String
  unlockingScriptLength : Nat
deriving DecidableEq, Repr

structure ValidCreateActionOutput where
  lockingScript : String
  satoshis : Nat
deriving DecidableEq, Repr

structure ValidProcessActionOptions where
  acceptDelayedBroadcast : Bool
  returnTXIDOnly : Bool
  noSend : Bool
  sendWith : List String
deriving DecidableEq, Repr

structure ValidProcessActionArgs where
  options : ValidProcessActionOptions
  isNewTx : Bool
  isSendWith : Bool
  isNoSend : Bool
  isDelayed : Bool
deriving DecidableEq, Repr

structure ValidCreateActionArgs extends ValidProcessActionArgs where
  version : Nat
  lockTime : Nat
  inputs : List ValidCreateActionInput
  outputs : List ValidCreateActionOutput
  inputBEEF : Option Bytes
  isSignAction : Bool
  isTestWerrReviewActions : Bool
  includeAllSourceTransactions : Bool
  randomizeOutputs : Bool
deriving DecidableEq, Repr

structure StorageCreateTransactionSdkInput where
  vin : Nat
  sourceTxid : String
  sourceVout : Nat
  sourceSatoshis : Nat
  sourceLockingScript : String
  sourceTransaction : Option Bytes
  unlockingScriptLength : Nat
  type : String
  derivationPrefix : Option String
  derivationSuffix : Option String
  senderIdentityKey : Option String
deriving DecidableEq, Repr

structure StorageCreateTransactionSdkOutput where
  vout : Nat
  satoshis : Nat
  lockingScript : String
  providedBy : StorageProvidedBy
  purpose : Option String
  derivationSuffix : Option String
deriving DecidableEq, Repr

structure StorageCreateActionResult where
  reference : String
  inputs : List StorageCreateTransactionSdkInput
  outputs : List StorageCreateTransactionSdkOutput
  derivationPrefix : String
  inputBeef : Option Bytes
  noSendChangeOutputVouts : Option (List Nat)
deriving DecidableEq, Repr

structure PendingStorageInput where
  vin : Nat
  derivationPrefix : String
  derivationSuffix : String
  unlockerPubKey : Option String
  sourceSatoshis : Nat
  lockingScript : String
deriving DecidableEq, Repr

structure PendingSignAction where
  reference : String
  dcr : StorageCreateActionResult
  args : ValidCreateActionArgs
  tx : Transaction
  amount : Int
  pdi : List PendingStorageInput
deriving DecidableEq, Repr

variable (sdk : Sdk)

def isChange (out : StorageCreateTransactionSdkOutput) : Bool := out.providedBy = .storage && out.purpose = some "change"

def makeChangeLock (dctr : StorageCreateActionResult) (out : StorageCreateTransactionSdkOutput) : Except SignerError Script := do
  let derivationSuffix ← verifyTruthy out.derivationSuffix
  let derivationPrefix ← verifyTruthy (some dctr.derivationPrefix)
  sdk.lock derivationPrefix derivationSuffix

def outputScript (dctr : StorageCreateActionResult) (out : StorageCreateTransactionSdkOutput) : Except SignerError Script :=
  if isChange out then makeChangeLock sdk dctr out else asBsvSdkScript out.lockingScript

def buildOutput (dctr : StorageCreateActionResult) (out : StorageCreateTransactionSdkOutput) : Except SignerError TransactionOutput := do
  let lockingScript ← outputScript sdk dctr out
  return ⟨out.satoshis, lockingScript, isChange out⟩

def outputAt (outputs : List StorageCreateTransactionSdkOutput) (vout : Nat) : Except SignerError StorageCreateTransactionSdkOutput :=
  match outputs.find? (·.vout = vout) with
  | some out => .ok out
  | none => .error (.invalidParameter "output.vout" ("sequential. " ++ toString vout ++ " is missing"))

def dummyOutput : TransactionOutput := ⟨0, [0x00, 0x6a, 0x01, 0x42], false⟩

def buildOutputs (dctr : StorageCreateActionResult) : Except SignerError (List TransactionOutput) := do
  let planned ← (List.range dctr.outputs.length).mapM (outputAt dctr.outputs)
  let outputs ← planned.mapM (buildOutput sdk dctr)
  return if dctr.outputs = [] then [dummyOutput] else outputs

structure BuiltInputs where
  inputs : List TransactionInput := []
  pdi : List PendingStorageInput := []
  totalChangeInputs : Nat := 0

def validateSatoshis (satoshis : Nat) (name : String) : Except SignerError Nat :=
  if satoshis ≤ 2100000000000000 then .ok satoshis
  else .error (.invalidParameter name "less than 2100000000000000")

def callerInput (args : ValidCreateActionArgs) (inputBeef : Option sdk.Beef) (argsInput : ValidCreateActionInput) :
    Except SignerError TransactionInput := do
  let unlockingScript ← asBsvSdkScript (argsInput.unlockingScript.getD "")
  let source := if args.isSignAction then inputBeef.bind fun beef => sdk.findTx beef argsInput.outpoint.txid else none
  return {
    sourceTXID := argsInput.outpoint.txid
    sourceOutputIndex := argsInput.outpoint.vout
    sourceTransaction := source.map sdk.toBinary
    unlockingScript := some unlockingScript
    sequence := argsInput.sequenceNumber }

def walletInput (storageInput : StorageCreateTransactionSdkInput) : Except SignerError TransactionInput := do
  let source ← storageInput.sourceTransaction.mapM sdk.transactionFromBinary
  return {
    sourceTXID := storageInput.sourceTxid
    sourceOutputIndex := storageInput.sourceVout
    sourceTransaction := source.map sdk.toBinary
    unlockingScript := some []
    sequence := 0xffffffff }

def pendingInput (vin : Nat) (storageInput : StorageCreateTransactionSdkInput) : Except SignerError PendingStorageInput := do
  if storageInput.type ≠ "P2PKH" then
    throw (.invalidParameter "type" ("vin " ++ toString storageInput.vin ++ ", \"" ++ storageInput.type ++
      "\" is not a supported unlocking script type."))
  else
    return {
      vin
      derivationPrefix := ← verifyTruthy storageInput.derivationPrefix
      derivationSuffix := ← verifyTruthy storageInput.derivationSuffix
      unlockerPubKey := storageInput.senderIdentityKey
      sourceSatoshis := storageInput.sourceSatoshis
      lockingScript := storageInput.sourceLockingScript }

def addInput (args : ValidCreateActionArgs) (inputBeef : Option sdk.Beef) (built : BuiltInputs)
    (storageInput : StorageCreateTransactionSdkInput) : Except SignerError BuiltInputs :=
  match args.inputs[storageInput.vin]? with
  | some argsInput => do
    let input ← callerInput sdk args inputBeef argsInput
    return { built with inputs := built.inputs ++ [input] }
  | none => do
    let pending ← pendingInput built.inputs.length storageInput
    let input ← walletInput sdk storageInput
    let satoshis ← validateSatoshis storageInput.sourceSatoshis "storageInput.sourceSatoshis"
    return ⟨built.inputs ++ [input], built.pdi ++ [pending], built.totalChangeInputs + satoshis⟩

def sortInputs (inputs : List StorageCreateTransactionSdkInput) : List StorageCreateTransactionSdkInput :=
  inputs.mergeSort fun first second => first.vin ≤ second.vin

def totalChangeOutputs (outputs : List StorageCreateTransactionSdkOutput) : Nat :=
  ((outputs.filter (·.purpose = some "change")).map (·.satoshis)).sum

def buildSignableTransaction (dctr : StorageCreateActionResult) (args : ValidCreateActionArgs) : Except SignerError PendingSignAction := do
  let inputBeef ← args.inputBEEF.mapM sdk.fromBinary
  let outputs ← buildOutputs sdk dctr
  let built ← (sortInputs dctr.inputs).foldlM (addInput sdk args inputBeef) {}
  return {
    reference := dctr.reference
    dcr := dctr
    args
    tx := ⟨args.version, built.inputs, outputs, args.lockTime⟩
    amount := (built.totalChangeInputs : Int) - totalChangeOutputs dctr.outputs
    pdi := built.pdi }

structure SignActionSpend where
  unlockingScript : String
  sequenceNumber : Option Nat
deriving DecidableEq, Repr

abbrev PendingM := Fallible SignerError PendingSignAction

def PendingSignAction.setInput (prior : PendingSignAction) (vin : Nat) (input : TransactionInput) : PendingSignAction :=
  { prior with tx := { prior.tx with inputs := prior.tx.inputs.set vin input } }

def spendRefused (createInput : ValidCreateActionInput) (spend : SignActionSpend) : Option SignerError :=
  if createInput.unlockingScript.getD "" ≠ "" then
    some (.invalidParameter "args" "spend does not correspond to prior input with valid unlockingScriptLength.")
  else if 2 * createInput.unlockingScriptLength < spend.unlockingScript.length then
    some (.invalidParameter "args" ("spend unlockingScript length " ++ toString spend.unlockingScript.length ++
      " exceeds expected length " ++ toString createInput.unlockingScriptLength))
  else none

def spentInput (prior : PendingSignAction) (vin : Nat) (spend : SignActionSpend) : Except SignerError TransactionInput :=
  match prior.args.inputs[vin]?, prior.tx.inputs[vin]? with
  | some createInput, some input =>
    match spendRefused createInput spend with
    | some error => .error error
    | none => do
      let script ← asBsvSdkScript spend.unlockingScript
      return { input with unlockingScript := some script, sequence := spend.sequenceNumber.getD input.sequence }
  | _, _ => .error (.invalidParameter "args" "spend does not correspond to prior input with valid unlockingScriptLength.")

def insertSpend (vin : Nat) (spend : SignActionSpend) : PendingM Unit := do
  let prior ← Fallible.current
  let input ← Fallible.ofExcept (spentInput prior vin spend)
  Fallible.change fun prior => prior.setInput vin input

def unlockTemplate (pdi : PendingStorageInput) : Except SignerError UnlockTemplate := do
  return {
    derivationPrefix := ← verifyTruthy (some pdi.derivationPrefix)
    derivationSuffix := ← verifyTruthy (some pdi.derivationSuffix)
    unlockerPubKey := pdi.unlockerPubKey
    sourceSatoshis := pdi.sourceSatoshis
    lockingScript := ← asBsvSdkScript pdi.lockingScript }

def templatedInput (prior : PendingSignAction) (pdi : PendingStorageInput) : Except SignerError TransactionInput := do
  let template ← unlockTemplate pdi
  match prior.tx.inputs[pdi.vin]? with
  | some input => return { input with unlockingScriptTemplate := some template }
  | none => throw (.error "Cannot set properties of undefined")

def insertTemplate (pdi : PendingStorageInput) : PendingM Unit := do
  let prior ← Fallible.current
  let input ← Fallible.ofExcept (templatedInput prior pdi)
  Fallible.change fun prior => prior.setInput pdi.vin input

/-- What the completion does before the signatures are awaited. -/
def insertScripts (spends : List (Nat × SignActionSpend)) : PendingM Unit := do
  spends.forM fun (vin, spend) => insertSpend vin spend
  let prior ← Fallible.current
  prior.pdi.forM insertTemplate

def signInputs : PendingM Unit := do
  let prior ← Fallible.current
  let tx ← Fallible.ofExcept (prior.tx.sign sdk)
  Fallible.change fun prior => { prior with tx }

def completeSignedTransaction (spends : List (Nat × SignActionSpend)) : PendingM Unit := do
  insertScripts spends
  signInputs sdk

def hasSources (beef : sdk.Beef) : List TransactionInput → Nat → Except SignerError Bool
  | [], _ => .ok true
  | input :: rest, vin =>
    if input.sourceTXID = "" then .error (.invalidParameter ("inputs[" ++ toString vin ++ "].sourceTXID") "valid")
    else if input.unlockingScript = none then .error (.invalidParameter ("inputs[" ++ toString vin ++ "].unlockingScript") "valid")
    else if sdk.findTx beef input.sourceTXID = none then .ok false
    else hasSources beef rest (vin + 1)

def spendOf (tx : Transaction) (vin : Nat) (input : TransactionInput) (source : TransactionOutput) (unlockingScript : Script) : Spend where
  sourceTXID := input.sourceTXID
  sourceOutputIndex := input.sourceOutputIndex
  lockingScript := source.lockingScript
  sourceSatoshis := source.satoshis
  transactionVersion := tx.version
  otherInputs := tx.otherInputs vin
  unlockingScript
  inputSequence := input.sequence
  inputIndex := vin
  outputs := tx.outputs
  lockTime := tx.lockTime

def sourceOutput (beef : sdk.Beef) (input : TransactionInput) : Option TransactionOutput := do
  let source ← sdk.findTx beef input.sourceTXID
  source.outputs[input.sourceOutputIndex]?

def verifySpend (beef : sdk.Beef) (tx : Transaction) (input : TransactionInput) (vin : Nat) : Except SignerError Unit :=
  match sourceOutput sdk beef input, input.unlockingScript with
  | some source, some script =>
    match sdk.validate (spendOf tx vin input source script) with
    | .ok true => .ok ()
    | .ok false => .error (.invalidParameter ("inputs[" ++ toString vin ++ "].unlockScript")
        ("valid. " ++ (SignerError.invalidParameter ("inputs[" ++ toString vin ++ "].unlockScript") "valid").message))
    | .error error => .error (.invalidParameter ("inputs[" ++ toString vin ++ "].unlockScript") ("valid. " ++ error.message))
  | _, _ => .error (.error "Cannot read properties of undefined (reading 'lockingScript')")

/-- A transaction that lacks a source transaction is not checked. -/
def verifyUnlockScripts (txid : String) (beef : sdk.Beef) : Except SignerError Unit :=
  match sdk.findTx beef txid with
  | none => .error (.invalidParameter "txid" ("contained in beef, txid " ++ txid))
  | some tx => do
    if ← hasSources sdk beef tx.inputs 0 then tx.inputs.zipIdx.forM fun (input, vin) => verifySpend sdk beef tx input vin

end WalletToolbox

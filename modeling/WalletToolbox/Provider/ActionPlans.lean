import WalletToolbox.Signer.SignableTransactions
import WalletToolbox.Language.Numerals

/-! `createAction` of storage, as far as it plans a transaction: its inputs and outputs and
the size its fee is computed for. What storage knows and what funding allocates is given;
what `createAction` writes is left out. -/

namespace WalletToolbox

def varUintSize (val : Nat) : Nat := if val ≤ 0xfc then 1 else if val ≤ 0xffff then 3 else if val ≤ 0xffffffff then 5 else 9

def transactionInputSize (scriptSize : Nat) : Nat := 32 + 4 + varUintSize scriptSize + scriptSize + 4

def transactionOutputSize (scriptSize : Nat) : Nat := varUintSize scriptSize + scriptSize + 8

def transactionSize (inputs outputs : List Nat) : Nat :=
  4 + varUintSize inputs.length + (inputs.map transactionInputSize).sum +
    varUintSize outputs.length + (outputs.map transactionOutputSize).sum + 4

def changeLockingScriptLength : Nat := 25

def changeUnlockingScriptLength : Nat := 107

structure XValidCreateActionInput extends ValidCreateActionInput where
  vin : Nat
  satoshis : Nat
  lockingScript : Script
  output : Option TableOutput

structure XValidCreateActionOutput extends ValidCreateActionOutput where
  vout : Nat
  providedBy : StorageProvidedBy
  purpose : Option String

/-- A random number below one, in parts of 2^32. -/
abbrev RandomValue := Fin 4294967296

/-- What storage knows, and the random numbers it will draw. -/
structure ActionStorage where
  findOutput : OutPoint → Option TableOutput
  findOutput_found : ∀ outpoint output, findOutput outpoint = some output →
    output.txid = some outpoint.txid ∧ output.vout = outpoint.vout
  /-- The satoshis and the script of an output that is in the Beef or known to be valid. -/
  sourceOutput : OutPoint → Except SignerError (Nat × Script)
  getRawTx : Option String → Option Bytes
  /-- The script and the satoshis of the service charge, if there is one. -/
  commission : Option ValidCreateActionOutput
  reference : String
  inputBeef : Option Bytes
  random : Nat → RandomValue

structure Funding where
  allocatedChange : List TableOutput
  changeOutputs : List (Nat × String)
  derivationPrefix : String
  maxPossibleSatoshisAdjustment : Option (Nat × Nat)

variable (storage : ActionStorage)

def tableSatoshis (satoshis : Int) (name : String) : Except SignerError Nat :=
  if satoshis < 0 then .error (.invalidParameter name "a non-negative integer") else validateSatoshis satoshis.toNat name

def knownInput (input : ValidCreateActionInput) (vin : Nat) (output : TableOutput) : Except SignerError XValidCreateActionInput :=
  if output.change then .error (.invalidParameter ("inputs[" ++ toString vin ++ "]") "an unmanaged input. Change outputs are managed by your wallet.")
  else
    match output.lockingScript with
    | none => .error (.invalidParameter (input.outpoint.txid ++ "." ++ toString input.outpoint.vout) "output with valid lockingScript and satoshis")
    | some lockingScript => do
      return { input with vin, satoshis := ← tableSatoshis output.satoshis "output.satoshis", lockingScript, output := some output }

def resolveInputScript (input : ValidCreateActionInput) (vin : Nat) : Except SignerError XValidCreateActionInput :=
  match storage.findOutput input.outpoint with
  | some output => knownInput input vin output
  | none => do
    let (satoshis, lockingScript) ← storage.sourceOutput input.outpoint
    return { input with vin, satoshis := ← validateSatoshis satoshis "so.satoshis", lockingScript, output := none }

def validateRequiredInputs (vargs : ValidCreateActionArgs) : Except SignerError (List XValidCreateActionInput) :=
  vargs.inputs.zipIdx.mapM fun (input, vin) => resolveInputScript storage input vin

def validateRequiredOutputs (vargs : ValidCreateActionArgs) : List XValidCreateActionOutput :=
  let asked := vargs.outputs.zipIdx.map fun (output, vout) => { output with vout, providedBy := .you, purpose := none }
  match storage.commission with
  | none => asked
  | some charge => asked ++ [{ charge with vout := vargs.outputs.length, providedBy := .storage, purpose := some "service-charge" }]

/-- The size for which `generateChangeSdk` computes the fee. -/
def fundedSize (xinputs : List XValidCreateActionInput) (xoutputs : List XValidCreateActionOutput) (funding : Funding) : Nat :=
  transactionSize
    (xinputs.map (·.unlockingScriptLength) ++ List.replicate funding.allocatedChange.length changeUnlockingScriptLength)
    (xoutputs.map (·.lockingScript.length / 2) ++ List.replicate funding.changeOutputs.length changeLockingScriptLength)

def adjustOutputs (xoutputs : List XValidCreateActionOutput) (funding : Funding) : List XValidCreateActionOutput :=
  match funding.maxPossibleSatoshisAdjustment with
  | none => xoutputs
  | some (fixedOutputIndex, satoshis) => xoutputs.modify fixedOutputIndex fun output => { output with satoshis }

structure NewOutput where
  vout : Nat
  satoshis : Nat
  lockingScript : Option Script
  providedBy : StorageProvidedBy
  purpose : String
  derivationSuffix : Option String

def newFixedOutput (xo : XValidCreateActionOutput) : Except SignerError NewOutput := do
  let lockingScript ← asBsvSdkScript xo.lockingScript
  return if xo.purpose = some "service-charge" then ⟨xo.vout, xo.satoshis, some lockingScript, .storage, "storage-commission", none⟩
    else ⟨xo.vout, xo.satoshis, some lockingScript, xo.providedBy, xo.purpose.getD "", none⟩

def newChangeOutput (vout : Nat) (change : Nat × String) : NewOutput :=
  ⟨vout, change.1, none, .storage, "change", some change.2⟩

/-- Exchange the last of the first `cur` places with a random one of them, and go on below. -/
def shuffleVouts (random : Nat → RandomValue) : (cur : Nat) → (newVouts : Array Nat) → Array Nat
  | 0, newVouts => newVouts
  | cur + 1, newVouts =>
    let rnd := (random cur).val * (cur + 1) / 4294967296
    shuffleVouts random cur (newVouts.swapIfInBounds cur rnd)

def reassignVout (newVouts : Array Nat) (output : NewOutput) (vout : Nat) : Except SignerError NewOutput :=
  if output.vout ≠ vout then .error (.internal ("new output " ++ toString vout ++ " has out of order vout " ++ toString output.vout))
  else .ok { output with vout := newVouts[vout]?.getD 0 }

def randomizeOutputVouts (random : Nat → RandomValue) (newOutputs : List NewOutput) : Except SignerError (List NewOutput) :=
  let newVouts := shuffleVouts random newOutputs.length (Array.range newOutputs.length)
  newOutputs.zipIdx.mapM fun (output, vout) => reassignVout newVouts output vout

def placeOutputs (vargs : ValidCreateActionArgs) (newOutputs : List NewOutput) : Except SignerError (List NewOutput) :=
  if vargs.randomizeOutputs then randomizeOutputVouts storage.random newOutputs else .ok newOutputs

def persistNewOutput (output : NewOutput) : Except SignerError StorageCreateTransactionSdkOutput := do
  return {
    vout := output.vout
    satoshis := ← validateSatoshis output.satoshis "o.satoshis"
    lockingScript := (output.lockingScript.map Hex.encode).getD ""
    providedBy := output.providedBy
    purpose := if output.purpose = "" then none else some output.purpose
    derivationSuffix := output.derivationSuffix }

def createNewOutputs (vargs : ValidCreateActionArgs) (xoutputs : List XValidCreateActionOutput) (funding : Funding) :
    Except SignerError (List StorageCreateTransactionSdkOutput) := do
  let asked ← xoutputs.mapM newFixedOutput
  let change := funding.changeOutputs.zipIdx.map fun (change, i) => newChangeOutput (xoutputs.length + i) change
  let newOutputs ← placeOutputs storage vargs (asked ++ change)
  newOutputs.mapM persistNewOutput

def changeVouts (outputs : List StorageCreateTransactionSdkOutput) : List Nat := (outputs.filter isChange).map (·.vout)

def rowScript (output : TableOutput) : Except SignerError String :=
  match output.lockingScript with
  | none => .error (.error "Cannot read properties of undefined")
  | some lockingScript => .ok (Hex.encode lockingScript)

def orNone (text : Option String) : Option String := if text = some "" then none else text

def buildSdkInputFromOutput (vargs : ValidCreateActionArgs) (vin unlockingScriptLength : Nat) (output : TableOutput) :
    Except SignerError StorageCreateTransactionSdkInput := do
  return {
    vin
    sourceTxid := output.txid.getD ""
    sourceVout := output.vout
    sourceSatoshis := output.satoshis.toNat
    sourceLockingScript := ← rowScript output
    sourceTransaction := if vargs.includeAllSourceTransactions && vargs.isSignAction then storage.getRawTx output.txid else none
    unlockingScriptLength
    type := output.type
    derivationPrefix := orNone output.derivationPrefix
    derivationSuffix := orNone output.derivationSuffix
    senderIdentityKey := orNone output.senderIdentityKey }

def buildSdkInputFromXInput (vin : Nat) (i : XValidCreateActionInput) : StorageCreateTransactionSdkInput where
  vin
  sourceTxid := i.outpoint.txid
  sourceVout := i.outpoint.vout
  sourceSatoshis := i.satoshis
  sourceLockingScript := Hex.encode i.lockingScript
  sourceTransaction := none
  unlockingScriptLength := i.unlockingScriptLength
  type := "custom"
  derivationPrefix := none
  derivationSuffix := none
  senderIdentityKey := none

def sdkInput (vargs : ValidCreateActionArgs) (vin : Nat) (i : XValidCreateActionInput) : Except SignerError StorageCreateTransactionSdkInput :=
  match i.output with
  | some output => buildSdkInputFromOutput storage vargs vin i.unlockingScriptLength output
  | none => .ok (buildSdkInputFromXInput vin i)

def createNewInputs (vargs : ValidCreateActionArgs) (xinputs : List XValidCreateActionInput) (allocatedChange : List TableOutput) :
    Except SignerError (List StorageCreateTransactionSdkInput) := do
  let asked ← xinputs.zipIdx.mapM fun (i, vin) => sdkInput storage vargs vin i
  let allocated ← (allocatedChange.zipIdx xinputs.length).mapM fun (output, vin) =>
    buildSdkInputFromOutput storage vargs vin changeUnlockingScriptLength output
  return asked ++ allocated

/-- What is planned, and the size its fee is computed for. -/
structure ActionPlan where
  result : StorageCreateActionResult
  size : Nat
deriving DecidableEq, Repr

def planAction (vargs : ValidCreateActionArgs) (funding : Funding) : Except SignerError ActionPlan := do
  let xinputs ← validateRequiredInputs storage vargs
  let xoutputs := validateRequiredOutputs storage vargs
  let outputs ← createNewOutputs storage vargs (adjustOutputs xoutputs funding) funding
  let inputs ← createNewInputs storage vargs xinputs funding.allocatedChange
  return {
    result := {
      reference := storage.reference
      inputs
      outputs
      derivationPrefix := funding.derivationPrefix
      inputBeef := storage.inputBeef
      noSendChangeOutputVouts := if vargs.isNoSend then some (changeVouts outputs) else none }
    size := fundedSize xinputs xoutputs funding }

end WalletToolbox

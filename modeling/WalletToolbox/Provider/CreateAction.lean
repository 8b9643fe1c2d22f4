import WalletToolbox.Provider.AttemptToPostReqsToNetwork
import WalletToolbox.Provider.GenerateChange
import WalletToolbox.Provider.StorageReaderWriter

/-! `createAction` of storage as it runs: what it looks up, the rows it writes and where it
gives up. Beefs are the SDK's; the change of the transaction is generated by
`generateChangeSdk`, whose allocations and releases are storage calls here. -/

namespace WalletToolbox
open Async StorageCall StorageReaderWriter

namespace CreateAction

structure ValidCreateActionInput where
  outpoint : Outpoint
  inputDescription : String
  unlockingScriptLength : Nat
deriving DecidableEq, Repr

structure ValidCreateActionOutput where
  lockingScript : String
  satoshis : Int
  outputDescription : String
  basket : Option String
  customInstructions : Option String
  tags : List String
deriving DecidableEq, Repr

structure ValidCreateActionArgs where
  description : String
  version : Nat
  lockTime : Nat
  labels : List String
  inputs : List ValidCreateActionInput
  outputs : List ValidCreateActionOutput
  inputBEEF : Option Bytes
  isNewTx : Bool
  isNoSend : Bool
  isDelayed : Bool
  isSignAction : Bool
  isTestWerrReviewActions : Bool
  includeAllSourceTransactions : Bool
  trustSelf : Bool
  randomizeOutputs : Bool
  returnTXIDOnly : Bool
  noSendChange : List Outpoint
  knownTxids : List String

structure XValidCreateActionInput extends ValidCreateActionInput where
  vin : Nat
  lockingScript : Script
  satoshis : Int
  output : Option TableOutput

structure XValidCreateActionOutput extends ValidCreateActionOutput where
  vout : Nat
  providedBy : StorageProvidedBy
  purpose : Option String
  derivationSuffix : Option String
  keyOffset : Option String
deriving DecidableEq, Repr

/-- A random number below one: what is left of its products with counts when they are
rounded down, however they were rounded before. -/
structure RandomVal where
  floorOf : Nat → Nat
  below : ∀ count, 0 < count → floorOf count < count

structure StorageFeeModel where
  rated : Bool
  feeOfSize : Nat → Int

structure ServiceCharge where
  script : String
  keyOffset : String
  satoshis : Int

/-- What the SDK does with Beefs. -/
structure BeefSdk where
  Beef : Type
  empty : Beef
  fromInput : Bytes → Except WalletError Beef
  txs : Beef → List (String × Bool)
  mergeTxidOnly : Beef → String → Beef
  makeTxidOnly : Beef → String → Beef
  mergeRawTx : Beef → Bytes → Except WalletError Beef
  mergeProof : Beef → TableProvenTx → Except WalletError Beef
  verify : Beef → Except WalletError Bool
  outputs : Beef → String → List (Int × Script)
  toBinary : Beef → Bytes

/-- The provider, and what is random. -/
structure ActionStorage extends BeefSdk where
  commission : Option ServiceCharge
  feeModel : StorageFeeModel
  countChangeInputs : (userId basketId : Nat) → (excludeSending : Bool) → StorageM Nat
  /-- Looks transactions up; a proof that the services have is stored. -/
  getBeefForTransaction : Beef → String → StorageM Beef
  disableDoubleSpendCheckForTest : Bool
  reference : String
  /-- `randomDerivation(16)`: the prefix, and the suffixes of the change outputs. -/
  derivationPrefix : String
  derivationSuffix : Nat → String
  random : Nat → RandomValue
  /-- What is drawn for the vouts: `vargs.randomVals` in turn, or random bytes. -/
  randomVals : Nat → RandomVal
  rounds : Nat

inductive ActionFailure where
  | thrown (error : WalletError)
  /-- `WERR_REVIEW_ACTIONS` for a double spend, with the competing transaction. -/
  | reviewActions (competingTxid : String)
  | dummyReviewActions
  | unfinished
deriving DecidableEq, Repr

abbrev ActionM := Program storage ActionFailure

def ActionM.lift {α : Type} (program : StorageM α) : ActionM α := program.handle fun error => .fail (.thrown error)

variable (storage : ActionStorage)

/-- A proof that is found leaves the raw transaction out. -/
def getProvenOrRawTx (txid : String) : StorageM StorageRocksDb.ProvenOrRawTx := do
  match ← verifyOneOrNone (← (find .provenTxs { txid }).await) with
  | some proven => return ⟨some proven, none, none⟩
  | none =>
    match ← verifyOneOrNone (← (find .provenTxReqs { txid }).await) with
    | some req => return if req.status ∈ validReqStatuses then ⟨none, some req.rawTx, req.inputBEEF⟩ else ⟨none, none, none⟩
    | none => return ⟨none, none, none⟩

def verifyKnownValidTransaction (txid : String) : StorageM Bool := do
  let found ← getProvenOrRawTx txid
  return found.proven.isSome || found.rawTx.isSome

/-- A transaction of which there is only the txid has to be known. -/
def validateBeefTxidOnlyEntries (inputTxids : List String) (trustSelf : Bool) : List (String × Bool) → StorageM Unit
  | [] => return
  | (txid, isTxidOnly) :: rest => do
    if isTxidOnly then
      if trustSelf = false then throw (.invalidParameter "inputBEEF" ("valid and contain complete proof data for " ++ txid))
      else if txid ∉ inputTxids then
        if ← verifyKnownValidTransaction txid then pure ()
        else throw (.invalidParameter "inputBEEF" ("valid and contain complete proof data for unknown " ++ txid))
    validateBeefTxidOnlyEntries inputTxids trustSelf rest

def findTxid (beef : storage.Beef) (txid : String) : Option (String × Bool) := (storage.txs beef).find? (·.1 = txid)

def ensureBeefContainsAllInputTxids (trustSelf : Bool) : List String → storage.Beef → StorageM storage.Beef
  | [], beef => return beef
  | txid :: rest, beef => do
    match findTxid storage beef txid with
    | some _ => ensureBeefContainsAllInputTxids trustSelf rest beef
    | none =>
      let known ← if trustSelf then verifyKnownValidTransaction txid else pure false
      if known then ensureBeefContainsAllInputTxids trustSelf rest (storage.mergeTxidOnly beef txid)
      else throw (.invalidParameter "inputBEEF" ("valid and contain proof data for possibly known " ++ txid))

def inputName (vin : Nat) : String := "inputs[" ++ toString vin ++ "]"

def outpointName (outpoint : Outpoint) : String := outpoint.txid ++ "." ++ toString outpoint.vout

def resolveStoredInput (vargs : ValidCreateActionArgs) (input : ValidCreateActionInput) (vin : Nat) (output : TableOutput) :
    Except WalletError XValidCreateActionInput :=
  if output.change then .error (.invalidParameter (inputName vin) "an unmanaged input. Change outputs are managed by your wallet.")
  else
    match output.lockingScript with
    | none => .error (.invalidParameter (outpointName input.outpoint) "output with valid lockingScript and satoshis")
    | some lockingScript =>
      if storage.disableDoubleSpendCheckForTest = false ∧ output.spendable = false ∧ vargs.isNoSend = false then
        .error (.invalidParameter (outpointName input.outpoint) "spendable output unless noSend is true")
      else do
        validateChangeSatoshis output.satoshis "output.satoshis" 0
        return { input with vin, lockingScript, satoshis := output.satoshis, output := some output }

def mergeSource (beef : storage.Beef) (txid : String) : StorageM storage.Beef := do
  let found ← getProvenOrRawTx txid
  match found.rawTx with
  | none => throw (.invalidParameter "inputBEEF" ("valid and contain proof data for " ++ txid))
  | some rawTx =>
    let merged ← .ofExcept (storage.mergeRawTx beef rawTx)
    match found.proven with
    | none => return merged
    | some proven => .ofExcept (storage.mergeProof merged proven)

def resolveBeefInput (beef : storage.Beef) (input : ValidCreateActionInput) (vin : Nat) : StorageM (XValidCreateActionInput × storage.Beef) := do
  let txid := input.outpoint.txid
  let beef ← if (findTxid storage beef txid).any (·.2) then mergeSource storage beef txid else pure beef
  match (storage.outputs beef txid)[input.outpoint.vout]? with
  | none => throw (.invalidParameter (outpointName input.outpoint) "valid outpoint")
  | some (satoshis, lockingScript) =>
    .ofExcept (validateChangeSatoshis satoshis "so.satoshis" 0)
    return ({ input with vin, lockingScript, satoshis, output := none }, beef)

/-- Each input is looked up once more when it was not among the preloaded ones. -/
def resolveInputScripts (userId : Nat) (vargs : ValidCreateActionArgs) :
    List ((ValidCreateActionInput × Option TableOutput) × Nat) → storage.Beef → StorageM (List XValidCreateActionInput × storage.Beef)
  | [], beef => return ([], beef)
  | ((input, preloaded), vin) :: rest, beef => do
    let output ← match preloaded with
      | some output => pure (some output)
      | none => findOutputByOutpoint userId input.outpoint
    let (resolved, beef) ← match output with
      | some output => do pure (← .ofExcept (resolveStoredInput storage vargs input vin output), beef)
      | none => resolveBeefInput storage beef input vin
    let (others, beef) ← resolveInputScripts userId vargs rest beef
    return (resolved :: others, beef)

structure RequiredInputs where
  storageBeef : storage.Beef
  beef : storage.Beef
  xinputs : List XValidCreateActionInput

def validateRequiredInputs (userId : Nat) (vargs : ValidCreateActionArgs) : StorageM (RequiredInputs storage) :=
  if vargs.inputs = [] then return ⟨storage.empty, storage.empty, []⟩
  else do
    let beef ← match vargs.inputBEEF with
      | some inputBEEF => .ofExcept (storage.fromInput inputBEEF)
      | none => pure storage.empty
    let inputTxids := (vargs.inputs.map (·.outpoint.txid)).eraseDups
    validateBeefTxidOnlyEntries inputTxids vargs.trustSelf (storage.txs beef)
    let storageBeef ← ensureBeefContainsAllInputTxids storage vargs.trustSelf inputTxids beef
    if ← .ofExcept (storage.verify storageBeef) then
      let preloaded ← findOutputsByOutpoints userId (vargs.inputs.map (·.outpoint))
      let (xinputs, beef) ← resolveInputScripts storage userId vargs ((vargs.inputs.zip (preloaded.map Prod.snd)).zipIdx) storageBeef
      return ⟨storageBeef, beef, xinputs⟩
    else throw (.invalidParameter "inputBEEF" "valid Beef when factoring options.trustSelf")

def requiredOutput (output : ValidCreateActionOutput) (vout : Nat) : XValidCreateActionOutput :=
  { output with vout, providedBy := .you, purpose := none, derivationSuffix := none, keyOffset := none }

def serviceChargeOutput (charge : ServiceCharge) (vout : Nat) : XValidCreateActionOutput where
  lockingScript := charge.script
  satoshis := charge.satoshis
  outputDescription := "Storage Service Charge"
  basket := none
  customInstructions := none
  tags := []
  vout := vout
  providedBy := .storage
  purpose := some "service-charge"
  derivationSuffix := none
  keyOffset := some charge.keyOffset

def validateRequiredOutputs (vargs : ValidCreateActionArgs) : List XValidCreateActionOutput :=
  (vargs.outputs.zipIdx.map fun (output, vout) => requiredOutput output vout) ++
    (storage.commission.map fun charge => serviceChargeOutput charge vargs.outputs.length).toList

def isNoSendChange (changeBasket : TableOutputBasket) (output : TableOutput) : Bool :=
  output.providedBy = .storage && output.purpose = "change" && output.spendable && output.spentBy.isNone && output.satoshis ≠ 0 &&
    output.basketId = some changeBasket.basketId

def findNoSendChange (userId : Nat) (changeBasket : TableOutputBasket) : List Outpoint → List TableOutput → StorageM (List TableOutput)
  | [], r => return r
  | outpoint :: rest, r => do
    match ← findOutputByOutpoint userId outpoint with
    | none => throw (.invalidParameter "noSendChange outpoint" "valid")
    | some output =>
      if isNoSendChange changeBasket output = false then throw (.invalidParameter "noSendChange outpoint" "valid")
      else if r.any (·.outputId = output.outputId) then
        throw (.invalidParameter "noSendChange outpoint" "unique. Duplicates are not allowed.")
      else findNoSendChange userId changeBasket rest (r ++ [output])

def validateNoSendChange (userId : Nat) (vargs : ValidCreateActionArgs) (changeBasket : TableOutputBasket) : StorageM (List TableOutput) :=
  if vargs.isNoSend = false then return [] else findNoSendChange userId changeBasket vargs.noSendChange []

/-- Without candidates for change, a deficit is certain. -/
def preflightInsufficientFundsFastPath (xinputs : List XValidCreateActionInput) (xoutputs : List XValidCreateActionOutput)
    (noSendChangeIn : List TableOutput) (availableChangeCount : Nat) (feeModel : StorageFeeModel) : Except WalletError Unit :=
  if feeModel.rated = false then .ok ()
  else
    let fixedInputSatoshis := (xinputs.map (·.satoshis)).sum
    let noSendSatoshis := (noSendChangeIn.map TableOutput.satoshis).sum
    let spending := (xoutputs.map (·.satoshis)).sum
    let minSize := transactionSize (xinputs.map (·.unlockingScriptLength)) (xoutputs.map (·.lockingScript.length / 2))
    let minRequired := spending + feeModel.feeOfSize minSize
    let fixedAvailable := fixedInputSatoshis + noSendSatoshis
    if minRequired ≤ fixedAvailable then .ok ()
    else if availableChangeCount = 0 then .error (.insufficientFunds minRequired (minRequired - fixedAvailable))
    else .ok ()

structure CreateTransactionSdkContext where
  xinputs : List XValidCreateActionInput
  xoutputs : List XValidCreateActionOutput
  changeBasket : TableOutputBasket
  noSendChangeIn : List TableOutput
  availableChangeCount : Nat
  feeModel : StorageFeeModel
  transactionId : Nat

def roundedQuarter (value : Int) : Int := (value + 2) / 4

def fundingParams (random : Nat → RandomValue) (ctx : CreateTransactionSdkContext) : GenerateChangeSdkParams where
  fixedInputs := ctx.xinputs.map fun xi => ⟨xi.satoshis, xi.unlockingScriptLength⟩
  fixedOutputs := ctx.xoutputs.map fun xo => ⟨xo.satoshis, xo.lockingScript.length / 2⟩
  feeOfSize := ctx.feeModel.feeOfSize
  targetNetCount := some (ctx.changeBasket.numberOfDesiredUTXOs - ctx.availableChangeCount)
  changeInitialSatoshis := max 1 ctx.changeBasket.minimumDesiredUTXOValue
  changeFirstSatoshis := max 1 (roundedQuarter ctx.changeBasket.minimumDesiredUTXOValue)
  changeLockingScriptLength := WalletToolbox.changeLockingScriptLength
  changeUnlockingScriptLength := WalletToolbox.changeUnlockingScriptLength
  maxChangeOutputs := none
  random := random

structure ChangeHolding where
  /-- What is left of the `noSendChange` list; the first one here is allocated next. -/
  noSendChange : List TableOutput
  outputs : List TableOutput

section
variable (userId : Nat) (vargs : ValidCreateActionArgs) (ctx : CreateTransactionSdkContext)

def allocateChangeInput (targetSatoshis : Int) (exactSatoshis : Option Int) (holding : ChangeHolding) :
    StorageM (Option GenerateChangeSdkChangeInput × ChangeHolding) := do
  match holding.noSendChange with
  | o :: noSendChange =>
    let _ ← (update .outputs o.outputId { spendable := some false, spentBy := some (some ctx.transactionId) }).await
    let o := { o with spendable := false, spentBy := some ctx.transactionId }
    return (some ⟨o.outputId, o.satoshis⟩, ⟨noSendChange, o :: holding.outputs⟩)
  | [] =>
    match ← (StorageCall.allocateChangeInput userId ctx.changeBasket.basketId targetSatoshis exactSatoshis (!vargs.isDelayed) ctx.transactionId).await with
    | none => return (none, holding)
    | some o => return (some ⟨o.outputId, o.satoshis⟩, { holding with outputs := o :: holding.outputs })

def releaseChangeInput (outputId : Nat) (holding : ChangeHolding) : StorageM ChangeHolding :=
  match ctx.noSendChangeIn.find? (·.outputId = outputId) with
  | some nsco => return { holding with noSendChange := nsco :: holding.noSendChange }
  | none => do
    let _ ← (update .outputs outputId { spendable := some true, spentBy := some none }).await
    return holding

/-- Change generation, with the storage calls that allocate and release its inputs. -/
def generateChange {α : Type} : ChangeM α → ChangeHolding → ActionM (α × ChangeHolding)
  | .done value, holding => return (value, holding)
  | .fail (.thrown error), _ => .fail (.thrown error)
  | .fail .unfinished, _ => .fail .unfinished
  | .await (.allocate targetSatoshis exactSatoshis) next, holding => do
    match ← (allocateChangeInput userId vargs ctx targetSatoshis exactSatoshis holding).settle with
    | .ok (input, after) => generateChange (next (.ok input)) after
    | .error error => generateChange (next (.error error)) holding
  | .await (.release outputId) next, holding => do
    match ← (releaseChangeInput ctx outputId holding).settle with
    | .ok after => generateChange (next (.ok ())) after
    | .error error => generateChange (next (.error error)) holding

def newChangeOutput (derivationPrefix derivationSuffix : String) (vout : Nat) (satoshis : Int) : TableOutput where
  outputId := 0
  userId := userId
  transactionId := ctx.transactionId
  basketId := some ctx.changeBasket.basketId
  spendable := false
  change := true
  outputDescription := ""
  vout := vout
  satoshis := satoshis
  providedBy := .storage
  purpose := "change"
  type := "P2PKH"
  txid := none
  senderIdentityKey := none
  derivationPrefix := some derivationPrefix
  derivationSuffix := some derivationSuffix
  customInstructions := none
  spentBy := none
  sequenceNumber := none
  spendingDescription := none
  scriptLength := none
  scriptOffset := none
  lockingScript := none
  scriptHash := none

structure FundNewTransactionSdkResult where
  allocatedChange : List TableOutput
  changeOutputs : List TableOutput
  derivationPrefix : String
  maxPossibleSatoshisAdjustment : Option (Nat × Int)

def allocatedOutputs (inputs : List GenerateChangeSdkChangeInput) (outputs : List TableOutput) : List TableOutput :=
  inputs.filterMap fun input => outputs.find? (·.outputId = input.outputId)

def fundNewTransactionSdk : ActionM FundNewTransactionSdkResult := do
  let (gcr, holding) ← generateChange userId vargs ctx (generateChangeSdk (fundingParams storage.random ctx) storage.rounds) ⟨ctx.noSendChangeIn.reverse, []⟩
  return {
    allocatedChange := allocatedOutputs gcr.allocatedChangeInputs holding.outputs
    changeOutputs := gcr.changeOutputs.zipIdx.map fun (o, i) =>
      newChangeOutput userId ctx storage.derivationPrefix (storage.derivationSuffix i) (ctx.xoutputs.length + i) o.satoshis
    derivationPrefix := storage.derivationPrefix
    maxPossibleSatoshisAdjustment := gcr.maxPossibleSatoshisAdjustment }

end

def newTransaction (userId : Nat) (vargs : ValidCreateActionArgs) (storageBeef : storage.Beef) : TableTransaction where
  transactionId := 0
  userId := userId
  provenTxId := none
  status := .unsigned
  reference := storage.reference
  isOutgoing := true
  satoshis := 0
  description := vargs.description
  version := some vargs.version
  lockTime := some vargs.lockTime
  txid := none
  inputBEEF := some (storage.toBinary storageBeef)
  rawTx := none

def addLabels (userId transactionId : Nat) : List String → StorageM Unit
  | [] => return
  | label :: rest => do
    let txLabel ← findOrInsertTxLabel userId label
    let _ ← findOrInsertTxLabelMap (← verifyId transactionId) (← verifyId txLabel.txLabelId)
    addLabels userId transactionId rest

def createNewTxRecord (userId : Nat) (vargs : ValidCreateActionArgs) (storageBeef : storage.Beef) : StorageM TableTransaction := do
  let newTx ← (insert .transactions (newTransaction storage userId vargs storageBeef)).await
  addLabels userId newTx.transactionId vargs.labels
  return newTx

/-- An output for as much as possible gets what is possible. -/
def adjustOutputs (xoutputs : List XValidCreateActionOutput) : Option (Nat × Int) → Except WalletError (List XValidCreateActionOutput)
  | none => .ok xoutputs
  | some (fixedOutputIndex, satoshis) =>
    match xoutputs[fixedOutputIndex]? with
    | none => .error (.error "Cannot read properties of undefined (reading 'satoshis')")
    | some output =>
      if output.satoshis ≠ maxPossibleSatoshis then .error (.internal "An internal error has occurred.")
      else .ok (xoutputs.set fixedOutputIndex { output with satoshis })

def makeDefaultOutput (userId transactionId : Nat) (satoshis : Int) (vout : Nat) : TableOutput where
  outputId := 0
  userId := userId
  transactionId := transactionId
  basketId := none
  spendable := true
  change := false
  outputDescription := ""
  vout := vout
  satoshis := satoshis
  providedBy := .you
  purpose := ""
  type := ""
  txid := none
  senderIdentityKey := none
  derivationPrefix := none
  derivationSuffix := none
  customInstructions := none
  spentBy := none
  sequenceNumber := none
  spendingDescription := none
  scriptLength := none
  scriptOffset := none
  lockingScript := none
  scriptHash := none

structure NewOutput where
  o : TableOutput
  tags : List String

def findOrInsertOutputBasketsBulk (userId : Nat) : List String → StorageM (List TableOutputBasket)
  | [] => return []
  | name :: rest => do
    let basket ← findOrInsertOutputBasket userId name
    let baskets ← findOrInsertOutputBasketsBulk userId rest
    return basket :: baskets

def findOrInsertOutputTagsBulk (userId : Nat) : List String → StorageM (List TableOutputTag)
  | [] => return []
  | tag :: rest => do
    let outputTag ← findOrInsertOutputTag userId tag
    let outputTags ← findOrInsertOutputTagsBulk userId rest
    return outputTag :: outputTags

def asArray (text : String) : Except WalletError (List UInt8) :=
  match Hex.decode text with
  | some bytes => .ok bytes
  | none => .error (.error "Some elements in this string are not hex encoded.")

def basketIdOf (txBaskets : List TableOutputBasket) (basket : Option String) : Except WalletError (Option Nat) :=
  match truthyText basket with
  | none => .ok none
  | some name =>
    match txBaskets.find? (·.name = name) with
    | none => .error (.error "Cannot read properties of undefined (reading 'basketId')")
    | some basket => .ok (some basket.basketId)

section
variable (userId : Nat) (ctx : CreateTransactionSdkContext)

def newCommission (xo : XValidCreateActionOutput) (keyOffset : String) (lockingScript : List UInt8) : TableCommission where
  commissionId := 0
  userId := userId
  transactionId := ctx.transactionId
  satoshis := xo.satoshis
  keyOffset := keyOffset
  isRedeemed := false
  lockingScript := lockingScript

def newFixedOutput (txBaskets : List TableOutputBasket) (xo : XValidCreateActionOutput) : StorageM NewOutput := do
  let lockingScript ← .ofExcept (asArray xo.lockingScript)
  let o := makeDefaultOutput userId ctx.transactionId xo.satoshis xo.vout
  if xo.purpose = some "service-charge" then
    match truthyText xo.keyOffset with
    | none => throw (.internal "A truthy value is required.")
    | some keyOffset =>
      let _ ← (insert .commissions (newCommission userId ctx xo keyOffset lockingScript)).await
      return ⟨{ o with lockingScript := some lockingScript, providedBy := .storage, purpose := "storage-commission", type := "custom", spendable := false }, []⟩
  else
    let basketId ← .ofExcept (basketIdOf txBaskets xo.basket)
    return ⟨{ o with
      lockingScript := some lockingScript
      basketId
      customInstructions := xo.customInstructions
      outputDescription := xo.outputDescription
      providedBy := xo.providedBy
      purpose := xo.purpose.getD ""
      type := "custom" }, xo.tags⟩

def newFixedOutputs (txBaskets : List TableOutputBasket) : List XValidCreateActionOutput → StorageM (List NewOutput)
  | [] => return []
  | xo :: rest => do
    let output ← newFixedOutput userId ctx txBaskets xo
    let outputs ← newFixedOutputs txBaskets rest
    return output :: outputs

end

def shuffleVouts (random : Nat → RandomVal) : (cur : Nat) → (newVouts : Array Nat) → Array Nat
  | 0, newVouts => newVouts
  | cur + 1, newVouts => shuffleVouts random cur (newVouts.swapIfInBounds cur ((random cur).floorOf (cur + 1)))

def reassignVouts (newVouts : Array Nat) : List NewOutput → Nat → Except WalletError (List NewOutput)
  | [], _ => .ok []
  | ⟨o, tags⟩ :: rest, vout =>
    if o.vout ≠ vout then .error (.internal ("new output " ++ toString vout ++ " has out of order vout " ++ toString o.vout))
    else do return ⟨{ o with vout := newVouts[vout]?.getD 0 }, tags⟩ :: (← reassignVouts newVouts rest (vout + 1))

def randomizeOutputVouts (random : Nat → RandomVal) (newOutputs : List NewOutput) : Except WalletError (List NewOutput) :=
  reassignVouts (shuffleVouts random newOutputs.length (Array.range newOutputs.length)) newOutputs 0

structure StorageCreateTransactionSdkOutput where
  vout : Nat
  satoshis : Int
  lockingScript : String
  providedBy : StorageProvidedBy
  purpose : Option String
  basket : Option String
  tags : List String
  outputDescription : String
  derivationSuffix : Option String
  customInstructions : Option String
deriving DecidableEq, Repr

def mapTags (txTags : List TableOutputTag) (outputId : Nat) : List String → StorageM Unit
  | [] => return
  | tagName :: rest => do
    match txTags.find? (·.tag = tagName) with
    | none => throw (.error "Cannot read properties of undefined (reading 'outputTagId')")
    | some tag =>
      let outputId ← verifyId outputId
      let outputTagId ← verifyId tag.outputTagId
      let _ ← (insert .outputTagsMap ⟨outputTagId, outputId, false⟩).await
      mapTags txTags outputId rest

def isStoredChange (o : TableOutput) : Bool := o.change && o.purpose = "change" && o.providedBy = .storage

def persistNewOutput (txTags : List TableOutputTag) (txBaskets : List TableOutputBasket) (newOutput : NewOutput) :
    StorageM (Option Nat × StorageCreateTransactionSdkOutput) := do
  let o ← (insert .outputs newOutput.o).await
  mapTags txTags o.outputId newOutput.tags.eraseDups
  .ofExcept (validateChangeSatoshis o.satoshis "o.satoshis" 0)
  return (if isStoredChange o then some o.vout else none, {
    vout := o.vout
    satoshis := o.satoshis
    lockingScript := (o.lockingScript.map Hex.encode).getD ""
    providedBy := o.providedBy
    purpose := if o.purpose = "" then none else some o.purpose
    basket := (txBaskets.find? fun basket => some basket.basketId = o.basketId).map TableOutputBasket.name
    tags := newOutput.tags
    outputDescription := o.outputDescription
    derivationSuffix := o.derivationSuffix
    customInstructions := o.customInstructions })

def persistNewOutputs (txTags : List TableOutputTag) (txBaskets : List TableOutputBasket) :
    List NewOutput → StorageM (List (Option Nat × StorageCreateTransactionSdkOutput))
  | [] => return []
  | newOutput :: rest => do
    let persisted ← persistNewOutput txTags txBaskets newOutput
    let others ← persistNewOutputs txTags txBaskets rest
    return persisted :: others

def createNewOutputs (userId : Nat) (vargs : ValidCreateActionArgs) (ctx : CreateTransactionSdkContext) (changeOutputs : List TableOutput) :
    StorageM (List StorageCreateTransactionSdkOutput × List Nat) := do
  let txBaskets ← findOrInsertOutputBasketsBulk userId (ctx.xoutputs.filterMap fun xo => truthyText xo.basket).eraseDups
  let txTags ← findOrInsertOutputTagsBulk userId (ctx.xoutputs.flatMap (·.tags)).eraseDups
  let fixed ← newFixedOutputs userId ctx txBaskets ctx.xoutputs
  let newOutputs := fixed ++ changeOutputs.map fun o => ⟨{ o with spendable := true }, []⟩
  let newOutputs ← .ofExcept (if vargs.randomizeOutputs then randomizeOutputVouts storage.randomVals newOutputs else .ok newOutputs)
  let persisted ← persistNewOutputs txTags txBaskets newOutputs
  return (persisted.map Prod.snd, persisted.filterMap Prod.fst)

inductive KnownInputs where
  | marked
  | doubleSpend (txid : String)

def findTransactionById (transactionId : Nat) : StorageM (Option TableTransaction) := do
  verifyOneOrNone (← (find .transactions { wanted := { transactionId } }).await)

def findOutputsByIds : List Nat → StorageM (List TableOutput)
  | [] => return []
  | outputId :: rest => do
    let output ← verifyOneOrNone (← (find .outputs { wanted := { outputId } }).await)
    let outputs ← findOutputsByIds rest
    return output.toList ++ outputs

def spendingTxid (o2 : TableOutput) : StorageM (Option String) := do
  match o2.spentBy with
  | none => return none
  | some spentBy =>
    let spendingTx ← findTransactionById (← verifyId spentBy)
    return truthyText (spendingTx.bind TableTransaction.txid)

def markEachKnownInput (transactionId : Nat) (knownOutputs : List TableOutput) : List (XValidCreateActionInput × TableOutput) → StorageM KnownInputs
  | [] => return .marked
  | (i, o) :: rest => do
    let outputId ← verifyId o.outputId
    match knownOutputs.find? (·.outputId = outputId) with
    | none => throw (.internal ("missing outputId " ++ toString o.outputId))
    | some o2 =>
      match ← spendingTxid o2 with
      | some txid => return .doubleSpend txid
      | none =>
        if o2.spendable = false then
          throw (.invalidParameter (inputName i.vin) ("spendable output. output " ++ o.txid.getD "undefined" ++ ":" ++ toString o.vout ++
            " appears to have been spent (spendable=false)."))
        else
          let _ ← (update .outputs outputId
            { spendable := some false, spentBy := some (some transactionId), spendingDescription := some (some i.inputDescription) }).await
          markEachKnownInput transactionId knownOutputs rest

def markKnownInputsScope (transactionId : Nat) (knownInputRows : List (XValidCreateActionInput × TableOutput)) : StorageM KnownInputs := do
  let outputIds ← .ofExcept (knownInputRows.mapM fun ni =>
    if ni.2.outputId < 1 then .error (.internal "id must be valid integer greater than zero.") else .ok ni.2.outputId)
  let knownOutputs ← findOutputsByIds outputIds
  markEachKnownInput transactionId knownOutputs knownInputRows

def markKnownInputsSpent (transactionId : Nat) (knownInputRows : List (XValidCreateActionInput × TableOutput)) : StorageM KnownInputs :=
  StorageRocksDb.transaction (markKnownInputsScope transactionId knownInputRows)

structure StorageCreateTransactionSdkInput where
  vin : Nat
  sourceTxid : String
  sourceVout : Nat
  sourceSatoshis : Int
  sourceLockingScript : String
  sourceTransaction : Option Bytes
  unlockingScriptLength : Nat
  providedBy : Option StorageProvidedBy
  type : String
  spendingDescription : Option String
  derivationPrefix : Option String
  derivationSuffix : Option String
  senderIdentityKey : Option String
deriving DecidableEq, Repr

/-- `i` is given for an input of the caller, whose own length counts. -/
def buildSdkInputFromOutput (vargs : ValidCreateActionArgs) (vin : Nat) (i : Option XValidCreateActionInput) (o : TableOutput)
    (unlockingScriptLength : Nat) : StorageM StorageCreateTransactionSdkInput := do
  let sourceTransaction ← match vargs.includeAllSourceTransactions && vargs.isSignAction, o.txid with
    | true, some txid => do pure (← getProvenOrRawTx txid)
    | _, _ => pure ⟨none, none, none⟩
  match o.lockingScript with
  | none => throw (.error "Cannot read properties of undefined")
  | some lockingScript =>
    return {
      vin
      sourceTxid := o.txid.getD ""
      sourceVout := o.vout
      sourceSatoshis := o.satoshis
      sourceLockingScript := Hex.encode lockingScript
      sourceTransaction := (sourceTransaction.proven.map TableProvenTx.rawTx).or sourceTransaction.rawTx
      unlockingScriptLength
      providedBy := if i.isSome ∧ o.providedBy = .storage then some .youAndStorage else some o.providedBy
      type := o.type
      spendingDescription := truthyText o.spendingDescription
      derivationPrefix := truthyText o.derivationPrefix
      derivationSuffix := truthyText o.derivationSuffix
      senderIdentityKey := truthyText o.senderIdentityKey }

def buildSdkInputFromXInput (vin : Nat) (i : XValidCreateActionInput) : StorageCreateTransactionSdkInput where
  vin := vin
  sourceTxid := i.outpoint.txid
  sourceVout := i.outpoint.vout
  sourceSatoshis := i.satoshis
  sourceLockingScript := Hex.encode i.lockingScript
  sourceTransaction := none
  unlockingScriptLength := i.unlockingScriptLength
  providedBy := some .you
  type := "custom"
  spendingDescription := none
  derivationPrefix := none
  derivationSuffix := none
  senderIdentityKey := none

/-- The rows of the known inputs, with what marking them has written into the objects: two
inputs of one output share its row. -/
def describeInputs (xinputs : List XValidCreateActionInput) : List XValidCreateActionInput :=
  xinputs.map fun i => { i with output := i.output.map fun o =>
    { o with spendingDescription :=
        ((xinputs.reverse.find? fun other => other.output.any (·.outputId = o.outputId)).map (·.inputDescription)).or o.spendingDescription } }

def buildSdkInputs (vargs : ValidCreateActionArgs) : List (XValidCreateActionInput ⊕ TableOutput) → Nat → StorageM (List StorageCreateTransactionSdkInput)
  | [], _ => return []
  | input :: rest, vin => do
    let sdkInput ← match input with
      | .inl i =>
        match i.output with
        | some o => buildSdkInputFromOutput vargs vin (some i) o i.unlockingScriptLength
        | none => pure (buildSdkInputFromXInput vin i)
      | .inr o => buildSdkInputFromOutput vargs vin none o WalletToolbox.changeUnlockingScriptLength
    let sdkInputs ← buildSdkInputs vargs rest (vin + 1)
    return sdkInput :: sdkInputs

def knownInputRows (xinputs : List XValidCreateActionInput) : List (XValidCreateActionInput × TableOutput) :=
  xinputs.filterMap fun i => i.output.map fun o => (i, o)

def createNewInputs (vargs : ValidCreateActionArgs) (ctx : CreateTransactionSdkContext) (allocatedChange : List TableOutput) :
    ActionM (List StorageCreateTransactionSdkInput) := do
  let known ← if knownInputRows ctx.xinputs = [] then pure .marked
    else ActionM.lift (markKnownInputsSpent ctx.transactionId (knownInputRows ctx.xinputs))
  match known with
  | .doubleSpend txid => do
    let _ ← ActionM.lift (storage.getBeefForTransaction storage.empty txid)
    .fail (.reviewActions txid)
  | .marked => ActionM.lift (buildSdkInputs vargs ((describeInputs ctx.xinputs).map .inl ++ allocatedChange.map .inr) 0)

def trimInputBeef (beef : storage.Beef) (vargs : ValidCreateActionArgs) : Option Bytes :=
  if vargs.returnTXIDOnly then none
  else some (storage.toBinary ((((storage.txs beef).map Prod.fst).filter (· ∈ vargs.knownTxids)).foldl storage.makeTxidOnly beef))

def mergeEachChangeBeef (vargs : ValidCreateActionArgs) : List TableOutput → storage.Beef → StorageM storage.Beef
  | [], beef => return beef
  | o :: rest, beef => do
    let txid := o.txid.getD "undefined"
    if findTxid storage beef txid = none ∧ txid ∉ vargs.knownTxids then
      mergeEachChangeBeef vargs rest (← storage.getBeefForTransaction beef txid)
    else mergeEachChangeBeef vargs rest beef

def mergeAllocatedChangeBeefs (vargs : ValidCreateActionArgs) (allocatedChange : List TableOutput) (beef : storage.Beef) :
    StorageM (Option Bytes) :=
  if vargs.returnTXIDOnly then return none
  else do return trimInputBeef storage (← mergeEachChangeBeef storage vargs allocatedChange beef) vargs

structure StorageCreateActionResult where
  reference : String
  version : Nat
  lockTime : Nat
  inputs : List StorageCreateTransactionSdkInput
  outputs : List StorageCreateTransactionSdkOutput
  derivationPrefix : String
  inputBeef : Option Bytes
  noSendChangeOutputVouts : Option (List Nat)

structure ActionStart where
  required : RequiredInputs storage
  ctx : CreateTransactionSdkContext

/-- What comes before the funding: the checks, and the record of the transaction. -/
def startAction (userId : Nat) (vargs : ValidCreateActionArgs) : StorageM (ActionStart storage) := do
  let required ← validateRequiredInputs storage userId vargs
  let xoutputs := validateRequiredOutputs storage vargs
  let changeBasket ← verifyOne (← (find .outputBaskets { userId, name := "default" }).await)
  let noSendChangeIn ← validateNoSendChange userId vargs changeBasket
  let availableChangeCount ← storage.countChangeInputs userId changeBasket.basketId (!vargs.isDelayed)
  .ofExcept (preflightInsufficientFundsFastPath required.xinputs xoutputs noSendChangeIn availableChangeCount storage.feeModel)
  let newTx ← createNewTxRecord storage userId vargs required.storageBeef
  return ⟨required, {
    xinputs := required.xinputs
    xoutputs
    changeBasket
    noSendChangeIn
    availableChangeCount
    feeModel := storage.feeModel
    transactionId := newTx.transactionId }⟩

/-- What comes after it: the outputs and the inputs. -/
def finishAction (userId : Nat) (vargs : ValidCreateActionArgs) (start : ActionStart storage) (funded : FundNewTransactionSdkResult) :
    ActionM StorageCreateActionResult := do
  let xoutputs ← ActionM.lift (.ofExcept (adjustOutputs start.ctx.xoutputs funded.maxPossibleSatoshisAdjustment))
  let ctx := { start.ctx with xoutputs }
  let satoshis := (funded.changeOutputs.map TableOutput.satoshis).sum - (funded.allocatedChange.map TableOutput.satoshis).sum
  let _ ← ActionM.lift (update .transactions ctx.transactionId { satoshis := some satoshis }).await
  let (outputs, changeVouts) ← ActionM.lift (createNewOutputs storage userId vargs ctx funded.changeOutputs)
  let inputBeef ← ActionM.lift (mergeAllocatedChangeBeefs storage vargs funded.allocatedChange start.required.beef)
  let inputs ← createNewInputs storage vargs ctx funded.allocatedChange
  return {
    reference := storage.reference
    version := vargs.version
    lockTime := vargs.lockTime
    inputs
    outputs
    derivationPrefix := funded.derivationPrefix
    inputBeef
    noSendChangeOutputVouts := if vargs.isNoSend then some changeVouts else none }

def createAction (userId : Nat) (vargs : ValidCreateActionArgs) : ActionM StorageCreateActionResult :=
  if vargs.isTestWerrReviewActions then .fail .dummyReviewActions
  else if vargs.isNewTx = false then .fail (.thrown (.internal "An internal error has occurred."))
  else do
    let start ← ActionM.lift (startAction storage userId vargs)
    let funded ← fundNewTransactionSdk storage userId vargs start.ctx
    finishAction storage userId vargs start funded

end CreateAction
end WalletToolbox

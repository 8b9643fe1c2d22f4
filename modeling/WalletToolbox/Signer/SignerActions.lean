import WalletToolbox.Async.Sections
import WalletToolbox.Signer.SignableTransactions

/-! `createAction` and `signAction` of the signer. A transaction that waits for the scripts
of the caller is kept by its reference. -/

namespace WalletToolbox
open Async Effects

structure SignActionOptions where
  acceptDelayedBroadcast : Option Bool := none
  returnTXIDOnly : Option Bool := none
  noSend : Option Bool := none
  sendWith : Option (List String) := none
deriving DecidableEq, Repr

structure SignActionArgs where
  reference : String
  spends : List (Nat × SignActionSpend)
  options : SignActionOptions := {}
deriving DecidableEq, Repr

structure ValidSignActionArgs extends ValidProcessActionArgs where
  spends : List (Nat × SignActionSpend)
deriving DecidableEq, Repr

structure StorageProcessActionResults where
  sendWithResults : List String
  notDelayedResults : Option (List String)
deriving DecidableEq, Repr

/-- What the signer awaits of storage. The arguments of `processAction` are made of the
pending action, by `processActionArgs`. -/
inductive SignerOp where
  | createAction (args : ValidCreateActionArgs)
  | processAction (prior : Option PendingSignAction) (args : ValidProcessActionArgs)

@[reducible] def SignerOp.Reply : SignerOp → Type
  | .createAction _ => Except SignerError StorageCreateActionResult
  | .processAction _ _ => Except SignerError StorageProcessActionResults

abbrev signerStorage : Interface := ⟨SignerOp, SignerOp.Reply⟩

structure SignerWallet where
  pendingSignActions : String → Option PendingSignAction := fun _ => none

abbrev SignerM := Program (sections SignerError SignerWallet signerStorage) SignerError

structure CreateActionResult where
  txid : Option String := none
  tx : Option Bytes := none
  noSendChange : Option (List String) := none
  signableTransaction : Option (String × Bytes) := none
  processed : Option StorageProcessActionResults := none
deriving DecidableEq, Repr

abbrev SignActionValidation := SignActionArgs → Except SignerError ValidSignActionArgs

variable (sdk : Sdk)

def processAction (prior : Option PendingSignAction) (vargs : ValidProcessActionArgs) : SignerM StorageProcessActionResults :=
  .await (.outside (.processAction prior vargs)) .ofExcept

def removeUnlockScripts (args : ValidCreateActionArgs) : ValidCreateActionArgs :=
  { args with inputs := args.inputs.map fun input =>
      { input with
        unlockingScript := none
        unlockingScriptLength := (input.unlockingScript.map String.length).getD input.unlockingScriptLength } }

def createNewTx (vargs : ValidCreateActionArgs) : SignerM PendingSignAction := do
  let dcr ← .ofExcept (← .await (.outside (.createAction (removeUnlockScripts vargs))) .done)
  .ofExcept (buildSignableTransaction sdk dcr vargs)

def makeSignableTransactionBeef (tx : Transaction) : Except SignerError Bytes := do
  let beef ← tx.inputs.foldlM (fun beef input =>
    match input.sourceTransaction with
    | none => throw (.internal "Every signableTransaction input must have a sourceTransaction")
    | some source => sdk.mergeRawTx beef source) sdk.noTransactions
  let beef ← sdk.mergeRawTx beef (sdk.toBinary tx)
  sdk.toBinaryAtomic beef (sdk.id tx)

def noSendChange (prior : PendingSignAction) : Option (List String) :=
  prior.dcr.noSendChangeOutputVouts.map fun vouts => vouts.map fun vout => sdk.id prior.tx ++ "." ++ toString vout

def SignerWallet.keep (wallet : SignerWallet) (reference : String) (prior : PendingSignAction) : SignerWallet :=
  { wallet with pendingSignActions := Function.update wallet.pendingSignActions reference (some prior) }

def makeSignableTransactionResult (prior : PendingSignAction) (vargs : ValidCreateActionArgs) : SignerM CreateActionResult := do
  if prior.dcr.inputBeef = none then throw (.internal "prior.dcr.inputBeef must be valid")
  else
    let tx ← .ofExcept (makeSignableTransactionBeef sdk prior.tx)
    let _ ← Program.enter (Fallible.change fun wallet => wallet.keep prior.dcr.reference prior)
    return {
      noSendChange := if vargs.isNoSend then noSendChange sdk prior else none
      signableTransaction := some (prior.dcr.reference, tx) }

def inputsBeef (prior : PendingSignAction) : Except SignerError sdk.Beef :=
  match prior.dcr.inputBeef with
  | none => .ok sdk.noTransactions
  | some bytes => sdk.mergeBeef sdk.noTransactions bytes

def actionBeef (prior : PendingSignAction) : Except SignerError sdk.Beef := do
  return sdk.mergeTransaction (← inputsBeef sdk prior) prior.tx

def completeNewTx (prior : PendingSignAction) : Except SignerError PendingSignAction :=
  match completeSignedTransaction sdk [] prior with
  | (.error error, _) => .error error
  | (.ok _, signed) => do
    let beef ← actionBeef sdk signed
    verifyUnlockScripts sdk (sdk.id signed.tx) beef
    return signed

def returnedTx (options : ValidProcessActionOptions) (beef : sdk.Beef) (txid : String) : Except SignerError (Option Bytes) :=
  if options.returnTXIDOnly then .ok none else (sdk.toBinaryAtomic beef txid).map some

def newTxResult (signed : PendingSignAction) (vargs : ValidCreateActionArgs) : Except SignerError CreateActionResult := do
  let beef ← actionBeef sdk signed
  return {
    txid := some (sdk.id signed.tx)
    noSendChange := noSendChange sdk signed
    tx := ← returnedTx sdk vargs.options beef (sdk.id signed.tx) }

def resumed : SignerM SignerWallet := Program.enter (pure ())

def createAction (vargs : ValidCreateActionArgs) : SignerM CreateActionResult := do
  if vargs.isNewTx = true ∨ vargs.isTestWerrReviewActions = true then
    let prior ← createNewTx sdk vargs
    if vargs.isSignAction then makeSignableTransactionResult sdk prior vargs
    else
      let _ ← resumed
      let signed ← .ofExcept (completeNewTx sdk prior)
      let result ← .ofExcept (newTxResult sdk signed vargs)
      let processed ← processAction (some signed) vargs.toValidProcessActionArgs
      return { result with processed := some processed }
  else
    let processed ← processAction none vargs.toValidProcessActionArgs
    return { processed := some processed }

def mergePriorOptions (validate : SignActionValidation) (caVargs : ValidCreateActionArgs) (saArgs : SignActionArgs) :
    Except SignerError ValidSignActionArgs :=
  let options := saArgs.options
  validate { saArgs with options := {
    acceptDelayedBroadcast := some (options.acceptDelayedBroadcast.getD caVargs.options.acceptDelayedBroadcast)
    returnTXIDOnly := some (options.returnTXIDOnly.getD caVargs.options.returnTXIDOnly)
    noSend := some (options.noSend.getD caVargs.options.noSend)
    sendWith := some (options.sendWith.getD caVargs.options.sendWith) } }

abbrev WalletM := Fallible SignerError SignerWallet

def pendingAction (wallet : SignerWallet) (reference : String) : Except SignerError PendingSignAction :=
  match wallet.pendingSignActions reference with
  | none => .error (.notImplemented "recovery of out-of-session signAction reference data is not yet implemented.")
  | some prior => .ok prior

def onPending (reference : String) (body : PendingM Unit) : WalletM Unit := do
  let wallet ← Fallible.current
  let prior ← Fallible.ofExcept (pendingAction wallet reference)
  Fallible.change fun wallet => wallet.keep reference (body prior).2
  Fallible.ofExcept (body prior).1

def beginSignAction (validate : SignActionValidation) (args : SignActionArgs) : SignerM ValidSignActionArgs := do
  let wallet ← resumed
  let prior ← .ofExcept (pendingAction wallet args.reference)
  if prior.dcr.inputBeef = none then throw (.internal "prior.dcr.inputBeef must be valid")
  else
    let vargs ← .ofExcept (mergePriorOptions validate prior.args args)
    let _ ← Program.enter (onPending args.reference (insertScripts vargs.spends))
    return vargs

def signedBeef (prior : PendingSignAction) : Except SignerError sdk.Beef := do
  let beef ← sdk.fromBinary (prior.dcr.inputBeef.getD [])
  return sdk.mergeTransaction beef prior.tx

def signActionResult (prior : PendingSignAction) (vargs : ValidSignActionArgs) (processed : StorageProcessActionResults) :
    Except SignerError CreateActionResult := do
  let beef ← signedBeef sdk prior
  verifyUnlockScripts sdk (sdk.id prior.tx) beef
  return {
    txid := some (sdk.id prior.tx)
    tx := ← returnedTx sdk vargs.options beef (sdk.id prior.tx)
    processed := some processed }

/-- The transaction is processed before its scripts are verified. -/
def signAction (validate : SignActionValidation) (args : SignActionArgs) : SignerM CreateActionResult := do
  let vargs ← beginSignAction validate args
  let _ ← Program.enter (onPending args.reference (signInputs sdk))
  let prior ← .ofExcept (pendingAction (← resumed) args.reference)
  let processed ← processAction (some prior) vargs.toValidProcessActionArgs
  let prior ← .ofExcept (pendingAction (← resumed) args.reference)
  .ofExcept (signActionResult sdk prior vargs processed)

end WalletToolbox

import WalletToolbox.Provider.EntityProvenTxReq

/-! The methods of the storage provider that change transactions, as programs over
storage calls. Optional numbers and texts count as missing when they are falsy. -/

namespace WalletToolbox
open Async StorageCall EntityProvenTxReq

namespace StorageProvider

def getInputs (tx : TableTransaction) : StorageM (List TableOutput) :=
  (find .outputs { wanted := { userId := tx.userId, spentBy := tx.transactionId } }).await

/-- Make the inputs of a failed transaction spendable again. -/
def releaseInputs : List TableOutput → StorageM Unit
  | [] => return
  | input :: rest => do
    let outputId ← verifyId input.outputId
    let _ ← (update .outputs outputId { spendable := some true, spentBy := some none }).await
    releaseInputs rest

def guardStatus (status : TransactionStatus) (tx : TableTransaction) : Except WalletError Unit :=
  if (status ≠ .completed ∧ tx.status = .completed) ∨ truthyId tx.provenTxId ≠ none then
    .error (.invalidOperation "The status of a \"completed\" transaction cannot be changed.")
  else if status ≠ .failed ∧ tx.status = .failed then
    .error (.invalidOperation "A \"failed\" transaction may not be un-failed by this method.")
  else .ok ()

def prepareStatus (status : TransactionStatus) (tx : TableTransaction) : StorageM Unit :=
  match status with
  | .failed => do releaseInputs (← getInputs tx)
  | .nosend | .unsigned | .unprocessed | .sending | .unproven | .completed => return
  | .nonfinal | .unfail => throw (.invalidParameter "status" ("not be " ++ status.text))

def updateTransactionStatus (status : TransactionStatus) (transactionId userId : Option Nat) (reference : Option String) :
    StorageM Unit :=
  if truthyId transactionId = none ∧ (truthyId userId = none ∨ truthyText reference = none) then
    throw (.missingParameter "either transactionId or userId and reference")
  else do
    let found ← (find .transactions
      { wanted := { transactionId := truthyId transactionId, userId := truthyId userId, reference := truthyText reference },
        noRawTx := true }).await
    let tx ← verifyOne found
    .ofExcept (guardStatus status tx)
    prepareStatus status tx
    let _ ← (update .transactions tx.transactionId { status := some status }).await

def updateTransactionsStatus : List Nat → TransactionStatus → StorageM Unit
  | [], _ => return
  | id :: rest, status => do
    updateTransactionStatus status (some id) none none
    updateTransactionsStatus rest status

def unAbortableStatus : List TransactionStatus := [.completed, .failed, .sending, .unproven]

def findAbortable (userId : Nat) (reference : String) : StorageM (Option String × Option TableTransaction) := do
  let byReference ← (find .transactions { wanted := { reference, userId }, noRawTx := true }).await
  match ← verifyOneOrNone byReference with
  | some tx => return (some reference, some tx)
  | none =>
    if reference.length = 64 then
      let byTxid ← (find .transactions { wanted := { txid := reference, userId }, noRawTx := true }).await
      return (none, ← verifyOneOrNone byTxid)
    else return (some reference, none)

def abortNote (reference : String) : ReqHistoryNote where
  what := "abortAction"
  properties := [("reference", .text reference)]

section
variable (now : Clock)

/-- The request of an aborted transaction becomes invalid. -/
def invalidateReq (reference : String) (txid : Option String) : StorageM Unit :=
  match truthyText txid with
  | none => return
  | some txid => do
    match ← fromStorageTxid txid with
    | none => return
    | some req =>
      let noted := addHistoryNote now (abortNote reference) false req
      let _ ← updateStorageDynamicProperties (setStatus now .invalid noted)

/-- The scope of `abortAction`. -/
def abortActionScope (userId : Nat) (reference : String) : StorageM Unit := do
  let (named, tx) ← findAbortable userId reference
  match tx with
  | none => throw (.invalidParameter "reference" "an inprocess, outgoing action that has not been signed and shared to the network.")
  | some tx =>
    if tx.isOutgoing = false ∨ tx.status ∈ unAbortableStatus then
      throw (.invalidParameter "reference" "an inprocess, outgoing action that has not been signed and shared to the network.")
    else
      updateTransactionStatus .failed (some tx.transactionId) (some userId) named
      invalidateReq now reference tx.txid

def abortAction (userId : Nat) (reference : String) : StorageM Unit :=
  if userId = 0 then throw (.invalidParameter "auth.userId" "valid")
  else StorageRocksDb.transaction (abortActionScope now userId reference)

end

end StorageProvider
end WalletToolbox

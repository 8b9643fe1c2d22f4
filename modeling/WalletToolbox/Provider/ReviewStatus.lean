import WalletToolbox.Provider.StorageIdb

/-! `reviewStatusIdb`: state that was not propagated is looked for and repaired, in three
passes over the whole of storage. -/

namespace WalletToolbox
open StorageCall
namespace ReviewStatus
open Async

def failedLog (tx : TableTransaction) : String :=
  "transaction " ++ toString tx.transactionId ++ " updated to status of 'failed' was " ++ tx.status.text ++ "\n"

/-- The transactions of a txid whose request is invalid. -/
def failEach : List TableTransaction → StorageM String
  | [] => return ""
  | tx :: rest => do
    if tx.status = .failed then failEach rest
    else
      StorageProvider.updateTransactionStatus .failed (some tx.transactionId) none none
      let log ← failEach rest
      return failedLog tx ++ log

/-- The first pass. -/
def failInvalid : List String → StorageM String
  | [] => return ""
  | txid :: rest => do
    let txs ← (find .transactions { wanted := { txid } }).await
    let first ← failEach txs
    let log ← failInvalid rest
    return first ++ log

def provenTxReqStatusesSafeForInputRestore : List ProvenTxReqStatus := [.invalid, .doubleSpend]

def restoredLog (outputId transactionId : Nat) : String :=
  "output " ++ toString outputId ++ " restored to spendable where spentBy is failed transaction " ++ toString transactionId ++ "\n"

def restoreEach (transactionId : Nat) : List TableOutput → StorageM String
  | [] => return ""
  | output :: rest => do
    if output.spentBy ≠ some transactionId then restoreEach transactionId rest
    else
      let _ ← (update .outputs output.outputId { spendable := some true, spentBy := some none }).await
      let log ← restoreEach transactionId rest
      return restoredLog output.outputId transactionId ++ log

def restoreInputs (transactionId : Nat) (txid : String) : StorageM String := do
  let reqs ← (find .provenTxReqs { txid }).await
  if reqs.any fun req => req.status ∉ provenTxReqStatusesSafeForInputRestore then return ""
  else restoreEach transactionId (← (find .outputs { wanted := {}, noScript := true }).await)

/-- The second pass: no request of the transaction may still come to a good end. -/
def restoreFailed : List TableTransaction → StorageM String
  | [] => return ""
  | tx :: rest => do
    match tx.txid with
    | none => restoreFailed rest
    | some txid =>
      let first ← restoreInputs tx.transactionId txid
      let log ← restoreFailed rest
      return first ++ log

def completedLog (transactionId provenTxId : Nat) : String :=
  "transaction " ++ toString transactionId ++ " updated with provenTxId " ++ toString provenTxId ++ " and status of 'completed'\n"

def completeOne (transactionId : Nat) (txid : String) : StorageM String := do
  match ← (find .provenTxs { txid }).await with
  | [] => return ""
  | ptx :: _ =>
    let _ ← (update .transactions transactionId
      { status := some .completed, provenTxId := some (some ptx.provenTxId) }).await
    return completedLog transactionId ptx.provenTxId

/-- The third pass. -/
def completeProven : List TableTransaction → StorageM String
  | [] => return ""
  | tx :: rest => do
    match tx.provenTxId, tx.txid with
    | none, some txid =>
      let first ← completeOne tx.transactionId txid
      let log ← completeProven rest
      return first ++ log
    | _, _ => completeProven rest

def reviewStatusIdb : StorageM String := do
  let invalid ← (find .provenTxReqs { status := some .invalid }).await
  let failedLog ← failInvalid (invalid.map TableProvenTxReq.txid)
  let failedTxs ← (find .transactions { wanted := { status := some .failed }, noRawTx := true }).await
  let restoredLog ← restoreFailed failedTxs
  let txs ← (find .transactions { wanted := {}, noRawTx := true }).await
  let completedLog ← completeProven txs
  return failedLog ++ restoredLog ++ completedLog

end ReviewStatus
end WalletToolbox

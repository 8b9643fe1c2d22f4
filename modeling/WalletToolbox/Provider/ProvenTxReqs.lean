import WalletToolbox.Provider.EntityProvenTxReq
import WalletToolbox.Provider.StorageReaderWriter

/-! The methods that add to a request: a new request is inserted or merged into the
stored one, and a request whose proof has arrived completes and notifies its
transactions. -/

namespace WalletToolbox
open Async EntityProvenTxReq StorageCall

namespace EntityProvenTxReq

/-- The scope of `insertOrMerge`. -/
def insertOrMergeScope (now : Clock) (newReq : TableProvenTxReq) : StorageM TableProvenTxReq := do
  let (stored, isNew) ← StorageReaderWriter.findOrInsertProvenTxReq newReq
  if isNew then return ofApi stored
  else
    let merged := mergeHistory now newReq (mergeNotifyTransactionIds newReq (ofApi stored))
    updateStorage merged

def insertOrMerge (now : Clock) (newReq : TableProvenTxReq) : StorageM TableProvenTxReq :=
  StorageRocksDb.transaction (insertOrMergeScope now newReq)

end EntityProvenTxReq

namespace StorageProvider

structure StorageProvenOrReq where
  proven : Option TableProvenTx := none
  req : Option TableProvenTxReq := none
  isNew : Option Bool := none

/-- The new request is merged into the one that is stored, or takes its place. -/
def upsertProvenTxReq (now : Clock) (txid : String) (newReq : Option TableProvenTxReq) : StorageM (Option TableProvenTxReq) := do
  let existing ← verifyOneOrNone (← (find .provenTxReqs { txid }).await)
  match existing, newReq with
  | none, none => return none
  | none, some newReq => return some (← (insert .provenTxReqs newReq).await)
  | some existing, none => return some existing
  | some existing, some newReq =>
    let merged := EntityProvenTxReq.mergeNotifyTransactionIds newReq
      (EntityProvenTxReq.mergeHistory now newReq (EntityProvenTxReq.ofApi existing))
    let _ ← updateStorageDynamicProperties merged
    return some merged

def getProvenOrReq (now : Clock) (txid : String) (newReq : Option TableProvenTxReq) : StorageM StorageProvenOrReq :=
  if newReq.any (·.txid ≠ txid) then throw (.invalidParameter "newReq" "same txid")
  else do
    match ← verifyOneOrNone (← (find .provenTxs { txid }).await) with
    | some proven => return { proven }
    | none => return { req := ← retryOnce (upsertProvenTxReq now txid newReq) }

structure UpdateProvenTxReqWithNewProvenTxArgs where
  provenTxReqId : Nat
  txid : String
  height : Nat
  index : Nat
  blockHash : String
  merkleRoot : String
  merklePath : List UInt8

structure UpdateProvenTxReqWithNewProvenTxResult where
  status : ProvenTxReqStatus
  history : List ReqHistoryNote
  provenTxId : Nat

def notifyNote (provenTxId id : Nat) : Except WalletError Nat → ReqHistoryNote
  | .ok _ => { what := "notifyTxOfProof", properties := [("transactionId", .number id)] }
  | .error error =>
    { what := "notifyTxOfProofError"
      properties := [("id", .number id), ("provenTxId", .number provenTxId), ("code", .text error.code),
        ("description", .text error.message)] }

section
variable (now : Clock)

def notifyEachOfProof (provenTxId : Nat) : List Nat → TableProvenTxReq → StorageM TableProvenTxReq
  | [], req => return req
  | id :: rest, req => do
    let outcome ← (update .transactions id
      { provenTxId := some (some provenTxId), status := some .completed }).await.settle
    notifyEachOfProof provenTxId rest (addHistoryNote now (notifyNote provenTxId id outcome) false req)

def notifyTransactionsOfProof (ids : List Nat) (provenTxId : Nat) (req : TableProvenTxReq) : StorageM TableProvenTxReq :=
  if ids = [] then return req
  else do
    let noted ← notifyEachOfProof now provenTxId ids req
    let _ ← updateStorageDynamicProperties noted
    return noted

/-- The new proof of a request. -/
def newProvenTx (args : UpdateProvenTxReqWithNewProvenTxArgs) (req : TableProvenTxReq) : TableProvenTx where
  provenTxId := 0
  txid := args.txid
  height := args.height
  index := args.index
  merklePath := args.merklePath
  rawTx := req.rawTx
  blockHash := args.blockHash
  merkleRoot := args.merkleRoot

def completeReqScope (args : UpdateProvenTxReqWithNewProvenTxArgs) (req : TableProvenTxReq) :
    StorageM (TableProvenTx × Bool × TableProvenTxReq) := do
  let (proven, isNew) ← StorageReaderWriter.findOrInsertProvenTx (newProvenTx args req)
  if isNew then
    let completed := { setStatus now .completed req with provenTxId := some proven.provenTxId }
    let _ ← updateStorageDynamicProperties completed
    return (proven, isNew, completed)
  else return (proven, isNew, req)

def updateProvenTxReqWithNewProvenTx (args : UpdateProvenTxReqWithNewProvenTxArgs) :
    StorageM UpdateProvenTxReqWithNewProvenTxResult := do
  let req ← fromStorageId args.provenTxReqId
  match truthyId req.provenTxId with
  | some _ =>
    let proven ← verifyOne (← (find .provenTxs { txid := args.txid }).await)
    return ⟨req.status, req.history, proven.provenTxId⟩
  | none =>
    let (proven, isNew, completed) ← StorageRocksDb.transaction (completeReqScope now args req)
    if isNew then
      let notified ← notifyTransactionsOfProof now completed.notify proven.provenTxId completed
      return ⟨notified.status, notified.history, proven.provenTxId⟩
    else return ⟨completed.status, completed.history, proven.provenTxId⟩

end

end StorageProvider
end WalletToolbox

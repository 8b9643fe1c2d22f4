import WalletToolbox.Storage.RocksDbWalletStore

/-! The table operations of the RocksDB provider. Outputs are stored twice, as an
entity row and as the primary record of the output indexes. Filters by date and
paging are left out. -/

namespace WalletToolbox
open Async RocksDbWalletStore

def verifyOneOrNone {I : Interface} {α : Type} (results : List α) : Program I WalletError (Option α) :=
  match results with
  | [] => return none
  | [result] => return some result
  | _ => throw (.badRequest "Result must be unique.")

def verifyOne {I : Interface} {α : Type} (results : List α) : Program I WalletError α :=
  match results with
  | [result] => return result
  | _ => throw (.badRequest "Result must exist and be unique.")

def verifyId {I : Interface} (id : Nat) : Program I WalletError Nat :=
  if id < 1 then throw (.internal "id must be valid integer greater than zero.") else return id

namespace StorageRocksDb

def putEntity (table : EntityTable) (entity : Row table) : RocksDbM Unit :=
  put (.entity table (rowKey table entity)) entity

def getEntity (table : EntityTable) (key : RowKey) : RocksDbM (Option (Row table)) := do
  let record ← get (.entity table key)
  return record.map Versioned.value

def nextId (table : EntityTable) : RocksDbM Nat := db (.nextId table)

/-- A missing id, or the id zero, is replaced by a fresh one. -/
def prepareInsert (table : EntityTable) (entity : Row table) : RocksDbM (Row table) :=
  match rowId table entity with
  | some 0 => do return setRowId table (← nextId table) entity
  | _ => return entity

def insertEntity (table : EntityTable) (entity : Row table) : RocksDbM (Row table) := do
  let prepared ← prepareInsert table entity
  putEntity table prepared
  return prepared

def updateByKey (table : EntityTable) (key : RowKey) (spread : Row table → Row table) : RocksDbM Nat := do
  match ← getEntity table key with
  | none => return 0
  | some existing =>
    putEntity table (spread existing)
    return 1

def updateById (table : EntityTable) (id : Nat) (spread : Row table → Row table) : RocksDbM Nat :=
  updateByKey table (.id id) spread

/-- `compareEntityKeys`, ascending: numbers first by value, other keys by their text. -/
def keyPrecedes : RowKey → RowKey → Bool
  | .id first, .id second => first ≤ second
  | .pair a b, .pair c d => toString a ++ "!" ++ toString b ≤ toString c ++ "!" ++ toString d
  | .pair _ _, .id _ => true
  | .id _, .pair _ _ => false

def findEntities (table : EntityTable) (primaryId : Option Nat) (accepts : Row table → Bool) : RocksDbM (List (Row table)) := do
  match primaryId with
  | some id => return ((← getEntity table (.id id)).filter accepts).toList
  | none =>
    let records ← db (.scan table)
    let rows := (records.map Versioned.value).filter accepts
    return rows.insertionSort fun first second => keyPrecedes (rowKey table first) (rowKey table second)

def findProvenTxs (wanted : ProvenTxPartial) : RocksDbM (List TableProvenTx) :=
  findEntities .provenTxs wanted.provenTxId (matchesProvenTxPartial · wanted)

def findProvenTxReqs (wanted : ProvenTxReqPartial) : RocksDbM (List TableProvenTxReq) :=
  findEntities .provenTxReqs wanted.provenTxReqId (matchesProvenTxReqPartial · wanted)

structure ProvenOrRawTx where
  proven : Option TableProvenTx
  rawTx : Option (List UInt8)
  inputBEEF : Option (List UInt8)

def getProvenOrRawTx (txid : String) : RocksDbM ProvenOrRawTx := do
  match ← verifyOneOrNone (← findProvenTxs { txid := some txid }) with
  | some proven => return ⟨some proven, none, none⟩
  | none =>
    match ← verifyOneOrNone (← findProvenTxReqs { txid := some txid }) with
    | some req =>
      if req.status ∈ [.unsent, .unmined, .unconfirmed, .sending, .nosend, .completed] then
        return ⟨none, some req.rawTx, req.inputBEEF⟩
      else return ⟨none, none, none⟩
    | none => return ⟨none, none, none⟩

def getRawTxOfKnownValidTransaction (txid : Option String) (slice : Option (Nat × Nat)) : RocksDbM (Option (List UInt8)) := do
  match txid with
  | none => return none
  | some txid =>
    let found ← getProvenOrRawTx txid
    let rawTx := (found.proven.map TableProvenTx.rawTx).or found.rawTx
    match slice with
    | none => return rawTx
    | some (offset, length) => return rawTx.map fun rawTx => (rawTx.drop offset).take length

def validateRawTransaction (tx : TableTransaction) : RocksDbM TableTransaction := do
  if tx.rawTx.isSome ∨ tx.txid = none then return tx
  else match ← getRawTxOfKnownValidTransaction tx.txid none with
    | none => return tx
    | some rawTx => return { tx with rawTx := some rawTx }

/-- `StorageProvider.validateOutputScript`: refill a script the row leaves to its transaction. -/
def validateOutputScript (output : TableOutput) : RocksDbM TableOutput := do
  match output.scriptLength, output.scriptOffset, output.txid with
  | some (length + 1), some (offset + 1), some txid =>
    if txid = "" ∨ output.lockingScript.map List.length = some (length + 1) then return output
    else match ← getRawTxOfKnownValidTransaction (some txid) (some (offset + 1, length + 1)) with
      | none => return output
      | some script => return { output with lockingScript := some script }
  | _, _, _ => return output

def findTransactions (wanted : TransactionPartial) (status : List TransactionStatus) (noRawTx : Bool) :
    RocksDbM (List TableTransaction) := do
  let rows ← findEntities .transactions wanted.transactionId (matchesTransactionPartial · wanted)
  let rows := if status = [] then rows else rows.filter fun row => row.status ∈ status
  if noRawTx then return rows.map fun row => { row with rawTx := none, inputBEEF := none }
  else rows.mapM validateRawTransaction

def findOutputsFromIndex (wanted : OutputPartial) : RocksDbM (Option (List TableOutput)) := do
  match wanted.spendable, wanted.userId with
  | some true, some userId =>
    let indexed ← findSpendableOutputs userId wanted.basketId
    let rows := indexed.filter (matchesOutputPartial · wanted)
    return some (rows.insertionSort fun first second => first.outputId ≤ second.outputId)
  | _, _ => return none

def findOutputRows (wanted : OutputPartial) : RocksDbM (List TableOutput) := do
  match ← findOutputsFromIndex wanted with
  | some rows => return rows
  | none => findEntities .outputs wanted.outputId (matchesOutputPartial · wanted)

def hasTxStatus (txStatus : List TransactionStatus) (output : TableOutput) : RocksDbM Bool := do
  let tx ← verifyOneOrNone (← findTransactions { transactionId := some output.transactionId } txStatus true)
  return tx.isSome

def filterTxStatus (txStatus : List TransactionStatus) (rows : List TableOutput) : RocksDbM (List TableOutput) :=
  if txStatus = [] then return rows else rows.filterM (hasTxStatus txStatus)

def validateScripts (noScript : Bool) (rows : List TableOutput) : RocksDbM (List TableOutput) :=
  if noScript then return rows.map fun row => { row with lockingScript := none }
  else rows.mapM validateOutputScript

def findOutputs (wanted : OutputPartial) (txStatus : List TransactionStatus) (noScript : Bool) :
    RocksDbM (List TableOutput) := do
  let rows ← findOutputRows wanted
  let rows ← filterTxStatus txStatus rows
  validateScripts noScript rows

def transactionStatusForOutput (output : TableOutput) : RocksDbM (Option TransactionStatus) := do
  let tx ← verifyOneOrNone (← findTransactions { transactionId := some output.transactionId } [] true)
  return tx.map TableTransaction.status

def reindexOutputs (fromStatus toStatus : Option TransactionStatus) : List TableOutput → RocksDbM Unit
  | [] => return
  | output :: rest => do
    reindexOutputTransactionStatus output fromStatus toStatus
    reindexOutputs fromStatus toStatus rest

def reindexOutputsForTransactionStatus (transactionId : Nat) (fromStatus toStatus : Option TransactionStatus) :
    RocksDbM Unit := do
  let outputs ← findOutputsByTransactionId transactionId
  reindexOutputs fromStatus toStatus outputs

def insertTransaction (tx : TableTransaction) : RocksDbM TableTransaction := insertEntity .transactions tx

section
variable (hash : ScriptHash)

def insertOutput (output : TableOutput) : RocksDbM Nat := do
  let output ← insertEntity .outputs (applyOutputScriptMetadata hash output)
  putOutput hash output (← transactionStatusForOutput output)
  return output.outputId

def updateOutput (id : Nat) (update : OutputUpdate) : RocksDbM Nat := do
  let update := update.applyScriptMetadata hash
  let updated ← updateById .outputs id update.spread
  match ← verifyOneOrNone (← findOutputs { outputId := some id } [] false) with
  | none => return updated
  | some output =>
    putOutput hash output (← transactionStatusForOutput output)
    return updated

end

/-- One id of `updateTransaction`. -/
def updateOneTransaction (id : Nat) (update : TransactionUpdate) : RocksDbM Nat := do
  let existing ← getEntity .transactions (.id id)
  let count ← updateById .transactions id update.spread
  match existing, update.status with
  | some existing, some status =>
    if status ≠ existing.status then
      reindexOutputsForTransactionStatus id existing.status status
  | _, _ => pure ()
  return count

def updateTransaction : List Nat → TransactionUpdate → RocksDbM Nat
  | [], _ => return 0
  | id :: rest, update => do
    let count ← updateOneTransaction id update
    return count + (← updateTransaction rest update)

def changeInputStatuses (excludeSending : Bool) : List TransactionStatus :=
  [.completed, .unproven] ++ if excludeSending then [] else [.sending]

section
variable (userId basketId : Nat) (targetSatoshis : Int) (exactSatoshis : Option Int) (excludeSending : Bool) (transactionId : Nat)

def allocateByMode (mode : SpendableValueReservationMode) (satoshis : Int) (accepts : TableOutput → Bool) :
    RocksDbM (Option TableOutput) :=
  let txStatus := changeInputStatuses excludeSending
  reserveSpendableOutputByStatusAndValue userId basketId
    (fun output => if accepts output then hasTxStatus txStatus output else return false)
    transactionId mode satoshis txStatus

def allocateExactly : RocksDbM (Option TableOutput) :=
  match exactSatoshis with
  | none => return none
  | some exactSatoshis =>
    allocateByMode userId basketId excludeSending transactionId .exact exactSatoshis fun o => o.satoshis = exactSatoshis

def allocateChangeInput : RocksDbM (Option TableOutput) := do
  let reserve := allocateByMode userId basketId excludeSending transactionId
  let output ← .firstSome (allocateExactly userId basketId exactSatoshis excludeSending transactionId)
    (.firstSome (reserve .over targetSatoshis fun o => o.satoshis ≥ targetSatoshis)
      (reserve .under targetSatoshis fun o => o.satoshis < targetSatoshis))
  match output with
  | none => return none
  | some output => return some (← validateOutputScript output)

end

end StorageRocksDb
end WalletToolbox

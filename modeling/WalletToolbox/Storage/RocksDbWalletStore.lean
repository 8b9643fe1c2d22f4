import WalletToolbox.Storage.Database

/-! The operations of the wallet store, as programs over the database. A batch is a
sequence of separate writes. Lookups a `Promise.all` issues together are taken one
after the other. The `limit` of a scan is left out: no modelled caller gives one. -/

namespace WalletToolbox
open Async

abbrev RocksDbM := Program rocksDb WalletError

abbrev db (op : DbOp) : RocksDbM op.Reply := .await op .done

namespace RocksDbWalletStore

def get (key : StorageKey) : RocksDbM (Option (Record key)) := db (.get key)

/-- `put` without an expected version. -/
def put (key : StorageKey) (value : Value key) : RocksDbM Unit := do
  let current ← get key
  db (.put key (encode value current))

def write : Write → RocksDbM Unit
  | .put key value => put key value
  | .delete key => db (.remove key)

def batch : List Write → RocksDbM Unit
  | [] => return
  | first :: rest => do
    write first
    batch rest

def getPrimary (outputId : Nat) : RocksDbM (Option (Versioned TableOutput)) := do
  get (.outputPrimary (← .ofExcept (padNumber outputId)))

def existingDeletes (transactionStatus : Option TransactionStatus) :
    Option (Versioned TableOutput) → Except WalletError (List Write)
  | none => return []
  | some existing => indexDeletesForOutput existing.value transactionStatus

def putOutputWrites (hash : ScriptHash) (output : TableOutput) (transactionStatus : Option TransactionStatus)
    (existing : Option (Versioned TableOutput)) : Except WalletError (List Write) := do
  let next := applyOutputScriptMetadata hash output
  let deletes ← existingDeletes transactionStatus existing
  let puts ← indexPutsForOutput next transactionStatus
  return deletes ++ .put (.outputPrimary next.outputId) next :: puts

def putOutput (hash : ScriptHash) (output : TableOutput) (transactionStatus : Option TransactionStatus) : RocksDbM Unit :=
  if output.outputId = 0 then throw (.error "ROCKSDB_OUTPUT_ID_REQUIRED")
  else do
    let existing ← getPrimary output.outputId
    let writes ← .ofExcept (putOutputWrites hash output transactionStatus existing)
    batch writes

/-- `resolveOutputIndex` over ids that are already distinct. -/
def resolveOutputIds : List Nat → RocksDbM (List TableOutput)
  | [] => return []
  | outputId :: rest => do
    let record ← getPrimary outputId
    let outputs ← resolveOutputIds rest
    match record with
    | none => return outputs
    | some record => return record.value :: outputs

def resolveOutputIndex (records : List (IndexKey × Versioned OutputIndexRecord)) : RocksDbM (List TableOutput) :=
  resolveOutputIds (records.map fun entry => entry.2.value.outputId).dedup

def findSpendableOutputs (userId : Nat) (basketId : Option Nat) : RocksDbM (List TableOutput) := do
  let userId ← .ofExcept (padNumber userId)
  let keyPrefix ← match basketId with
    | none => pure (IndexPrefix.spendableAll userId)
    | some basketId => do pure (IndexPrefix.spendableBasket userId (← .ofExcept (padNumber basketId)))
  let records ← db (.getRange { keyPrefix })
  let outputs ← resolveOutputIndex records
  return outputs.filter fun output =>
    output.userId = userId && output.spendable && (basketId.isNone || output.basketId = basketId)

def findOutputsByTransactionId (transactionId : Nat) : RocksDbM (List TableOutput) := do
  let transactionId ← .ofExcept (padNumber transactionId)
  let records ← db (.getRange { keyPrefix := .transaction transactionId })
  let outputs ← resolveOutputIndex records
  return outputs.filter fun output => output.transactionId = transactionId

def reindexOutputTransactionStatus (output : TableOutput) (fromStatus toStatus : Option TransactionStatus) : RocksDbM Unit := do
  let deletes ← .ofExcept (statusIndexDeletesForOutput output fromStatus)
  let puts ← .ofExcept (statusIndexPutsForOutput output toStatus)
  batch (deletes ++ puts)

def tryReserveSpendableOutput (outputRecord : Versioned TableOutput) (userId basketId transactionId : Nat)
    (transactionStatus : Option TransactionStatus) : RocksDbM (Option TableOutput) := do
  let _ ← .ofExcept (padNumber outputRecord.value.outputId)
  .ofExcept (← db (.reserve { output := outputRecord, userId, basketId, transactionId, transactionStatus }))

section
variable (userId basketId : Nat) (predicate : TableOutput → RocksDbM Bool) (transactionId : Nat)

def reserveIndexEntry (transactionStatus : Option TransactionStatus) (outputId : Nat) : RocksDbM (Option TableOutput) := do
  let outputRecord ← getPrimary outputId
  match outputRecord with
  | none => return none
  | some outputRecord =>
    let output := outputRecord.value
    if output.userId = userId ∧ output.basketId = some basketId ∧ output.spendable = true then
      if ← predicate output then
        tryReserveSpendableOutput outputRecord userId basketId transactionId transactionStatus
      else return none
    else return none

def reserveFirstOfEntries (transactionStatus : Option TransactionStatus) :
    List (IndexKey × Versioned OutputIndexRecord) → RocksDbM (Option TableOutput)
  | [] => return none
  | (_, record) :: rest =>
    .firstSome (reserveIndexEntry userId basketId predicate transactionId transactionStatus record.value.outputId)
      (reserveFirstOfEntries transactionStatus rest)

def reserveFirstSpendableOutputFromIndexRange (range : IndexRange) (transactionStatus : Option TransactionStatus) :
    RocksDbM (Option TableOutput) := do
  let entries ← db (.getRange range)
  reserveFirstOfEntries userId basketId predicate transactionId transactionStatus entries

def reserveFirstOfRanges (transactionStatus : Option TransactionStatus) : List IndexRange → RocksDbM (Option TableOutput)
  | [] => return none
  | range :: rest =>
    .firstSome (reserveFirstSpendableOutputFromIndexRange userId basketId predicate transactionId range transactionStatus)
      (reserveFirstOfRanges transactionStatus rest)

def firstSpendableValueOutputIdInBucket (keyPrefix : IndexPrefix) (reverse : Bool) : RocksDbM (Option Nat) := do
  let entries ← db (.getRange { keyPrefix, reverse })
  return entries.head?.bind fun entry => entry.1.outputId

def firstSpendableValueSatoshisInRange (range : IndexRange) : RocksDbM (Option Nat) := do
  let entries ← db (.getRange range)
  return entries.head?.bind fun entry => entry.1.satoshis

def spendableStatusValueBucketSeed (status : TransactionStatus) (satoshis : Int) : RocksDbM Int := do
  let keyPrefix ← .ofExcept (outputSpendableBasketStatusValueSatoshisPrefix userId basketId status.text satoshis)
  let firstOutputId ← firstSpendableValueOutputIdInBucket keyPrefix false
  let lastOutputId ← firstSpendableValueOutputIdInBucket keyPrefix true
  match firstOutputId, lastOutputId with
  | some first, some last =>
    if last < first then return spendableReservationSeed transactionId
    else return first + positiveModulo (transactionId - 1) (last - first + 1)
  | _, _ => return spendableReservationSeed transactionId

def reserveSpendableValueBucketFromSeed (satoshis : Int) (reverse : Bool) (seed : Int) (transactionStatus : TransactionStatus) :
    RocksDbM (Option TableOutput) := do
  let ranges ← .ofExcept
    (spendableStatusValueSeededBucketRanges userId basketId transactionStatus.text satoshis seed reverse)
  reserveFirstOfRanges userId basketId predicate transactionId transactionStatus ranges

variable (mode : SpendableValueReservationMode) (satoshis : Int)

def seededSatoshis (range : IndexRange) : RocksDbM (Option Int) :=
  match mode with
  | .exact => return some satoshis
  | .over | .under => do return (← firstSpendableValueSatoshisInRange range).map Int.ofNat

def reserveSeededBucket (status : TransactionStatus) : Option Int → RocksDbM (Option TableOutput)
  | none => return none
  | some seededSatoshis => do
    let bucketSeed ← spendableStatusValueBucketSeed userId basketId transactionId status seededSatoshis
    reserveSpendableValueBucketFromSeed userId basketId predicate transactionId seededSatoshis (mode = .under) bucketSeed status

/-- One status of `reserveSpendableOutputByStatusAndValue`: the bucket of the first
value in the range from its seed, and then the whole range. -/
def reserveSpendableOutputOfStatus (status : TransactionStatus) : RocksDbM (Option TableOutput) := do
  let range ← .ofExcept (spendableStatusValueRange userId basketId status.text mode satoshis)
  let seeded ← seededSatoshis mode satoshis range
  .firstSome (reserveSeededBucket userId basketId predicate transactionId mode status seeded)
    (reserveFirstSpendableOutputFromIndexRange userId basketId predicate transactionId range status)

def reserveSpendableOutputByStatusAndValue : List TransactionStatus → RocksDbM (Option TableOutput)
  | [] => return none
  | status :: rest =>
    .firstSome (reserveSpendableOutputOfStatus userId basketId predicate transactionId mode satoshis status)
      (reserveSpendableOutputByStatusAndValue rest)

end

end RocksDbWalletStore
end WalletToolbox

import WalletToolbox.Storage.RocksDbWalletStore

/-! The operations on outputs that the wallet store offers beside the ones the provider
goes through: deleting, counting, looking up, reserving without a transaction status,
and rebuilding the indexes. A delete, such a reservation and a rebuild work out the
index keys without a status as well. -/

namespace WalletToolbox
open Async

namespace RocksDbWalletStore

def updateOutput (hash : ScriptHash) (output : TableOutput) (transactionStatus : Option TransactionStatus) : RocksDbM Unit :=
  putOutput hash output transactionStatus

def deleteOutputWrites (outputId : Nat) (existing : Versioned TableOutput) : Except WalletError (List Write) := do
  return (← indexDeletesForOutput existing.value none) ++ [.delete (.outputPrimary outputId)]

def deleteOutput (outputId : Nat) : RocksDbM Unit := do
  let existing ← getPrimary outputId
  match existing with
  | none => return
  | some existing =>
    let writes ← .ofExcept (deleteOutputWrites outputId existing)
    batch writes

def countSpendableOutputs (userId : Nat) (basketId : Option Nat) : RocksDbM Nat := do
  let userId ← .ofExcept (padNumber userId)
  let keyPrefix ← match basketId with
    | none => pure (IndexPrefix.spendableAll userId)
    | some basketId => do pure (IndexPrefix.spendableBasket userId (← .ofExcept (padNumber basketId)))
  let entries ← db (.getRange { keyPrefix })
  return entries.length

def countSpendableOutputsByTransactionStatus (userId basketId : Nat) : List TransactionStatus → RocksDbM Nat
  | [] => return 0
  | status :: rest => do
    let keyPrefix ← .ofExcept (outputSpendableBasketStatusPrefix userId basketId status.text)
    let entries ← db (.getRange { keyPrefix })
    let count ← countSpendableOutputsByTransactionStatus userId basketId rest
    return entries.length + count

section
variable (userId basketId : Nat) (predicate : TableOutput → RocksDbM Bool) (transactionId : Nat)

def reserveFirstSpendableOutput : RocksDbM (Option TableOutput) := do
  let keyPrefix ← .ofExcept (outputSpendableBasketPrefix userId basketId)
  let entries ← db (.getRange { keyPrefix })
  reserveFirstOfEntries userId basketId predicate transactionId none entries

def spendableValueBucketSeed (satoshis : Int) : RocksDbM Int := do
  let keyPrefix ← .ofExcept (outputSpendableBasketValueSatoshisPrefix userId basketId satoshis)
  let firstOutputId ← firstSpendableValueOutputIdInBucket keyPrefix false
  let lastOutputId ← firstSpendableValueOutputIdInBucket keyPrefix true
  match firstOutputId, lastOutputId with
  | some first, some last =>
    if last < first then return spendableReservationSeed transactionId
    else return first + positiveModulo (transactionId - 1) (last - first + 1)
  | _, _ => return spendableReservationSeed transactionId

variable (mode : SpendableValueReservationMode) (satoshis : Int)

def reserveSeededValueBucket : Option Int → RocksDbM (Option TableOutput)
  | none => return none
  | some seededSatoshis => do
    let bucketSeed ← spendableValueBucketSeed userId basketId transactionId seededSatoshis
    let ranges ← .ofExcept (spendableValueSeededBucketRanges userId basketId seededSatoshis bucketSeed (mode = .under))
    reserveFirstOfRanges userId basketId predicate transactionId none ranges

def reserveSpendableOutputByValue : RocksDbM (Option TableOutput) := do
  let range ← .ofExcept (spendableValueRange userId basketId mode satoshis)
  let seeded ← seededSatoshis mode satoshis range
  .firstSome (reserveSeededValueBucket userId basketId predicate transactionId mode seeded)
    (reserveFirstSpendableOutputFromIndexRange userId basketId predicate transactionId range none)

end

def findOutputsByScriptHash (scriptHash : String) : RocksDbM (List TableOutput) := do
  let normalizedScriptHash ← .ofExcept (normalizeIndexPart scriptHash)
  let records ← db (.getRange { keyPrefix := .scriptHash normalizedScriptHash })
  let outputs ← resolveOutputIndex records
  return outputs.filter fun output => output.scriptHash = some normalizedScriptHash

def findOutputByOutpoint (userId : Nat) (txid : String) (vout : Nat) : RocksDbM (Option TableOutput) := do
  let key ← .ofExcept (outputOutpointKey userId txid vout)
  let index ← get (.index key)
  match index with
  | none => return none
  | some index =>
    let output ← getPrimary index.value.outputId
    return (output.map Versioned.value).filter fun output =>
      output.userId = userId && output.txid = some txid && output.vout = vout

def findOutputsByOutpoints (userId : Nat) : List (String × Nat) → RocksDbM (List (String × TableOutput))
  | [] => return []
  | (txid, vout) :: rest => do
    let output ← findOutputByOutpoint userId txid vout
    let byOutpoint ← findOutputsByOutpoints userId rest
    return (output.map fun output => (txid ++ "." ++ toString vout, output)).toList ++ byOutpoint

def scanOutputs (records : Records) : List (Nat × Versioned TableOutput) :=
  let outputIds := records.keys.filterMap fun key => match key with
    | .outputPrimary outputId => some outputId
    | _ => none
  (outputIds.insertionSort fun first second => first ≤ second).filterMap fun outputId =>
    (records.primary outputId).map fun record => (outputId, record)

/-- Every key under one of the six prefixes; the order of the deletes does not matter. -/
def collectOutputIndexDeletes (records : Records) : List Write :=
  records.keys.filterMap fun key => match key with
    | .index key => some (deleteIndex key)
    | _ => none

def rebuildOutputPuts (hash : ScriptHash) (outputId : Nat) (record : Versioned TableOutput) : Except WalletError (List Write) := do
  let output := applyOutputScriptMetadata hash record.value
  return .put (.outputPrimary outputId) output :: (← indexPutsForOutput output none)

def rebuildPuts (hash : ScriptHash) : List (Nat × Versioned TableOutput) → Except WalletError (List Write)
  | [] => return []
  | (outputId, record) :: rest => do
    let puts ← rebuildOutputPuts hash outputId record
    return puts ++ (← rebuildPuts hash rest)

def rebuildOutputIndexes (hash : ScriptHash) (database : Database) : Except WalletError Nat × Database :=
  let records := scanOutputs database.records
  match rebuildPuts hash records with
  | .error error => (.error error, database)
  | .ok puts => (.ok records.length,
      { database with records := (collectOutputIndexDeletes database.records ++ puts).foldl (Write.apply false) database.records })

end RocksDbWalletStore
end WalletToolbox

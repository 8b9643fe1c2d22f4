import WalletToolbox.Async.Program
import WalletToolbox.Storage.Keys

/-! The database under the wallet store and the index writes of an output. Each
operation is one atomic step: a point read, a point write, one pass of a range
iterator (which sees the store as it was when the pass began), or a native
transaction. Taking an id from the block held in memory, refilled from its counter
when it is used up, is one step as well: no other caller sees it half done. -/

namespace WalletToolbox
open Async

def ROCKSDB_ID_BLOCK_SIZE : Nat := 256

structure IdBlock where
  next : Nat
  last : Nat
deriving DecidableEq, Repr

structure Database where
  records : Records
  idBlocks : EntityTable → Option IdBlock

abbrev Records.row (records : Records) (table : EntityTable) (key : RowKey) : Option (Versioned (Row table)) :=
  @AList.lookup _ Record _ (.entity table key) records

abbrev Records.primary (records : Records) (outputId : Nat) : Option (Versioned TableOutput) :=
  @AList.lookup _ Record _ (.outputPrimary outputId) records

abbrev Records.entry (records : Records) (key : IndexKey) : Option (Versioned OutputIndexRecord) :=
  @AList.lookup _ Record _ (.index key) records

def Database.empty : Database := ⟨∅, fun _ => none⟩

/-- What a native transaction has to know to reserve `output`, as it was read. -/
structure Reservation where
  output : Versioned TableOutput
  userId : Nat
  basketId : Nat
  transactionId : Nat
  transactionStatus : Option TransactionStatus
deriving DecidableEq, Repr

inductive DbOp where
  | get (key : StorageKey)
  | put (key : StorageKey) (record : Record key)
  | remove (key : StorageKey)
  | scan (table : EntityTable)
  | getRange (range : IndexRange)
  | nextId (table : EntityTable)
  | reserve (reservation : Reservation)

@[reducible] def DbOp.Reply : DbOp → Type
  | .get key => Option (Record key)
  | .put _ _ | .remove _ => Unit
  | .scan table => List (Versioned (Row table))
  | .getRange _ => List (IndexKey × Versioned OutputIndexRecord)
  | .nextId _ => Nat
  | .reserve _ => Except WalletError (Option TableOutput)

abbrev rocksDb : Interface := ⟨DbOp, DbOp.Reply⟩

def encode {α : Type} (value : α) (current : Option (Versioned α)) : Versioned α :=
  ⟨value, (current.map Versioned.version).getD 0 + 1⟩

def statusIndexKeys (output : TableOutput) (transactionStatus : Option TransactionStatus) :
    Except WalletError (List IndexKey) :=
  match output.spendable, output.basketId, transactionStatus with
  | true, some basketId, some status => do
    return [← outputSpendableBasketStatusValueKey output.userId basketId status.text output.satoshis output.outputId]
  | _, _, _ => return []

def spendableIndexKeys (output : TableOutput) : Except WalletError (List IndexKey) :=
  match output.spendable, output.basketId with
  | false, _ => return []
  | true, none => do return [← outputSpendableUserKey output.userId output.outputId]
  | true, some basketId => do
    let user ← outputSpendableUserKey output.userId output.outputId
    let basket ← outputSpendableBasketKey output.userId basketId output.outputId
    return [user, basket, ← outputSpendableBasketValueKey output.userId basketId output.satoshis output.outputId]

def scriptHashIndexKeys (output : TableOutput) : Except WalletError (List IndexKey) :=
  match output.scriptHash with
  | none => return []
  | some scriptHash =>
    if scriptHash = "" then return [] else do return [← outputScriptHashKey scriptHash output.outputId]

def outpointIndexKeys (output : TableOutput) : Except WalletError (List IndexKey) :=
  match output.txid with
  | none => return []
  | some txid => do return [← outputOutpointKey output.userId txid output.vout]

def outputIndexKeys (output : TableOutput) (transactionStatus : Option TransactionStatus) :
    Except WalletError (List IndexKey) := do
  let scriptHash ← scriptHashIndexKeys output
  let spendable ← spendableIndexKeys output
  let status ← statusIndexKeys output transactionStatus
  let outpoint ← outpointIndexKeys output
  let transaction ← outputTransactionKey output.transactionId output.outputId
  return scriptHash ++ spendable ++ status ++ outpoint ++ [transaction]

inductive Write where
  | put (key : StorageKey) (value : Value key)
  | delete (key : StorageKey)

def Write.key : Write → StorageKey
  | .put key _ | .delete key => key

/-- The records after a write. A put counts on from the version it replaces, or
starts at one where the caller does not look (`fresh`). -/
def Write.apply (fresh : Bool) (records : Records) : Write → Records
  | .put key value => records.insert key (encode value (if fresh then none else records.lookup key))
  | .delete key => records.erase key

def putIndex (output : TableOutput) (key : IndexKey) : Write := .put (.index key) ⟨output.outputId⟩
def deleteIndex (key : IndexKey) : Write := .delete (.index key)

def indexPutsForOutput (output : TableOutput) (transactionStatus : Option TransactionStatus) :
    Except WalletError (List Write) := do
  return (← outputIndexKeys output transactionStatus).map (putIndex output)

def indexDeletesForOutput (output : TableOutput) (transactionStatus : Option TransactionStatus) :
    Except WalletError (List Write) := do
  return (← outputIndexKeys output transactionStatus).map deleteIndex

def statusIndexPutsForOutput (output : TableOutput) (transactionStatus : Option TransactionStatus) :
    Except WalletError (List Write) := do
  return (← statusIndexKeys output transactionStatus).map (putIndex output)

def statusIndexDeletesForOutput (output : TableOutput) (transactionStatus : Option TransactionStatus) :
    Except WalletError (List Write) := do
  return (← statusIndexKeys output transactionStatus).map deleteIndex

abbrev NativeTransaction := StateT Records (Except WalletError)

namespace NativeTransaction

def put (key : StorageKey) (record : Record key) : NativeTransaction Unit :=
  modify (AList.insert key record)

def writeIndexes (writes : List Write) : NativeTransaction Unit :=
  writes.forM fun write => modify fun records => write.apply true records

end NativeTransaction

def runNativeTransaction {α : Type} (work : NativeTransaction α) (database : Database) :
    Except WalletError α × Database :=
  match work.run database.records with
  | .ok (value, records) => (.ok value, { database with records })
  | .error error => (.error error, database)

/-- Whether a reservation still fits what the transaction reads. -/
def Reservation.fits (reservation : Reservation) (primary entity : Versioned TableOutput) : Prop :=
  primary.version = reservation.output.version ∧
    entity.value.outputId = primary.value.outputId ∧
    primary.value.userId = reservation.userId ∧
    primary.value.basketId = some reservation.basketId ∧
    primary.value.spendable = true ∧
    entity.value.spendable = true

instance (reservation : Reservation) (primary entity : Versioned TableOutput) :
    Decidable (reservation.fits primary entity) := inferInstanceAs (Decidable (_ ∧ _))

/-- The row a reservation stores in both places. -/
def Reservation.next (hash : ScriptHash) (reservation : Reservation) (current : TableOutput) : TableOutput :=
  applyOutputScriptMetadata hash { current with spendable := false, spentBy := some reservation.transactionId }

def Reservation.work (hash : ScriptHash) (reservation : Reservation) : NativeTransaction (Option TableOutput) := do
  let outputId := reservation.output.value.outputId
  let records ← get
  match records.primary outputId, records.row .outputs (.id outputId) with
  | some primary, some entity =>
    if reservation.fits primary entity then
      let next := reservation.next hash primary.value
      let deletes ← indexDeletesForOutput primary.value reservation.transactionStatus
      NativeTransaction.writeIndexes deletes
      NativeTransaction.put (.outputPrimary outputId) (encode next (some primary))
      NativeTransaction.put (.entity .outputs (.id outputId)) (encode next (some entity))
      let puts ← indexPutsForOutput next reservation.transactionStatus
      NativeTransaction.writeIndexes puts
      return some next
    else return none
  | _, _ => return none

/-- The rows of one table. -/
def scanEntities (table : EntityTable) (records : Records) : List (Versioned (Row table)) :=
  records.keys.filterMap fun key => match key with
    | .entity other rowKey => if other = table then records.row table rowKey else none
    | _ => none

def rangeEntries (range : IndexRange) (records : Records) : List (IndexKey × Versioned OutputIndexRecord) :=
  let keys := records.keys.filterMap fun key => match key with
    | .index key => if range.contains key then some key else none
    | _ => none
  let sorted := keys.insertionSort fun first second => first.precedes second
  (if range.reverse then sorted.reverse else sorted).filterMap fun key =>
    (records.entry key).map fun record => (key, record)

def takeId (table : EntityTable) (database : Database) : Nat × Database :=
  let refill : Nat × Database :=
    let current := database.records.lookup (.counter table)
    let last := (current.map Versioned.value).getD 0 + ROCKSDB_ID_BLOCK_SIZE
    let first := last - ROCKSDB_ID_BLOCK_SIZE + 1
    (first, { records := database.records.insert (.counter table) (encode last current)
              idBlocks := fun other => if other = table then some ⟨first + 1, last⟩ else database.idBlocks other })
  match database.idBlocks table with
  | some block =>
    if block.next ≤ block.last then
      (block.next, { database with
        idBlocks := fun other => if other = table then some ⟨block.next + 1, block.last⟩ else database.idBlocks other })
    else refill
  | none => refill

def exec (hash : ScriptHash) : Machine rocksDb Database
  | .get key, database => (database.records.lookup key, database)
  | .put key record, database => ((), { database with records := database.records.insert key record })
  | .remove key, database => ((), { database with records := database.records.erase key })
  | .scan table, database => (scanEntities table database.records, database)
  | .getRange range, database => (rangeEntries range database.records, database)
  | .nextId table, database => takeId table database
  | .reserve reservation, database => runNativeTransaction (reservation.work hash) database

end WalletToolbox

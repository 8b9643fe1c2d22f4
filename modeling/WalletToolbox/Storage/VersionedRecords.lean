import WalletToolbox.Async.Program
import WalletToolbox.Language.Text

/-! The records of the wallet store under any key. A record has a version, which a write may
expect. A write that expects one, and the increment of a number, run in a native
transaction of the database; the others read and write as they go. -/

namespace WalletToolbox
open Async

structure StoredRecord (V : Type) where
  value : V
  version : Nat
  updatedAt : Nat
deriving DecidableEq, Repr

inductive StoreError where
  | error (message : String)
deriving DecidableEq, Repr

structure PutArgs (V : Type) where
  key : String
  value : V
  /-- `null` expects no record. A number that is no version is 0, which no record has. -/
  expectedVersion : Option (Option Nat) := none
  updatedAt : Option (Option Nat) := none
deriving DecidableEq, Repr

inductive BatchWrite (V : Type) where
  | put (args : PutArgs V)
  | delete (key : String)
deriving DecidableEq, Repr

inductive PutResult where
  | ok (key : String) (version : Nat)
  | versionConflict (key : String) (currentVersion : Option Nat)
deriving DecidableEq, Repr

def normalizeKey (value : String) : Except StoreError String :=
  let normalized := Text.trim value
  if normalized = "" then .error (.error "ROCKSDB_WALLET_STORE_KEY_REQUIRED")
  else if Char.ofNat 0 ∈ normalized.toList then .error (.error "ROCKSDB_WALLET_STORE_KEY_INVALID")
  else .ok normalized

def normalizeDate (updatedAt : Option (Option Nat)) (now : Nat) : Except StoreError Nat :=
  match updatedAt with
  | none => .ok now
  | some (some time) => .ok time
  | some none => .error (.error "ROCKSDB_WALLET_STORE_UPDATED_AT_INVALID")

variable {V : Type}

def encodeRecord (value : V) (currentVersion : Option Nat) (updatedAt : Option (Option Nat)) (now : Nat) :
    Except StoreError (StoredRecord V) := do
  return ⟨value, currentVersion.getD 0 + 1, ← normalizeDate updatedAt now⟩

inductive RecordOp (V : Type) where
  | get (key : String)
  | put (key : String) (record : StoredRecord V)
  | remove (key : String)
  | begin
  | transactionGet (key : String)
  | transactionPut (key : String) (record : StoredRecord V)
  | commit
  | abort

/-- A read replies with the time as well. -/
@[reducible] def RecordOp.Reply : RecordOp V → Type
  | .get _ | .transactionGet _ => Option (StoredRecord V) × Nat
  | .put _ _ | .remove _ | .begin | .transactionPut _ _ | .abort => Unit
  | .commit => Except StoreError Unit

abbrev recordDb (V : Type) : Interface := ⟨RecordOp V, RecordOp.Reply⟩

abbrev RecordM (V : Type) := Program (recordDb V) StoreError

abbrev RecordOp.await (op : RecordOp V) : RecordM V op.Reply := .await op .done

abbrev StoredRecords (V : Type) := String → Option (StoredRecord V)

/-- A native transaction that has begun: what was stored then, and what it has written since. -/
structure OpenTransaction (V : Type) where
  snapshot : StoredRecords V
  writes : List (String × StoredRecord V)

structure TransactionEngine (V : Type) where
  reads : (transaction : OpenTransaction V) → (current : StoredRecords V) → String → Option (StoredRecord V)
  accepts : (transaction : OpenTransaction V) → (current : StoredRecords V) → Bool

structure RecordStore (V : Type) where
  records : StoredRecords V
  time : Nat
  transaction : Option (OpenTransaction V)

def StoredRecords.applyWrites (records : StoredRecords V) (writes : List (String × StoredRecord V)) : StoredRecords V :=
  writes.foldl (fun records (key, record) => Function.update records key (some record)) records

namespace RecordStore

def runNativeTransaction {α : Type} (work : RecordM V α) : RecordM V α := do
  RecordOp.begin.await
  match ← work.settle with
  | .ok value =>
    .ofExcept (← RecordOp.commit.await)
    return value
  | .error error =>
    RecordOp.abort.await
    .fail error

def compareAndSet (key : String) (value : V) (expectedVersion : Option Nat) (updatedAt : Option (Option Nat)) : RecordM V PutResult :=
  runNativeTransaction do
    let (current, now) ← (RecordOp.transactionGet key).await
    let currentVersion := current.map StoredRecord.version
    if currentVersion ≠ expectedVersion then return .versionConflict key currentVersion
    else
      let next ← .ofExcept (encodeRecord value currentVersion updatedAt now)
      (RecordOp.transactionPut key next).await
      return .ok key next.version

def put (args : PutArgs V) : RecordM V PutResult := do
  let key ← .ofExcept (normalizeKey args.key)
  match args.expectedVersion with
  | some expectedVersion => compareAndSet key args.value expectedVersion args.updatedAt
  | none =>
    let (current, now) ← (RecordOp.get key).await
    let next ← .ofExcept (encodeRecord args.value (current.map StoredRecord.version) args.updatedAt now)
    (RecordOp.put key next).await
    return .ok key next.version

def delete (key : String) : RecordM V Unit := do
  let key ← .ofExcept (normalizeKey key)
  (RecordOp.remove key).await

/-- One entry of a batch. -/
def batchWrite : BatchWrite V → RecordM V PutResult
  | .delete key => do
    let key ← .ofExcept (normalizeKey key)
    (RecordOp.remove key).await
    return .ok key 0
  | .put args => do
    let key ← .ofExcept (normalizeKey args.key)
    let (current, now) ← (RecordOp.get key).await
    let currentVersion := current.map StoredRecord.version
    if args.expectedVersion ≠ none ∧ args.expectedVersion ≠ some currentVersion then return .versionConflict key currentVersion
    else
      let next ← .ofExcept (encodeRecord args.value currentVersion args.updatedAt now)
      (RecordOp.put key next).await
      return .ok key next.version

def batch : List (BatchWrite V) → RecordM V (List PutResult)
  | [] => return []
  | write :: rest => do
    let result ← batchWrite write
    let results ← batch rest
    return result :: results

def maxSafeInteger : Int := 9007199254740991

def incrementNumber (incremented : Option V → Int → V) (key : String) (amount : Int) : RecordM V V := do
  if 1 ≤ amount ∧ amount ≤ maxSafeInteger then
    let key ← .ofExcept (normalizeKey key)
    runNativeTransaction do
      let (current, now) ← (RecordOp.transactionGet key).await
      let next := incremented (current.map StoredRecord.value) amount
      let record ← .ofExcept (encodeRecord next (current.map StoredRecord.version) none now)
      (RecordOp.transactionPut key record).await
      return next
  else .fail (.error "ROCKSDB_WALLET_STORE_INCREMENT_AMOUNT_INVALID")

end RecordStore

variable (engine : TransactionEngine V) (elapse : Nat → Nat)

/-- One operation of the database. Time passes with each. -/
def recordExec : Machine (recordDb V) (RecordStore V) := fun op store =>
  let later := { store with time := elapse store.time }
  match op with
  | .get key => ((store.records key, store.time), later)
  | .put key record => ((), { later with records := Function.update store.records key (some record) })
  | .remove key => ((), { later with records := Function.update store.records key none })
  | .begin => ((), { later with transaction := some ⟨store.records, []⟩ })
  | .transactionGet key => ((store.transaction.bind fun transaction => engine.reads transaction store.records key, store.time), later)
  | .transactionPut key record =>
    ((), { later with transaction := store.transaction.map fun transaction => { transaction with writes := transaction.writes ++ [(key, record)] } })
  | .commit =>
    match store.transaction with
    | some transaction =>
      if engine.accepts transaction store.records = true then
        (.ok (), { later with records := store.records.applyWrites transaction.writes, transaction := none })
      else (.error (.error "Transaction was not committed"), { later with transaction := none })
    | none => (.ok (), later)
  | .abort => ((), { later with transaction := none })

end WalletToolbox

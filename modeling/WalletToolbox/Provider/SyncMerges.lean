import WalletToolbox.Storage.Keys

/-! The merge of the rows of another storage. Which of two versions of a row is newer is
told by their time stamps; they are kept beside the rows here. -/

namespace WalletToolbox

structure Stamped (α : Type) where
  created_at : Int
  updated_at : Int
  row : α
deriving DecidableEq, Repr

/-- The fields an update gives. -/
structure StampedUpdate (β : Type) where
  created_at : Option Int
  updated_at : Option Int
  fields : β

/-- The rows of a table, by the id they are stored under. -/
abbrev StampedRows (α : Type) := AList fun _ : Nat => Stamped α

structure UpdatedTable (α β : Type) where
  keyProp : String
  id : α → Nat
  updateId : β → Option Nat
  spread : β → α → α

section
variable {α β : Type}

def UpdatedTable.spreadStamped (table : UpdatedTable α β) (update : StampedUpdate β) (existing : Stamped α) : Stamped α where
  created_at := update.created_at.getD existing.created_at
  updated_at := update.updated_at.getD existing.updated_at
  row := table.spread update.fields existing.row

namespace StampedRocksDb

def validatePartialForUpdate (now : Int) (update : StampedUpdate β) : StampedUpdate β :=
  { update with created_at := none, updated_at := some now }

def updateById (table : UpdatedTable α β) (now : Int) (rows : StampedRows α) (id : Nat) (update : StampedUpdate β) : StampedRows α × Nat :=
  match rows.lookup id with
  | none => (rows, 0)
  | some existing =>
    let updated := table.spreadStamped (validatePartialForUpdate now update) existing
    (rows.insert (table.id updated.row) updated, 1)

end StampedRocksDb

namespace StampedIdb

def validatePartialForUpdate (now : Int) (update : StampedUpdate β) : StampedUpdate β :=
  { update with updated_at := some (update.updated_at.getD now) }

def updateIdb (table : UpdatedTable α β) (now : Int) (rows : StampedRows α) (id : Nat) (update : StampedUpdate β) :
    Except WalletError (StampedRows α × Nat) :=
  if (table.updateId update.fields).any (· ≠ id) then .error (.invalidParameter ("update." ++ table.keyProp) "undefined")
  else
    match rows.lookup id with
    | none => .ok (rows, 0)
    | some existing =>
      let updated := table.spreadStamped (validatePartialForUpdate now update) existing
      if table.id updated.row = id then .ok (rows.insert id updated, 1)
      else .error (.internal ("updated id " ++ toString (table.id updated.row) ++ " does not match original " ++ toString id))

end StampedIdb

/-- How the rows of an entity are merged. The properties that are merged leave its id alone. -/
structure SyncEntity (α β : Type) extends UpdatedTable α β where
  lookups : α → Except WalletError (List (α → Bool))
  merged : α → α → α
  toApi : α → β
  incoming : α → Nat → α
  keepsId : ∀ existing ei, id (spread (toApi (merged existing ei)) existing) = id existing
  newId : ∀ ei fresh, id (incoming ei fresh) = fresh

structure SyncStore (α : Type) where
  rows : StampedRows α
  nextId : Nat

/-- What came of one incoming row. -/
inductive MergeResult where
  | inserted (id : Nat)
  | updated (id : Nat)
  | kept (id : Nat)
  | failed (error : WalletError)
deriving DecidableEq, Repr

def verifyOneStamped (rows : List (Stamped α)) : Except WalletError (Option (Stamped α)) :=
  match rows with
  | [] => .ok none
  | [row] => .ok (some row)
  | _ => .error (.badRequest "Result must be unique.")

def findFirst (rows : StampedRows α) : List (α → Bool) → Except WalletError (Option (Stamped α))
  | [] => .ok none
  | wanted :: rest => do
    match ← verifyOneStamped ((rows.entries.map fun entry => entry.2).filter fun stored => wanted stored.row) with
    | some found => return some found
    | none => findFirst rows rest

namespace SyncEntity
variable (entity : SyncEntity α β)

def mergeFind (rows : StampedRows α) (ei : Stamped α) : Except WalletError (Option (Stamped α)) := do
  findFirst rows (← entity.lookups ei.row)

def mergeExisting (now : Int) (rows : StampedRows α) (existing ei : Stamped α) : StampedRows α × Bool :=
  if existing.updated_at < ei.updated_at then
    let merged : Stamped α := ⟨existing.created_at, max ei.updated_at existing.updated_at, entity.merged existing.row ei.row⟩
    ((StampedRocksDb.updateById entity.toUpdatedTable now rows (entity.id existing.row)
      ⟨some merged.created_at, some merged.updated_at, entity.toApi merged.row⟩).1, true)
  else (rows, false)

def merge (now : Int) (ei : Stamped α) (store : SyncStore α) : SyncStore α × MergeResult :=
  match entity.mergeFind store.rows ei with
  | .error error => (store, .failed error)
  | .ok (some existing) =>
    match entity.mergeExisting now store.rows existing ei with
    | (rows, true) => ({ store with rows }, .updated (entity.id existing.row))
    | (rows, false) => ({ store with rows }, .kept (entity.id existing.row))
  | .ok none => (⟨store.rows.insert store.nextId { ei with row := entity.incoming ei.row store.nextId }, store.nextId + 1⟩, .inserted store.nextId)

end SyncEntity

end

structure SyncMap where
  transaction : Nat → Option Nat
  outputBasket : Nat → Option Nat
  provenTx : Nat → Option Nat

def TableOutput.toApi (output : TableOutput) : OutputUpdate where
  outputId := some output.outputId
  userId := some output.userId
  transactionId := some output.transactionId
  basketId := some output.basketId
  spendable := some output.spendable
  change := some output.change
  outputDescription := some output.outputDescription
  vout := some output.vout
  satoshis := some output.satoshis
  providedBy := some output.providedBy
  purpose := some output.purpose
  type := some output.type
  txid := some output.txid
  senderIdentityKey := some output.senderIdentityKey
  derivationPrefix := some output.derivationPrefix
  derivationSuffix := some output.derivationSuffix
  customInstructions := some output.customInstructions
  spentBy := some output.spentBy
  sequenceNumber := some output.sequenceNumber
  spendingDescription := some output.spendingDescription
  scriptLength := some output.scriptLength
  scriptOffset := some output.scriptOffset
  lockingScript := some output.lockingScript
  scriptHash := some output.scriptHash

def TableTransaction.toApi (tx : TableTransaction) : TransactionUpdate where
  transactionId := some tx.transactionId
  userId := some tx.userId
  provenTxId := some tx.provenTxId
  status := some tx.status
  reference := some tx.reference
  isOutgoing := some tx.isOutgoing
  satoshis := some tx.satoshis
  description := some tx.description
  version := some tx.version
  lockTime := some tx.lockTime
  txid := some tx.txid
  inputBEEF := some tx.inputBEEF
  rawTx := some tx.rawTx

def mappedId (idMap : Nat → Option Nat) (id : Option Nat) : Option Nat := (id.filter (· ≠ 0)).bind idMap

def EntityOutput (hashOutputLockingScript : ScriptHash) (syncMap : SyncMap) (userId : Nat) : SyncEntity TableOutput OutputUpdate where
  keyProp := "outputId"
  id := TableOutput.outputId
  updateId := OutputUpdate.outputId
  spread update existing := (update.applyScriptMetadata hashOutputLockingScript).spread existing
  lookups ei :=
    match syncMap.transaction ei.transactionId with
    | none => .error (.invalidParameter "args.partial.transactionId" "not undefined")
    | some transactionId =>
      .ok [fun row => matchesOutputPartial row { userId := some userId, transactionId := some transactionId, vout := some ei.vout }]
  merged existing ei :=
    { existing with
      spentBy := mappedId syncMap.transaction ei.spentBy
      spendable := ei.spendable
      change := ei.change
      type := ei.type
      providedBy := ei.providedBy
      purpose := ei.purpose
      outputDescription := ei.outputDescription
      spendingDescription := ei.spendingDescription
      senderIdentityKey := ei.senderIdentityKey
      customInstructions := ei.customInstructions
      scriptLength := ei.scriptLength
      scriptOffset := ei.scriptOffset
      lockingScript := ei.lockingScript }
  toApi := TableOutput.toApi
  incoming ei fresh :=
    applyOutputScriptMetadata hashOutputLockingScript
      { ei with
        outputId := fresh
        userId
        basketId := mappedId syncMap.outputBasket ei.basketId
        transactionId := (syncMap.transaction ei.transactionId).getD ei.transactionId
        spentBy := mappedId syncMap.transaction ei.spentBy }
  keepsId existing ei := by
    simp [OutputUpdate.spread, TableOutput.toApi]
  newId ei fresh := by simp

def EntityTransaction (syncMap : SyncMap) (userId : Nat) : SyncEntity TableTransaction TransactionUpdate where
  keyProp := "transactionId"
  id := TableTransaction.transactionId
  updateId := TransactionUpdate.transactionId
  spread update existing := update.spread existing
  lookups ei :=
    .ok ((match ei.txid with
      | none | some "" => []
      | some txid => [fun row => matchesTransactionPartial row { txid := some txid, userId := some userId }]) ++
      if ei.reference = "" then [] else [fun row => matchesTransactionPartial row { reference := some ei.reference, userId := some userId }])
  merged existing ei :=
    { existing with
      version := ei.version
      lockTime := ei.lockTime
      isOutgoing := ei.isOutgoing
      status := ei.status
      provenTxId := mappedId syncMap.provenTx ei.provenTxId
      satoshis := ei.satoshis
      txid := ei.txid
      description := ei.description
      rawTx := ei.rawTx
      inputBEEF := ei.inputBEEF }
  toApi := TableTransaction.toApi
  incoming ei fresh := { ei with transactionId := fresh, userId, provenTxId := if ei.provenTxId = some 0 then some 0 else mappedId syncMap.provenTx ei.provenTxId }
  keepsId existing ei := rfl
  newId ei fresh := rfl

end WalletToolbox

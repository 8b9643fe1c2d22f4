import WalletToolbox.Storage.StorageRocksDb

/-! The storage calls the provider methods are written with. A method is a program
over these calls; the RocksDB provider implements each of them over its database. A
rejected call hands its error to the method. -/

namespace WalletToolbox
open Async

structure CommissionPartial where
  commissionId : Option Nat := none
  userId : Option Nat := none
  transactionId : Option Nat := none

def matchesCommissionPartial (row : TableCommission) (wanted : CommissionPartial) : Bool :=
  eq wanted.commissionId row.commissionId && eq wanted.userId row.userId && eq wanted.transactionId row.transactionId

structure FindTransactionsArgs where
  wanted : TransactionPartial
  status : List TransactionStatus := []
  noRawTx : Bool := false

structure FindOutputsArgs where
  wanted : OutputPartial
  txStatus : List TransactionStatus := []
  noScript : Bool := false

@[reducible] def FindArgs : EntityTable → Type
  | .certificates => CertificatePartial
  | .commissions => CommissionPartial
  | .outputBaskets => OutputBasketPartial
  | .outputTags => OutputTagPartial
  | .outputTagsMap => OutputTagMapPartial
  | .outputs => FindOutputsArgs
  | .provenTxReqs => ProvenTxReqPartial
  | .provenTxs => ProvenTxPartial
  | .transactions => FindTransactionsArgs
  | .txLabels => TxLabelPartial
  | .txLabelsMap => TxLabelMapPartial
  | .users => UserPartial

/-- What an update of each table is given. The partials of the other tables are taken
as what they do: `existing => ({ ...existing, ...update })`. -/
@[reducible] def Update : EntityTable → Type
  | .outputs => OutputUpdate
  | .transactions => TransactionUpdate
  | .provenTxReqs => ProvenTxReqUpdate
  | .certificates => TableCertificate → TableCertificate
  | .commissions => TableCommission → TableCommission
  | .outputBaskets => TableOutputBasket → TableOutputBasket
  | .outputTags => TableOutputTag → TableOutputTag
  | .outputTagsMap => TableOutputTagMap → TableOutputTagMap
  | .provenTxs => TableProvenTx → TableProvenTx
  | .txLabels => TableTxLabel → TableTxLabel
  | .txLabelsMap => TableTxLabelMap → TableTxLabelMap
  | .users => TableUser → TableUser

def updatedRow (hash : ScriptHash) : (table : EntityTable) → Update table → Row table → Row table
  | .outputs, update, row => (update.applyScriptMetadata hash).spread row
  | .transactions, update, row => update.spread row
  | .provenTxReqs, update, row => update.spread row
  | .certificates, update, row | .commissions, update, row | .outputBaskets, update, row | .outputTags, update, row
  | .outputTagsMap, update, row | .provenTxs, update, row | .txLabels, update, row | .txLabelsMap, update, row
  | .users, update, row => update row

/-- What names a row in an update: its id, or the two ids of a map row. -/
@[reducible] def UpdateKey : EntityTable → Type
  | .outputTagsMap | .txLabelsMap => Nat × Nat
  | .certificates | .commissions | .outputBaskets | .outputTags | .outputs | .provenTxReqs | .provenTxs | .transactions
  | .txLabels | .users => Nat

def UpdateKey.row : (table : EntityTable) → UpdateKey table → RowKey
  | .outputTagsMap, key | .txLabelsMap, key => .pair key.1 key.2
  | .certificates, id | .commissions, id | .outputBaskets, id | .outputTags, id | .outputs, id | .provenTxReqs, id
  | .provenTxs, id | .transactions, id | .txLabels, id | .users, id => .id id

inductive StorageCall where
  | insert (table : EntityTable) (row : Row table)
  | update (table : EntityTable) (key : UpdateKey table) (changes : Update table)
  | find (table : EntityTable) (args : FindArgs table)
  | allocateChangeInput (userId basketId : Nat) (targetSatoshis : Int) (exactSatoshis : Option Int)
      (excludeSending : Bool) (transactionId : Nat)

@[reducible] def StorageCall.Result : StorageCall → Type
  | .insert table _ => Row table
  | .update _ _ _ => Nat
  | .find table _ => List (Row table)
  | .allocateChangeInput _ _ _ _ _ _ => Option TableOutput

abbrev storage : Interface := ⟨StorageCall, fun call => Except WalletError call.Result⟩

abbrev StorageM := Program storage WalletError

def StorageCall.await (call : StorageCall) : StorageM call.Result :=
  .await call .ofExcept

namespace StorageRocksDb
variable (hash : ScriptHash)

/-- The inserts of the tables. -/
def insertRow : (table : EntityTable) → Row table → RocksDbM (Row table)
  | .outputs, row => do
    let outputId ← insertOutput hash row
    return { applyOutputScriptMetadata hash row with outputId }
  | .certificates, row => insertEntity .certificates row
  | .commissions, row => insertEntity .commissions row
  | .outputBaskets, row => insertEntity .outputBaskets row
  | .outputTags, row => insertEntity .outputTags row
  | .outputTagsMap, row => insertEntity .outputTagsMap row
  | .provenTxReqs, row => insertEntity .provenTxReqs row
  | .provenTxs, row => insertEntity .provenTxs row
  | .transactions, row => insertTransaction row
  | .txLabels, row => insertEntity .txLabels row
  | .txLabelsMap, row => insertEntity .txLabelsMap row
  | .users, row => insertEntity .users row

/-- The updates of the tables. -/
def updateRow : (table : EntityTable) → UpdateKey table → Update table → RocksDbM Nat
  | .outputs, id, update => updateOutput hash id update
  | .transactions, id, update => updateTransaction [id] update
  | .provenTxReqs, id, update => updateById .provenTxReqs id update.spread
  | .certificates, id, update => updateById .certificates id update
  | .commissions, id, update => updateById .commissions id update
  | .outputBaskets, id, update => updateById .outputBaskets id update
  | .outputTags, id, update => updateById .outputTags id update
  | .outputTagsMap, (tagId, outputId), update => updateByKey .outputTagsMap (.pair tagId outputId) update
  | .provenTxs, id, update => updateById .provenTxs id update
  | .txLabels, id, update => updateById .txLabels id update
  | .txLabelsMap, (labelId, transactionId), update => updateByKey .txLabelsMap (.pair labelId transactionId) update
  | .users, id, update => updateById .users id update

/-- The finds of the tables. -/
def findRows : (table : EntityTable) → FindArgs table → RocksDbM (List (Row table))
  | .certificates, wanted => findEntities .certificates wanted.certificateId (matchesCertificatePartial · wanted)
  | .commissions, wanted => findEntities .commissions wanted.commissionId (matchesCommissionPartial · wanted)
  | .outputBaskets, wanted => findEntities .outputBaskets wanted.basketId (matchesOutputBasketPartial · wanted)
  | .outputTags, wanted => findEntities .outputTags wanted.outputTagId (matchesOutputTagPartial · wanted)
  | .outputTagsMap, wanted => findEntities .outputTagsMap none (matchesOutputTagMapPartial · wanted)
  | .outputs, args => findOutputs args.wanted args.txStatus args.noScript
  | .provenTxReqs, wanted => findProvenTxReqs wanted
  | .provenTxs, wanted => findProvenTxs wanted
  | .transactions, args => findTransactions args.wanted args.status args.noRawTx
  | .txLabels, wanted => findEntities .txLabels wanted.txLabelId (matchesTxLabelPartial · wanted)
  | .txLabelsMap, wanted => findEntities .txLabelsMap none (matchesTxLabelMapPartial · wanted)
  | .users, wanted => findEntities .users wanted.userId (UserPartial.matches wanted ·)

def implement : (call : StorageCall) → RocksDbM call.Result
  | .insert table row => insertRow hash table row
  | .update table key changes => updateRow hash table key changes
  | .find table args => findRows table args
  | .allocateChangeInput userId basketId targetSatoshis exactSatoshis excludeSending transactionId =>
    allocateChangeInput userId basketId targetSatoshis exactSatoshis excludeSending transactionId

def perform {α : Type} (method : StorageM α) : RocksDbM α := method.translate (implement hash) fun _ outcome => outcome

section
variable {α β : Type}

theorem perform_bind (method : StorageM α) (next : α → StorageM β) :
    perform hash (method >>= next) = perform hash method >>= fun value => perform hash (next value) := Program.translate_bind _ _ _ _

theorem perform_handle (method : StorageM α) (handler : WalletError → StorageM α) :
    perform hash (method.handle handler) = (perform hash method).handle fun error => perform hash (handler error) :=
  Program.translate_handle _ _ _ _

theorem perform_settle (method : StorageM α) : perform hash method.settle = (perform hash method).settle := Program.translate_settle _ _ _

theorem perform_await (call : StorageCall) : perform hash call.await = implement hash call := by
  have settled := Program.settle_ofExcept (implement hash call)
  have replies : ∀ outcome : Except WalletError call.Result, perform hash (.ofExcept outcome) = Program.ofExcept outcome := by
    intro outcome
    cases outcome with
    | ok _ => rfl
    | error _ => rfl
  have same : perform hash call.await = (implement hash call).settle >>= fun outcome => perform hash (.ofExcept outcome) := rfl
  rw [same, funext replies]
  exact settled

end

/-- `transaction`: the scope runs when its turn has come. Nothing is undone when it rejects. -/
def transaction {α : Type} (scope : StorageM α) : StorageM α := scope

/-- One storage call on its own. -/
def callAlone : Machine storage Database := fun call database => (implement hash call).run (exec hash) database

theorem perform_run (method : StorageM α) (database : Database) :
    (perform hash method).run (exec hash) database = method.run (callAlone hash) database := by
  unfold perform
  rw [Program.run_translate]
  rfl

end StorageRocksDb
end WalletToolbox

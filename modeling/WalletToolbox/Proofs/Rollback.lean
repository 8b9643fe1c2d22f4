import WalletToolbox.Proofs.StatusCalls
import WalletToolbox.Proofs.RowVersions
import WalletToolbox.Proofs.SequentialIndexes

/-! What a rejected transaction leaves behind. A scope may do anything between its
inserts and updates; the first of them that writes a row is never undone. -/

namespace WalletToolbox
open Async StorageRocksDb StorageProvider

/-- A find, an insert or an update. -/
def RowCall : StorageCall → Prop
  | .insert _ _ | .update _ _ _ | .find _ _ => True
  | .allocateChangeInput _ _ _ _ _ _ => False

def StorageCall.Idle (database : Database) : StorageCall → Prop
  | .insert _ _ | .allocateChangeInput _ _ _ _ _ _ => False
  | .update table key _ => (database.records.row table (key.row table)).isNone = true
  | .find _ _ => True

instance (database : Database) : (call : StorageCall) → Decidable (call.Idle database)
  | .insert _ _ | .allocateChangeInput _ _ _ _ _ _ => isFalse id
  | .update _ _ _ => inferInstanceAs (Decidable (_ = true))
  | .find _ _ => isTrue trivial

section
variable {α : Type} (hash : ScriptHash) (database : Database)

def WritesNothing : StorageM α → Prop
  | .done _ | .fail _ => True
  | .await call next => call.Idle database ∧ WritesNothing (next (callAlone hash call database).1)

def decideWritesNothing : (scope : StorageM α) → Decidable (WritesNothing hash database scope)
  | .done _ | .fail _ => isTrue trivial
  | .await call next =>
    have := decideWritesNothing (next (callAlone hash call database).1)
    inferInstanceAs (Decidable (_ ∧ _))

instance (scope : StorageM α) : Decidable (WritesNothing hash database scope) := decideWritesNothing hash database scope

end

section
variable {hash : ScriptHash} {database : Database} {call : StorageCall}

theorem callAlone_idle (idle : call.Idle database) : (callAlone hash call database).2 = database := by
  cases call with
  | insert | allocateChangeInput => exact idle.elim
  | update table key changes => exact updateRow_absent database changes (Option.isNone_iff_eq_none.mp idle)
  | find table args => exact Program.run_unchanged (exec hash) (findRows_uses table args) Reads.unchanged database

theorem callAlone_grown (rows : RowCall call) (busy : ¬ call.Idle database) :
    Grown database.records (callAlone hash call database).2.records := by
  cases call with
  | insert table row => exact insertRow_grown database table row
  | update table key changes =>
    obtain ⟨existing, found⟩ := Option.ne_none_iff_exists'.mp fun absent => busy (Option.isNone_iff_eq_none.mpr absent)
    exact updateRow_grown database changes found
  | find => exact (busy trivial).elim
  | allocateChangeInput => exact rows.elim

theorem callAlone_grows (rows : RowCall call) : Grows database.records (callAlone hash call database).2.records := by
  by_cases idle : call.Idle database
  · rw [callAlone_idle idle]
    exact Grows.refl _
  · exact (callAlone_grown rows idle).1

variable {α : Type} {scope : StorageM α}

theorem scope_grows (rows : scope.Uses RowCall) :
    Grows database.records (scope.run (callAlone hash) database).2.records := by
  induction scope generalizing database with
  | done _ | fail _ => exact Grows.refl _
  | await call next ih => exact (callAlone_grows rows.1).trans (ih _ (rows.2 _))

theorem scope_unchanged (nothing : WritesNothing hash database scope) :
    (scope.run (callAlone hash) database).2 = database := by
  induction scope with
  | done _ | fail _ => rfl
  | await call next ih =>
    rw [Program.run_await, callAlone_idle nothing.1]
    exact ih _ nothing.2

theorem scope_grown (rows : scope.Uses RowCall) (something : ¬ WritesNothing hash database scope) :
    Grown database.records (scope.run (callAlone hash) database).2.records := by
  induction scope with
  | done _ | fail _ => exact (something trivial).elim
  | await call next ih =>
    by_cases idle : call.Idle database
    · have later := ih _ (rows.2 _) fun nothing => something ⟨idle, nothing⟩
      rw [Program.run_await, callAlone_idle idle]
      exact later
    · exact (callAlone_grown rows.1 idle).then (scope_grows (rows.2 _))

/-- After a transaction, rejected or not, the store is as before exactly when its scope
had nothing to write. -/
theorem transaction_unchanged_iff (rows : scope.Uses RowCall) :
    (∀ key, ((perform hash (StorageRocksDb.transaction scope)).run (exec hash) database).2.records.lookup key =
      database.records.lookup key) ↔ WritesNothing hash database scope := by
  rw [perform_run, StorageRocksDb.transaction]
  constructor
  · intro same
    by_contra something
    exact (scope_grown rows something).differs same
  · intro nothing key
    rw [scope_unchanged nothing]

end

theorem StatusCall.rowCall (call : StorageCall) (status : StatusCall call) : RowCall call := by
  cases call with
  | allocateChangeInput => exact status.elim
  | insert | update | find => trivial

theorem updateTransactionsStatus_rows (ids : List Nat) (status : TransactionStatus) :
    (updateTransactionsStatus ids status).Uses RowCall :=
  (updateTransactionsStatus_uses ids status).mono StatusCall.rowCall

def mixedStore : Database :=
  runOperations [.insertTransaction (newTransaction .unsigned), .insertTransaction (newTransaction .completed)]

theorem transaction_unchanged_iff_refused :
    ((perform noHash (StorageRocksDb.transaction (updateTransactionsStatus [2, 1] .failed))).run
      (exec noHash) mixedStore).2.records.row .transactions (.id 1) = mixedStore.records.row .transactions (.id 1) :=
  (transaction_unchanged_iff (updateTransactionsStatus_rows _ _)).mpr (by decide +kernel) (.entity .transactions (.id 1))

/-- The first transaction has failed when the second refuses to. -/
theorem transaction_keeps_writes :
    ¬ ∀ (scope : StorageM Unit) (database : Database) (error : WalletError), scope.Uses RowCall →
      ((perform noHash (StorageRocksDb.transaction scope)).run (exec noHash) database).1 = .error error →
      ∀ key, ((perform noHash (StorageRocksDb.transaction scope)).run (exec noHash) database).2.records.lookup key =
        database.records.lookup key := by
  intro claim
  have rejected : ((perform noHash (StorageRocksDb.transaction (updateTransactionsStatus [1, 2] .failed))).run
      (exec noHash) mixedStore).1 = .error (.invalidOperation "The status of a \"completed\" transaction cannot be changed.") := by
    decide +kernel
  have same := claim _ mixedStore _ (updateTransactionsStatus_rows _ _) rejected (.entity .transactions (.id 1))
  have failed : (((perform noHash (StorageRocksDb.transaction (updateTransactionsStatus [1, 2] .failed))).run
      (exec noHash) mixedStore).2.records.row .transactions (.id 1)).map (fun row => row.value.status) = some .failed := by
    decide +kernel
  have unsigned : (mixedStore.records.row .transactions (.id 1)).map (fun row => row.value.status) = some .unsigned := by
    decide +kernel
  rw [Records.row, same] at failed
  cases failed.symm.trans unsigned

end WalletToolbox

import WalletToolbox.Proofs.RowVersions

/-! Storage calls that leave the requests alone: they neither write a request nor read
one by its id. A scan of the requests is a lookup of some other request. -/

namespace WalletToolbox
open Effects Async

def Beside : DbOp → Prop
  | .get (.entity .provenTxReqs _) | .put (.entity .provenTxReqs _) _ | .remove (.entity .provenTxReqs _) | .reserve _ => False
  | _ => True

theorem Beside.of_proven (op : DbOp) (proven : ReadsProven op) : Beside op := by
  cases op with
  | scan table => trivial
  | get | put | remove | getRange | nextId | reserve => exact proven.elim

theorem Beside.row {hash op} (beside : Beside op) (database) (key) :
    (exec hash op database).2.records.row .provenTxReqs key = database.records.row .provenTxReqs key := by
  cases op with
  | get | scan | getRange => rfl
  | nextId table => exact takeId_lookup table database (by simp)
  | reserve => exact beside.elim
  | put target record =>
    apply exec_put_lookup_ne
    rintro rfl
    exact beside
  | remove target =>
    apply exec_remove_lookup_ne
    rintro rfl
    exact beside

namespace RocksDbWalletStore

theorem getPrimary_beside (outputId : Nat) : (getPrimary outputId).Uses Beside :=
  (Program.Uses.ofExcept _).bind fun _ => ⟨trivial, fun _ => trivial⟩

theorem resolveOutputIds_beside (ids) : (resolveOutputIds ids).Uses Beside := by
  induction ids with
  | nil => trivial
  | cons id rest ih =>
    refine (getPrimary_beside id).bind fun record => ih.bind fun outputs => ?_
    cases record <;> trivial

theorem findSpendableOutputs_beside (userId : Nat) (basketId) : (findSpendableOutputs userId basketId).Uses Beside := by
  refine (Program.Uses.ofExcept _).bind fun user => ?_
  have ranged (keyPrefix : IndexPrefix) : (db (.getRange { keyPrefix }) >>= fun records =>
      resolveOutputIndex records >>= fun outputs => pure (outputs.filter fun output =>
        output.userId = user && output.spendable && (basketId.isNone || output.basketId = basketId)) : RocksDbM _).Uses Beside :=
    ⟨trivial, fun _ => (resolveOutputIds_beside _).bind fun _ => trivial⟩
  cases basketId with
  | none => exact ranged _
  | some basket => exact (Program.Uses.ofExcept _).bind fun number => ranged _

theorem findOutputsByTransactionId_beside (transactionId : Nat) : (findOutputsByTransactionId transactionId).Uses Beside :=
  (Program.Uses.ofExcept _).bind fun _ => ⟨trivial, fun _ => (resolveOutputIds_beside _).bind fun _ => trivial⟩

theorem write_beside (other : ∀ key, entry.key ≠ .entity .provenTxReqs key) : (write entry).Uses Beside := by
  have beside : ∀ key, (∀ row, key ≠ .entity .provenTxReqs row) → Beside (.get key) ∧ (∀ record, Beside (.put key record)) ∧ Beside (.remove key) := by
    intro key different
    cases key with
    | entity table row => cases table <;> first | exact absurd rfl (different row) | exact ⟨trivial, fun _ => trivial, trivial⟩
    | counter | outputPrimary | index => exact ⟨trivial, fun _ => trivial, trivial⟩
  cases entry with
  | put key value =>
    obtain ⟨gets, puts, -⟩ := beside key other
    exact ⟨gets, fun current => ⟨puts _, fun _ => trivial⟩⟩
  | delete key => exact ⟨(beside key other).2.2, fun _ => trivial⟩

theorem batch_beside (other : ∀ entry ∈ writes, ∀ key, entry.key ≠ .entity .provenTxReqs key) :
    (batch writes).Uses Beside := by
  induction writes with
  | nil => trivial
  | cons entry rest ih =>
    exact (write_beside (other entry (.head _))).bind fun _ => ih fun entry member => other entry (.tail _ member)

theorem putOutput_beside (hash) (output) (status) :
    (putOutput hash output status).Uses Beside := by
  unfold putOutput
  split
  · trivial
  refine (getPrimary_beside _).bind fun existing => ?_
  cases built : putOutputWrites hash output status existing with
  | error error => trivial
  | ok writes =>
    obtain ⟨deletes, puts, deleted, filled, rfl⟩ := putOutputWrites_ok built
    obtain ⟨keys, rfl⟩ := existingDeletes_ok deleted
    apply batch_beside
    intro entry member key
    rcases List.mem_append.mp member with removed | member
    · obtain ⟨index, -, rfl⟩ := List.mem_map.mp removed
      exact fun same => by cases same
    rcases List.mem_cons.mp member with rfl | put
    · exact fun same => by cases same
    · obtain ⟨index, same⟩ := indexPuts_key filled put
      rw [same]
      exact fun other => by cases other

end RocksDbWalletStore

namespace StorageRocksDb
variable (hash : ScriptHash)

section
variable {table : EntityTable} (other : table ≠ .provenTxReqs)
include other

theorem beside_row (key) :
    Beside (.get (.entity table key)) ∧ (∀ record, Beside (.put (.entity table key) record)) := by
  cases table <;> first | exact absurd rfl other | exact ⟨trivial, fun _ => trivial⟩

theorem getEntity_beside (key) : (getEntity table key).Uses Beside :=
  ⟨(beside_row other key).1, fun _ => trivial⟩

theorem putEntity_beside (entity) : (putEntity table entity).Uses Beside :=
  ⟨(beside_row other _).1, fun _ => ⟨(beside_row other _).2 _, fun _ => trivial⟩⟩

theorem insertEntity_beside (entity) : (insertEntity table entity).Uses Beside := by
  have prepares : (prepareInsert table entity).Uses Beside := by
    unfold prepareInsert
    split
    · exact ⟨trivial, fun _ => trivial⟩
    · trivial
  exact prepares.bind fun prepared => (putEntity_beside other prepared).bind fun _ => trivial

theorem updateByKey_beside (key) (spread : Row table → Row table) : (updateByKey table key spread).Uses Beside := by
  refine (getEntity_beside other key).bind fun existing => ?_
  cases existing with
  | none => trivial
  | some existing => exact (putEntity_beside other _).bind fun _ => trivial

theorem findEntities_beside (primaryId) (accepts : Row table → Bool) : (findEntities table primaryId accepts).Uses Beside := by
  cases primaryId with
  | none => exact ⟨trivial, fun _ => trivial⟩
  | some id => exact (getEntity_beside other _).bind fun _ => trivial

end

theorem validateOutputScript_beside (output : TableOutput) : (validateOutputScript output).Uses Beside := by
  unfold validateOutputScript
  split
  · split
    · trivial
    · refine ((getRawTxOfKnownValidTransaction_uses _ _).mono Beside.of_proven).bind fun script => ?_
      cases script <;> trivial
  · trivial

theorem findTransactions_beside (wanted : TransactionPartial) (status) (noRawTx : Bool) :
    (findTransactions wanted status noRawTx).Uses Beside := by
  refine (findEntities_beside (by simp) _ _).bind fun rows => ?_
  cases noRawTx with
  | true => trivial
  | false => exact Program.Uses.mapM (fun tx => (validateRawTransaction_uses tx).mono Beside.of_proven) _

theorem transactionStatusForOutput_beside (output) : (transactionStatusForOutput output).Uses Beside :=
  (findTransactions_beside _ _ _).bind fun _ => (verifyOneOrNone_uses _).bind fun _ => trivial

theorem findOutputs_beside (wanted) (txStatus) (noScript : Bool) :
    (findOutputs wanted txStatus noScript).Uses Beside := by
  have indexed : (findOutputsFromIndex wanted).Uses Beside := by
    unfold findOutputsFromIndex
    split
    · exact (RocksDbWalletStore.findSpendableOutputs_beside _ _).bind fun _ => trivial
    · trivial
  have hasStatus : ∀ output, (hasTxStatus txStatus output).Uses Beside := by
    intro output
    exact (findTransactions_beside _ _ _).bind fun _ => (verifyOneOrNone_uses _).bind fun _ => trivial
  refine Program.Uses.bind (indexed.bind fun found => ?_) fun rows => Program.Uses.bind ?_ fun rows => ?_
  · cases found with
    | some rows => trivial
    | none => exact findEntities_beside (by simp) _ _
  · unfold filterTxStatus
    split
    · trivial
    · exact filterM_uses hasStatus rows
  · unfold validateScripts
    split
    · trivial
    · exact Program.Uses.mapM validateOutputScript_beside rows

theorem insertOutput_beside (output) : (insertOutput hash output).Uses Beside := by
  refine (insertEntity_beside (by simp) _).bind fun output => ?_
  refine (transactionStatusForOutput_beside output).bind fun status => ?_
  exact (RocksDbWalletStore.putOutput_beside hash output status).bind fun _ => trivial

theorem updateOutput_beside (id : Nat) (changes) : (updateOutput hash id changes).Uses Beside := by
  refine (updateByKey_beside (by simp) _ _).bind fun updated => ?_
  refine (findOutputs_beside _ _ _).bind fun outputs => (verifyOneOrNone_uses _).bind fun found => ?_
  cases found with
  | none => trivial
  | some output =>
    refine (transactionStatusForOutput_beside output).bind fun status => ?_
    exact (RocksDbWalletStore.putOutput_beside hash output status).bind fun _ => trivial

theorem reindexOutputs_beside (fromStatus toStatus) (outputs) :
    (reindexOutputs fromStatus toStatus outputs).Uses Beside := by
  refine reindexOutputs_uses fromStatus toStatus outputs fun indexes => RocksDbWalletStore.batch_beside fun entry member key same => ?_
  obtain ⟨index, named⟩ := indexes entry member
  cases named.symm.trans same

theorem updateOneTransaction_beside (id : Nat) (update) : (updateOneTransaction id update).Uses Beside := by
  refine (getEntity_beside (by simp) _).bind fun existing => (updateByKey_beside (by simp) _ _).bind fun count => ?_
  dsimp only
  split
  · split
    · refine Program.Uses.bind ?_ fun _ => trivial
      exact (RocksDbWalletStore.findOutputsByTransactionId_beside id).bind fun outputs => reindexOutputs_beside _ _ outputs
    · trivial
  · trivial

end StorageRocksDb

def BesideCall : StorageCall → Prop
  | .insert .provenTxReqs _ | .update .provenTxReqs _ _ | .allocateChangeInput .. => False
  | .find .provenTxReqs wanted => wanted.provenTxReqId = none
  | _ => True

namespace StorageRocksDb
variable (hash : ScriptHash)

theorem implement_beside (call) (beside : BesideCall call) : (implement hash call).Uses Beside := by
  cases call with
  | allocateChangeInput => exact beside.elim
  | insert table row =>
    cases table with
    | provenTxReqs => exact beside.elim
    | outputs => exact (insertOutput_beside hash row).bind fun _ => trivial
    | _ => exact insertEntity_beside (by simp) row
  | update table key changes =>
    cases table with
    | provenTxReqs => exact beside.elim
    | outputs => exact updateOutput_beside hash key changes
    | transactions => exact (updateOneTransaction_beside key changes).bind fun _ => trivial
    | _ =>
      apply updateByKey_beside
      decide
  | find table args =>
    cases table with
    | provenTxReqs =>
      have scans : (findEntities .provenTxReqs none (matchesProvenTxReqPartial · args)).Uses Beside := ⟨trivial, fun _ => trivial⟩
      have none : args.provenTxReqId = none := beside
      show (findEntities .provenTxReqs args.provenTxReqId _).Uses Beside
      rw [none]
      exact scans
    | outputs => exact findOutputs_beside _ _ _
    | transactions => exact findTransactions_beside _ _ _
    | outputTagsMap => exact findEntities_beside (by simp) none _
    | txLabelsMap => exact findEntities_beside (by simp) none _
    | _ => exact findEntities_beside (by simp) _ _

theorem perform_beside (beside : method.Uses BesideCall) : (perform hash method).Uses Beside := by
  induction method with
  | done _ | fail _ => trivial
  | await call next ih => exact (implement_beside hash call beside.1).settle.bind fun outcome => ih _ (beside.2 _)

end StorageRocksDb
end WalletToolbox

import WalletToolbox.Proofs.StatusReindex
import WalletToolbox.Provider.StorageProvider

/-! Every write of a row counts its version up, and no row is ever removed. So a
storage call leaves the database as it is, or it leaves a trace that no later call can
take back. -/

namespace WalletToolbox
open Effects Async

def Records.rowVersion (records : Records) (table : EntityTable) (key : RowKey) : Nat :=
  ((records.row table key).map Versioned.version).getD 0

def Grows (before after : Records) : Prop := ∀ table key, before.rowVersion table key ≤ after.rowVersion table key

def Grown (before after : Records) : Prop :=
  Grows before after ∧ ∃ table key, before.rowVersion table key < after.rowVersion table key

section
variable {first second third : Records}

theorem Grows.refl (records : Records) : Grows records records := fun _ _ => le_refl _

theorem Grows.trans (left : Grows first second) (right : Grows second third) : Grows first third :=
  fun table key => le_trans (left table key) (right table key)

theorem Grown.then (left : Grown first second) (right : Grows second third) : Grown first third := by
  obtain ⟨table, key, written⟩ := left.2
  exact ⟨left.1.trans right, table, key, lt_of_lt_of_le written (right table key)⟩

theorem Grown.after (left : Grows first second) (right : Grown second third) : Grown first third := by
  obtain ⟨table, key, written⟩ := right.2
  exact ⟨left.trans right.1, table, key, lt_of_le_of_lt (left table key) written⟩

theorem grows_of_rows (rows : ∀ table key, second.row table key = first.row table key) : Grows first second := by
  intro table key
  rw [Records.rowVersion, Records.rowVersion, rows table key]

theorem Grown.differs (grown : Grown first second) : ¬ ∀ key, second.lookup key = first.lookup key := by
  intro same
  obtain ⟨table, key, written⟩ := grown.2
  rw [Records.rowVersion, Records.rowVersion, Records.row, Records.row, same] at written
  exact lt_irrefl _ written

end

def LeavesRows (op : DbOp) : Prop :=
  ∀ hash database table key, (exec hash op database).2.records.row table key = database.records.row table key

theorem Reads.leavesRows (op : DbOp) (reads : Reads op) : LeavesRows op := by
  intro hash database table key
  rw [reads.exec_eq]

theorem OutputWriteOp.leavesRows (writes : OutputWriteOp next op) : LeavesRows op := by
  intro hash database table key
  cases writes with
  | read reads => exact reads.leavesRows op hash database table key
  | unindex indexKey => exact exec_remove_lookup_ne hash database _ (by simp)
  | index indexKey record => exact exec_put_lookup_ne hash database (.index indexKey) record (by simp)
  | primary version => exact exec_put_lookup_ne hash database (.outputPrimary next.outputId) _ (by simp)

theorem IndexOp.leavesRows (index : IndexOp op) : LeavesRows op := by
  intro hash database table key
  exact index.exec_lookup database (by simp)

theorem grown_of_uses {hash : ScriptHash} {program : RocksDbM α} {before database}
    (uses : program.Uses LeavesRows) (grown : Grown before database.records) :
    program.Ends (exec hash) database fun _ after => Grown before after.records := by
  have step : ∀ op store, LeavesRows op → Grown before store.records → Grown before (exec hash op store).2.records := by
    intro op store leaves held
    exact held.then (grows_of_rows (leaves hash store))
  have whole := Program.run_preserves (exec hash) step uses grown
  exact whole

namespace StorageRocksDb

theorem findRows_uses (table : EntityTable) (args : FindArgs table) : (findRows table args).Uses Reads := by
  cases table with
  | outputs => exact findOutputs_uses _ _ _
  | transactions => exact findTransactions_uses _ _ _
  | outputTagsMap => exact findEntities_uses .outputTagsMap none _
  | txLabelsMap => exact findEntities_uses .txLabelsMap none _
  | _ => exact findEntities_uses _ _ _

theorem withRow_grown (table : EntityTable) (entity : Row table) (records : Records) :
    Grown records (withRow table entity records) := by
  have put : (withRow table entity records).rowVersion table (rowKey table entity) =
      records.rowVersion table (rowKey table entity) + 1 := by
    rw [Records.rowVersion, withRow_row]
    rfl
  refine ⟨fun other key => ?_, table, rowKey table entity, by omega⟩
  by_cases same : StorageKey.entity other key = .entity table (rowKey table entity)
  · cases same
    omega
  · have kept : (withRow table entity records).row other key = records.row other key := AList.lookup_insert_ne same
    rw [Records.rowVersion, Records.rowVersion, kept]

section
variable {hash : ScriptHash} (database : Database)

theorem insertEntity_grown (table : EntityTable) (entity : Row table) :
    (insertEntity table entity).Ends (exec hash) database fun _ after => Grown database.records after.records := by
  unfold Program.Ends
  rw [insertEntity_run]
  have taken := grows_of_rows fun other key => prepared_lookup table entity database (by simp)
  exact Grown.after taken (withRow_grown table _ _)

theorem refile_leavesRows {value : α} (output : TableOutput) : (do
    RocksDbWalletStore.putOutput hash output (← transactionStatusForOutput output)
    return value : RocksDbM α).Uses LeavesRows := by
  refine ((transactionStatusForOutput_uses output).mono Reads.leavesRows).bind fun status => ?_
  exact ((RocksDbWalletStore.putOutput_uses hash output status).mono fun _ => OutputWriteOp.leavesRows).bind fun _ => trivial

theorem insertRow_grown (table : EntityTable) (row : Row table) :
    (insertRow hash table row).Ends (exec hash) database fun _ after => Grown database.records after.records := by
  cases table with
  | outputs =>
    apply Program.Ends.bind
    have inserted : (insertOutput hash row).Ends (exec hash) database fun _ after => Grown database.records after.records := by
      apply Program.Ends.bind
      refine (insertEntity_grown database .outputs (applyOutputScriptMetadata hash row)).mono fun outcome after grown => ?_
      cases outcome with
      | error error => exact grown
      | ok output =>
        exact grown_of_uses (refile_leavesRows output) grown
    refine inserted.mono fun outcome after grown => ?_
    cases outcome with
    | ok _ => exact grown
    | error _ => exact grown
  | _ => exact insertEntity_grown database _ row

theorem updateByKey_absent (spread : Row table → Row table)
    (absent : database.records.row table key = none) :
    (updateByKey table key spread).run (exec hash) database = (.ok 0, database) := by
  unfold updateByKey getEntity RocksDbWalletStore.get
  simp [exec, absent]

theorem updateByKey_grown (spread : Row table → Row table)
    (found : database.records.row table key = some existing) :
    (updateByKey table key spread).Ends (exec hash) database fun _ after => Grown database.records after.records := by
  have ran : (updateByKey table key spread).run (exec hash) database =
      (.ok 1, { database with records := withRow table (spread existing.value) database.records }) := by
    unfold updateByKey getEntity RocksDbWalletStore.get
    simp [exec, found]
    rfl
  unfold Program.Ends
  rw [ran]
  exact withRow_grown table (spread existing.value) database.records

theorem reindexUpdated_leavesRows (id updated : Nat) : (reindexUpdated hash id updated).Uses LeavesRows := by
  refine ⟨Reads.leavesRows _ trivial, fun record => ?_⟩
  dsimp only
  cases (record.map Versioned.value).filter (matchesOutputPartial · { outputId := some id }) with
  | none => trivial
  | some row =>
    refine ((validateOutputScript_uses row).mono Reads.leavesRows).bind fun output => ?_
    exact refile_leavesRows output

theorem updateOutput_absent {id} (update : OutputUpdate) (absent : database.records.row .outputs (.id id) = none) :
    (updateOutput hash id update).run (exec hash) database = (.ok 0, database) := by
  rw [updateOutput_eq]
  show (storeUpdated hash id update ((database.records.row .outputs (.id id)).map Versioned.value)).run (exec hash) database = _
  rw [absent]
  show (storeRow hash 0 (((database.records.row .outputs (.id id)).map Versioned.value).filter
    (matchesOutputPartial · { outputId := some id }))).run (exec hash) database = _
  rw [absent]
  rfl

theorem updateOutput_grown {id : Nat} {existing : Versioned TableOutput} (update : OutputUpdate)
    (found : database.records.row .outputs (.id id) = some existing) :
    (updateOutput hash id update).Ends (exec hash) database fun _ after => Grown database.records after.records := by
  rw [updateOutput_eq]
  show (storeUpdated hash id update ((database.records.row .outputs (.id id)).map Versioned.value)).Ends (exec hash) database
    fun _ after => Grown database.records after.records
  rw [found]
  show (reindexUpdated hash id 1).Ends (exec hash)
    { database with records := withRow .outputs ((update.applyScriptMetadata hash).spread existing.value) database.records }
    fun _ after => Grown database.records after.records
  exact grown_of_uses (reindexUpdated_leavesRows id 1) (withRow_grown .outputs _ database.records)

theorem reindexOutputs_uses {allowed : DbOp → Prop} (fromStatus toStatus : Option TransactionStatus) (outputs : List TableOutput)
    (batches : ∀ {writes}, (∀ entry ∈ writes, ∃ key, entry.key = .index key) → (RocksDbWalletStore.batch writes).Uses allowed) :
    (reindexOutputs fromStatus toStatus outputs).Uses allowed := by
  induction outputs with
  | nil => trivial
  | cons output rest ih =>
    refine Program.Uses.bind ?_ fun _ => ih
    unfold RocksDbWalletStore.reindexOutputTransactionStatus
    cases deleted : statusIndexDeletesForOutput output fromStatus with
    | error error => trivial
    | ok deletes =>
      cases filled : statusIndexPutsForOutput output toStatus with
      | error error => trivial
      | ok puts =>
        have indexes : ∀ entry ∈ deletes ++ puts, ∃ key, entry.key = .index key := by
          obtain ⟨deleteKeys, -, same⟩ := bind_eq_ok.mp deleted
          cases same
          obtain ⟨putKeys, -, same⟩ := bind_eq_ok.mp filled
          cases same
          intro entry member
          rcases List.mem_append.mp member with member | member
          · obtain ⟨key, -, rfl⟩ := List.mem_map.mp member
            exact ⟨key, rfl⟩
          · obtain ⟨key, -, rfl⟩ := List.mem_map.mp member
            exact ⟨key, rfl⟩
        exact batches indexes

theorem followStatus_uses (id : Nat) (status : TransactionStatus) (toStatus : Option TransactionStatus) :
    (followStatus id status toStatus).Uses IndexOp := by
  unfold followStatus
  cases toStatus with
  | none => trivial
  | some toStatus =>
    dsimp only
    split
    · trivial
    · refine Program.Uses.bind ?_ fun _ => trivial
      refine ((RocksDbWalletStore.findOutputsByTransactionId_uses id).mono fun _ => .read).bind fun outputs => ?_
      exact reindexOutputs_uses _ _ outputs RocksDbWalletStore.indexBatch_uses

theorem followStatus_leavesRows (id : Nat) (status : TransactionStatus) (toStatus : Option TransactionStatus) :
    (followStatus id status toStatus).Uses LeavesRows := (followStatus_uses id status toStatus).mono fun _ => IndexOp.leavesRows

theorem updateTransaction_absent {id} (update : TransactionUpdate) (absent : database.records.row .transactions (.id id) = none) :
    (updateTransaction [id] update).run (exec hash) database = (.ok 0, database) := by
  unfold updateTransaction
  rw [Program.run_bind, updateOneTransaction_run, absent]
  rfl

theorem updateTransaction_grown {id : Nat} {existing : Versioned TableTransaction} (update : TransactionUpdate)
    (found : database.records.row .transactions (.id id) = some existing) :
    (updateTransaction [id] update).Ends (exec hash) database fun _ after => Grown database.records after.records := by
  have follows := followStatus_leavesRows id existing.value.status update.status
  have one : (updateOneTransaction id update).Ends (exec hash) database fun _ after => Grown database.records after.records := by
    unfold Program.Ends
    rw [updateOneTransaction_run, found]
    exact grown_of_uses follows (withRow_grown .transactions (update.spread existing.value) database.records)
  unfold updateTransaction
  exact one.returns fun count => count + 0

theorem updateRow_absent (changes : Update table)
    (absent : database.records.row table (key.row table) = none) :
    ((updateRow hash table key changes).run (exec hash) database).2 = database := by
  cases table with
  | outputs => rw [updateRow, updateOutput_absent database changes absent]
  | transactions => rw [updateRow, updateTransaction_absent database changes absent]
  | _ => exact congrArg Prod.snd (updateByKey_absent database _ absent)

theorem updateRow_grown (changes : Update table)
    (found : database.records.row table (key.row table) = some existing) :
    (updateRow hash table key changes).Ends (exec hash) database fun _ after => Grown database.records after.records := by
  cases table with
  | outputs => exact updateOutput_grown database changes found
  | transactions => exact updateTransaction_grown database changes found
  | _ => exact updateByKey_grown database _ found

end

end StorageRocksDb
end WalletToolbox

import WalletToolbox.Proofs.NaturalCalls
import WalletToolbox.Proofs.RowVersions

/-! What a storage call changes of the rows. Every row is put under its own key, so rows
that are stored under their own keys stay so. -/

namespace WalletToolbox
open Async StorageRocksDb

def RowsOwned (records : Records) : Prop :=
  ∀ table key (row : Versioned (Row table)), records.row table key = some row → rowKey table row.value = key

def SameRows (before after : Records) : Prop := ∀ table key, after.row table key = before.row table key

def rowTxid : (table : EntityTable) → Row table → String
  | .provenTxs, row => row.txid
  | .provenTxReqs, row => row.txid
  | _, _ => ""

def KeepsTxids (table : EntityTable) (before after : Records) : Prop :=
  ∀ key (row : Versioned (Row table)), after.row table key = some row →
    ∃ old, before.row table key = some old ∧ rowTxid table row.value = rowTxid table old.value

section
variable {first second third : Records} {table other : EntityTable}

theorem SameRows.owned (same : SameRows first second) (owned : RowsOwned first) : RowsOwned second := by
  intro table key row stored
  rw [same] at stored
  exact owned table key row stored

theorem SameRows.keepsTxids (same : SameRows first second) : KeepsTxids table first second := by
  intro key row stored
  rw [same] at stored
  exact ⟨row, stored, rfl⟩

theorem KeepsTxids.trans (earlier : KeepsTxids table first second) (later : KeepsTxids table second third) : KeepsTxids table first third := by
  intro key row stored
  obtain ⟨middle, kept, same⟩ := later key row stored
  obtain ⟨old, here, still⟩ := earlier key middle kept
  exact ⟨old, here, same.trans still⟩

theorem withRow_same (entity : Row table) (records : Records) :
    (withRow table entity records).row table (rowKey table entity) = some (encode entity (records.row table (rowKey table entity))) :=
  row_insert_same

theorem withRow_other (entity : Row table) (records : Records) {key} (different : ¬ (other = table ∧ key = rowKey table entity)) :
    (withRow table entity records).row other key = records.row other key := row_insert_other different

theorem withRow_owned (table : EntityTable) (entity : Row table) (owned : RowsOwned records) : RowsOwned (withRow table entity records) := by
  intro another key row stored
  by_cases here : another = table ∧ key = rowKey table entity
  · obtain ⟨rfl, rfl⟩ := here
    cases (withRow_same entity records).symm.trans stored
    rfl
  · rw [withRow_other entity records here] at stored
    exact owned another key row stored

theorem withRow_keepsTxids
    (stored : records.row table (rowKey table entity) = some old) (same : rowTxid table entity = rowTxid table old.value) :
    KeepsTxids table records (withRow table entity records) := by
  intro key row now
  by_cases here : key = rowKey table entity
  · subst here
    cases (withRow_same entity records).symm.trans now
    exact ⟨old, stored, same⟩
  · rw [withRow_other entity records fun both => here both.2] at now
    exact ⟨row, now, rfl⟩

theorem withRow_keepsTxids_other (table : EntityTable) (entity : Row table) (records : Records) (different : other ≠ table) :
    KeepsTxids other records (withRow table entity records) := by
  intro key row now
  rw [withRow_other entity records fun both => different both.1] at now
  exact ⟨row, now, rfl⟩

end

section
variable {hash : ScriptHash} {database : Database} {table : EntityTable}

theorem sameRows_of_uses {α : Type} {program : RocksDbM α} (uses : program.Uses LeavesRows) (database : Database) :
    SameRows database.records (program.run (exec hash) database).2.records := by
  have step : ∀ op store, LeavesRows op → SameRows database.records store.records → SameRows database.records (exec hash op store).2.records := by
    intro op store leaves held other key
    rw [leaves hash store, held]
  exact Program.run_preserves (exec hash) step uses fun _ _ => rfl

theorem callAlone_find (args : FindArgs table) : (callAlone hash (.find table args) database).2 = database :=
  Program.run_unchanged (exec hash) (findRows_uses table args) (fun _ store reads => reads.exec_eq store) database

theorem findEntities_byId {id accepts rows}
    (found : ((findEntities table (some id) accepts).run (exec hash) database).1 = .ok rows) :
    ∀ row ∈ rows, ∃ stored, database.records.row table (.id id) = some stored ∧ stored.value = row := by
  intro row member
  cases found
  obtain ⟨inside, _⟩ := Option.mem_filter_iff.mp (Option.mem_toList.mp member)
  exact Option.map_eq_some_iff.mp inside

theorem findEntities_stored (owned : RowsOwned database.records) (primaryId : Option Nat) (accepts : Row table → Bool)
    (found : ((findEntities table primaryId accepts).run (exec hash) database).1 = .ok rows) :
    ∀ row ∈ rows, ∃ stored, database.records.row table (rowKey table row) = some stored ∧ stored.value = row := by
  intro row member
  have holder : ∃ key stored, database.records.row table key = some stored ∧ stored.value = row := by
    cases primaryId with
    | some id => exact ⟨.id id, findEntities_byId found row member⟩
    | none =>
      cases found
      have listed := (List.mem_filter.mp ((List.mem_insertionSort _).mp member)).1
      obtain ⟨stored, scanned, same⟩ := List.mem_map.mp listed
      obtain ⟨key, here⟩ := mem_scanEntities.mp scanned
      exact ⟨key, stored, here, same⟩
  obtain ⟨key, stored, here, rfl⟩ := holder
  exact ⟨stored, (owned table key stored here).symm ▸ here, rfl⟩

theorem insertEntity_rows (entity : Row table) : ∃ row, (insertEntity table entity).run (exec hash) database =
    (.ok row, { (prepared table entity database).2 with records := withRow table row (prepared table entity database).2.records }) ∧
      SameRows database.records (prepared table entity database).2.records ∧ (row = entity ∨ ∃ id, row = setRowId table id entity) := by
  refine ⟨(prepared table entity database).1, insertEntity_run .., fun other key => prepared_lookup table entity database (by simp), ?_⟩
  unfold prepared
  split
  · exact .inr ⟨_, rfl⟩
  · exact .inl rfl

theorem updateByKey_rows (key : RowKey) (spread : Row table → Row table) :
    (database.records.row table key = none ∧ ((updateByKey table key spread).run (exec hash) database).2 = database) ∨
      ∃ existing, database.records.row table key = some existing ∧
        ((updateByKey table key spread).run (exec hash) database).2 =
          { database with records := withRow table (spread existing.value) database.records } := by
  cases found : database.records.row table key with
  | none => exact .inl ⟨rfl, by rw [updateByKey_absent database spread found]⟩
  | some existing =>
    refine .inr ⟨existing, rfl, ?_⟩
    unfold updateByKey getEntity RocksDbWalletStore.get
    simp [exec, found]
    rfl

theorem updateOutput_rows {id : Nat} (update : OutputUpdate)
    (found : database.records.row .outputs (.id id) = some existing) :
    SameRows (withRow .outputs ((update.applyScriptMetadata hash).spread existing.value) database.records)
      ((updateOutput hash id update).run (exec hash) database).2.records := by
  rw [updateOutput_eq]
  show SameRows _ ((storeUpdated hash id update ((database.records.row .outputs (.id id)).map Versioned.value)).run (exec hash) database).2.records
  rw [found]
  exact sameRows_of_uses (reindexUpdated_leavesRows id 1)
    { database with records := withRow .outputs ((update.applyScriptMetadata hash).spread existing.value) database.records }

theorem updateTransaction_one (id : Nat) (update : TransactionUpdate) : ((updateTransaction [id] update).run (exec hash) database).2 =
    ((updateOneTransaction id update).run (exec hash) database).2 := by
  unfold updateTransaction
  rw [Program.run_bind]
  cases ran : (updateOneTransaction id update).run (exec hash) database with
  | mk outcome after => cases outcome <;> rfl

theorem callAlone_update (table : EntityTable) (key : UpdateKey table) (changes : Update table) :
    (database.records.row table (key.row table) = none ∧ (callAlone hash (.update table key changes) database).2 = database) ∨
      ∃ existing, database.records.row table (key.row table) = some existing ∧
        SameRows (withRow table (updatedRow hash table changes existing.value) database.records)
          (callAlone hash (.update table key changes) database).2.records := by
  cases found : database.records.row table (key.row table) with
  | none => exact .inl ⟨rfl, updateRow_absent database changes found⟩
  | some existing =>
    refine .inr ⟨existing, rfl, ?_⟩
    have byKey : ∀ spread : Row table → Row table, SameRows (withRow table (spread existing.value) database.records)
        ((updateByKey table (key.row table) spread).run (exec hash) database).2.records := by
      intro spread
      rcases @updateByKey_rows hash database table (key.row table) spread with ⟨absent, _⟩ | ⟨other, here, same⟩
      · cases found.symm.trans absent
      · cases found.symm.trans here
        rw [same]
        exact fun _ _ => rfl
    cases table with
    | outputs => exact updateOutput_rows changes found
    | transactions =>
      show SameRows _ ((updateTransaction [key] changes).run (exec hash) database).2.records
      rw [updateTransaction_one, updateOneTransaction_run]
      have here : database.records.row .transactions (.id key) = some existing := found
      rw [here]
      exact sameRows_of_uses (followStatus_leavesRows _ _ _) _
    | _ => exact byKey _

end
end WalletToolbox

import WalletToolbox.Proofs.IndexWrites

/-! The indexes agree with the primary outputs and the statuses of their
transactions. Writing rows, storing outputs and inserting transactions keep them so,
as long as a write re-files nothing that it does not also re-index. -/

namespace WalletToolbox
open Async

def Records.transactionStatus (records : Records) (output : TableOutput) : Option TransactionStatus :=
  (records.row .transactions (.id output.transactionId)).map fun row => row.value.status

structure Indexed (records : Records) : Prop where
  consistent : Consistent records.transactionStatus records
  transactions : ∀ id row, records.row .transactions (.id id) = some row → row.value.transactionId = id

theorem indexed_empty : Indexed Database.empty.records where
  consistent := {
    keyed := fun outputId record found => by cases found
    encodable := fun outputId record found => by cases found
    owned := fun key record found => by cases found
    exact := fun key => ⟨fun present => (Bool.false_ne_true present).elim, fun ⟨_, _, found, _⟩ => by cases found⟩ }
  transactions := fun id row found => by cases found

theorem statusKeysOf_congr
    (same : InStatusIndex output → first = second) : statusKeysOf output first = statusKeysOf output second := by
  by_cases indexed : InStatusIndex output
  · rw [same indexed]
  · unfold statusKeysOf
    unfold InStatusIndex at indexed
    cases spendable : output.spendable <;> cases based : output.basketId <;> simp_all

theorem keysOf_congr
    (same : InStatusIndex output → first = second) : keysOf output first = keysOf output second := by
  rw [keysOf, keysOf, statusKeysOf_congr same]

section
variable {status other : TableOutput → Option TransactionStatus} {records before after : Records}

theorem Consistent.congr (consistent : Consistent status records)
    (same : ∀ outputId record, records.primary outputId = some record → InStatusIndex record.value →
      status record.value = other record.value) : Consistent other records where
  keyed := consistent.keyed
  encodable := consistent.encodable
  owned := consistent.owned
  exact := by
    intro key
    rw [consistent.exact key]
    refine exists_congr fun outputId => exists_congr fun record => and_congr_right fun found => ?_
    rw [keysOf_congr (same outputId record found)]

theorem Consistent.frame (consistent : Consistent status before)
    (primary : ∀ outputId, after.primary outputId = before.primary outputId)
    (entry : ∀ key, after.entry key = before.entry key) : Consistent status after := by
  constructor
  · intro outputId record found
    exact consistent.keyed outputId record (primary outputId ▸ found)
  · intro outputId record found
    exact consistent.encodable outputId record (primary outputId ▸ found)
  · intro key record found
    exact consistent.owned key record (entry key ▸ found)
  · intro key
    rw [entry key, consistent.exact key]
    simp only [primary]

theorem transactionStatus_congr (transactions : ∀ key, after.row .transactions key = before.row .transactions key) :
    after.transactionStatus = before.transactionStatus := by
  funext output
  rw [Records.transactionStatus, Records.transactionStatus, transactions]

theorem Indexed.frame (indexed : Indexed before) (primary : ∀ outputId, after.primary outputId = before.primary outputId)
    (entry : ∀ key, after.entry key = before.entry key)
    (transactions : ∀ key, after.row .transactions key = before.row .transactions key) : Indexed after where
  consistent := transactionStatus_congr transactions ▸ indexed.consistent.frame primary entry
  transactions := by
    intro id row found
    exact indexed.transactions id row (transactions (.id id) ▸ found)

theorem Stored.indexed (stored : Stored next filed before after)
    (indexed : Indexed before) (filedAs : InStatusIndex next → filed = before.transactionStatus next)
    (replaceable : Replaceable before.transactionStatus next filed before) : Indexed after where
  consistent := transactionStatus_congr stored.transactions ▸
    stored.consistent indexed.consistent (keysOf_congr filedAs) replaceable
  transactions := by
    intro id row found
    exact indexed.transactions id row (stored.transactions (.id id) ▸ found)

end

theorem takeId_lookup (table) (database) (other : key ≠ .counter table) :
    (takeId table database).2.records.lookup key = database.records.lookup key := by
  unfold takeId
  split
  · split
    · rfl
    · exact AList.lookup_insert_ne other
  · exact AList.lookup_insert_ne other

namespace StorageRocksDb

def prepared (table : EntityTable) (entity : Row table) (database : Database) : Row table × Database :=
  match rowId table entity with
  | some 0 => (setRowId table (takeId table database).1 entity, (takeId table database).2)
  | _ => (entity, database)

def withRow (table : EntityTable) (entity : Row table) (records : Records) : Records :=
  records.insert (.entity table (rowKey table entity)) (encode entity (records.row table (rowKey table entity)))

section
variable (hash : ScriptHash) (table : EntityTable) (entity : Row table) (database : Database) {key : StorageKey}

theorem prepared_lookup (other : key ≠ .counter table) :
    (prepared table entity database).2.records.lookup key = database.records.lookup key := by
  unfold prepared
  split
  · exact takeId_lookup table database other
  · rfl

theorem prepareInsert_run : (prepareInsert table entity).run (exec hash) database =
    (.ok (prepared table entity database).1, (prepared table entity database).2) := by
  unfold prepareInsert prepared
  rcases rowId table entity with _ | id
  · rfl
  · cases id <;> rfl

theorem insertEntity_run : (insertEntity table entity).run (exec hash) database =
    (.ok (prepared table entity database).1,
      { (prepared table entity database).2 with
        records := withRow table (prepared table entity database).1 (prepared table entity database).2.records }) := by
  rw [insertEntity, Program.run_bind, prepareInsert_run]
  rfl

theorem withRow_prepared_ne (other : key ≠ .counter table)
    (notRow : key ≠ .entity table (rowKey table (prepared table entity database).1)) :
    (withRow table (prepared table entity database).1 (prepared table entity database).2.records).lookup key =
      database.records.lookup key := by
  rw [withRow, AList.lookup_insert_ne notRow, prepared_lookup table entity database other]

end

section
variable {hash : ScriptHash} {database : Database}

theorem transactionStatusForOutput_run (indexed : Indexed database.records) (output) :
    (transactionStatusForOutput output).run (exec hash) database =
      (.ok (database.records.transactionStatus output), database) := by
  unfold transactionStatusForOutput findTransactions findEntities getEntity RocksDbWalletStore.get
  simp only [Program.run_bind, Program.run_await, Program.run_done, bind_assoc, exec, db, Records.transactionStatus]
  cases found : database.records.row .transactions (.id output.transactionId) with
  | none => simp [found, verifyOneOrNone]
  | some row =>
    have keyed := indexed.transactions _ _ found
    simp [found, keyed, verifyOneOrNone, matchesTransactionPartial, Option.filter, eq]

end

end StorageRocksDb

def StatusKept (records : Records) (transactionId : Nat) (status : TransactionStatus) : Prop :=
  ∀ outputId record, records.primary outputId = some record → InStatusIndex record.value →
    record.value.transactionId = transactionId → records.transactionStatus record.value = some status

def StoresCleanly (records : Records) (next : TableOutput) : Prop :=
  Replaceable records.transactionStatus next (records.transactionStatus next) records

section
variable {records before after : Records} {next other : TableOutput}

theorem StoresCleanly.of_new (new : records.primary next.outputId = none) : StoresCleanly records next := by
  constructor
  · intro old found
    rw [new] at found
    cases found
  · intro old found
    rw [new] at found
    cases found

theorem StoresCleanly.congr (cleanly : StoresCleanly records next) (outputId : other.outputId = next.outputId)
    (transactionId : other.transactionId = next.transactionId) (outpoint : outpointKeysOf other = outpointKeysOf next) :
    StoresCleanly records other := by
  have same : records.transactionStatus other = records.transactionStatus next := by
    rw [Records.transactionStatus, Records.transactionStatus, transactionId]
  constructor
  · intro old found indexed
    rw [same]
    exact cleanly.statuses old (outputId ▸ found) indexed
  · intro old found key member absent
    rw [outpoint] at absent
    rw [outputId] at found ⊢
    exact cleanly.outpoints old found key member absent

theorem StoresCleanly.frame (cleanly : StoresCleanly before next)
    (primary : ∀ outputId, after.primary outputId = before.primary outputId)
    (transactions : ∀ key, after.row .transactions key = before.row .transactions key) : StoresCleanly after next := by
  unfold StoresCleanly
  rw [transactionStatus_congr transactions]
  constructor
  · intro old found indexed
    exact cleanly.statuses old (primary _ ▸ found) indexed
  · intro old found key member absent outputId record different stored
    exact cleanly.outpoints old (primary _ ▸ found) key member absent outputId record different (primary _ ▸ stored)

theorem outpointKeysOf_metadata (hash) (output) :
    outpointKeysOf (applyOutputScriptMetadata hash output) = outpointKeysOf output := by
  obtain ⟨scriptHash, same⟩ := applyOutputScriptMetadata_eq hash output
  rw [same]
  rfl

end

namespace StorageRocksDb

theorem withRow_outputs (table) (entity) (records) :
    (∀ outputId, (withRow table entity records).primary outputId = records.primary outputId) ∧
      ∀ key, (withRow table entity records).entry key = records.entry key := by
  constructor
  · intro outputId
    exact AList.lookup_insert_ne (by simp)
  · intro key
    exact AList.lookup_insert_ne (by simp)

theorem withRow_transactions (table) (entity) (records) (other : table ≠ .transactions)
    (key) : (withRow table entity records).row .transactions key = records.row .transactions key := by
  have different : StorageKey.entity .transactions key ≠ .entity table (rowKey table entity) := by
    intro same
    cases same
    exact other rfl
  exact AList.lookup_insert_ne different

theorem withRow_row (table) (entity) (records) :
    (withRow table entity records).row table (rowKey table entity) =
      some (encode entity (records.row table (rowKey table entity))) := AList.lookup_insert _

theorem withRow_transactionStatus (row) (records) (output) :
    (withRow .transactions row records).transactionStatus output =
      if output.transactionId = row.transactionId then some row.status else records.transactionStatus output := by
  unfold Records.transactionStatus withRow
  by_cases same : output.transactionId = row.transactionId
  · rw [if_pos same, same]
    simp [Records.row, rowKey, encode]
  · rw [if_neg same, Records.row, AList.lookup_insert_ne (by simpa [rowKey] using same)]

theorem withRow_transactionKeyed
    (keyed : ∀ id found, records.row .transactions (.id id) = some found → found.value.transactionId = id) (id : Nat)
    (found) (stored : (withRow .transactions row records).row .transactions (.id id) = some found) :
    found.value.transactionId = id := by
  by_cases same : id = row.transactionId
  · subst same
    simp [Records.row, withRow, rowKey, encode] at stored
    rw [← stored]
  · rw [withRow, Records.row, AList.lookup_insert_ne (by simpa [rowKey] using same)] at stored
    exact keyed id found stored

section
variable {hash : ScriptHash} {database : Database}

section
variable (indexed : Indexed database.records)
include indexed

theorem prepared_indexed (table) (entity) :
    Indexed (prepared table entity database).2.records := by
  apply indexed.frame
  · intro outputId
    exact prepared_lookup table entity database (by simp)
  · intro key
    exact prepared_lookup table entity database (by simp)
  · intro key
    exact prepared_lookup table entity database (by simp)

theorem insertTransaction_indexed (tx : TableTransaction)
    (kept : StatusKept database.records (prepared .transactions tx database).1.transactionId (prepared .transactions tx database).1.status) :
    Indexed ((insertTransaction tx).run (exec hash) database).2.records := by
  have first := prepared_indexed indexed .transactions tx
  have lookup {key : StorageKey} (other : key ≠ .counter .transactions) := prepared_lookup .transactions tx database other
  rw [insertTransaction, insertEntity_run]
  dsimp only
  obtain ⟨primary, entry⟩ := withRow_outputs .transactions (prepared .transactions tx database).1 (prepared .transactions tx database).2.records
  constructor
  · refine (first.consistent.frame primary entry).congr ?_
    intro outputId record found inIndex
    rw [withRow_transactionStatus]
    split
    · next same =>
      rw [primary outputId, Records.primary, lookup (by simp)] at found
      rw [← kept outputId record found inIndex same, Records.transactionStatus, Records.row, lookup (by simp)]
      rfl
    · rfl
  · exact withRow_transactionKeyed first.transactions

theorem putOutput_indexed (output : TableOutput) (cleanly : StoresCleanly database.records output) :
    (RocksDbWalletStore.putOutput hash output (database.records.transactionStatus output)).Ends (exec hash) database
      fun _ after => Indexed after.records := by
  refine RocksDbWalletStore.putOutput_run.mono fun outcome after ends => ?_
  rcases ends with ⟨rfl, -⟩ | ⟨-, stored⟩
  · exact indexed
  · have same : database.records.transactionStatus output =
        database.records.transactionStatus (applyOutputScriptMetadata hash output) := by
      rw [Records.transactionStatus, Records.transactionStatus, applyOutputScriptMetadata_transactionId]
    apply stored.indexed indexed (fun _ => same)
    rw [same]
    exact cleanly.congr (by simp) (by simp) (outpointKeysOf_metadata hash output)

theorem fileOutput_indexed (output : TableOutput) (value : α)
    (cleanly : StoresCleanly database.records output) :
    (transactionStatusForOutput output >>= fun status => RocksDbWalletStore.putOutput hash output status >>= fun _ => pure value).Ends
      (exec hash) database fun _ after => Indexed after.records := by
  apply Program.Ends.after (transactionStatusForOutput_uses output) Reads.unchanged ?_ fun _ => indexed
  intro status found
  rw [transactionStatusForOutput_run indexed] at found
  obtain rfl := Except.ok.inj found
  exact (putOutput_indexed indexed output cleanly).returns fun _ => value

theorem outputRow_indexed (row) :
    Indexed (withRow .outputs row database.records) := by
  obtain ⟨primary, entry⟩ := withRow_outputs .outputs row database.records
  exact indexed.frame primary entry (withRow_transactions .outputs row database.records (by simp))

theorem insertOutput_indexed (output : TableOutput)
    (cleanly : StoresCleanly database.records (prepared .outputs (applyOutputScriptMetadata hash output) database).1) :
    (insertOutput hash output).Ends (exec hash) database fun _ after => Indexed after.records := by
  have first := prepared_indexed indexed .outputs (applyOutputScriptMetadata hash output)
  have lookup {key : StorageKey} (other : key ≠ .counter .outputs) :=
    prepared_lookup .outputs (applyOutputScriptMetadata hash output) database other
  apply Program.Ends.bind
  unfold Program.Ends
  rw [insertEntity_run]
  obtain ⟨primary, -⟩ := withRow_outputs .outputs (prepared .outputs (applyOutputScriptMetadata hash output) database).1
    (prepared .outputs (applyOutputScriptMetadata hash output) database).2.records
  refine fileOutput_indexed (outputRow_indexed first _) _ _ (cleanly.frame ?_ ?_)
  · intro outputId
    rw [primary outputId, Records.primary, lookup (by simp)]
  · intro key
    rw [withRow_transactions .outputs _ _ (by simp), Records.row, lookup (by simp)]

theorem reindexUpdated_indexed (id updated : Nat)
    (cleanly : ∀ row, database.records.row .outputs (.id id) = some row → StoresCleanly database.records row.value) :
    (reindexUpdated hash id updated).Ends (exec hash) database fun _ after => Indexed after.records := by
  unfold reindexUpdated
  show (storeRow hash updated (((database.records.row .outputs (.id id)).map Versioned.value).filter
    (matchesOutputPartial · { outputId := some id }))).Ends (exec hash) database fun _ after => Indexed after.records
  cases found : database.records.row .outputs (.id id) with
  | none => exact indexed
  | some row =>
    rw [Option.map_some, Option.filter_some]
    split
    · apply Program.Ends.after (validateOutputScript_uses row.value) Reads.unchanged ?_ fun _ => indexed
      intro output validated
      obtain ⟨lockingScript, rfl⟩ := (validateOutputScript_settles [] row.value).run database output validated
      exact fileOutput_indexed indexed _ updated ((cleanly row found).congr rfl rfl rfl)
    · exact indexed

end

end

def updatedRow (id : Nat) (update : OutputUpdate) (existing : TableOutput) : TableOutput :=
  if (update.spread existing).outputId = id then update.spread existing else existing

theorem applyScriptMetadata_spread (hash) (update : OutputUpdate) (existing : TableOutput) :
    ∃ scriptHash, (update.applyScriptMetadata hash).spread existing = { update.spread existing with scriptHash } := by
  unfold OutputUpdate.applyScriptMetadata
  split <;> exact ⟨_, rfl⟩

section
variable {hash : ScriptHash} {database : Database}

theorem updateOutput_indexed (indexed : Indexed database.records) (id : Nat) (update : OutputUpdate)
    (cleanly : ∀ existing, database.records.row .outputs (.id id) = some existing →
      StoresCleanly database.records (updatedRow id update existing.value)) :
    (updateOutput hash id update).Ends (exec hash) database fun _ after => Indexed after.records := by
  rw [updateOutput_eq]
  show (storeUpdated hash id update ((database.records.row .outputs (.id id)).map Versioned.value)).Ends (exec hash) database
    fun _ after => Indexed after.records
  cases found : database.records.row .outputs (.id id) with
  | none =>
    apply reindexUpdated_indexed indexed
    intro row stored
    rw [found] at stored
    cases stored
  | some existing =>
    obtain ⟨scriptHash, spread⟩ := applyScriptMetadata_spread hash update existing.value
    have clean := cleanly existing found
    obtain ⟨primary, -⟩ := withRow_outputs .outputs ((update.applyScriptMetadata hash).spread existing.value) database.records
    show (reindexUpdated hash id 1).Ends (exec hash)
      { database with records := withRow .outputs ((update.applyScriptMetadata hash).spread existing.value) database.records }
      fun _ after => Indexed after.records
    refine reindexUpdated_indexed (outputRow_indexed indexed _) id 1 fun row stored => ?_
    have cleanRow : StoresCleanly database.records row.value := by
      have stays := withRow_row .outputs ((update.applyScriptMetadata hash).spread existing.value) database.records
      by_cases here : (update.spread existing.value).outputId = id
      · rw [updatedRow, if_pos here] at clean
        have key : rowKey .outputs ((update.applyScriptMetadata hash).spread existing.value) = .id id := by
          rw [spread]
          exact congrArg RowKey.id here
        rw [key] at stays
        rw [stays] at stored
        cases stored
        rw [spread]
        exact clean.congr rfl rfl rfl
      · rw [updatedRow, if_neg here] at clean
        have other : StorageKey.entity .outputs (.id id) ≠
            .entity .outputs (rowKey .outputs ((update.applyScriptMetadata hash).spread existing.value)) := by
          intro same
          apply here
          rw [spread] at same
          simpa [rowKey] using same.symm
        have kept : (withRow .outputs ((update.applyScriptMetadata hash).spread existing.value) database.records).row .outputs (.id id) =
            database.records.row .outputs (.id id) := AList.lookup_insert_ne other
        rw [kept, found] at stored
        cases stored
        exact clean
    exact cleanRow.frame primary (withRow_transactions .outputs _ _ (by simp))

end
end StorageRocksDb
end WalletToolbox

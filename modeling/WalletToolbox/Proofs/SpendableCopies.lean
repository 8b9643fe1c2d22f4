import WalletToolbox.Proofs.RowWrites
import WalletToolbox.Proofs.RebuiltIndexes

/-! The two copies of a spendable output over a run of storage calls, one after the
other: its row, and the primary record behind the index. They show the same of it as
long as every write of an output row is followed by one of its record, or shows nothing
new. -/

namespace WalletToolbox
open Effects Async

def withoutScript (output : TableOutput) : TableOutput := { output with lockingScript := none }

def spendableCopy (copy : Option TableOutput) : Option TableOutput := (copy.filter TableOutput.spendable).map withoutScript

theorem spendableCopy_spendable (spendable : output.spendable = true) :
    spendableCopy (some output) = some (withoutScript output) := by
  rw [spendableCopy, Option.filter_some, if_pos spendable]
  rfl

theorem spendableCopy_spent (spent : output.spendable = false) : spendableCopy (some output) = none := by
  rw [spendableCopy, Option.filter_some, if_neg (by simp [spent])]
  rfl

def Records.outputRow (records : Records) (outputId : Nat) : Option TableOutput :=
  (records.row .outputs (.id outputId)).map Versioned.value

def ScannedKey : IndexKey → Prop
  | .spendableUser _ _ | .spendableBasket _ _ _ => True
  | _ => False

structure SpendableCopies (exempt : Set Nat) (records : Records) : Prop where
  owned : ∀ key row, records.row .outputs key = some row → rowKey .outputs row.value = key
  indexes : FamilyIndexes ScannedKey (fun _ => none) records
  agree : ∀ outputId, outputId ∉ exempt → spendableCopy (records.outputRow outputId) = spendableCopy (records.output outputId)

def LeavesCopies (op : DbOp) : Prop :=
  ∀ hash database, (∀ key, (exec hash op database).2.records.row .outputs key = database.records.row .outputs key) ∧
    (∀ outputId, (exec hash op database).2.records.primary outputId = database.records.primary outputId) ∧
    ∀ key, ScannedKey key → (exec hash op database).2.records.entry key = database.records.entry key

section
variable {exempt : Set Nat} {before after : Records}

theorem SpendableCopies.frame (copies : SpendableCopies exempt before) (rows : ∀ key, after.row .outputs key = before.row .outputs key)
    (primary : ∀ outputId, after.primary outputId = before.primary outputId)
    (entry : ∀ key, ScannedKey key → after.entry key = before.entry key) : SpendableCopies exempt after where
  owned := by
    intro key row found
    exact copies.owned key row (rows key ▸ found)
  indexes := copies.indexes.frame primary entry
  agree := by
    intro outputId agrees
    have same := copies.agree outputId agrees
    rw [Records.outputRow, Records.output] at same
    rw [Records.outputRow, Records.output, rows, primary, same]

theorem SpendableCopies.exempting (copies : SpendableCopies exempt before) (wider : exempt ⊆ more) :
    SpendableCopies more before where
  owned := copies.owned
  indexes := copies.indexes
  agree := fun outputId agrees => copies.agree outputId fun exempted => agrees (wider exempted)

theorem SpendableCopies.settle (copies : SpendableCopies exempt before)
    (agree : ∀ outputId ∈ exempt, spendableCopy (before.outputRow outputId) = spendableCopy (before.output outputId)) :
    SpendableCopies ∅ before where
  owned := copies.owned
  indexes := copies.indexes
  agree := by
    intro outputId _
    by_cases exempted : outputId ∈ exempt
    · exact agree outputId exempted
    · exact copies.agree outputId exempted

theorem scannedKey_status (scanned : ScannedKey key) :
    key ∈ keysOf output first ↔ key ∈ keysOf output second := by
  have either {first second : Option TransactionStatus} (member : key ∈ keysOf output first) : key ∈ keysOf output second := by
    rcases mem_keysOf_of_status member with kept | statusKey
    · exact kept
    · obtain ⟨_, _, -, -, -, rfl⟩ := statusKeysOf_shape statusKey
      cases scanned
  exact ⟨either, either⟩

theorem SpendableCopies.withRow (copies : SpendableCopies exempt before) (row : TableOutput) :
    SpendableCopies (insert row.outputId exempt) (StorageRocksDb.withRow .outputs row before) := by
  obtain ⟨primary, entry⟩ := StorageRocksDb.withRow_outputs .outputs row before
  constructor
  · intro key stored found
    by_cases here : key = rowKey .outputs row
    · subst here
      rw [StorageRocksDb.withRow_row] at found
      cases found
      rfl
    · apply copies.owned key stored
      rw [← found]
      exact (@withRow_other .outputs .outputs row before key fun both => here both.2).symm
  · exact copies.indexes.frame primary fun key _ => entry key
  · intro outputId agrees
    have different : outputId ≠ row.outputId := fun same => agrees (Set.mem_insert_iff.mpr (.inl same))
    have same := copies.agree outputId fun exempted => agrees (Set.mem_insert_of_mem _ exempted)
    have kept := @withRow_other .outputs .outputs row before _ fun both => different (RowKey.id.inj both.2)
    rw [Records.outputRow, Records.output] at same
    rw [Records.outputRow, Records.output, kept, primary, same]

/-- The record is stored beside a row that shows the same. -/
theorem Stored.spendableCopies (stored : Stored next status before after)
    (copies : SpendableCopies {next.outputId} before)
    (rows : ∀ key, key ≠ .id next.outputId → after.row .outputs key = before.row .outputs key)
    (own : ∀ row, after.row .outputs (.id next.outputId) = some row → row.value.outputId = next.outputId)
    (shown : spendableCopy (after.outputRow next.outputId) = spendableCopy (some next)) : SpendableCopies ∅ after where
  owned := by
    intro key row found
    by_cases here : key = .id next.outputId
    · subst here
      exact congrArg RowKey.id (own row found)
    · exact copies.owned key row (rows key here ▸ found)
  indexes := stored.familyIndexes copies.indexes (fun _ _ => rfl) (fun _ scanned => scannedKey_status scanned)
    fun _ _ _ scanned => scannedKey_status scanned
  agree := by
    intro outputId _
    by_cases same : outputId = next.outputId
    · subst same
      obtain ⟨version, primary⟩ := stored.primary
      rw [shown, Records.output, primary]
      rfl
    · have agrees := copies.agree outputId (by simpa using same)
      rw [Records.outputRow, rows _ fun keys => same (RowKey.id.inj keys), ← Records.outputRow]
      rw [agrees, Records.output, Records.output, stored.others outputId same]

end

section
variable {hash : ScriptHash} {database : Database} {exempt : Set Nat}

theorem copies_of_uses {program : RocksDbM α} (uses : program.Uses LeavesCopies)
    (copies : SpendableCopies exempt database.records) :
    program.Ends (exec hash) database fun _ after => SpendableCopies exempt after.records := by
  have step : ∀ op store, LeavesCopies op → SpendableCopies exempt store.records → SpendableCopies exempt (exec hash op store).2.records := by
    intro op store leaves held
    obtain ⟨rows, primary, entry⟩ := leaves hash store
    exact held.frame rows primary entry
  have whole := Program.run_preserves (exec hash) step uses copies
  exact whole

theorem Reads.leavesCopies (op : DbOp) (reads : Reads op) : LeavesCopies op := by
  intro hash database
  rw [reads.exec_eq]
  exact ⟨fun _ => rfl, fun _ => rfl, fun _ _ => rfl⟩

theorem leavesCopies_nextId (table : EntityTable) : LeavesCopies (.nextId table) := by
  intro hash database
  refine ⟨fun key => ?_, fun outputId => ?_, fun key _ => ?_⟩
  · exact takeId_lookup table database (by simp)
  · exact takeId_lookup table database (by simp)
  · exact takeId_lookup table database (by simp)

theorem leavesCopies_putRow (other : table ≠ .outputs) (key : RowKey) (record : Versioned (Row table)) :
    LeavesCopies (.put (.entity table key) record) := by
  intro hash database
  refine ⟨fun rowKey => ?_, fun outputId => ?_, fun key _ => ?_⟩
  · apply exec_put_lookup_ne hash database (.entity table key) record
    intro same
    injection same with tables
    exact other tables.symm
  · exact exec_put_lookup_ne hash database (.entity table key) record (by simp)
  · exact exec_put_lookup_ne hash database (.entity table _) record (by simp)

theorem leavesCopies_index (other : ¬ScannedKey key) :
    LeavesCopies (.remove (.index key)) ∧ ∀ record, LeavesCopies (.put (.index key) record) := by
  have different {scanned : IndexKey} (isScanned : ScannedKey scanned) : StorageKey.index scanned ≠ .index key := by
    intro same
    injection same with keys
    exact other (keys ▸ isScanned)
  constructor
  · intro hash database
    refine ⟨fun rowKey => ?_, fun outputId => ?_, fun scanned isScanned => ?_⟩
    · exact exec_remove_lookup_ne hash database _ (by simp)
    · exact exec_remove_lookup_ne hash database _ (by simp)
    · exact exec_remove_lookup_ne hash database _ (different isScanned)
  · intro record hash database
    refine ⟨fun rowKey => ?_, fun outputId => ?_, fun scanned isScanned => ?_⟩
    · exact exec_put_lookup_ne hash database (.index key) record (by simp)
    · exact exec_put_lookup_ne hash database (.index key) record (by simp)
    · exact exec_put_lookup_ne hash database (.index key) record (different isScanned)

end

end WalletToolbox

import WalletToolbox.Proofs.ConcurrentUpdate
import WalletToolbox.Proofs.IdAllotments
import WalletToolbox.Proofs.TableRows

/-! Storage whose ids to come are in use nowhere. Each call of a method that runs alone
leaves it so, whatever it ends with, and a new row is put under a key of its own. -/

namespace WalletToolbox
open Async StorageRocksDb

structure IdsAhead (database : Database) (table : EntityTable) : Prop where
  below : ∀ id row, database.rows table (.id id) = some row → id < (takeId table database).1
  blocks : ∀ block, database.idBlocks table = some block → block.next ≤ block.last → block.last ≤ counterOf database.records table

/-- What a method relies on: rows and primary records under their own keys, and new ids. -/
structure SoundStorage (database : Database) : Prop where
  owned : RowsOwned database.records
  keyed : Keyed database.records
  ahead : ∀ table, IdsAhead database table

def LeavesIds (op : DbOp) : Prop :=
  ∀ hash database, (exec hash op database).2.idBlocks = database.idBlocks ∧
    ∀ table, (exec hash op database).2.records.lookup (.counter table) = database.records.lookup (.counter table)

theorem IndexOp.keyedOp (index : IndexOp op) : KeyedOp op := .output (index.outputWrite : OutputWriteOp changeOutput op)

theorem KeyedOp.leavesIds (allowed : KeyedOp op) : LeavesIds op := by
  intro hash database
  cases allowed with
  | read reads =>
    rw [reads.exec_eq]
    exact ⟨rfl, fun _ => rfl⟩
  | row table key record => exact ⟨rfl, fun _ => exec_put_lookup_ne hash database (.entity table key) record (by simp)⟩
  | reserve reservation =>
    rcases reserve_cases hash reservation database with ⟨primary, entity, deletes, puts, -, -, -, deleted, filled, result⟩ | ⟨reply, -, result⟩
    · rw [result]
      exact ⟨rfl, fun _ => Reservation.commit_other (fun _ => indexDeletes_key deleted) (fun _ => indexPuts_key filled) (by simp) (by simp) (by simp)⟩
    · rw [result]
      exact ⟨rfl, fun _ => rfl⟩
  | output allowed =>
    cases allowed with
    | read reads =>
      rw [reads.exec_eq]
      exact ⟨rfl, fun _ => rfl⟩
    | unindex key => exact ⟨rfl, fun _ => exec_remove_lookup_ne hash database _ (by simp)⟩
    | index key record => exact ⟨rfl, fun _ => exec_put_lookup_ne hash database (.index key) record (by simp)⟩
    | primary version => exact ⟨rfl, fun _ => exec_put_lookup_ne hash database (.outputPrimary _) _ (by simp)⟩

section
variable {hash : ScriptHash} {database after : Database} {table : EntityTable}

theorem takeId_congr (blocks : after.idBlocks table = database.idBlocks table)
    (counter : after.records.lookup (.counter table) = database.records.lookup (.counter table)) : (takeId table after).1 = (takeId table database).1 := by
  unfold takeId
  rw [blocks, counter]
  split
  · split
    · rfl
    · rfl
  · rfl

theorem sameIds_of_uses {α : Type} {program : RocksDbM α} (uses : program.Uses LeavesIds) (database) :
    (program.run (exec hash) database).2.idBlocks = database.idBlocks ∧
      ∀ table, (program.run (exec hash) database).2.records.lookup (.counter table) = database.records.lookup (.counter table) := by
  have step : ∀ op store, LeavesIds op → (store.idBlocks = database.idBlocks ∧ ∀ table, store.records.lookup (.counter table) = database.records.lookup (.counter table)) →
      (exec hash op store).2.idBlocks = database.idBlocks ∧
        ∀ table, (exec hash op store).2.records.lookup (.counter table) = database.records.lookup (.counter table) := by
    intro op store leaves held
    obtain ⟨blocks, counters⟩ := leaves hash store
    exact ⟨blocks.trans held.1, fun table => (counters table).trans (held.2 table)⟩
  exact Program.run_preserves (exec hash) step uses ⟨rfl, fun _ => rfl⟩

theorem IdsAhead.frame (ahead : IdsAhead database table) (blocks : after.idBlocks table = database.idBlocks table)
    (counter : after.records.lookup (.counter table) = database.records.lookup (.counter table))
    (inside : ∀ id row, after.rows table (.id id) = some row → (database.rows table (.id id)).isSome = true) : IdsAhead after table where
  below id row here := by
    rw [takeId_congr blocks counter]
    obtain ⟨old, was⟩ := Option.isSome_iff_exists.mp (inside id row here)
    exact ahead.below id old was
  blocks block held left := by
    rw [blocks] at held
    unfold counterOf
    rw [counter]
    exact ahead.blocks block held left

theorem takeId_other (different : other ≠ table) : (takeId table database).2.idBlocks other = database.idBlocks other ∧
    (takeId table database).2.records.lookup (.counter other) = database.records.lookup (.counter other) := by
  have apart : StorageKey.counter other ≠ .counter table := by simpa using different
  unfold takeId
  split
  · split
    · exact ⟨if_neg different, rfl⟩
    · exact ⟨if_neg different, AList.lookup_insert_ne apart⟩
  · exact ⟨if_neg different, AList.lookup_insert_ne apart⟩

theorem takeId_block (held : database.idBlocks table = some block) (left : block.next ≤ block.last) : takeId table database =
    (block.next, { database with idBlocks := fun other => if other = table then some ⟨block.next + 1, block.last⟩ else database.idBlocks other }) := by
  unfold takeId
  rw [held]
  exact if_pos left

def refilled (table : EntityTable) (database : Database) : Database where
  records := database.records.insert (.counter table) (encode (counterOf database.records table + ROCKSDB_ID_BLOCK_SIZE) (database.records.lookup (.counter table)))
  idBlocks := fun other =>
    if other = table then some ⟨counterOf database.records table + 2, counterOf database.records table + ROCKSDB_ID_BLOCK_SIZE⟩ else database.idBlocks other

theorem takeId_refill (usedUp : ∀ block, database.idBlocks table = some block → block.last < block.next) :
    takeId table database = (counterOf database.records table + 1, refilled table database) := by
  have first : counterOf database.records table + ROCKSDB_ID_BLOCK_SIZE - ROCKSDB_ID_BLOCK_SIZE + 1 = counterOf database.records table + 1 := by
    rw [Nat.add_sub_cancel]
  unfold takeId
  split
  · next block held =>
    rw [if_neg (not_le.mpr (usedUp block held))]
    exact congrArg (fun first => (first, ({ records := _, idBlocks := fun other => if other = table then some ⟨first + 1, _⟩ else database.idBlocks other } : Database))) first
  · exact congrArg (fun first => (first, ({ records := _, idBlocks := fun other => if other = table then some ⟨first + 1, _⟩ else database.idBlocks other } : Database))) first

theorem refilled_counter : counterOf (refilled table database).records table = counterOf database.records table + ROCKSDB_ID_BLOCK_SIZE := by
  rw [counterOf, refilled, AList.lookup_insert]
  rfl

theorem refilled_block : (refilled table database).idBlocks table =
    some ⟨counterOf database.records table + 2, counterOf database.records table + ROCKSDB_ID_BLOCK_SIZE⟩ := if_pos rfl

/-- The next id is above the one that is taken. -/
theorem takeId_rises (blocks : ∀ block, database.idBlocks table = some block → block.next ≤ block.last → block.last ≤ counterOf database.records table) :
    (takeId table database).1 < (takeId table (takeId table database).2).1 ∧
      ∀ block, (takeId table database).2.idBlocks table = some block → block.next ≤ block.last →
        block.last ≤ counterOf (takeId table database).2.records table := by
  by_cases holds : ∃ block, database.idBlocks table = some block ∧ block.next ≤ block.last
  · obtain ⟨block, held, left⟩ := holds
    have bound := blocks block held left
    rw [takeId_block held left]
    generalize same : ({ database with idBlocks := fun other => if other = table then some ⟨block.next + 1, block.last⟩ else database.idBlocks other } : Database) = taken
    have now : taken.idBlocks table = some ⟨block.next + 1, block.last⟩ := by
      rw [← same]
      exact if_pos rfl
    have counter : counterOf taken.records table = counterOf database.records table := by rw [← same]
    refine ⟨?_, fun other is _ => ?_⟩
    · by_cases more : block.next + 1 ≤ block.last
      · rw [takeId_block now more]
        exact Nat.lt_succ_self _
      · have usedUp : ∀ other, taken.idBlocks table = some other → other.last < other.next := by
          intro other is
          rw [now] at is
          cases is
          exact not_le.mp more
        rw [takeId_refill usedUp, counter]
        exact Nat.lt_succ_of_le (le_trans left bound)
    · rw [now] at is
      cases is
      exact counter ▸ bound
  · have usedUp : ∀ block, database.idBlocks table = some block → block.last < block.next := fun block held => not_le.mp fun left => holds ⟨block, held, left⟩
    rw [takeId_refill usedUp]
    have more : counterOf database.records table + 2 ≤ counterOf database.records table + ROCKSDB_ID_BLOCK_SIZE := Nat.add_le_add_left (by decide) _
    refine ⟨?_, fun block same _ => ?_⟩
    · rw [takeId_block refilled_block more]
      exact Nat.lt_succ_self _
    · rw [refilled_block] at same
      cases same
      exact refilled_counter.ge

theorem prepared_cases {row} (unnumbered : ∀ id, rowId table row = some id → id = 0) :
    (prepared table row database = (setRowId table (takeId table database).1 row, (takeId table database).2) ∧
      rowKey table (prepared table row database).1 = .id (takeId table database).1) ∨
    (prepared table row database = (row, database) ∧ ∀ id, rowKey table row ≠ .id id) := by
  cases has : rowId table row with
  | some id =>
    have zero := unnumbered id has ▸ has
    have taken := @prepared_new database table row zero
    refine .inl ⟨taken, ?_⟩
    rw [taken]
    exact rowKey_eq_id.mpr (rowId_setRowId (by rw [has]; rfl) _)
  | none =>
    refine .inr ⟨?_, fun id same => ?_⟩
    · unfold prepared
      rw [has]
    · rw [rowKey_eq_id.mp same] at has
      cases has

def afterInsert (table : EntityTable) (row : Row table) (database : Database) : Database :=
  { (prepared table row database).2 with records := withRow table (prepared table row database).1 (prepared table row database).2.records }

theorem afterInsert_rows (row) : (afterInsert table row database).rows = database.rows.put table (prepared table row database).1 := by
  have taken := rows_of_same fun other key => prepared_lookup table row database (by simp)
  rw [← taken]
  exact rows_withRow _ rfl

theorem afterInsert_counter (row) (other) :
    (afterInsert table row database).records.lookup (.counter other) = (prepared table row database).2.records.lookup (.counter other) :=
  AList.lookup_insert_ne (by simp)

/-- The table of a new row. -/
theorem IdsAhead.inserted (ahead : IdsAhead database table) (unnumbered : ∀ id, rowId table row = some id → id = 0) :
    IdsAhead (afterInsert table row database) table := by
  have counter := @afterInsert_counter database table row table
  rcases @prepared_cases database table row unnumbered with ⟨taken, key⟩ | ⟨same, unkeyed⟩
  · obtain ⟨rises, blocks⟩ := takeId_rises ahead.blocks
    have held : (afterInsert table row database).idBlocks table = (takeId table database).2.idBlocks table := by rw [afterInsert, taken]
    have next := takeId_congr held (counter.trans (by rw [taken]))
    refine ⟨fun id found here => ?_, fun block is left => ?_⟩
    · rw [next]
      rw [afterInsert_rows] at here
      rcases TableRows.put_cases here with ⟨same, _⟩ | ⟨_, was⟩
      · rw [key] at same
        exact RowKey.id.inj same ▸ rises
      · exact lt_trans (ahead.below id found was) rises
    · have bound := blocks block (held ▸ is) left
      unfold counterOf at bound ⊢
      rw [counter, taken]
      exact bound
  · refine ahead.frame (by rw [afterInsert, same]) (counter.trans (by rw [same])) fun id found here => ?_
    rw [afterInsert_rows, same] at here
    rcases TableRows.put_cases here with ⟨is, _⟩ | ⟨_, was⟩
    · exact (unkeyed id is.symm).elim
    · rw [was]
      rfl

theorem IdsAhead.insertedBeside (ahead : IdsAhead database other) (different : other ≠ table)
    (unnumbered : ∀ id, rowId table row = some id → id = 0) : IdsAhead (afterInsert table row database) other := by
  have counter := @afterInsert_counter database table row other
  have kept : (prepared table row database).2.idBlocks other = database.idBlocks other ∧
      (prepared table row database).2.records.lookup (.counter other) = database.records.lookup (.counter other) := by
    rcases @prepared_cases database table row unnumbered with ⟨taken, _⟩ | ⟨same, _⟩
    · rw [taken]
      exact takeId_other different
    · rw [same]
      exact ⟨rfl, rfl⟩
  refine ahead.frame kept.1 (counter.trans kept.2) fun id found here => ?_
  rw [afterInsert_rows, TableRows.put_other different] at here
  rw [here]
  rfl

theorem SoundStorage.inserted (sound : SoundStorage database) (unnumbered : ∀ id, rowId table row = some id → id = 0) :
    SoundStorage (afterInsert table row database) where
  owned := by
    apply withRow_owned
    have same : SameRows database.records (prepared table row database).2.records := fun other key => prepared_lookup table row database (by simp)
    exact same.owned sound.owned
  keyed := by
    intro outputId record found
    have same : (afterInsert table row database).records.lookup (.outputPrimary outputId) = database.records.lookup (.outputPrimary outputId) :=
      withRow_prepared_ne table row database (by simp) (by simp)
    exact sound.keyed outputId record (same.symm.trans found)
  ahead other := by
    by_cases same : other = table
    · subst same
      exact (sound.ahead other).inserted unnumbered
    · exact (sound.ahead other).insertedBeside same unnumbered

theorem rowsOwned_of_rows (owned : database.rows.Owned) : RowsOwned database.records := by
  intro table key row stored
  exact owned table key row.value (rows_iff.mpr ⟨row, stored, rfl⟩)

theorem SoundStorage.kept (sound : SoundStorage database) {program : RocksDbM α} (uses : program.Uses KeyedOp)
    (owned : (program.run (exec hash) database).2.rows.Owned)
    (inside : ∀ table id row, (program.run (exec hash) database).2.rows table (.id id) = some row → (database.rows table (.id id)).isSome = true) :
    SoundStorage (program.run (exec hash) database).2 where
  owned := rowsOwned_of_rows owned
  keyed := Program.run_preserves (exec hash) (fun op store allowed keyed => KeyedOp.keeps op store allowed keyed) uses sound.keyed
  ahead table := by
    obtain ⟨blocks, counters⟩ := @sameIds_of_uses hash _ _ (uses.mono fun _ => KeyedOp.leavesIds) database
    exact (sound.ahead table).frame (by rw [blocks]) (counters table) (inside table)

def Ordinary (hash : ScriptHash) : StorageCall → Prop
  | .insert table row => ∀ id, rowId table row = some id → id = 0
  | .update table _ changes => ∀ row, rowKey table (updatedRow hash table changes row) = rowKey table row
  | .find _ _ | .allocateChangeInput _ _ _ _ _ _ => True

theorem fileOutput_uses (output) : (fileOutput hash output).Uses KeyedOp := by
  refine ((transactionStatusForOutput_uses output).mono fun _ => .read).bind fun status => ?_
  exact ((RocksDbWalletStore.putOutput_uses hash output status).mono fun _ => .output).bind fun _ => trivial

theorem insert_sound (sound : SoundStorage database) {row : Row table} (ordinary : Ordinary hash (.insert table row)) :
    SoundStorage (callAlone hash (.insert table row) database).2 := by
  cases table with
  | outputs =>
    have unnumbered : ∀ id, rowId .outputs (applyOutputScriptMetadata hash row) = some id → id = 0 := by
      intro id has
      apply ordinary id
      rw [← has]
      exact congrArg some (applyOutputScriptMetadata_outputId hash row).symm
    have filed : (insertOutput hash row).Ends (exec hash) database fun _ after => SoundStorage after := by
      have inserted := sound.inserted unnumbered
      apply Program.Ends.bind
      unfold Program.Ends
      rw [insertEntity_run]
      show SoundStorage ((fileOutput hash (prepared .outputs (applyOutputScriptMetadata hash row) database).1).run (exec hash)
        (afterInsert .outputs (applyOutputScriptMetadata hash row) database)).2
      have rows := (@fileOutput_after hash (afterInsert .outputs (applyOutputScriptMetadata hash row) database)
        (prepared .outputs (applyOutputScriptMetadata hash row) database).1).2
      refine inserted.kept (fileOutput_uses _) ?_ fun other id found here => ?_
      · rw [rows]
        exact inserted.owned.rows
      · rw [rows] at here
        exact Option.isSome_iff_exists.mpr ⟨found, here⟩
    have whole : (insertRow hash .outputs row).Ends (exec hash) database fun _ after => SoundStorage after := by
      refine Program.Ends.bind (filed.mono fun outcome after sound => ?_)
      cases outcome with
      | ok _ => exact sound
      | error _ => exact sound
    exact whole
  | _ =>
    have ran := insertEntity_run hash _ row database
    have same : (callAlone hash (.insert _ row) database).2 = _ := congrArg Prod.snd ran
    rw [same]
    exact sound.inserted ordinary

theorem updateByKey_keyed (key) (spread : Row table → Row table) : (updateByKey table key spread).Uses KeyedOp := by
  refine ((getEntity_uses table key).mono fun _ => .read).bind fun existing => ?_
  cases existing with
  | none => trivial
  | some existing => exact ⟨.read trivial, fun _ => ⟨.row table _ _, fun _ => trivial⟩⟩

theorem updateRow_keyed (key : UpdateKey table) (changes) : (updateRow hash table key changes).Uses KeyedOp := by
  cases table with
  | outputs => exact updateOutput_uses changes
  | transactions =>
    have follows (toStatus fromStatus : TransactionStatus) : (reindexOutputsForTransactionStatus key fromStatus toStatus).Uses KeyedOp := by
      refine ((RocksDbWalletStore.findOutputsByTransactionId_uses key).mono fun _ => .read).bind fun outputs => ?_
      exact (reindexOutputs_uses (some fromStatus) (some toStatus) outputs RocksDbWalletStore.indexBatch_uses).mono fun op index => index.keyedOp
    have one : (updateOneTransaction key changes).Uses KeyedOp := by
      refine ((getEntity_uses .transactions (.id key)).mono fun _ => .read).bind fun existing => ?_
      refine (updateByKey_keyed _ _).bind fun count => ?_
      cases existing with
      | none => trivial
      | some existing =>
        cases changes.status with
        | none => trivial
        | some status =>
          dsimp only
          split
          · exact (follows _ _).bind fun _ => trivial
          · trivial
    exact one.bind fun _ => trivial
  | _ => exact updateByKey_keyed _ _

end
end WalletToolbox

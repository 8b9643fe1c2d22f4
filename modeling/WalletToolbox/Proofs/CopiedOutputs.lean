import WalletToolbox.Proofs.SpendableCopies

/-! What each storage call does to the two copies of the spendable outputs. Only an
insert or an update of an output can part them; a reservation writes both. -/

namespace WalletToolbox
open Effects Async StorageRocksDb
open RocksDbWalletStore (batch_run existingDeletes getPrimary putOutput putOutputWrites putOutput_run putOutput_uses write_uses)

def Filable (output : TableOutput) : Prop := output.outputId ≠ 0 ∧ Encodable output

section
variable {hash : ScriptHash} {database : Database} {output : TableOutput}

theorem putOutput_succeeds (filable : Filable (applyOutputScriptMetadata hash output))
    (replaced : ∀ old, database.records.primary output.outputId = some old → Encodable old.value) :
    ((putOutput hash output status).run (exec hash) database).1 = .ok () := by
  obtain ⟨positive, encodable⟩ := filable
  obtain ⟨number, padded⟩ := (encodable_padded encodable).1
  rw [applyOutputScriptMetadata_outputId] at positive padded
  have read : (getPrimary output.outputId).run (exec hash) database =
      (.ok (database.records.primary output.outputId), database) := by
    unfold getPrimary
    rw [padded, padNumber_natCast padded]
    rfl
  have puts := indexPutsForOutput_ok.mpr ⟨_, encodable status, rfl⟩
  have deletes : ∃ deletes, existingDeletes status (database.records.primary output.outputId) = .ok deletes := by
    cases found : database.records.primary output.outputId with
    | none => exact ⟨[], rfl⟩
    | some old => exact ⟨_, indexDeletesForOutput_ok.mpr ⟨_, replaced old found status, rfl⟩⟩
  obtain ⟨deletes, deleted⟩ := deletes
  unfold putOutput
  rw [if_neg positive, Program.run_bind, read]
  dsimp only
  rw [putOutputWrites, deleted, puts]
  show ((RocksDbWalletStore.batch _).run (exec hash) database).1 = _
  rw [batch_run]

theorem transactionStatusForOutput_total (output) :
    ∃ status, (transactionStatusForOutput output).run (exec hash) database = (.ok status, database) := by
  unfold transactionStatusForOutput findTransactions findEntities getEntity RocksDbWalletStore.get
  simp only [Program.run_bind, Program.run_await, Program.run_done, bind_assoc, exec, db]
  cases found : database.records.row .transactions (.id output.transactionId) with
  | none => exact ⟨none, by simp [found, verifyOneOrNone]⟩
  | some row =>
    by_cases same : matchesTransactionPartial row.value { transactionId := some output.transactionId } = true
    · exact ⟨some row.value.status, by simp [found, same, verifyOneOrNone, Option.filter]⟩
    · exact ⟨none, by simp [found, same, verifyOneOrNone, Option.filter]⟩

theorem fileOutput_copies (copies : SpendableCopies {output.outputId} database.records) (value : α)
    (shown : Filable (applyOutputScriptMetadata hash output) →
      spendableCopy (database.records.outputRow output.outputId) = spendableCopy (some (applyOutputScriptMetadata hash output)))
    (filed : Filable (applyOutputScriptMetadata hash output) ∨
      spendableCopy (database.records.outputRow output.outputId) = spendableCopy (database.records.output output.outputId)) :
    (transactionStatusForOutput output >>= fun status => putOutput hash output status >>= fun _ => pure value).Ends
      (exec hash) database fun _ after => SpendableCopies ∅ after.records := by
  obtain ⟨status, read⟩ := @transactionStatusForOutput_total hash database output
  unfold Program.Ends
  rw [Program.run_bind, read]
  have put : (putOutput hash output status).Ends (exec hash) database
      fun _ after => SpendableCopies ∅ after.records := by
    have rows := @sameRows_of_uses hash _ _ ((putOutput_uses hash output status).mono fun _ => OutputWriteOp.leavesRows) database
    unfold Program.Ends
    rcases @putOutput_run hash output status database with ⟨unchanged, failed⟩ | ⟨done, stored⟩
    · rw [unchanged]
      have agrees := filed.resolve_left fun filable =>
        failed (putOutput_succeeds filable fun old found => copies.indexes.encodable _ old found)
      exact copies.settle fun outputId same => by rw [Set.mem_singleton_iff.mp same]; exact agrees
    · have same := applyOutputScriptMetadata_outputId hash output
      have filable : Filable (applyOutputScriptMetadata hash output) := by
        refine ⟨fun zero => ?_, stored.encodable⟩
        unfold putOutput at done
        rw [if_pos (same.symm.trans zero)] at done
        cases done
      apply stored.spendableCopies (same.symm ▸ copies) fun key _ => rows .outputs key
      · intro row found
        exact RowKey.id.inj (copies.owned _ row (rows .outputs _ ▸ found))
      · rw [Records.outputRow, rows .outputs, same]
        exact shown filable
  exact put.returns fun _ => value

structure RefilesCopy (hash : ScriptHash) (database : Database) (row : TableOutput) : Prop where
  hashed : ∀ output, ((validateOutputScript row).run (exec hash) database).1 = .ok output →
    Filable (applyOutputScriptMetadata hash output) → row.spendable = true →
    (applyOutputScriptMetadata hash output).scriptHash = row.scriptHash
  filed : (∃ output, ((validateOutputScript row).run (exec hash) database).1 = .ok output ∧
      Filable (applyOutputScriptMetadata hash output)) ∨
    spendableCopy (some row) = spendableCopy (database.records.output row.outputId)

def KeepsCopies (hash : ScriptHash) (database : Database) : StorageCall → Prop
  | .insert .outputs output =>
    let row : TableOutput := (prepared .outputs (applyOutputScriptMetadata hash output) database).1
    Filable row ∨ spendableCopy (some row) = spendableCopy (database.records.output row.outputId)
  | .update .outputs id update => ∀ existing, database.records.outputRow id = some existing →
    let row := (update.applyScriptMetadata hash).spread existing
    let written : Database := { database with records := withRow .outputs row database.records }
    (row.outputId ≠ id → spendableCopy (some row) = spendableCopy (database.records.output row.outputId)) ∧
      ∀ back, written.records.outputRow id = some back → RefilesCopy hash written back
  | _ => True

theorem spendableCopy_metadata (same : row.spendable = true → (applyOutputScriptMetadata hash output).scriptHash = row.scriptHash)
    (refilled : ∃ lockingScript, output = { row with lockingScript }) :
    spendableCopy (some row) = spendableCopy (some (applyOutputScriptMetadata hash output)) := by
  obtain ⟨lockingScript, rfl⟩ := refilled
  obtain ⟨scriptHash, shape⟩ := applyOutputScriptMetadata_eq hash { row with lockingScript }
  rw [shape] at same ⊢
  by_cases spendable : row.spendable = true
  · rw [spendableCopy_spendable spendable, spendableCopy_spendable (by exact spendable)]
    exact congrArg (fun scriptHash => some { row with lockingScript := none, scriptHash }) (same spendable).symm
  · have spent := Bool.eq_false_iff.mpr spendable
    rw [spendableCopy_spent spent, spendableCopy_spent (by exact spent)]

theorem withRow_outputRow (row) (records) :
    Records.outputRow (withRow .outputs row records) row.outputId = some row := by
  have stored := withRow_row .outputs row records
  exact congrArg (Option.map Versioned.value) stored

theorem prepared_copies (copies : SpendableCopies exempt database.records) (table) (entity) :
    SpendableCopies exempt (prepared table entity database).2.records :=
  copies.frame (fun _ => prepared_lookup table entity database (by simp)) (fun _ => prepared_lookup table entity database (by simp))
    fun _ _ => prepared_lookup table entity database (by simp)

theorem prepared_metadata : applyOutputScriptMetadata hash (prepared .outputs (applyOutputScriptMetadata hash output) database).1 =
    (prepared .outputs (applyOutputScriptMetadata hash output) database).1 := by
  have same (outputId : Nat) : applyOutputScriptMetadata hash { applyOutputScriptMetadata hash output with outputId } =
      { applyOutputScriptMetadata hash output with outputId } := by
    cases script : output.lockingScript with
    | none => simp [applyOutputScriptMetadata, script]
    | some bytes =>
      cases bytes with
      | nil => simp [applyOutputScriptMetadata, script]
      | cons first rest => simp [applyOutputScriptMetadata, script]
  unfold prepared
  split
  · exact same _
  · exact same (applyOutputScriptMetadata hash output).outputId

theorem insertOutput_copies (copies : SpendableCopies ∅ database.records) (keeps : KeepsCopies hash database (.insert .outputs output)) :
    (insertOutput hash output).Ends (exec hash) database fun _ after => SpendableCopies ∅ after.records := by
  apply Program.Ends.bind
  unfold Program.Ends
  rw [insertEntity_run]
  let row : TableOutput := (prepared .outputs (applyOutputScriptMetadata hash output) database).1
  have metadata : applyOutputScriptMetadata hash row = row := prepared_metadata
  have written := (prepared_copies copies .outputs (applyOutputScriptMetadata hash output)).withRow row
  rw [insert_empty_eq] at written
  have shown := withRow_outputRow row (prepared .outputs (applyOutputScriptMetadata hash output) database).2.records
  obtain ⟨primary, -⟩ := withRow_outputs .outputs row (prepared .outputs (applyOutputScriptMetadata hash output) database).2.records
  refine fileOutput_copies written row.outputId ?_ ?_
  · intro _
    rw [metadata]
    exact congrArg spendableCopy shown
  · rw [metadata]
    refine keeps.imp_right fun same => ?_
    have record : Records.output (withRow .outputs row (prepared .outputs (applyOutputScriptMetadata hash output) database).2.records)
        row.outputId = database.records.output row.outputId := by
      rw [Records.output, Records.output, primary]
      exact congrArg (Option.map Versioned.value) (prepared_lookup .outputs _ database (by simp))
    exact (congrArg spendableCopy shown).trans (same.trans (congrArg spendableCopy record.symm))

theorem reindexUpdated_copies {id} (copies : SpendableCopies {id} database.records) (updated : Nat) {back}
    (found : database.records.outputRow id = some back) (refiles : RefilesCopy hash database back) :
    (reindexUpdated hash id updated).Ends (exec hash) database fun _ after => SpendableCopies ∅ after.records := by
  obtain ⟨row, stored, rfl⟩ := Option.map_eq_some_iff.mp found
  have own := RowKey.id.inj (copies.owned _ row stored)
  have accepted : matchesOutputPartial row.value { outputId := some id } = true := by simp [matchesOutputPartial, own]
  have agrees (same : spendableCopy (some row.value) = spendableCopy (database.records.output row.value.outputId)) :
      SpendableCopies ∅ database.records := by
    apply copies.settle
    intro outputId one
    rw [Set.mem_singleton_iff.mp one, found, same, own]
  unfold reindexUpdated
  show (storeRow hash updated (((database.records.row .outputs (.id id)).map Versioned.value).filter
    (matchesOutputPartial · { outputId := some id }))).Ends (exec hash) database fun _ after => SpendableCopies ∅ after.records
  rw [stored, Option.map_some, Option.filter_some, if_pos accepted]
  show (validateOutputScript row.value >>= fun output => _).Ends (exec hash) database fun _ after => SpendableCopies ∅ after.records
  have unchanged := Program.run_unchanged (exec hash) (validateOutputScript_uses row.value) Reads.unchanged database
  rcases read : (validateOutputScript row.value).run (exec hash) database with ⟨outcome, after⟩
  obtain rfl : after = database := by rw [← unchanged, read]
  unfold Program.Ends
  rw [Program.run_bind, read]
  have refiled := refiles.filed
  have hashed := refiles.hashed
  rw [read] at refiled hashed
  cases outcome with
  | error error =>
    apply agrees
    apply refiled.resolve_left
    rintro ⟨output, done, -⟩
    cases done
  | ok output =>
    obtain ⟨lockingScript, shape⟩ := (validateOutputScript_settles [] row.value).run after output (congrArg Prod.fst read)
    have sameId : output.outputId = id := by rw [shape]; exact own
    refine fileOutput_copies (sameId.symm ▸ copies) updated ?_ ?_
    · intro filable
      rw [sameId, found]
      exact spendableCopy_metadata (hashed output rfl filable) ⟨lockingScript, shape⟩
    · rw [sameId, found]
      refine refiled.imp ?_ fun same => own ▸ same
      rintro ⟨other, done, filable⟩
      cases done
      exact filable

theorem updateOutput_copies {id update} (copies : SpendableCopies ∅ database.records)
    (keeps : KeepsCopies hash database (.update .outputs id update)) :
    (updateOutput hash id update).Ends (exec hash) database fun _ after => SpendableCopies ∅ after.records := by
  cases found : database.records.row .outputs (.id id) with
  | none =>
    unfold Program.Ends
    rw [updateOutput_absent database update found]
    exact copies
  | some existing =>
    let row := (update.applyScriptMetadata hash).spread existing.value
    let written : Database := { database with records := withRow .outputs row database.records }
    have stored : database.records.outputRow id = some existing.value := by rw [Records.outputRow, found]; rfl
    obtain ⟨moved, reads⟩ := keeps existing.value stored
    have parted := copies.withRow row
    rw [insert_empty_eq] at parted
    have shown := withRow_outputRow row database.records
    obtain ⟨primary, -⟩ := withRow_outputs .outputs row database.records
    have record (outputId : Nat) : Records.output (withRow .outputs row database.records) outputId = database.records.output outputId := by
      rw [Records.output, Records.output, primary]
    rw [updateOutput_eq]
    show (storeUpdated hash id update ((database.records.row .outputs (.id id)).map Versioned.value)).Ends (exec hash) database
      fun _ after => SpendableCopies ∅ after.records
    rw [found]
    show (reindexUpdated hash id 1).Ends (exec hash) written fun _ after => SpendableCopies ∅ after.records
    by_cases here : row.outputId = id
    · rw [here] at parted shown
      exact reindexUpdated_copies parted 1 shown (reads row shown)
    · have kept := @withRow_other .outputs .outputs row database.records _ fun both => here (RowKey.id.inj both.2).symm
      have back : written.records.outputRow id = some existing.value := by
        rw [Records.outputRow, kept, found]
        rfl
      have settled : SpendableCopies ∅ written.records := by
        apply parted.settle
        intro outputId one
        rw [Set.mem_singleton_iff.mp one, shown, record]
        exact moved here
      exact reindexUpdated_copies (settled.exempting (Set.empty_subset _)) 1 back (reads _ back)

/-- A reservation that is committed leaves both copies spent. -/
theorem reserve_copies (copies : SpendableCopies ∅ database.records) (reservation) :
    SpendableCopies ∅ (exec hash (.reserve reservation) database).2.records := by
  have keyed := copies.indexes.keyed
  rcases reserve_cases hash reservation database with ⟨primary, entity, deletes, puts, found, -, -, deleted, filled, result⟩ | ⟨reply, -, result⟩
  · have own : (reservation.next hash primary.value).outputId = reservation.output.value.outputId := by
      rw [Reservation.next_outputId, keyed _ _ found]
    have putsIndex : ∀ write ∈ puts, ∃ key, write.key = .index key := fun _ => indexPuts_key filled
    have row : (exec hash (.reserve reservation) database).2.records.row .outputs (.id (reservation.next hash primary.value).outputId) =
        some (encode (reservation.next hash primary.value) (some entity)) := by
      rw [result, own]
      exact Reservation.commit_row putsIndex
    rcases reserve_stored hash reservation database keyed with ⟨-, nothing⟩ | ⟨other, held, -, stored⟩
    · exact (nothing _ (congrArg Prod.fst result)).elim
    · cases found.symm.trans held
      apply stored.spendableCopies (copies.exempting (Set.empty_subset _))
      · intro key other
        rw [result]
        refine Reservation.commit_other (fun _ => indexDeletes_key deleted) putsIndex (by simp) (by simp) fun same => other ?_
        rw [own]
        injection same
      · intro stored same
        cases row.symm.trans same
        rfl
      · rw [Records.outputRow, row]
        rfl
  · rw [result]
    exact copies

theorem allocateChangeInput_copies (copies : SpendableCopies ∅ database.records) (args : AllocateArgs) :
    args.program.Ends (exec hash) database fun _ after => SpendableCopies ∅ after.records := by
  have step : ∀ op store, AllocatorOp args.transactionId op → SpendableCopies ∅ store.records → SpendableCopies ∅ (exec hash op store).2.records := by
    intro op store allocates held
    have either : Reads op ∨ ∃ reservation, op = .reserve reservation := by
      cases op <;> first | exact .inl allocates | exact .inr ⟨_, rfl⟩
    rcases either with reads | ⟨reservation, rfl⟩
    · rw [reads.exec_eq]
      exact held
    · exact reserve_copies held reservation
  have whole := Program.run_preserves (exec hash) step (allocateChangeInput_uses args) copies
  exact whole

end

section
variable {table : EntityTable} (other : table ≠ .outputs)
include other

theorem putEntity_leavesCopies (row) : (putEntity table row).Uses LeavesCopies :=
  write_uses (fun _ => Reads.leavesCopies _) (.put (.entity table (rowKey table row)) row)
    fun _ => leavesCopies_putRow other _ _

theorem insertEntity_leavesCopies (entity) : (insertEntity table entity).Uses LeavesCopies := by
  refine Program.Uses.bind ?_ fun prepared => (putEntity_leavesCopies other prepared).bind fun _ => trivial
  unfold prepareInsert
  split
  · exact ⟨leavesCopies_nextId table, fun _ => trivial⟩
  · trivial

theorem updateByKey_leavesCopies (key) (spread : Row table → Row table) : (updateByKey table key spread).Uses LeavesCopies := by
  refine ((getEntity_uses table key).mono Reads.leavesCopies).bind fun existing => ?_
  cases existing with
  | none => trivial
  | some existing => exact (putEntity_leavesCopies other (spread existing)).bind fun _ => trivial

end

theorem batch_leavesCopies (others : ∀ entry ∈ writes, ∃ key, entry.key = .index key ∧ ¬ScannedKey key) :
    (RocksDbWalletStore.batch writes).Uses LeavesCopies := by
  induction writes with
  | nil => trivial
  | cons entry rest ih =>
    refine (write_uses Reads.leavesCopies entry ?_).bind fun _ => ih fun other member => others other (.tail _ member)
    obtain ⟨key, same, unscanned⟩ := others entry (.head _)
    cases entry with
    | put target value =>
      cases same
      exact fun version => (leavesCopies_index unscanned).2 ⟨value, version⟩
    | delete target =>
      cases same
      exact (leavesCopies_index unscanned).1

theorem statusIndexKeys_unscanned
    (built : statusIndexKeys output status = .ok keys) : ∀ key ∈ keys, ¬ScannedKey key := by
  unfold statusIndexKeys at built
  split at built
  · obtain ⟨key, made, same⟩ := bind_eq_ok.mp built
    obtain ⟨userId, -, made⟩ := bind_eq_ok.mp made
    obtain ⟨basketId, -, made⟩ := bind_eq_ok.mp made
    obtain ⟨text, -, made⟩ := bind_eq_ok.mp made
    obtain ⟨satoshis, -, made⟩ := bind_eq_ok.mp made
    obtain ⟨outputId, -, made⟩ := bind_eq_ok.mp made
    cases made
    cases same
    intro key member
    rw [List.mem_singleton.mp member]
    exact id
  · cases built
    intro key member
    cases member

theorem reindexOutputs_leavesCopies (fromStatus toStatus) (outputs) :
    (reindexOutputs fromStatus toStatus outputs).Uses LeavesCopies := by
  induction outputs with
  | nil => trivial
  | cons output rest ih =>
    refine Program.Uses.bind ?_ fun _ => ih
    refine Program.Uses.ofExcept_bind fun deletes deleted => Program.Uses.ofExcept_bind fun puts filled => ?_
    obtain ⟨deleteKeys, builtDeletes, same⟩ := bind_eq_ok.mp deleted
    cases same
    obtain ⟨putKeys, builtPuts, same⟩ := bind_eq_ok.mp filled
    cases same
    apply batch_leavesCopies
    intro entry member
    rcases List.mem_append.mp member with member | member
    · obtain ⟨key, listed, rfl⟩ := List.mem_map.mp member
      exact ⟨key, rfl, statusIndexKeys_unscanned builtDeletes key listed⟩
    · obtain ⟨key, listed, rfl⟩ := List.mem_map.mp member
      exact ⟨key, rfl, statusIndexKeys_unscanned builtPuts key listed⟩

theorem updateOneTransaction_leavesCopies (id : Nat) (update) : (updateOneTransaction id update).Uses LeavesCopies := by
  have reads := (getEntity_uses .transactions (.id id)).mono Reads.leavesCopies
  refine reads.bind fun existing => (@updateByKey_leavesCopies .transactions (by simp) (.id id) update.spread).bind fun count => ?_
  dsimp only
  split
  · split
    · refine Program.Uses.bind ?_ fun _ => trivial
      refine ((RocksDbWalletStore.findOutputsByTransactionId_uses id).mono Reads.leavesCopies).bind fun outputs => ?_
      exact reindexOutputs_leavesCopies _ _ outputs
    · trivial
  · trivial

section
variable {hash : ScriptHash} {database : Database}

theorem spendableCopies_empty : SpendableCopies ∅ Database.empty.records where
  owned := fun key row found => by cases found
  indexes :=
    { keyed := fun outputId record found => by cases found
      encodable := fun outputId record found => by cases found
      owned := fun key record _ found => by cases found
      exact := fun key owner _ _ => ⟨fun present => (Bool.false_ne_true present).elim, fun ⟨_, found, _⟩ => by cases found⟩ }
  agree := fun outputId _ => rfl

theorem KeepsCopies.copies (keeps : KeepsCopies hash database call) (copies : SpendableCopies ∅ database.records) :
    SpendableCopies ∅ (callAlone hash call database).2.records := by
  cases call with
  | insert table row =>
    cases table with
    | outputs => exact (insertOutput_copies copies keeps).returns fun outputId => { applyOutputScriptMetadata hash row with outputId }
    | _ => exact copies_of_uses (insertEntity_leavesCopies (by simp) row) copies
  | update table key changes =>
    cases table with
    | outputs => exact updateOutput_copies copies keeps
    | transactions => exact copies_of_uses ((updateOneTransaction_leavesCopies key changes).bind fun _ => trivial) copies
    | _ => exact copies_of_uses (updateByKey_leavesCopies (by simp) _ _) copies
  | find table args =>
    rw [callAlone_find]
    exact copies
  | allocateChangeInput userId basketId targetSatoshis exactSatoshis excludeSending transactionId =>
    exact allocateChangeInput_copies copies ⟨userId, basketId, targetSatoshis, exactSatoshis, excludeSending, transactionId⟩

end
end WalletToolbox

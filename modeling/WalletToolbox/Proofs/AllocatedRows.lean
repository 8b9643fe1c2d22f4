import WalletToolbox.Proofs.IdsAhead

/-! What an allocation leaves of the rows. It takes one spendable output, whose row then
shows it spent by the transaction, or it changes nothing. -/

namespace WalletToolbox
open Async StorageRocksDb Reservation TableRows

def TakenOrKept (transactionId : Nat) (before after : Database) (outputId : Nat) : Prop :=
  (after.records.primary outputId = before.records.primary outputId ∧ after.rows .outputs (.id outputId) = before.rows .outputs (.id outputId)) ∨
    ∃ primary old next, before.records.primary outputId = some primary ∧ before.rows .outputs (.id outputId) = some old ∧
      primary.value.spendable = true ∧ old.spendable = true ∧ next.spendable = false ∧ next.spentBy = some transactionId ∧ next.outputId = outputId ∧
      (∃ version, after.records.primary outputId = some ⟨next, version⟩) ∧ after.rows .outputs (.id outputId) = some next

structure LeavesAllocated (transactionId : Nat) (before after : Database) : Prop where
  keyed : Keyed after.records
  outputs : ∀ outputId, TakenOrKept transactionId before after outputId
  others : ∀ table key, (∀ outputId : Nat, ¬ (table = .outputs ∧ key = .id outputId)) → after.rows table key = before.rows table key

section
variable {hash : ScriptHash} {database middle : Database} {transactionId : Nat}

/-- An operation of an allocator. -/
theorem LeavesAllocated.step (leaves : LeavesAllocated transactionId database middle) (op : DbOp) (allowed : AllocatorOp transactionId op) :
    LeavesAllocated transactionId database (exec hash op middle).2 := by
  have either : Reads op ∨ ∃ reservation, op = .reserve reservation := by
    cases op <;> first | exact .inl allowed | exact .inr ⟨_, rfl⟩
  rcases either with reads | ⟨reservation, rfl⟩
  · rw [reads.exec_eq]
    exact leaves
  · obtain rfl : reservation.transactionId = transactionId := allowed
    rcases reserve_cases hash reservation middle with ⟨primary, entity, deletes, puts, found, row, fits, deleted, filled, result⟩ | ⟨reply, -, result⟩
    · have keyed := @KeyedOp.keeps hash _ middle (.reserve reservation) leaves.keyed
      have own : (reservation.next hash primary.value).outputId = reservation.output.value.outputId := by
        rw [next_outputId, leaves.keyed _ _ found]
      have putsIndex : ∀ write ∈ puts, ∃ key, write.key = .index key := fun _ => indexPuts_key filled
      have deletesIndex : ∀ write ∈ deletes, ∃ key, write.key = .index key := fun _ => indexDeletes_key deleted
      have kept (key : StorageKey) (notIndex : ∀ indexKey, key ≠ .index indexKey) (notPrimary : key ≠ .outputPrimary reservation.output.value.outputId)
          (notRow : key ≠ .entity .outputs (.id reservation.output.value.outputId)) :
          (reservation.commit (reservation.next hash primary.value) primary entity deletes puts middle.records).lookup key = middle.records.lookup key :=
        commit_other deletesIndex putsIndex notIndex notPrimary notRow
      rw [result] at keyed ⊢
      refine ⟨keyed, fun outputId => ?_, fun table key other => ?_⟩
      · by_cases here : outputId = reservation.output.value.outputId
        · subst here
          have now := rows_iff.mpr ⟨entity, row, rfl⟩
          rcases leaves.outputs reservation.output.value.outputId with ⟨kept, same⟩ | ⟨_, _, next, _, _, _, _, taken, _, _, ⟨_, holds⟩, _⟩
          · refine .inr ⟨primary, entity.value, reservation.next hash primary.value, kept ▸ found, same ▸ now, fits.2.2.2.2.1, fits.2.2.2.2.2,
              next_spendable .., next_spentBy .., own, ⟨_, commit_primary putsIndex⟩, ?_⟩
            exact rows_iff.mpr ⟨_, commit_row putsIndex, rfl⟩
          · cases found.symm.trans holds
            rw [fits.2.2.2.2.1] at taken
            cases taken
        · have primarySame := kept (.outputPrimary outputId) (by simp) (by simpa using here) (by simp)
          have rowSame := kept (.entity .outputs (.id outputId)) (by simp) (by simp) (by simpa using here)
          rcases leaves.outputs outputId with ⟨same, rows⟩ | ⟨before, old, next, was, stood, free, spendable, taken, spentBy, named, held, shown⟩
          · exact .inl ⟨primarySame.trans same, (congrArg (Option.map Versioned.value) rowSame).trans rows⟩
          · exact .inr ⟨before, old, next, was, stood, free, spendable, taken, spentBy, named, held.imp fun _ is => primarySame.trans is,
              (congrArg (Option.map Versioned.value) rowSame).trans shown⟩
      · rw [← leaves.others table key other]
        refine congrArg (Option.map Versioned.value) (kept (.entity table key) (by simp) (by simp) fun same => ?_)
        cases same
        exact other _ ⟨rfl, rfl⟩
    · rw [result]
      exact leaves

theorem leavesAllocated_refl (keyed : Keyed database.records) : LeavesAllocated transactionId database database :=
  ⟨keyed, fun _ => .inl ⟨rfl, rfl⟩, fun _ _ _ => rfl⟩

theorem allocate_leaves (keyed : Keyed database.records) (args : AllocateArgs) :
    LeavesAllocated args.transactionId database (args.program.run (exec hash) database).2 :=
  Program.run_preserves (exec hash) (fun op _ allowed leaves => leaves.step op allowed) (allocateChangeInput_uses args) (leavesAllocated_refl keyed)

theorem allocateByMode_reserves (keyed : Keyed database.records) (args : AllocateArgs) (mode : SpendableValueReservationMode) (satoshis : Int)
    (accepts : TableOutput → Bool) : ReservesOne hash database (fun output _ => output.spendable = true)
      (allocateByMode args.userId args.basketId args.excludeSending args.transactionId mode satoshis accepts) := by
  exact RocksDbWalletStore.reserveByStatusAndValue_offers (offers_uses _ accepts) mode satoshis keyed _ fun _ _ _ _ _ _ _ eligible => eligible.spendable

structure Allocated (transactionId : Nat) (rows : TableRows) (next : TableOutput) : Prop where
  stood : ∃ old, rows .outputs (.id next.outputId) = some old ∧ old.spendable = true
  spent : next.spendable = false
  spentBy : next.spentBy = some transactionId

structure TakesRecord (before after : Database) (next : TableOutput) : Prop where
  primary : ∃ version, after.records.primary next.outputId = some ⟨next, version⟩
  spent : next.spendable = false
  free : ∃ record, before.records.primary next.outputId = some record ∧ record.value.spendable = true
  others : ∀ outputId, outputId ≠ next.outputId → after.records.primary outputId = before.records.primary outputId

theorem allocate_ends (keyed : Keyed database.records) (args : AllocateArgs) : args.program.Ends (exec hash) database fun outcome after =>
    (after.rows = database.rows ∧ ∀ output, outcome ≠ .ok (some output)) ∨
      ∃ next, Allocated args.transactionId database.rows next ∧ after.rows = database.rows.put .outputs next ∧
        ((∃ error, outcome = .error error) ∨ ∃ lockingScript, outcome = .ok (some { next with lockingScript })) := by
  have leaves := @allocate_leaves hash database keyed args
  have first : ReservesOne hash database (fun output _ => output.spendable = true)
      (allocateExactly args.userId args.basketId args.exactSatoshis args.excludeSending args.transactionId) := by
    unfold allocateExactly
    split
    · exact ReservesOne.none
    · exact allocateByMode_reserves keyed args ..
  have reserves := first.firstSome ((allocateByMode_reserves keyed args .over args.targetSatoshis
    fun o => o.satoshis ≥ args.targetSatoshis).firstSome (allocateByMode_reserves keyed args .under args.targetSatoshis
      fun o => o.satoshis < args.targetSatoshis))
  -- what is reserved is handed out once its script is found
  have whole : args.program.Ends (exec hash) database fun outcome after => (after = database ∧ ∀ output, outcome ≠ .ok (some output)) ∨
      ∃ next, TakesRecord database after next ∧ ((∃ error, outcome = .error error) ∨ ∃ lockingScript, outcome = .ok (some { next with lockingScript })) := by
    refine Program.Ends.bind (Program.Ends.mono reserves fun outcome after ends => ?_)
    rcases ends with ⟨rfl, nothing⟩ | ⟨reservation, primary, found, free, rfl, stored⟩
    · match outcome with
      | .error error => exact .inl ⟨rfl, fun _ same => by cases same⟩
      | .ok none => exact .inl ⟨rfl, fun _ same => by cases same⟩
      | .ok (some output) => exact (nothing output rfl).elim
    · have own : (reservation.next hash primary.value).outputId = reservation.output.value.outputId := by
        rw [next_outputId, keyed _ _ found]
      have takes : TakesRecord database after (reservation.next hash primary.value) :=
        ⟨stored.primary, next_spendable .., ⟨primary, own ▸ found, free⟩, stored.others⟩
      refine Program.Ends.bind ?_
      have script := @Program.Settles.run _ _ _ _ (exec hash) _ _ _ (validateOutputScript_settles [] (reservation.next hash primary.value)) after
      unfold Program.Ends
      rw [Program.run_unchanged (exec hash) (validateOutputScript_uses _) Reads.unchanged after]
      cases outcome : ((validateOutputScript (reservation.next hash primary.value)).run (exec hash) after).1 with
      | error error => exact .inr ⟨_, takes, .inl ⟨error, rfl⟩⟩
      | ok validated =>
        obtain ⟨lockingScript, rfl⟩ := script validated outcome
        exact .inr ⟨_, takes, .inr ⟨lockingScript, rfl⟩⟩
  rcases whole with ⟨same, nothing⟩ | ⟨next, takes, handed⟩
  · exact .inl ⟨by rw [same], nothing⟩
  · refine .inr ⟨next, ?_⟩
    obtain ⟨_, here⟩ := takes.primary
    obtain ⟨record, before, spendable⟩ := takes.free
    rcases leaves.outputs next.outputId with ⟨kept, _⟩ | ⟨primary, old, other, _, stood, _, free, spent, spentBy, _, ⟨_, holds⟩, shown⟩
    · rw [here, before] at kept
      cases kept
      rw [takes.spent] at spendable
      cases spendable
    · cases here.symm.trans holds
      refine ⟨⟨⟨old, stood, free⟩, spent, spentBy⟩, ?_, handed⟩
      funext table key
      by_cases tables : table = .outputs
      · subst tables
        by_cases own : key = .id next.outputId
        · rw [own]
          have put := @put_same database.rows .outputs next
          exact shown.trans put.symm
        · rw [put_key own]
          cases key with
          | pair first second => exact leaves.others .outputs _ fun _ both => by cases both.2
          | id outputId =>
            have different : outputId ≠ next.outputId := fun same => own (same ▸ rfl)
            rcases leaves.outputs outputId with ⟨_, same⟩ | ⟨was, _, now, stood, _, free, _, taken, _, _, ⟨_, is⟩, _⟩
            · exact same
            · -- a record that is taken has changed
              rw [takes.others outputId different, stood] at is
              cases is
              rw [taken] at free
              cases free
      · rw [put_other tables]
        exact leaves.others table key fun _ both => tables both.1

theorem allocateChangeInput_after {userId basketId targetSatoshis exactSatoshis excludeSending} (keyed : Keyed database.records) :
    ((callAlone hash (.allocateChangeInput userId basketId targetSatoshis exactSatoshis excludeSending transactionId) database).2.rows = database.rows ∧
      ∀ output, (callAlone hash (.allocateChangeInput userId basketId targetSatoshis exactSatoshis excludeSending transactionId) database).1 ≠ .ok (some output)) ∨
    ∃ next, Allocated transactionId database.rows next ∧
      (callAlone hash (.allocateChangeInput userId basketId targetSatoshis exactSatoshis excludeSending transactionId) database).2.rows =
        database.rows.put .outputs next ∧
      ((∃ error, (callAlone hash (.allocateChangeInput userId basketId targetSatoshis exactSatoshis excludeSending transactionId) database).1 = .error error) ∨
        ∃ lockingScript, (callAlone hash (.allocateChangeInput userId basketId targetSatoshis exactSatoshis excludeSending transactionId) database).1 =
          .ok (some { next with lockingScript })) :=
  allocate_ends keyed ⟨userId, basketId, targetSatoshis, exactSatoshis, excludeSending, transactionId⟩

def AddsNone : StorageCall → Prop
  | .insert _ _ => False
  | .find _ _ | .update _ _ _ | .allocateChangeInput _ _ _ _ _ _ => True

def SameKeys (before after : TableRows) : Prop := ∀ table key, (after table key).isSome = (before table key).isSome

theorem SameKeys.absent (same : SameKeys before after) :
    after table key = none ↔ before table key = none := by
  rw [← Option.not_isSome_iff_eq_none, ← Option.not_isSome_iff_eq_none, same]

theorem sameKeys_put {rows table row} (stands : (rows table (rowKey table row)).isSome = true) :
    SameKeys rows (rows.put table row) := by
  intro other key
  by_cases tables : other = table
  · subst tables
    by_cases same : key = rowKey other row
    · rw [same, put_same, stands]
      rfl
    · rw [put_key same]
  · rw [put_other tables]

theorem AddsNone.sameKeys (none : AddsNone call) (sound : SoundStorage database) (ordinary : Ordinary hash call) :
    SameKeys database.rows (callAlone hash call database).2.rows := by
  cases call with
  | find table args =>
    rw [callAlone_find]
    exact fun _ _ => rfl
  | insert table row => cases none
  | update table key changes =>
    rw [update_rows]
    intro other changed
    by_cases tables : other = table
    · subst tables
      rw [sound.owned.rows.change_same ordinary]
      split
      · next same => rw [same, Option.isSome_map]
      · rfl
    · rw [change_other tables]
  | allocateChangeInput userId basketId targetSatoshis exactSatoshis excludeSending transactionId =>
    rcases @allocateChangeInput_after hash database transactionId userId basketId targetSatoshis exactSatoshis excludeSending sound.keyed with
      ⟨same, _⟩ | ⟨next, allocated, put, _⟩
    · rw [same]
      exact fun _ _ => rfl
    · obtain ⟨old, stood, _⟩ := allocated.stood
      rw [put]
      refine @sameKeys_put database.rows .outputs next ?_
      exact Option.isSome_iff_exists.mpr ⟨old, stood⟩

theorem SoundStorage.call (sound : SoundStorage database) (call : StorageCall) (ordinary : Ordinary hash call) : SoundStorage (callAlone hash call database).2 := by
  have inside (none : AddsNone call) (table : EntityTable) (id : Nat) (row : Row table)
      (here : (callAlone hash call database).2.rows table (.id id) = some row) : (database.rows table (.id id)).isSome = true := by
    rw [← none.sameKeys sound ordinary, here]
    rfl
  cases call with
  | find table args =>
    rw [callAlone_find]
    exact sound
  | insert table row => exact insert_sound sound ordinary
  | update table key changes =>
    refine sound.kept (updateRow_keyed key changes) ?_ (inside trivial)
    show (callAlone hash (.update table key changes) database).2.rows.Owned
    rw [update_rows]
    exact sound.owned.rows.change _ _
  | allocateChangeInput userId basketId targetSatoshis exactSatoshis excludeSending transactionId =>
    have uses := (allocateChangeInput_uses ⟨userId, basketId, targetSatoshis, exactSatoshis, excludeSending, transactionId⟩).mono fun _ => AllocatorOp.keyedOp
    refine sound.kept uses ?_ (inside trivial)
    show (callAlone hash (.allocateChangeInput userId basketId targetSatoshis exactSatoshis excludeSending transactionId) database).2.rows.Owned
    rcases @allocateChangeInput_after hash database transactionId userId basketId targetSatoshis exactSatoshis excludeSending sound.keyed with
      ⟨same, _⟩ | ⟨next, _, put, _⟩
    · rw [same]
      exact sound.owned.rows
    · rw [put]
      exact @TableRows.Owned.put database.rows .outputs sound.owned.rows next

theorem insertedRow_new (sound : SoundStorage database) {table row} (unnumbered : rowId table row = some 0) :
    database.rows table (rowKey table (insertedRow hash database table row)) = none := by
  have fresh : ∀ (other : EntityTable) (entity : Row other), rowId other entity = some 0 →
      database.rows other (rowKey other (prepared other entity database).1) = none := by
    intro other entity has
    have key : rowKey other (prepared other entity database).1 = .id (takeId other database).1 := by
      rw [prepared_new has]
      exact rowKey_eq_id.mpr (rowId_setRowId (by rw [has]; rfl) _)
    rw [key]
    cases found : database.rows other (.id (takeId other database).1) with
    | none => rfl
    | some row => exact absurd ((sound.ahead other).below _ row found) (lt_irrefl _)
  cases table with
  | outputs =>
    refine fresh .outputs (applyOutputScriptMetadata hash row) ?_
    rw [← unnumbered]
    exact congrArg some (applyOutputScriptMetadata_outputId hash row)
  | _ => exact fresh _ row unnumbered

end
end WalletToolbox

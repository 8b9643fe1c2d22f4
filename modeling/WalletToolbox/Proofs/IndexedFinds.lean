import WalletToolbox.Proofs.CopiedOutputs
import WalletToolbox.Proofs.SequentialIndexes
import WalletToolbox.Storage.Finds

/-! A find of spendable outputs goes over the index and reads the primary records; the
full scan reads the rows. Over copies that agree both list the same outputs in the same
order, scripts left out. -/

namespace WalletToolbox
open Effects Async StorageRocksDb List

section
variable {hash : ScriptHash} {database : Database}

theorem filterM_run {accepts : α → RocksDbM Bool} {answers}
    (answered : ∀ value, (accepts value).run (exec hash) database = (.ok (answers value), database)) (values : List α) :
    (values.filterM accepts).run (exec hash) database = (.ok (values.filter answers), database) := by
  have loop (values kept : List α) : (filterAuxM accepts values kept).run (exec hash) database =
      (.ok ((values.filter answers).reverse ++ kept), database) := by
    induction values generalizing kept with
    | nil => rfl
    | cons first rest ih =>
      unfold filterAuxM
      rw [Program.run_bind, answered]
      dsimp only
      rw [ih]
      cases said : answers first <;> simp [said]
  unfold filterM
  rw [Program.run_bind, loop]
  simp

def Records.hasTxStatus (records : Records) (txStatus : List TransactionStatus) (output : TableOutput) : Bool :=
  ((records.row .transactions (.id output.transactionId)).map Versioned.value).any fun tx =>
    matchesTransactionPartial tx { transactionId := some output.transactionId } && (txStatus = [] || tx.status ∈ txStatus)

theorem hasTxStatus_run (txStatus) (output) :
    (StorageRocksDb.hasTxStatus txStatus output).run (exec hash) database = (.ok (database.records.hasTxStatus txStatus output), database) := by
  unfold StorageRocksDb.hasTxStatus findTransactions StorageRocksDb.findEntities getEntity RocksDbWalletStore.get Records.hasTxStatus
  simp only [Program.run_bind, Program.run_await, Program.run_done, bind_assoc, exec, db]
  cases found : database.records.row .transactions (.id output.transactionId) with
  | none => by_cases every : txStatus = [] <;> simp [found, every, verifyOneOrNone]
  | some row =>
    by_cases same : matchesTransactionPartial row.value { transactionId := some output.transactionId } = true
    · by_cases every : txStatus = []
      · simp [found, same, every, verifyOneOrNone, Option.filter]
      · by_cases listed : row.value.status ∈ txStatus
        · simp [found, same, every, listed, verifyOneOrNone, Option.filter]
        · simp [found, same, every, listed, verifyOneOrNone, Option.filter]
    · by_cases every : txStatus = [] <;> simp [found, same, every, verifyOneOrNone, Option.filter]

theorem refineOutputs_run (stamps : Finds.TimeStamps) {args : Finds.FindOutputsArgs} (noScript : args.noScript = true) (noTags : args.tagIds = [])
    (rows) : (Finds.refineOutputs stamps args rows).run (exec hash) database =
      (.ok ((rows.map withoutScript).filter fun row => args.txStatus = [] || database.records.hasTxStatus args.txStatus row), database) := by
  have filtered : (filterTxStatus args.txStatus rows).run (exec hash) database =
      (.ok (rows.filter fun row => args.txStatus = [] || database.records.hasTxStatus args.txStatus row), database) := by
    unfold filterTxStatus
    split
    · next every => simp [every]
    · next some => simpa [some] using filterM_run (hasTxStatus_run args.txStatus) rows
  unfold Finds.refineOutputs
  rw [Program.run_bind, filtered]
  dsimp only
  rw [Finds.filterTags, if_pos noTags]
  show (validateScripts args.noScript (rows.filter _)).run (exec hash) database = _
  unfold validateScripts
  rw [if_pos noScript, filter_map]
  rfl

end

section
variable {orderDescending : Bool} {first second third : TableOutput}

theorem comparesBefore_iff : Finds.comparesBefore .outputs orderDescending first second ↔
    if orderDescending then second.outputId ≤ first.outputId else first.outputId ≤ second.outputId := by
  cases orderDescending <;> simp [Finds.comparesBefore, keyPrecedes, rowKey]

instance : Std.Total (Finds.comparesBefore .outputs orderDescending) := ⟨fun first second => by
  rw [comparesBefore_iff, comparesBefore_iff]
  cases orderDescending
  · exact Nat.le_total _ _
  · exact Nat.le_total _ _⟩

instance : IsTrans TableOutput (Finds.comparesBefore .outputs orderDescending) := ⟨fun first second third => by
  rw [comparesBefore_iff, comparesBefore_iff, comparesBefore_iff]
  cases orderDescending
  · exact Nat.le_trans
  · exact fun before after => Nat.le_trans after before⟩

end

theorem sorted_withoutScript {first second : List TableOutput} (firstIds : (first.map TableOutput.outputId).Nodup)
    (secondIds : (second.map TableOutput.outputId).Nodup)
    (same : ∀ output, output ∈ first.map withoutScript ↔ output ∈ second.map withoutScript) :
    (first.insertionSort (Finds.comparesBefore .outputs orderDescending)).map withoutScript =
      (second.insertionSort (Finds.comparesBefore .outputs orderDescending)).map withoutScript := by
  have shownIds (outputs : List TableOutput) : (outputs.map withoutScript).map TableOutput.outputId = outputs.map TableOutput.outputId := by
    rw [map_map]
    rfl
  have shownNodup {outputs : List TableOutput} (ids : (outputs.map TableOutput.outputId).Nodup) : (outputs.map withoutScript).Nodup :=
    List.Nodup.of_map TableOutput.outputId (shownIds outputs ▸ ids)
  have perm (outputs : List TableOutput) := perm_insertionSort (Finds.comparesBefore .outputs orderDescending) outputs
  have antisymm (one two : TableOutput) (inFirst : one ∈ (first.insertionSort (Finds.comparesBefore .outputs orderDescending)).map withoutScript)
      (inSecond : two ∈ (second.insertionSort (Finds.comparesBefore .outputs orderDescending)).map withoutScript)
      (before : Finds.comparesBefore .outputs orderDescending one two) (after : Finds.comparesBefore .outputs orderDescending two one) : one = two := by
    have sameId : one.outputId = two.outputId := by
      rw [comparesBefore_iff] at before after
      cases orderDescending
      · exact Nat.le_antisymm before after
      · exact Nat.le_antisymm after before
    have oneShown := (same one).mp (((perm first).map withoutScript).mem_iff.mp inFirst)
    have twoShown := ((perm second).map withoutScript).mem_iff.mp inSecond
    exact inj_on_of_nodup_map (shownIds second ▸ secondIds) oneShown twoShown sameId
  have shown := (perm_ext_iff_of_nodup (shownNodup firstIds) (shownNodup secondIds)).mpr same
  apply List.Perm.eq_of_pairwise antisymm
  · rw [pairwise_map]
    exact pairwise_insertionSort _ first
  · rw [pairwise_map]
    exact pairwise_insertionSort _ second
  · exact ((perm first).map withoutScript).trans (shown.trans ((perm second).map withoutScript).symm)

section
variable {hash : ScriptHash} {database : Database} {filed : Nat → Option TransactionStatus}

theorem filterMap_outputIds (keyed : Keyed records) {ids : List Nat} (distinct : ids.Nodup) :
    ((ids.filterMap fun id => (records.primary id).map Versioned.value).map TableOutput.outputId).Nodup := by
  have sublist : ((ids.filterMap fun id => (records.primary id).map Versioned.value).map TableOutput.outputId).Sublist ids := by
    clear distinct
    induction ids with
    | nil => exact .slnil
    | cons id rest ih =>
      cases found : records.primary id with
      | none => simpa [found] using ih.cons id
      | some record => simpa [found, keyed id record found] using ih
  exact sublist.nodup distinct

theorem Records.output_iff {records : Records} {outputId output} :
    records.output outputId = some output ↔ ∃ record, records.primary outputId = some record ∧ record.value = output :=
  Option.map_eq_some_iff

theorem rangedOutputs_run {family : IndexKey → Prop} (indexes : FamilyIndexes family filed database.records) {keyPrefix : IndexPrefix}
    (named : ∀ key, keyPrefix.starts key = true → family key ∧ key.owner.isSome = true) (keep : TableOutput → Bool) :
    ∃ outputs, (db (.getRange { keyPrefix }) >>= fun records => RocksDbWalletStore.resolveOutputIndex records >>= fun outputs =>
        pure (outputs.filter keep)).run (exec hash) database = (.ok outputs, database) ∧
      (outputs.map TableOutput.outputId).Nodup ∧ ∀ output, output ∈ outputs ↔
        database.records.output output.outputId = some output ∧ keep output = true ∧
          ∃ entry ∈ rangeEntries { keyPrefix } database.records, entry.2.value.outputId = output.outputId := by
  let ids := ((rangeEntries { keyPrefix } database.records).map fun entry => entry.2.value.outputId).dedup
  have padded : ∀ id ∈ ids, ∃ number, padNumber id = .ok number := by
    intro id member
    obtain ⟨⟨key, record⟩, listed, rfl⟩ := mem_map.mp (mem_dedup.mp member)
    obtain ⟨contained, found⟩ := mem_rangeEntries.mp listed
    obtain ⟨inFamily, owned⟩ := named key (IndexRange.starts_of_contains contained)
    obtain ⟨owner, owns⟩ := Option.isSome_iff_exists.mp owned
    have points := indexes.owned key record inFamily found owner owns
    obtain ⟨primary, stored, -⟩ := (indexes.exact key owner inFamily owns).mp (Option.isSome_iff_exists.mpr ⟨record, found⟩)
    have pads := (encodable_padded (indexes.encodable _ _ stored)).1
    rw [indexes.keyed _ _ stored, points] at pads
    exact pads
  refine ⟨(ids.filterMap fun id => (database.records.primary id).map Versioned.value).filter keep, ?_, ?_, ?_⟩
  · show Program.run (exec hash) (RocksDbWalletStore.resolveOutputIds ids >>= fun outputs => _) database = _
    rw [Program.run_bind, resolveOutputIds_run hash database ids padded]
    rfl
  · exact (filter_sublist.map _).nodup (filterMap_outputIds indexes.keyed (nodup_dedup _))
  · intro output
    rw [mem_filter, mem_filterMap]
    constructor
    · rintro ⟨⟨id, member, found⟩, kept⟩
      obtain ⟨record, stored, rfl⟩ := Option.map_eq_some_iff.mp found
      have own := indexes.keyed id record stored
      rw [own]
      exact ⟨found, kept, mem_map.mp (mem_dedup.mp member)⟩
    · rintro ⟨stored, kept, entry, listed, names⟩
      exact ⟨⟨output.outputId, mem_dedup.mpr (mem_map.mpr ⟨entry, listed, names⟩), stored⟩, kept⟩

theorem FamilyIndexes.entry (indexes : FamilyIndexes family filed records) {key output} (stored : records.output output.outputId = some output) (inFamily : family key)
    (owns : key.owner = some output.outputId) (member : key ∈ keysOf output (filed output.outputId)) {keyPrefix}
    (starts : keyPrefix.starts key = true) : ∃ entry ∈ rangeEntries { keyPrefix } records, entry.2.value.outputId = output.outputId := by
  obtain ⟨primary, found, rfl⟩ := Records.output_iff.mp stored
  obtain ⟨record, held⟩ := Option.isSome_iff_exists.mp ((indexes.exact key _ inFamily owns).mpr ⟨primary, found, member⟩)
  refine ⟨(key, record), mem_rangeEntries.mpr ⟨?_, held⟩, (indexes.owned key record inFamily held _ owns).symm⟩
  simp [IndexRange.contains, IndexBounds.contains, starts]

theorem mem_spendableKeys (status) (spendable : output.spendable = true) :
    .spendableUser output.userId output.outputId ∈ keysOf output status ∧
      ∀ basketId, output.basketId = some basketId → .spendableBasket output.userId basketId output.outputId ∈ keysOf output status := by
  constructor
  · cases based : output.basketId <;> simp [keysOf, spendableKeysOf, spendable, based]
  · intro basketId based
    simp [keysOf, spendableKeysOf, spendable, based]

theorem findSpendableOutputs_run (indexes : FamilyIndexes ScannedKey filed database.records) {userId : Nat} {basketId : Option Nat}
    (user : (userId : Int) ≤ maxSafeInteger) (basket : ∀ id, basketId = some id → (id : Int) ≤ maxSafeInteger) :
    ∃ outputs, (RocksDbWalletStore.findSpendableOutputs userId basketId).run (exec hash) database = (.ok outputs, database) ∧
      (outputs.map TableOutput.outputId).Nodup ∧ ∀ output, output ∈ outputs ↔
        database.records.output output.outputId = some output ∧ output.userId = userId ∧ output.spendable = true ∧
          (basketId.isSome = true → output.basketId = basketId) := by
  let keep (output : TableOutput) : Bool :=
    output.userId = userId && output.spendable && (basketId.isNone || output.basketId = basketId)
  have kept (output : TableOutput) : keep output = true ↔ output.userId = userId ∧ output.spendable = true ∧
      (basketId.isSome = true → output.basketId = basketId) := by
    cases basketId <;> simp [keep, and_assoc]
  unfold RocksDbWalletStore.findSpendableOutputs
  rw [padNumber_safe user]
  cases basketId with
  | none =>
    obtain ⟨outputs, ran, distinct, members⟩ := @rangedOutputs_run hash database filed _ indexes (.spendableAll userId)
      (fun key starts => by cases key <;> simp_all [IndexPrefix.starts, ScannedKey, IndexKey.owner]) keep
    refine ⟨outputs, ran, distinct, fun output => (members output).trans (and_congr_right fun stored => ?_)⟩
    rw [kept]
    refine and_iff_left_of_imp fun shown => ?_
    have own := (mem_spendableKeys (filed output.outputId) shown.2.1).1
    exact indexes.entry stored (by trivial) rfl own (by simp [IndexPrefix.starts, shown.1])
  | some basketId =>
    have padded := padNumber_safe (basket basketId rfl)
    obtain ⟨outputs, ran, distinct, members⟩ := @rangedOutputs_run hash database filed _ indexes (.spendableBasket userId basketId)
      (fun key starts => by cases key <;> simp_all [IndexPrefix.starts, ScannedKey, IndexKey.owner]) keep
    refine ⟨outputs, ?_, distinct, fun output => (members output).trans (and_congr_right fun stored => ?_)⟩
    · dsimp only
      rw [padded]
      exact ran
    · rw [kept]
      refine and_iff_left_of_imp fun shown => ?_
      have own := (mem_spendableKeys (filed output.outputId) shown.2.1).2 basketId (shown.2.2 rfl)
      exact indexes.entry stored (by trivial) rfl own (by simp [IndexPrefix.starts, shown.1])

theorem scanned_key {table : EntityTable} {records : Records} (owned : ∀ key row, records.row table key = some row → rowKey table row.value = key) (key : StorageKey) (rowKeyed : RowKey)
    (listed : rowKeyed ∈ Option.map (fun row : Versioned (Row table) => rowKey table row.value)
      (match key with
        | .entity other rowKey => if other = table then records.row table rowKey else none
        | _ => none)) : key = .entity table rowKeyed := by
  obtain ⟨row, found, same⟩ := Option.map_eq_some_iff.mp listed
  cases key with
  | entity other stored =>
    dsimp only at found
    split at found
    · next tables =>
      rw [tables, ← same, owned stored row found]
    · cases found
  | counter | outputPrimary | index => cases found

theorem scanEntities_nodup
    (owned : ∀ key row, records.row table key = some row → rowKey table row.value = key) :
    ((scanEntities table records).map fun row => rowKey table row.value).Nodup := by
  unfold scanEntities
  rw [map_filterMap]
  refine List.Nodup.filterMap ?_ records.keys_nodup
  intro first second rowKeyed one two
  exact (scanned_key owned first rowKeyed one).trans (scanned_key owned second rowKeyed two).symm

theorem FindOutputsPartial.accepts_matching {wanted : Finds.FindOutputsPartial} (accepts : wanted.accepts output = true) :
    matchesOutputPartial output wanted.toOutputPartial = true := by
  simp only [Finds.FindOutputsPartial.accepts, Bool.and_eq_true] at accepts
  simp only [accepts]

/-- The rows that match, each once. -/
theorem matchedRows_run (owned : ∀ key row, database.records.row .outputs key = some row → rowKey .outputs row.value = key)
    (wanted : Finds.FindOutputsPartial) : ∃ rows, (Finds.matchedRows .outputs wanted.matching).run (exec hash) database = (.ok rows, database) ∧
      (rows.map TableOutput.outputId).Nodup ∧ ∀ row, row ∈ rows ↔
        database.records.outputRow row.outputId = some row ∧ wanted.accepts row = true := by
  have own {key : RowKey} {row : Versioned TableOutput} (found : database.records.row .outputs key = some row) :
      key = .id row.value.outputId := (owned key row found).symm
  unfold Finds.matchedRows
  cases primary : wanted.matching.primaryId with
  | some id =>
    refine ⟨((database.records.outputRow id).filter wanted.accepts).toList, rfl, ?_, fun row => ?_⟩
    · cases (database.records.outputRow id).filter wanted.accepts <;> simp
    · rw [Option.mem_toList]
      refine Option.mem_filter_iff.trans ?_
      constructor
      · rintro ⟨found, accepts⟩
        obtain ⟨record, stored, rfl⟩ := Option.map_eq_some_iff.mp found
        rw [← RowKey.id.inj (own stored)]
        exact ⟨found, accepts⟩
      · rintro ⟨found, accepts⟩
        have matching := FindOutputsPartial.accepts_matching accepts
        have asked : wanted.outputId = some id := primary
        simp only [matchesOutputPartial, asked, eq, Bool.and_eq_true, decide_eq_true_eq] at matching
        have same : id = row.outputId := by tauto
        exact ⟨same ▸ found, accepts⟩
  | none =>
    refine ⟨((scanEntities .outputs database.records).map Versioned.value).filter wanted.accepts, rfl, ?_, fun row => ?_⟩
    · refine (filter_sublist.map _).nodup ?_
      have keys := scanEntities_nodup owned
      have shape : (scanEntities .outputs database.records).map (fun row => rowKey .outputs row.value) =
          (((scanEntities .outputs database.records).map Versioned.value).map TableOutput.outputId).map RowKey.id := by
        rw [map_map, map_map]
        rfl
      exact List.Nodup.of_map _ (shape ▸ keys)
    · rw [mem_filter, mem_map]
      refine and_congr_left fun _ => ?_
      constructor
      · rintro ⟨record, listed, rfl⟩
        obtain ⟨key, found⟩ := mem_scanEntities.mp listed
        cases own found
        rw [Records.outputRow, found]
        rfl
      · intro found
        obtain ⟨record, stored, same⟩ := Option.map_eq_some_iff.mp found
        exact ⟨record, mem_scanEntities.mpr ⟨_, stored⟩, same⟩

end

structure GoesOverIndex (args : Finds.FindOutputsArgs) : Prop where
  spendable : args.wanted.spendable = some true
  user : args.wanted.userId.isSome = true
  noTags : args.tagIds = []
  noSince : args.since = none
  noPage : args.paged = none

/-- The ids are numbers that a key can hold. -/
def SafeIds (wanted : Finds.FindOutputsPartial) : Prop :=
  (∀ id, wanted.userId = some id → (id : Int) ≤ maxSafeInteger) ∧ ∀ id, wanted.basketId = some id → (id : Int) ≤ maxSafeInteger

theorem padNumber_large (large : ¬(value : Int) ≤ maxSafeInteger) :
    padNumber value = .error (.error "ROCKSDB_WALLET_STORE_INDEX_NUMBER_INVALID") := by
  unfold padNumber
  rw [if_neg fun bounds => large bounds.2]

section
variable {hash : ScriptHash} {database : Database} {args : Finds.FindOutputsArgs}

theorem accepts_withoutScript (wanted : Finds.FindOutputsPartial) (output) :
    wanted.accepts (withoutScript output) = wanted.accepts output := rfl

theorem accepts_fields {userId : Nat} (spendable : args.wanted.spendable = some true) (user : args.wanted.userId = some userId)
    {output} (accepts : args.wanted.accepts output = true) :
    output.userId = userId ∧ output.spendable = true ∧ (args.wanted.basketId.isSome = true → output.basketId = args.wanted.basketId) := by
  have matching := FindOutputsPartial.accepts_matching accepts
  simp only [matchesOutputPartial, spendable, user, Bool.and_eq_true, eq_some] at matching
  obtain ⟨⟨⟨⟨⟨⟨⟨⟨⟨-, sameUser⟩, -⟩, basket⟩, isSpendable⟩, -⟩, -⟩, -⟩, -⟩, -⟩ := matching
  refine ⟨sameUser.symm, isSpendable.symm, fun asked => ?_⟩
  obtain ⟨basketId, wanted⟩ := Option.isSome_iff_exists.mp asked
  rw [wanted, eqOptional_some] at basket
  rw [wanted, basket]

theorem SpendableCopies.same_shown (copies : SpendableCopies ∅ database.records) {wanted : Finds.FindOutputsPartial}
    (spends : ∀ output, wanted.accepts output = true → output.spendable = true) (shown) :
    (∃ output, (database.records.output output.outputId = some output ∧ wanted.accepts output = true) ∧ withoutScript output = shown) ↔
      ∃ row, (database.records.outputRow row.outputId = some row ∧ wanted.accepts row = true) ∧ withoutScript row = shown := by
  have own {id : Nat} {row : TableOutput} (found : database.records.outputRow id = some row) : row.outputId = id := by
    obtain ⟨record, stored, rfl⟩ := Option.map_eq_some_iff.mp found
    exact RowKey.id.inj (copies.owned _ record stored)
  have keyed {id : Nat} {output : TableOutput} (found : database.records.output id = some output) : output.outputId = id := by
    obtain ⟨record, stored, rfl⟩ := Option.map_eq_some_iff.mp found
    exact copies.indexes.keyed _ record stored
  -- one copy of a spendable output brings the other one with it
  have other {first second : Option TableOutput} {output : TableOutput} (agree : spendableCopy first = spendableCopy second)
      (found : first = some output) (spendable : output.spendable = true) :
      ∃ copy, second = some copy ∧ withoutScript copy = withoutScript output := by
    rw [found, spendableCopy_spendable spendable] at agree
    obtain ⟨copy, held, same⟩ := Option.map_eq_some_iff.mp agree.symm
    exact ⟨copy, (Option.mem_filter_iff.mp held).1, same⟩
  have accepted {output copy : TableOutput} (same : withoutScript copy = withoutScript output) (accepts : wanted.accepts output = true) :
      wanted.accepts copy = true := by
    rw [← accepts_withoutScript, same, accepts_withoutScript]
    exact accepts
  constructor
  · rintro ⟨output, ⟨found, accepts⟩, rfl⟩
    obtain ⟨row, stored, same⟩ := other (copies.agree output.outputId (Set.notMem_empty _)).symm found (spends output accepts)
    refine ⟨row, ⟨?_, accepted same accepts⟩, same⟩
    rw [own stored]
    exact stored
  · rintro ⟨row, ⟨found, accepts⟩, rfl⟩
    obtain ⟨output, stored, same⟩ := other (copies.agree row.outputId (Set.notMem_empty _)) found (spends row accepts)
    refine ⟨output, ⟨?_, accepted same accepts⟩, same⟩
    rw [keyed stored]
    exact stored

theorem findOutputs_scanned (copies : SpendableCopies ∅ database.records) (stamps : Finds.TimeStamps) (overIndex : GoesOverIndex args)
    (noScript : args.noScript = true) :
    ((Finds.findOutputs stamps args).run (exec hash) database).1 = ((Finds.scanOutputs stamps args).run (exec hash) database).1 ↔
      SafeIds args.wanted := by
  obtain ⟨userId, user⟩ := Option.isSome_iff_exists.mp overIndex.user
  obtain ⟨rows, matched, rowIds, rowMembers⟩ := @matchedRows_run hash database copies.owned args.wanted
  have entities : (Finds.findEntities stamps .outputs args.wanted.matching args.toFindSincePagedArgs).run (exec hash) database =
      (.ok (rows.insertionSort (Finds.comparesBefore .outputs args.orderDescending)), database) := by
    unfold Finds.findEntities
    rw [Program.run_bind, matched, overIndex.noSince, overIndex.noPage]
    rfl
  have scanned : (Finds.scanOutputs stamps args).run (exec hash) database =
      (Finds.refineOutputs stamps args (rows.insertionSort (Finds.comparesBefore .outputs args.orderDescending))).run (exec hash) database := by
    unfold Finds.scanOutputs
    rw [Program.run_bind, entities]
  have notDirect : ¬(args.tagIds ≠ [] ∨ args.since.isSome = true ∨ args.paged.isSome = true) := by
    simp [overIndex.noTags, overIndex.noSince, overIndex.noPage]
  have index : Finds.findOutputsFromIndex args = RocksDbWalletStore.findSpendableOutputs userId args.wanted.basketId >>= fun indexed =>
      pure (some ((indexed.filter args.wanted.accepts).insertionSort (Finds.comparesBefore .outputs args.orderDescending))) := by
    unfold Finds.findOutputsFromIndex
    rw [if_neg notDirect, overIndex.spendable, user]
  constructor
  · intro same
    by_contra large
    have thrown : ((RocksDbWalletStore.findSpendableOutputs userId args.wanted.basketId).run (exec hash) database).1 =
        .error (.error "ROCKSDB_WALLET_STORE_INDEX_NUMBER_INVALID") := by
      unfold RocksDbWalletStore.findSpendableOutputs
      by_cases safeUser : (userId : Int) ≤ maxSafeInteger
      · cases basket : args.wanted.basketId with
        | none =>
          refine (large ⟨fun id asked => ?_, fun id asked => ?_⟩).elim
          · rw [← Option.some.inj (user.symm.trans asked)]
            exact safeUser
          · cases basket.symm.trans asked
        | some basketId =>
          have largeBasket : ¬(basketId : Int) ≤ maxSafeInteger := by
            intro safeBasket
            refine large ⟨fun id asked => ?_, fun id asked => ?_⟩
            · rw [← Option.some.inj (user.symm.trans asked)]
              exact safeUser
            · rw [← Option.some.inj (basket.symm.trans asked)]
              exact safeBasket
          rw [padNumber_safe safeUser]
          dsimp only
          rw [padNumber_large largeBasket]
          rfl
      · rw [padNumber_large safeUser]
        rfl
    have failed : ((Finds.findOutputs stamps args).run (exec hash) database).1 =
        .error (.error "ROCKSDB_WALLET_STORE_INDEX_NUMBER_INVALID") := by
      unfold Finds.findOutputs
      rw [index, bind_assoc, Program.run_bind]
      rcases ran : (RocksDbWalletStore.findSpendableOutputs userId args.wanted.basketId).run (exec hash) database with ⟨outcome, after⟩
      rw [ran] at thrown
      dsimp only at thrown
      subst thrown
      rfl
    rw [failed, scanned, refineOutputs_run stamps noScript overIndex.noTags] at same
    cases same
  · rintro ⟨safeUser, safeBasket⟩
    obtain ⟨outputs, found, outputIds, members⟩ :=
      @findSpendableOutputs_run hash database _ copies.indexes userId args.wanted.basketId (safeUser userId user) safeBasket
    have fast : (Finds.findOutputs stamps args).run (exec hash) database = (Finds.refineOutputs stamps args
        ((outputs.filter args.wanted.accepts).insertionSort (Finds.comparesBefore .outputs args.orderDescending))).run (exec hash) database := by
      unfold Finds.findOutputs
      rw [index, bind_assoc, Program.run_bind, found]
      rfl
    rw [fast, scanned, refineOutputs_run stamps noScript overIndex.noTags, refineOutputs_run stamps noScript overIndex.noTags]
    have sorted : ((outputs.filter args.wanted.accepts).insertionSort (Finds.comparesBefore .outputs args.orderDescending)).map withoutScript =
        (rows.insertionSort (Finds.comparesBefore .outputs args.orderDescending)).map withoutScript := by
      apply sorted_withoutScript ((filter_sublist.map _).nodup outputIds) rowIds
      intro shown
      rw [mem_map, mem_map]
      have spends (output : TableOutput) (accepts : args.wanted.accepts output = true) : output.spendable = true :=
        (accepts_fields overIndex.spendable user accepts).2.1
      refine Iff.trans (exists_congr fun output => and_congr_left fun _ => ?_) ((copies.same_shown spends shown).trans
        (exists_congr fun row => and_congr_left fun _ => (rowMembers row).symm))
      rw [mem_filter, members]
      constructor
      · rintro ⟨⟨stored, -⟩, accepts⟩
        exact ⟨stored, accepts⟩
      · rintro ⟨stored, accepts⟩
        exact ⟨⟨stored, accepts_fields overIndex.spendable user accepts⟩, accepts⟩
    rw [sorted]

end
inductive CallsReached (hash : ScriptHash) (permitted : Database → StorageCall → Prop) : Database → Prop
  | empty : CallsReached hash permitted Database.empty
  | step {database : Database} (reached : CallsReached hash permitted database) (call : StorageCall)
      (allowed : permitted database call) : CallsReached hash permitted (callAlone hash call database).2

theorem copies_of_reached {hash database} (reached : CallsReached hash (KeepsCopies hash) database) :
    SpendableCopies ∅ database.records := by
  induction reached with
  | empty => exact spendableCopies_empty
  | step _ call keeps copies => exact keeps.copies copies

def runCalls (hash : ScriptHash) (calls : List StorageCall) : Database :=
  calls.foldl (fun database call => (callAlone hash call database).2) Database.empty

def fixedHash : ScriptHash := fun _ => "ab"

def noStamps : Finds.TimeStamps := ⟨fun _ _ => 0, fun _ _ => 0⟩

def spendableOfUser : Finds.FindOutputsArgs := { wanted := { userId := some 1, spendable := some true }, noScript := true }

theorem spendableOfUser_overIndex : GoesOverIndex spendableOfUser := ⟨rfl, rfl, rfl, rfl, rfl⟩

theorem spendableOfUser_safe : SafeIds spendableOfUser.wanted := by
  constructor
  · intro id asked
    cases asked
    decide
  · intro id asked
    cases asked

/-- A mined transaction, and an output whose script is left to it. -/
def minedTransaction : TableProvenTx where
  provenTxId := 0
  txid := "aa"
  height := 1
  index := 0
  merklePath := []
  rawTx := [1, 2, 3, 4]
  blockHash := "00"
  merkleRoot := "00"

def longOutput : TableOutput := { newOutput with txid := some "aa", scriptLength := some 2, scriptOffset := some 1 }

def refilledOutput : List StorageCall :=
  [.insert .provenTxs minedTransaction, .insert .transactions (newTransaction .completed), .insert .outputs longOutput,
    .update .outputs (1 : Nat) {}]

end WalletToolbox

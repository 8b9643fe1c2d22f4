import Mathlib.Data.List.Dedup
import WalletToolbox.Proofs.IndexedRows

/-! A status change moves the status keys of every output of its transaction. The
outputs are found through the transaction index, which has one key for each. -/

namespace WalletToolbox
open Effects Async StorageRocksDb List
open RocksDbWalletStore (batch_run findOutputsByTransactionId getPrimary reindexOutputTransactionStatus resolveOutputIds)

section
variable {range : IndexRange} {records : Records} {key : IndexKey} {record : Versioned OutputIndexRecord}

theorem mem_containedKeys : (key ∈ records.keys.filterMap fun stored => match stored with
      | .index key => if range.contains key then some key else none
      | _ => none) ↔ range.contains key = true ∧ StorageKey.index key ∈ records.keys := by
  rw [mem_filterMap]
  constructor
  · intro listed
    obtain ⟨stored, member, shape⟩ := listed
    cases stored with
    | index stored =>
      dsimp only at shape
      split at shape
      · next contained =>
        cases shape
        exact ⟨contained, member⟩
      · cases shape
    | counter | entity | outputPrimary => cases shape
  · intro both
    refine ⟨.index key, both.2, ?_⟩
    dsimp only
    rw [if_pos both.1]

theorem mem_rangeEntries : (key, record) ∈ rangeEntries range records ↔
    range.contains key = true ∧ records.entry key = some record := by
  have present (found : records.entry key = some record) : StorageKey.index key ∈ records.keys :=
    AList.mem_keys.mp (AList.lookup_isSome.mp (Option.isSome_iff_exists.mpr ⟨record, found⟩))
  unfold rangeEntries
  simp only [mem_filterMap, Option.map_eq_some_iff, Prod.mk.injEq]
  constructor
  · rintro ⟨other, member, entry, found, rfl, rfl⟩
    refine ⟨?_, found⟩
    split at member
    · exact (mem_containedKeys.mp ((mem_insertionSort _).mp (mem_reverse.mp member))).1
    · exact (mem_containedKeys.mp ((mem_insertionSort _).mp member)).1
  · rintro ⟨contained, found⟩
    refine ⟨key, ?_, record, found, rfl, rfl⟩
    have listed := mem_containedKeys.mpr ⟨contained, present found⟩
    split
    · exact mem_reverse.mpr ((mem_insertionSort _).mpr listed)
    · exact (mem_insertionSort _).mpr listed

end

section
variable {status : TableOutput → Option TransactionStatus} {hash : ScriptHash} {database : Database}
  (fromStatus toStatus : Option TransactionStatus)

def refiled (status : TableOutput → Option TransactionStatus) (toStatus : Option TransactionStatus) (moved : List TableOutput)
    (output : TableOutput) : Option TransactionStatus :=
  if output ∈ moved then toStatus else status output

def statusMoves (output : TableOutput) (fromStatus toStatus : Option TransactionStatus) : List Write :=
  (statusKeysOf output fromStatus).map deleteIndex ++ (statusKeysOf output toStatus).map (putIndex output)

theorem statusMoves_index {output fromStatus toStatus} :
    ∀ write ∈ statusMoves output fromStatus toStatus, ∃ key, write.key = .index key := by
  intro write member
  rcases mem_append.mp member with member | member
  · obtain ⟨key, -, rfl⟩ := mem_map.mp member
    exact ⟨key, rfl⟩
  · obtain ⟨key, -, rfl⟩ := mem_map.mp member
    exact ⟨key, rfl⟩

theorem reindexOutput_run (encodable : Encodable output) :
    (reindexOutputTransactionStatus output fromStatus toStatus).run (exec hash) database =
      (.ok (), { database with records := applyWrites false (statusMoves output fromStatus toStatus) database.records }) := by
  have built (status : Option TransactionStatus) : statusIndexKeys output status = .ok (statusKeysOf output status) := by
    obtain ⟨scriptHash, madeScriptHash, built⟩ := bind_eq_ok.mp (encodable status)
    obtain ⟨spendable, madeSpendable, -⟩ := bind_eq_ok.mp built
    exact statusIndexKeys_of_spendable madeSpendable
  have deletes : statusIndexDeletesForOutput output fromStatus = .ok ((statusKeysOf output fromStatus).map deleteIndex) := by
    rw [statusIndexDeletesForOutput, built]
    rfl
  have puts : statusIndexPutsForOutput output toStatus = .ok ((statusKeysOf output toStatus).map (putIndex output)) := by
    rw [statusIndexPutsForOutput, built]
    rfl
  unfold reindexOutputTransactionStatus
  rw [deletes, puts]
  exact batch_run hash _ database

theorem Consistent.owner_eq (consistent : Consistent status records)
    (found : records.primary outputId = some record) (member : key ∈ keysOf record.value filed)
    (shape : key ∈ statusKeysOf output other) : outputId = output.outputId := by
  obtain ⟨basketId, text, -, -, -, rfl⟩ := statusKeysOf_shape shape
  rcases keysOf_owner member with own | outpoint
  · have same := Option.some.inj own
    rw [← consistent.keyed outputId record found]
    exact same.symm
  · have none := outpointKeysOf_owner outpoint
    cases none

theorem reindexOutput_consistent (consistent : Consistent status database.records)
    (stored : database.records.primary output.outputId = some ⟨output, version⟩)
    (filed : status output = fromStatus ∨ status output = toStatus) :
    Consistent (refiled status toStatus [output]) (applyWrites false (statusMoves output fromStatus toStatus) database.records) := by
  have primary (outputId : Nat) : (applyWrites false (statusMoves output fromStatus toStatus) database.records).primary outputId =
      database.records.primary outputId := applyWrites_lookup_noIndex statusMoves_index (by simp)
  constructor
  · intro outputId record found
    rw [primary] at found
    exact consistent.keyed outputId record found
  · intro outputId record found
    rw [primary] at found
    exact consistent.encodable outputId record found
  · intro key record found owner owns
    rw [statusMoves, applyWrites_append] at found
    rcases entry_of_puts found with earlier | ⟨member, points⟩
    · exact consistent.owned key record (entry_of_deletes earlier) owner owns
    · obtain ⟨basketId, text, -, -, -, rfl⟩ := statusKeysOf_shape member
      rw [points]
      exact (Option.some.inj owns).symm
  · intro key
    simp only [primary, refiled, mem_singleton]
    rw [statusMoves, applyWrites_append, entry_puts_isSome, entry_deletes_isSome]
    simp only [Bool.or_eq_true, Bool.and_eq_true, Bool.not_eq_true', decide_eq_true_eq, decide_eq_false_iff_not, consistent.exact key]
    constructor
    · intro present
      rcases present with ⟨⟨outputId, record, found, member⟩, gone⟩ | member
      · refine ⟨outputId, record, found, ?_⟩
        by_cases same : record.value = output
        · rw [if_pos same]
          rw [same] at member ⊢
          rcases filed with filed | filed
          · rcases mem_keysOf_of_status member with kept | statusKey
            · exact kept
            · rw [filed] at statusKey
              exact (gone statusKey).elim
          · rw [← filed]
            exact member
        · rw [if_neg same]
          exact member
      · exact ⟨output.outputId, _, stored, by rw [if_pos rfl]; exact statusKeysOf_subset member⟩
    · rintro ⟨outputId, record, found, member⟩
      by_cases moved : key ∈ statusKeysOf output toStatus
      · exact .inr moved
      · left
        by_cases same : record.value = output
        · rw [if_pos same, same] at member
          rcases mem_keysOf_of_status member with kept | statusKey
          · refine ⟨⟨outputId, record, found, same ▸ kept⟩, fun gone => moved ?_⟩
            exact statusKey_filed member gone
          · exact (moved statusKey).elim
        · rw [if_neg same] at member
          refine ⟨⟨outputId, record, found, member⟩, fun gone => same ?_⟩
          have here := consistent.owner_eq found member gone
          rw [here, stored] at found
          cases found
          rfl

theorem refiled_cons (output : TableOutput) (rest : List TableOutput) :
    refiled (refiled status toStatus [output]) toStatus rest = refiled status toStatus (output :: rest) := by
  funext other
  simp only [refiled, mem_cons]
  by_cases later : other ∈ rest <;> by_cases here : other = output <;> simp [later, here]

variable (hash database)

theorem reindexOutputs_run (outputs : List TableOutput) (consistent : Consistent status database.records)
    (stored : ∀ output ∈ outputs, (∃ version, database.records.primary output.outputId = some ⟨output, version⟩) ∧
      (status output = fromStatus ∨ status output = toStatus)) :
    (reindexOutputs fromStatus toStatus outputs).Ends (exec hash) database fun _ after =>
      Consistent (refiled status toStatus outputs) after.records ∧
      ∀ key, (∀ indexKey, key ≠ .index indexKey) → after.records.lookup key = database.records.lookup key := by
  induction outputs generalizing status database with
  | nil =>
    refine ⟨consistent.congr fun _ _ _ _ => ?_, fun _ _ => rfl⟩
    simp [refiled]
  | cons output rest ih =>
    obtain ⟨⟨version, found⟩, filed⟩ := stored output (.head _)
    unfold reindexOutputs
    apply Program.Ends.bind
    unfold Program.Ends
    rw [reindexOutput_run fromStatus toStatus (consistent.encodable _ _ found)]
    let after : Database := { database with records := applyWrites false (statusMoves output fromStatus toStatus) database.records }
    have moved := reindexOutput_consistent fromStatus toStatus consistent found filed
    have kept (key : StorageKey) (notIndex : ∀ indexKey, key ≠ .index indexKey) :
        after.records.lookup key = database.records.lookup key := applyWrites_lookup_noIndex statusMoves_index notIndex
    have later : ∀ other ∈ rest, (∃ version, after.records.primary other.outputId = some ⟨other, version⟩) ∧
        (refiled status toStatus [output] other = fromStatus ∨ refiled status toStatus [output] other = toStatus) := by
      intro other member
      obtain ⟨⟨version, found⟩, filed⟩ := stored other (.tail _ member)
      refine ⟨⟨version, (kept _ (by simp)).trans found⟩, ?_⟩
      unfold refiled
      split
      · exact .inr rfl
      · exact filed
    obtain ⟨consistent, frame⟩ := ih after moved later
    rw [refiled_cons] at consistent
    exact ⟨consistent, fun key notIndex => (frame key notIndex).trans (kept key notIndex)⟩

theorem resolveOutputIds_run (ids : List Nat) (padded : ∀ id ∈ ids, ∃ number, padNumber id = .ok number) :
    (resolveOutputIds ids).run (exec hash) database =
      (.ok (ids.filterMap fun id => (database.records.primary id).map Versioned.value), database) := by
  induction ids with
  | nil => rfl
  | cons id rest ih =>
    obtain ⟨number, pads⟩ := padded id (.head _)
    have same := padNumber_natCast pads
    subst same
    have read : (getPrimary number).run (exec hash) database = (.ok (database.records.primary number), database) := by
      unfold getPrimary
      rw [pads]
      rfl
    unfold resolveOutputIds
    rw [Program.run_bind, read]
    dsimp only
    rw [Program.run_bind, ih fun other member => padded other (.tail _ member)]
    cases found : database.records.primary number with
    | none => simp [found]
    | some record => simp [found]

theorem encodable_padded (encodable : Encodable output) :
    (∃ number, padNumber output.outputId = .ok number) ∧ ∃ number, padNumber output.transactionId = .ok number := by
  obtain ⟨scriptHash, -, built⟩ := bind_eq_ok.mp (encodable none)
  obtain ⟨spendable, -, built⟩ := bind_eq_ok.mp built
  obtain ⟨statusKeys, -, built⟩ := bind_eq_ok.mp built
  obtain ⟨outpoint, -, built⟩ := bind_eq_ok.mp built
  obtain ⟨transaction, made, -⟩ := bind_eq_ok.mp built
  obtain ⟨transactionId, first, made⟩ := bind_eq_ok.mp made
  obtain ⟨outputId, second, -⟩ := bind_eq_ok.mp made
  exact ⟨⟨outputId, second⟩, ⟨transactionId, first⟩⟩

theorem Consistent.entry_owner (consistent : Consistent status records) (found : records.entry key = some record) (owns : key.owner = some owner) :
    ∃ primary, records.primary record.value.outputId = some primary ∧ key ∈ keysOf primary.value (status primary.value) := by
  have present : (records.entry key).isSome = true := by rw [found]; rfl
  obtain ⟨outputId, primary, stored, member⟩ := (consistent.exact key).mp present
  have points := consistent.owned key record found owner owns
  rcases keysOf_owner member with own | outpoint
  · have same := Option.some.inj (owns.symm.trans own)
    rw [consistent.keyed outputId primary stored, points] at same
    exact ⟨primary, same ▸ stored, member⟩
  · rw [outpointKeysOf_owner outpoint] at owns
    cases owns

theorem findOutputsByTransactionId_run (consistent : Consistent status database.records) {transactionId number : Nat}
    (padded : padNumber transactionId = .ok number) :
    ∃ outputs, (findOutputsByTransactionId transactionId).run (exec hash) database = (.ok outputs, database) ∧
      ∀ output, output ∈ outputs ↔ output.transactionId = transactionId ∧
        ∃ version, database.records.primary output.outputId = some ⟨output, version⟩ := by
  have same := padNumber_natCast padded
  subst same
  have owner {key : IndexKey} (contained : ({ keyPrefix := .transaction number } : IndexRange).contains key = true) :
      ∃ outputId, key = .transaction number outputId := by
    cases key <;> simp_all [IndexRange.contains, IndexPrefix.starts, IndexBounds.contains]
  let ids := ((rangeEntries { keyPrefix := .transaction number } database.records).map fun entry => entry.2.value.outputId).dedup
  have mem_ids {id : Nat} (member : id ∈ ids) : ∃ key record, database.records.entry key = some record ∧
      key.owner.isSome = true ∧ record.value.outputId = id := by
    obtain ⟨⟨key, record⟩, listed, rfl⟩ := mem_map.mp (mem_dedup.mp member)
    obtain ⟨contained, found⟩ := mem_rangeEntries.mp listed
    obtain ⟨outputId, rfl⟩ := owner contained
    exact ⟨_, record, found, rfl, rfl⟩
  have padIds : ∀ id ∈ ids, ∃ number, padNumber id = .ok number := by
    intro id member
    obtain ⟨key, record, found, owned, rfl⟩ := mem_ids member
    obtain ⟨owner, owns⟩ := Option.isSome_iff_exists.mp owned
    obtain ⟨primary, stored, -⟩ := consistent.entry_owner found owns
    rw [← consistent.keyed _ _ stored]
    exact (encodable_padded (consistent.encodable _ _ stored)).1
  refine ⟨(ids.filterMap fun id => (database.records.primary id).map Versioned.value).filter fun output =>
    output.transactionId = number, ?_, ?_⟩
  · unfold findOutputsByTransactionId
    rw [padded]
    show Program.run (exec hash) (resolveOutputIds ids >>= fun outputs => _) database = _
    rw [Program.run_bind, resolveOutputIds_run hash database ids padIds]
    rfl
  · intro output
    simp only [mem_filter, mem_filterMap, Option.map_eq_some_iff, decide_eq_true_eq]
    constructor
    · rintro ⟨⟨id, -, record, found, rfl⟩, belongs⟩
      refine ⟨belongs, record.version, ?_⟩
      rw [consistent.keyed id record found]
      exact found
    · rintro ⟨belongs, version, stored⟩
      refine ⟨⟨output.outputId, ?_, _, stored, rfl⟩, belongs⟩
      have member : .transaction number output.outputId ∈ keysOf output (status output) := by
        simp [keysOf, belongs]
      have present := (consistent.exact _).mpr ⟨output.outputId, _, stored, member⟩
      obtain ⟨record, found⟩ := Option.isSome_iff_exists.mp present
      have points := consistent.owned _ record found output.outputId rfl
      refine mem_dedup.mpr (mem_map.mpr ⟨(_, record), mem_rangeEntries.mpr ⟨?_, found⟩, points.symm⟩)
      simp [IndexRange.contains, IndexPrefix.starts, IndexBounds.contains]

end

/-- The update leaves the transaction its id, or names an id whose outputs, like those of
the transaction itself, are under its status already. -/
def RefilesOwn (records : Records) (id : Nat) (update : TransactionUpdate) : Prop :=
  ∀ existing, records.row .transactions (.id id) = some existing →
    (update.spread existing.value).transactionId = id ∨
    StatusKept records id (update.spread existing.value).status ∧
      StatusKept records (update.spread existing.value).transactionId (update.spread existing.value).status

theorem RefilesOwn.of_unnamed (indexed : Indexed records) {id update}
    (unnamed : update.transactionId = none) : RefilesOwn records id update := by
  intro existing found
  left
  unfold TransactionUpdate.spread
  rw [unnamed]
  exact indexed.transactions id existing found

section
variable {hash : ScriptHash} {database : Database} {row : TableTransaction} {after : Records}

theorem indexed_of_refiled (indexed : Indexed database.records)
    (consistent : Consistent filed after)
    (frame : ∀ key, (∀ indexKey, key ≠ .index indexKey) →
      after.lookup key = (withRow .transactions row database.records).lookup key)
    (same : ∀ outputId record, database.records.primary outputId = some record → InStatusIndex record.value →
      filed record.value = if record.value.transactionId = row.transactionId then some row.status
        else database.records.transactionStatus record.value) : Indexed after := by
  obtain ⟨primary, -⟩ := withRow_outputs .transactions row database.records
  have transactions (key : RowKey) : after.row .transactions key =
      (withRow .transactions row database.records).row .transactions key := frame _ (by simp)
  constructor
  · refine consistent.congr fun outputId record found inIndex => ?_
    rw [transactionStatus_congr transactions, withRow_transactionStatus]
    apply same outputId record ?_ inIndex
    rw [← primary outputId, ← found]
    exact (frame _ (by simp)).symm
  · intro id found stored
    rw [transactions] at stored
    exact withRow_transactionKeyed indexed.transactions id found stored

theorem reindexForStatus_indexed (indexed : Indexed database.records) {id existing}
    (found : database.records.row .transactions (.id id) = some existing)
    (refiles : row.transactionId = id ∨ StatusKept database.records id row.status ∧
      StatusKept database.records row.transactionId row.status) :
    (reindexOutputsForTransactionStatus id existing.value.status row.status).Ends (exec hash)
      { database with records := withRow .transactions row database.records } fun _ after => Indexed after.records := by
  obtain ⟨primary, entry⟩ := withRow_outputs .transactions row database.records
  let written : Database := { database with records := withRow .transactions row database.records }
  have consistent := indexed.consistent.frame primary entry
  have existingStatus {output : TableOutput} (belongs : output.transactionId = id) :
      database.records.transactionStatus output = some existing.value.status := by
    rw [Records.transactionStatus, belongs, found]
    rfl
  unfold reindexOutputsForTransactionStatus
  apply Program.Ends.bind
  cases padded : padNumber id with
  | error error =>
    -- no stored output can name a transaction whose id has no key
    have noOutput {outputId : Nat} {record : Versioned TableOutput} (stored : database.records.primary outputId = some record) :
        record.value.transactionId ≠ id := by
      intro same
      obtain ⟨number, pads⟩ := (encodable_padded (indexed.consistent.encodable _ _ stored)).2
      rw [same, padded] at pads
      cases pads
    unfold findOutputsByTransactionId
    rw [padded]
    refine indexed_of_refiled indexed consistent (fun _ _ => rfl) fun outputId record stored inIndex => ?_
    split
    · next same =>
      rcases refiles with own | ⟨-, kept⟩
      · exact (noOutput stored (same.trans own)).elim
      · exact kept outputId record stored inIndex same
    · rfl
  | ok number =>
    obtain ⟨outputs, ran, members⟩ := findOutputsByTransactionId_run hash written consistent padded
    unfold Program.Ends
    rw [ran]
    have stored : ∀ output ∈ outputs,
        (∃ version, (withRow .transactions row database.records).primary output.outputId = some ⟨output, version⟩) ∧
        (database.records.transactionStatus output = some existing.value.status ∨
          database.records.transactionStatus output = some row.status) := by
      intro output member
      obtain ⟨belongs, held⟩ := (members output).mp member
      exact ⟨held, .inl (existingStatus belongs)⟩
    obtain ⟨moved, frame⟩ := reindexOutputs_run hash written
      (some existing.value.status) (some row.status) outputs consistent stored
    refine indexed_of_refiled indexed moved frame fun outputId record held inIndex => ?_
    have listed : record.value ∈ outputs ↔ record.value.transactionId = id := by
      rw [members]
      refine and_iff_left_of_imp fun _ => ⟨record.version, ?_⟩
      rw [indexed.consistent.keyed _ _ held]
      exact (primary outputId).trans held
    unfold refiled
    rcases refiles with own | ⟨keptHere, keptThere⟩
    · simp only [listed, own]
    · by_cases here : record.value.transactionId = id
      · rw [if_pos (listed.mpr here)]
        split
        · rfl
        · exact (keptHere outputId record held inIndex here).symm
      · rw [if_neg fun member => here (listed.mp member)]
        split
        · next there => exact keptThere outputId record held inIndex there
        · rfl

/-- What follows the row of a stored transaction when its update has been written. -/
def followStatus (id : Nat) (status : TransactionStatus) : Option TransactionStatus → RocksDbM Nat
  | none => return 1
  | some toStatus =>
    if toStatus = status then return 1
    else do
      reindexOutputsForTransactionStatus id status toStatus
      return 1

theorem updateOneTransaction_run (id : Nat) (update : TransactionUpdate) :
    (updateOneTransaction id update).run (exec hash) database =
      match database.records.row .transactions (.id id) with
      | none => (.ok 0, database)
      | some existing => (followStatus id existing.value.status update.status).run (exec hash)
          { database with records := withRow .transactions (update.spread existing.value) database.records } := by
  unfold updateOneTransaction updateById updateByKey getEntity
    RocksDbWalletStore.get putEntity RocksDbWalletStore.put
  cases found : database.records.row .transactions (.id id) with
  | none => simp [exec, found]
  | some existing =>
    unfold followStatus
    cases update.status with
    | none =>
      simp [exec, found, withRow]
      rfl
    | some status =>
      by_cases same : status = existing.value.status
      · simp [exec, found, same, withRow]
        rfl
      · simp [exec, found, same, withRow]
        rfl

theorem updateOneTransaction_indexed (indexed : Indexed database.records) (id : Nat) (update : TransactionUpdate)
    (refiles : RefilesOwn database.records id update) :
    (updateOneTransaction id update).Ends (exec hash) database fun _ after => Indexed after.records := by
  unfold Program.Ends
  rw [updateOneTransaction_run]
  cases found : database.records.row .transactions (.id id) with
  | none => exact indexed
  | some existing =>
    have follows := refiles existing found
    obtain ⟨primary, entry⟩ := withRow_outputs .transactions (update.spread existing.value) database.records
    -- a row of the old status: nothing is re-indexed, and nothing has to be
    have sameStatus (same : (update.spread existing.value).status = existing.value.status) :
        Indexed (withRow .transactions (update.spread existing.value) database.records) := by
      refine indexed_of_refiled indexed (indexed.consistent.frame primary entry) (fun _ _ => rfl) ?_
      intro outputId record held inIndex
      split
      · next belongs =>
        rcases follows with own | ⟨-, kept⟩
        · rw [Records.transactionStatus, belongs, own, found, same]
          rfl
        · exact kept outputId record held inIndex belongs
      · rfl
    dsimp only
    unfold followStatus
    cases status : update.status with
    | none =>
      apply sameStatus
      unfold TransactionUpdate.spread
      rw [status]
      rfl
    | some toStatus =>
      have toRow : (update.spread existing.value).status = toStatus := by
        unfold TransactionUpdate.spread
        rw [status]
        rfl
      dsimp only
      split
      · next same => exact sameStatus (toRow.trans same)
      · have reindexed : (reindexOutputsForTransactionStatus id existing.value.status toStatus).Ends (exec hash) _
            fun _ after => Indexed after.records := toRow ▸ reindexForStatus_indexed indexed found follows
        exact reindexed.returns fun _ => 1

end
end WalletToolbox

import WalletToolbox.Proofs.ConcurrentAllocation
import WalletToolbox.Proofs.OutputCounts

/-! The status counts over a run of store operations, one after the other, beside what
each output is filed under. The count is that of the stored outputs as long as no
operation without a status deletes or reserves an output that is filed under one. -/

namespace WalletToolbox
open Async RocksDbWalletStore

/-- What a delete of an output does: it goes, and so do its keys without a status. -/
structure Removed (outputId : Nat) (old : TableOutput) (before after : Records) : Prop where
  primary : after.primary outputId = none
  others : ∀ other, other ≠ outputId → after.primary other = before.primary other
  owned : ∀ key record, after.entry key = some record → before.entry key = some record
  entries : ∀ key, (after.entry key).isSome = true ↔ (before.entry key).isSome = true ∧ key ∉ keysOf old none

theorem deleteOutput_run (hash : ScriptHash) (outputId : Nat) (database : Database) :
    (RocksDbWalletStore.deleteOutput outputId).Ends (exec hash) database fun _ after => after = database ∨
      ∃ existing, database.records.primary outputId = some existing ∧ Removed outputId existing.value database.records after.records := by
  unfold RocksDbWalletStore.deleteOutput
  apply Program.Ends.after (getPrimary_uses _) Reads.unchanged ?_ fun _ => .inl rfl
  intro existing read
  have found := getPrimary_found read
  cases existing with
  | none => exact .inl rfl
  | some existing =>
    apply Program.Ends.after (Program.Uses.ofExcept _) Reads.unchanged ?_ fun _ => .inl rfl
    intro writes built
    rw [Program.run_ofExcept] at built
    obtain ⟨deletes, deleted, built⟩ := Effects.bind_eq_ok.mp built
    obtain ⟨keys, made, rfl⟩ := indexDeletesForOutput_ok.mp deleted
    cases built
    unfold Program.Ends
    rw [RocksDbWalletStore.batch_run, applyWrites_append, outputIndexKeys_ok made]
    have indexes : ∀ write ∈ (keysOf existing.value none).map deleteIndex, ∃ key, write.key = .index key := by
      intro write member
      obtain ⟨key, -, rfl⟩ := List.mem_map.mp member
      exact ⟨key, rfl⟩
    have entry (key : IndexKey) : (applyWrites false [.delete (.outputPrimary outputId)]
        (applyWrites false ((keysOf existing.value none).map deleteIndex) database.records)).entry key =
        (applyWrites false ((keysOf existing.value none).map deleteIndex) database.records).entry key :=
      AList.lookup_erase_ne (by simp)
    refine .inr ⟨existing, found.symm, ?_, ?_, ?_, ?_⟩
    · exact AList.lookup_erase _ _
    · intro other different
      have others : StorageKey.outputPrimary other ≠ .outputPrimary outputId := by simpa using different
      have kept : (applyWrites false ((keysOf existing.value none).map deleteIndex) database.records).primary other =
          database.records.primary other := applyWrites_lookup_noIndex indexes (by simp)
      exact (AList.lookup_erase_ne others).trans kept
    · intro key record stored
      exact entry_of_deletes ((entry key).symm.trans stored)
    · intro key
      dsimp only
      rw [entry key, entry_deletes_isSome]
      simp only [Bool.and_eq_true, Bool.not_eq_true', decide_eq_false_iff_not]

section
variable {filed later : Nat → Option TransactionStatus} {before after : Records}

theorem Stored.filedIndexes (stored : Stored next status before after)
    (indexes : FiledIndexes filed before) (others : ∀ outputId, outputId ≠ next.outputId → later outputId = filed outputId)
    (filedAs : InStatusIndex next → later next.outputId = status)
    (replaced : ∀ old, before.primary next.outputId = some old → InStatusIndex old.value → filed next.outputId = status) :
    FiledIndexes later after := by
  rw [FiledIndexes.family_iff] at indexes ⊢
  apply stored.familyIndexes indexes others
  · intro key _
    rw [keysOf_congr filedAs]
  · intro old found key _
    rw [keysOf_congr (replaced old found)]

theorem Removed.filedIndexes (removed : Removed outputId old.value before after)
    (indexes : FiledIndexes filed before) (found : before.primary outputId = some old)
    (unfiled : InStatusIndex old.value → filed outputId = none) : FiledIndexes filed after := by
  have earlier {other : Nat} {record : Versioned TableOutput} (stored : after.primary other = some record) :
      before.primary other = some record := by
    by_cases same : other = outputId
    · subst same
      rw [removed.primary] at stored
      cases stored
    · exact removed.others other same ▸ stored
  constructor
  · intro other record stored
    exact indexes.keyed other record (earlier stored)
  · intro other record stored
    exact indexes.encodable other record (earlier stored)
  · intro key record stored owner owns
    exact indexes.owned key record (removed.owned key record stored) owner owns
  · intro key owner owns
    rw [removed.entries key]
    by_cases same : owner = outputId
    · subst same
      rw [removed.primary]
      constructor
      · rintro ⟨present, gone⟩
        obtain ⟨record, stored, member⟩ := (indexes.exact key owner owns).mp present
        rw [found] at stored
        cases stored
        rw [keysOf_congr unfiled] at member
        exact (gone member).elim
      · rintro ⟨record, stored, -⟩
        cases stored
    · rw [removed.others owner same, ← indexes.exact key owner owns]
      have kept : key ∉ keysOf old.value none := by
        intro member
        apply same
        rw [← indexes.keyed _ _ found]
        exact keysOf_owned owns member
      exact and_iff_left kept

theorem FiledIndexes.frame (indexes : FiledIndexes filed before) (primary : ∀ outputId, after.primary outputId = before.primary outputId)
    (entry : ∀ key, after.entry key = before.entry key) : FiledIndexes filed after := by
  rw [FiledIndexes.family_iff] at indexes ⊢
  exact indexes.frame primary fun key _ => entry key

theorem ReservesOne.filedIndexes {hash database candidate program} (reserves : ReservesOne hash database candidate program)
    (indexes : FiledIndexes filed database.records)
    (filedAs : ∀ outputId primary status, database.records.primary outputId = some primary → candidate primary.value status →
      InStatusIndex primary.value → filed outputId = status) :
    program.Ends (exec hash) database fun _ after => FiledIndexes filed after.records := by
  refine Program.Ends.mono reserves fun outcome after ends => ?_
  rcases ends with ⟨rfl, -⟩ | ⟨reservation, primary, found, chosen, -, stored⟩
  · exact indexes
  · have own := indexes.keyed _ _ found
    refine stored.filedIndexes indexes (fun _ _ => rfl) ?_ ?_
    · intro inIndex
      have spendable := inIndex.1
      rw [Reservation.next_spendable] at spendable
      cases spendable
    · intro old replaced inIndex
      rw [Reservation.next_outputId, own] at replaced ⊢
      rw [found] at replaced
      cases replaced
      exact filedAs _ primary _ found chosen inIndex

end

structure OutputPredicate where
  accepts : TableOutput → RocksDbM Bool
  reads : ∀ output, (accepts output).Uses Reads

inductive StoreOperation where
  | putRow (table : EntityTable) (row : Row table)
  | putOutput (output : TableOutput) (transactionStatus : Option TransactionStatus)
  | updateOutput (output : TableOutput) (transactionStatus : Option TransactionStatus)
  | deleteOutput (outputId : Nat)
  | reserveFirstSpendableOutput (userId basketId : Nat) (predicate : OutputPredicate) (transactionId : Nat)
  | reserveSpendableOutputByValue (userId basketId : Nat) (mode : SpendableValueReservationMode) (satoshis : Int)
      (predicate : OutputPredicate) (transactionId : Nat)
  | reserveSpendableOutputByStatusAndValue (userId basketId : Nat) (statuses : List TransactionStatus)
      (mode : SpendableValueReservationMode) (satoshis : Int) (predicate : OutputPredicate) (transactionId : Nat)

structure FiledStore where
  database : Database
  filed : Nat → Option TransactionStatus

namespace StoreOperation

def after (hash : ScriptHash) (store : FiledStore) : StoreOperation → FiledStore
  | .putRow table row => { store with database := ((StorageRocksDb.putEntity table row).run (exec hash) store.database).2 }
  | .putOutput output status =>
    { database := ((RocksDbWalletStore.putOutput hash output status).run (exec hash) store.database).2
      filed := Function.update store.filed output.outputId status }
  | .updateOutput output status =>
    { database := ((RocksDbWalletStore.updateOutput hash output status).run (exec hash) store.database).2
      filed := Function.update store.filed output.outputId status }
  | .deleteOutput outputId =>
    { store with database := ((RocksDbWalletStore.deleteOutput outputId).run (exec hash) store.database).2 }
  | .reserveFirstSpendableOutput userId basketId predicate transactionId =>
    { store with
      database := ((RocksDbWalletStore.reserveFirstSpendableOutput userId basketId predicate.accepts transactionId).run
        (exec hash) store.database).2 }
  | .reserveSpendableOutputByValue userId basketId mode satoshis predicate transactionId =>
    { store with
      database := ((RocksDbWalletStore.reserveSpendableOutputByValue userId basketId predicate.accepts transactionId mode satoshis).run
        (exec hash) store.database).2 }
  | .reserveSpendableOutputByStatusAndValue userId basketId statuses mode satoshis predicate transactionId =>
    { store with
      database := ((RocksDbWalletStore.reserveSpendableOutputByStatusAndValue userId basketId predicate.accepts transactionId mode
        satoshis statuses).run (exec hash) store.database).2 }

def KeepsStatus (store : FiledStore) : StoreOperation → Prop
  | .putOutput output status | .updateOutput output status =>
    (store.database.records.primary output.outputId).isSome = true → store.filed output.outputId = status
  | _ => True

/-- What the operation deletes, or may reserve, without a status is filed under none:
for a delete the output it names, for a reservation every output it may choose from. -/
def SparesFiled (hash : ScriptHash) (store : FiledStore) : StoreOperation → Prop
  | .deleteOutput outputId => ∀ stored, store.database.records.primary outputId = some stored →
    InStatusIndex stored.value → store.filed outputId = none
  | .reserveFirstSpendableOutput userId basketId predicate _ => ∀ outputId stored,
    store.database.records.primary outputId = some stored →
    Eligible hash store.database userId basketId predicate.accepts stored.value → store.filed outputId = none
  | .reserveSpendableOutputByValue userId basketId mode satoshis predicate _ => ∀ outputId stored,
    store.database.records.primary outputId = some stored →
    Eligible hash store.database userId basketId predicate.accepts stored.value → mode.Admits satoshis stored.value.satoshis →
    store.filed outputId = none
  | _ => True

end StoreOperation

inductive StoreReached (hash : ScriptHash) (permitted : FiledStore → StoreOperation → Prop) : FiledStore → Prop
  | empty : StoreReached hash permitted ⟨Database.empty, fun _ => none⟩
  | step {store : FiledStore} (reached : StoreReached hash permitted store) (operation : StoreOperation)
      (allowed : permitted store operation) : StoreReached hash permitted (operation.after hash store)

theorem filedIndexes_empty (filed : Nat → Option TransactionStatus) : FiledIndexes filed Database.empty.records where
  keyed := fun outputId record found => by cases found
  encodable := fun outputId record found => by cases found
  owned := fun key record found => by cases found
  exact := fun key owner _ => ⟨fun present => (Bool.false_ne_true present).elim, fun ⟨_, found, _⟩ => by cases found⟩

section
variable {hash : ScriptHash} {store : FiledStore}

theorem putOutput_filed (indexes : FiledIndexes store.filed store.database.records)
    (kept : (store.database.records.primary output.outputId).isSome = true → store.filed output.outputId = status) :
    (RocksDbWalletStore.putOutput hash output status).Ends (exec hash) store.database
      fun _ after => FiledIndexes (Function.update store.filed output.outputId status) after.records := by
  have same := applyOutputScriptMetadata_outputId hash output
  refine putOutput_run.mono fun outcome after ends => ?_
  rcases ends with ⟨rfl, -⟩ | ⟨-, stored⟩
  · cases found : store.database.records.primary output.outputId with
    | some record =>
      have unchanged := kept (by rw [found]; rfl)
      rw [← unchanged, Function.update_eq_self]
      exact indexes
    | none =>
      refine ⟨indexes.keyed, indexes.encodable, indexes.owned, fun key owner owns => ?_⟩
      rw [indexes.exact key owner owns]
      refine exists_congr fun record => and_congr_right fun held => ?_
      have other : owner ≠ output.outputId := by
        intro same
        rw [same, found] at held
        cases held
      rw [Function.update_of_ne other]
  · apply stored.filedIndexes indexes
    · intro outputId other
      rw [same] at other
      exact Function.update_of_ne other _ _
    · intro _
      rw [same]
      exact Function.update_self _ _ _
    · intro old found _
      rw [same] at found ⊢
      exact kept (by rw [found]; rfl)

theorem StoreOperation.filedIndexes {operation : StoreOperation} (keeps : operation.KeepsStatus store)
    (spares : operation.SparesFiled hash store) (indexes : FiledIndexes store.filed store.database.records) :
    FiledIndexes (operation.after hash store).filed (operation.after hash store).database.records := by
  cases operation with
  | putRow table row =>
    obtain ⟨primary, entry⟩ := StorageRocksDb.withRow_outputs table row store.database.records
    exact indexes.frame primary entry
  | putOutput output status => exact putOutput_filed indexes keeps
  | updateOutput output status => exact putOutput_filed indexes keeps
  | deleteOutput outputId =>
    rcases deleteOutput_run hash outputId store.database with unchanged | ⟨existing, found, removed⟩
    · simp only [after, unchanged]
      exact indexes
    · exact removed.filedIndexes indexes found (spares existing found)
  | reserveFirstSpendableOutput userId basketId predicate transactionId =>
    apply (reserveFirst_reserves predicate.reads indexes.keyed).filedIndexes indexes
    intro outputId primary status found candidate _
    obtain ⟨eligible, -, rfl⟩ := candidate
    exact spares outputId primary found eligible
  | reserveSpendableOutputByValue userId basketId mode satoshis predicate transactionId =>
    apply (reserveByValue_reserves indexes predicate.reads mode satoshis).filedIndexes indexes
    intro outputId primary status found candidate _
    obtain ⟨eligible, admitted, rfl⟩ := candidate
    exact spares outputId primary found eligible admitted
  | reserveSpendableOutputByStatusAndValue userId basketId statuses mode satoshis predicate transactionId =>
    apply (reserveByStatusAndValue_reserves indexes predicate.reads mode satoshis statuses).filedIndexes indexes
    intro outputId primary status found candidate _
    rw [← indexes.keyed _ _ found]
    exact candidate.2.1

theorem filedIndexes_of_reached (reached : StoreReached hash
    (fun store operation => operation.KeepsStatus store ∧ operation.SparesFiled hash store) store) :
    FiledIndexes store.filed store.database.records := by
  induction reached with
  | empty => exact filedIndexes_empty _
  | step _ operation allowed ih => exact operation.filedIndexes allowed.1 allowed.2 ih

/-- Over every run that spares what is filed under a status, the count is that of the
spendable stored outputs of the basket that are filed under one of the statuses. -/
theorem statusCount_exact (reached : StoreReached hash
      (fun store operation => operation.KeepsStatus store ∧ operation.SparesFiled hash store) store)
    (userId basketId : Nat) (user : (userId : Int) ≤ maxSafeInteger) (basket : (basketId : Int) ≤ maxSafeInteger)
    (statuses : List TransactionStatus) (distinct : statuses.Nodup) :
    ((countSpendableOutputsByTransactionStatus userId basketId statuses).run (exec hash) store.database).1 =
      .ok ((storedOutputs store.database.records).countP (SpendableIn store.filed userId basketId statuses)) := by
  rw [countByTransactionStatus_run hash (filedIndexes_of_reached reached) user basket distinct]

end

def runStore (operations : List StoreOperation) : FiledStore :=
  operations.foldl (StoreOperation.after noHash) ⟨Database.empty, fun _ => none⟩

def anyOutput : OutputPredicate := ⟨fun _ => return true, fun _ => trivial⟩

def filedOutputs : List StoreOperation :=
  [.putRow .outputs changeOutput, .putOutput changeOutput (some .completed),
    .putOutput { changeOutput with outputId := 2, vout := 1 } (some .completed)]

def reservedOutputs : List StoreOperation :=
  filedOutputs ++ [.reserveSpendableOutputByStatusAndValue 1 1 [.completed] .over 500 anyOutput 7]

/-- Both outputs are put for the first time, and the one that is left is counted. -/
theorem statusCount_exact_reserved :
    ((countSpendableOutputsByTransactionStatus 1 1 [.completed, .unproven]).run (exec noHash)
      (runStore reservedOutputs).database).1 = .ok 1 := by
  let permitted : FiledStore → StoreOperation → Prop := fun store operation =>
    operation.KeepsStatus store ∧ operation.SparesFiled noHash store
  have row : StoreReached noHash permitted (runStore (filedOutputs.take 1)) :=
    .step .empty (.putRow .outputs changeOutput) ⟨trivial, trivial⟩
  have first : StoreReached noHash permitted (runStore (filedOutputs.take 2)) := by
    refine .step row (.putOutput changeOutput (some .completed)) ⟨fun stored => ?_, trivial⟩
    have new : ((runStore (filedOutputs.take 1)).database.records.primary 1).isSome = false := by decide +kernel
    exact (Bool.false_ne_true (new.symm.trans stored)).elim
  have both : StoreReached noHash permitted (runStore filedOutputs) := by
    refine .step first (.putOutput { changeOutput with outputId := 2, vout := 1 } (some .completed)) ⟨fun stored => ?_, trivial⟩
    have new : ((runStore (filedOutputs.take 2)).database.records.primary 2).isSome = false := by decide +kernel
    exact (Bool.false_ne_true (new.symm.trans stored)).elim
  have reached : StoreReached noHash permitted (runStore reservedOutputs) :=
    .step both (.reserveSpendableOutputByStatusAndValue 1 1 [.completed] .over 500 anyOutput 7) ⟨trivial, trivial⟩
  rw [statusCount_exact reached 1 1 (by decide) (by decide) [.completed, .unproven] (by decide)]
  decide +kernel

def deletedOutput : FiledStore := runStore [.putOutput changeOutput (some .completed), .deleteOutput 1]

/-- A deleted output is counted still: its delete leaves the key of its status behind. -/
theorem deleted_output_counted :
    ¬∀ store : FiledStore, StoreReached noHash (fun store operation => operation.KeepsStatus store) store →
      ∀ (userId basketId : Nat), (userId : Int) ≤ maxSafeInteger → (basketId : Int) ≤ maxSafeInteger →
      ∀ statuses : List TransactionStatus, statuses.Nodup →
        ((countSpendableOutputsByTransactionStatus userId basketId statuses).run (exec noHash) store.database).1 =
          .ok ((storedOutputs store.database.records).countP (SpendableIn store.filed userId basketId statuses)) := by
  intro claim
  let permitted : FiledStore → StoreOperation → Prop := fun store operation => operation.KeepsStatus store
  have put : StoreReached noHash permitted (runStore [.putOutput changeOutput (some .completed)]) := by
    refine .step .empty (.putOutput changeOutput (some .completed)) fun stored => ?_
    have new : (Database.empty.records.primary 1).isSome = false := by decide +kernel
    exact (Bool.false_ne_true (new.symm.trans stored)).elim
  have reached : StoreReached noHash permitted deletedOutput := .step put (.deleteOutput 1) trivial
  have counted := claim deletedOutput reached 1 1 (by decide) (by decide) [.completed] (by decide)
  have one : ((countSpendableOutputsByTransactionStatus 1 1 [.completed]).run (exec noHash)
      deletedOutput.database).1 = .ok 1 := by decide +kernel
  have gone : (storedOutputs deletedOutput.database.records).countP (SpendableIn deletedOutput.filed 1 1 [.completed]) = 0 := by
    decide +kernel
  rw [one, gone] at counted
  cases counted

end WalletToolbox

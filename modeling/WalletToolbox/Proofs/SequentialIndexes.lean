import WalletToolbox.Proofs.ConcurrentAllocation
import WalletToolbox.Proofs.ReservedOutputs

/-! The output indexes over a run of provider calls, one after the other. An allocation
reads its output from the status index, so it knows the status the output is filed
under. -/

namespace WalletToolbox
open Effects Async StorageRocksDb

def Allocates (hash : ScriptHash) (database : Database) (program : RocksDbM (Option TableOutput)) : Prop :=
  program.Ends (exec hash) database fun outcome after =>
    after = database ∨ (∃ output, outcome = .ok (some output)) ∧ Indexed after.records

section
variable {hash : ScriptHash} {database : Database}

theorem Allocates.firstSome (left : Allocates hash database first)
    (right : Allocates hash database second) : Allocates hash database (.firstSome first second) := by
  refine Program.Ends.bind (left.mono fun outcome after ends => ?_)
  rcases ends with rfl | ⟨⟨output, rfl⟩, indexed⟩
  · match outcome with
    | .ok (some output) => exact .inl rfl
    | .ok none => exact right
    | .error error => exact .inl rfl
  · exact .inr ⟨⟨output, rfl⟩, indexed⟩

theorem Allocates.none : Allocates hash database (pure none) := .inl rfl

theorem ReservesOne.allocates (indexed : Indexed database.records)
    (reserves : ReservesOne hash database (fun output status => database.records.transactionStatus output = status) program) :
    Allocates hash database program := by
  refine Program.Ends.mono reserves fun outcome after ends => ?_
  rcases ends with ⟨unchanged, -⟩ | ⟨reservation, primary, found, filed, rfl, stored⟩
  · exact .inl unchanged
  · have held {old : Versioned TableOutput}
        (replaced : database.records.primary (reservation.next hash primary.value).outputId = some old) : old = primary := by
      rw [Reservation.next_outputId, indexed.consistent.keyed _ _ found, found] at replaced
      exact (Option.some.inj replaced).symm
    refine .inr ⟨⟨_, rfl⟩, stored.indexed indexed ?_ ⟨?_, ?_⟩⟩
    · intro inIndex
      have spendable := inIndex.1
      rw [Reservation.next_spendable] at spendable
      cases spendable
    · intro old replaced inIndex
      rw [held replaced]
      exact filed
    · intro old replaced key member absent
      rw [held replaced] at member
      have kept : outpointKeysOf (reservation.next hash primary.value) = outpointKeysOf primary.value :=
        outpointKeysOf_metadata hash _
      rw [kept] at absent
      exact (absent member).elim

end

section
variable {hash : ScriptHash} {database : Database} (indexed : Indexed database.records)
include indexed

theorem allocateByMode_allocates (args : AllocateArgs) (mode : SpendableValueReservationMode) (satoshis : Int) (accepts : TableOutput → Bool) :
    Allocates hash database
      (allocateByMode args.userId args.basketId args.excludeSending args.transactionId mode satoshis accepts) := by
  apply ReservesOne.allocates indexed
  apply (RocksDbWalletStore.reserveByStatusAndValue_reserves indexed.consistent.filedIndexes (offers_uses _ accepts) mode satoshis _).mono
  intro outputId primary status found candidate
  have filed := candidate.2.1
  rw [indexed.consistent.keyed _ _ found] at filed
  dsimp only at filed
  rw [found] at filed
  exact filed

theorem allocateChangeInput_indexed (args : AllocateArgs) :
    args.program.Ends (exec hash) database fun _ after => Indexed after.records := by
  have first : Allocates hash database (allocateExactly args.userId args.basketId args.exactSatoshis
      args.excludeSending args.transactionId) := by
    unfold allocateExactly
    split
    · exact Allocates.none
    · exact allocateByMode_allocates indexed args ..
  have allocates := first.firstSome ((allocateByMode_allocates indexed args .over args.targetSatoshis
    fun o => o.satoshis ≥ args.targetSatoshis).firstSome (allocateByMode_allocates indexed args .under args.targetSatoshis
      fun o => o.satoshis < args.targetSatoshis))
  refine Program.Ends.bind (allocates.mono fun outcome after ends => ?_)
  have still : Indexed after.records := by
    rcases ends with rfl | ⟨-, indexed⟩
    · exact indexed
    · exact indexed
  match outcome with
  | .error error => exact still
  | .ok none => exact still
  | .ok (some output) =>
    refine Program.Ends.after (validateOutputScript_uses output) Reads.unchanged (fun _ _ => ?_) fun _ => still
    exact still

end

inductive OutputOperation where
  | insertTransaction (tx : TableTransaction)
  | insertOutput (output : TableOutput)
  | updateOutput (id : Nat) (update : OutputUpdate)
  | updateTransaction (ids : List Nat) (update : TransactionUpdate)
  | allocateChangeInput (args : AllocateArgs)

def RefilesEach (hash : ScriptHash) : List Nat → TransactionUpdate → Database → Prop
  | [], _, _ => True
  | id :: rest, update, database => RefilesOwn database.records id update ∧
      RefilesEach hash rest update ((updateOneTransaction id update).run (exec hash) database).2

namespace OutputOperation

/-- The database once the call has settled. -/
def after (hash : ScriptHash) (database : Database) : OutputOperation → Database
  | .insertTransaction tx => ((StorageRocksDb.insertTransaction tx).run (exec hash) database).2
  | .insertOutput output => ((StorageRocksDb.insertOutput hash output).run (exec hash) database).2
  | .updateOutput id update => ((StorageRocksDb.updateOutput hash id update).run (exec hash) database).2
  | .updateTransaction ids update => ((StorageRocksDb.updateTransaction ids update).run (exec hash) database).2
  | .allocateChangeInput args => (args.program.run (exec hash) database).2

/-- The call moves no output between statuses behind the back of the index, and deletes
no key that another output has as well. -/
def FilesCleanly (hash : ScriptHash) (database : Database) : OutputOperation → Prop
  | .insertTransaction tx =>
    let row : TableTransaction := (prepared .transactions tx database).1
    StatusKept database.records row.transactionId row.status
  | .insertOutput output =>
    StoresCleanly database.records (prepared .outputs (applyOutputScriptMetadata hash output) database).1
  | .updateOutput id update => ∀ existing, database.records.row .outputs (.id id) = some existing →
    StoresCleanly database.records (StorageRocksDb.updatedRow id update existing.value)
  | .updateTransaction ids update => RefilesEach hash ids update database
  | .allocateChangeInput _ => True

def WithTransaction (database : Database) : OutputOperation → Prop
  | .insertOutput output => (database.records.row .transactions (.id output.transactionId)).isSome = true
  | _ => True

end OutputOperation

inductive Reached (hash : ScriptHash) (permitted : Database → OutputOperation → Prop) : Database → Prop
  | empty : Reached hash permitted Database.empty
  | step {database : Database} (reached : Reached hash permitted database) (operation : OutputOperation)
      (allowed : permitted database operation) : Reached hash permitted (operation.after hash database)

structure IndexesExact (records : Records) : Prop where
  defined : ∀ outputId record, records.primary outputId = some record →
    ∃ puts, indexPutsForOutput record.value (records.transactionStatus record.value) = .ok puts
  exact : ∀ key, (records.entry key).isSome = true ↔ ∃ outputId record puts, records.primary outputId = some record ∧
    indexPutsForOutput record.value (records.transactionStatus record.value) = .ok puts ∧ .index key ∈ puts.map Write.key

theorem Indexed.indexesExact (indexed : Indexed records) : IndexesExact records := by
  have puts {outputId : Nat} {record : Versioned TableOutput} (found : records.primary outputId = some record) :
      indexPutsForOutput record.value (records.transactionStatus record.value) =
        .ok ((keysOf record.value (records.transactionStatus record.value)).map (putIndex record.value)) :=
    indexPutsForOutput_ok.mpr ⟨_, indexed.consistent.encodable _ _ found _, rfl⟩
  constructor
  · intro outputId record found
    exact ⟨_, puts found⟩
  · intro key
    rw [indexed.consistent.exact key]
    refine exists_congr fun outputId => exists_congr fun record => ?_
    constructor
    · rintro ⟨found, member⟩
      refine ⟨_, found, puts found, ?_⟩
      simpa [Write.key, putIndex] using member
    · rintro ⟨built, found, made, member⟩
      rw [puts found] at made
      cases made
      refine ⟨found, ?_⟩
      simpa [Write.key, putIndex] using member

section
variable {hash : ScriptHash} {database : Database}

theorem updateTransaction_indexed (indexed : Indexed database.records) (ids : List Nat) (update : TransactionUpdate)
    (refiles : RefilesEach hash ids update database) :
    (StorageRocksDb.updateTransaction ids update).Ends (exec hash) database fun _ after => Indexed after.records := by
  induction ids generalizing database with
  | nil => exact indexed
  | cons id rest ih =>
    have first : Indexed ((updateOneTransaction id update).run (exec hash) database).2.records :=
      updateOneTransaction_indexed indexed id update refiles.1
    have later := ih first refiles.2
    unfold StorageRocksDb.updateTransaction
    apply Program.Ends.bind
    unfold Program.Ends
    rcases ran : (updateOneTransaction id update).run (exec hash) database with ⟨outcome, after⟩
    rw [ran] at first later
    cases outcome with
    | error error => exact first
    | ok count => exact later.returns (count + ·)

theorem OutputOperation.FilesCleanly.indexed {operation : OutputOperation} (cleanly : operation.FilesCleanly hash database)
    (indexed : Indexed database.records) : Indexed (operation.after hash database).records := by
  cases operation with
  | insertTransaction tx => exact insertTransaction_indexed indexed tx cleanly
  | insertOutput output => exact insertOutput_indexed indexed output cleanly
  | updateOutput id update => exact updateOutput_indexed indexed id update cleanly
  | updateTransaction ids update => exact updateTransaction_indexed indexed ids update cleanly
  | allocateChangeInput args => exact allocateChangeInput_indexed indexed args

theorem indexed_of_reached (reached : Reached hash (OutputOperation.FilesCleanly hash) database) : Indexed database.records := by
  induction reached with
  | empty => exact indexed_empty
  | step _ operation cleanly ih => exact cleanly.indexed ih

/-- Over every run whose calls file cleanly, no index key is missing and none is stale. -/
theorem outputIndexes_exact (reached : Reached hash (OutputOperation.FilesCleanly hash) database) : IndexesExact database.records :=
  (indexed_of_reached reached).indexesExact

end

def runOperations (operations : List OutputOperation) : Database :=
  operations.foldl (OutputOperation.after noHash) Database.empty

def newTransaction (status : TransactionStatus) : TableTransaction := { changeTransaction with transactionId := 0, status }
def newOutput : TableOutput := { changeOutput with outputId := 0 }

theorem outputIndexes_exact_status :
    IndexesExact (runOperations [.insertTransaction (newTransaction .completed), .insertOutput newOutput,
      .updateTransaction [1] { status := some .unproven }]).records ∧
    ((runOperations [.insertTransaction (newTransaction .completed), .insertOutput newOutput,
      .updateTransaction [1] { status := some .unproven }]).records.entry
        (.spendableBasketStatusValue 1 1 "unproven" 1000 1)).isSome = true := by
  have first : Reached noHash (OutputOperation.FilesCleanly noHash) (runOperations [.insertTransaction (newTransaction .completed)]) := by
    refine .step .empty (.insertTransaction (newTransaction .completed)) ?_
    intro outputId record found
    cases found
  have second : Reached noHash (OutputOperation.FilesCleanly noHash)
      (runOperations [.insertTransaction (newTransaction .completed), .insertOutput newOutput]) := by
    refine .step first (.insertOutput newOutput) ?_
    have new : (runOperations [.insertTransaction (newTransaction .completed)]).records.primary 1 = none := by decide +kernel
    exact StoresCleanly.of_new new
  refine ⟨outputIndexes_exact (.step second (.updateTransaction [1] { status := some .unproven }) ?_), by decide +kernel⟩
  exact ⟨.of_unnamed (indexed_of_reached second) rfl, trivial⟩

def movedOutput : Database :=
  runOperations [.insertTransaction (newTransaction .completed), .insertTransaction (newTransaction .unproven),
    .insertOutput newOutput, .updateOutput 1 { transactionId := some 2 }]

theorem outputIndexes_stale :
    ¬ ∀ database, Reached noHash OutputOperation.WithTransaction database → IndexesExact database.records := by
  intro claim
  have reached : Reached noHash OutputOperation.WithTransaction movedOutput := by
    refine .step (.step (.step (.step .empty (.insertTransaction (newTransaction .completed)) ?_)
      (.insertTransaction (newTransaction .unproven)) ?_) (.insertOutput newOutput) ?_) (.updateOutput 1 { transactionId := some 2 }) ?_
    · trivial
    · trivial
    · show Option.isSome _ = true
      decide +kernel
    · trivial
  have stale : (movedOutput.records.entry (.spendableBasketStatusValue 1 1 "completed" 1000 1)).isSome = true := by decide +kernel
  obtain ⟨outputId, record, puts, found, built, member⟩ := ((claim movedOutput reached).exact _).mp stale
  have only : movedOutput.records.primaryIds = [1] := by decide +kernel
  have one := List.mem_singleton.mp (only ▸ mem_primaryIds found)
  subst one
  have filed : (movedOutput.records.primary 1).map (fun record => movedOutput.records.transactionStatus record.value) =
      some (some .unproven) := by decide +kernel
  rw [found] at filed
  have unproven := Option.some.inj filed
  obtain ⟨keys, keyed, rfl⟩ := indexPutsForOutput_ok.mp built
  have inKeys : .spendableBasketStatusValue 1 1 "completed" 1000 1 ∈ keys := by simpa [Write.key, putIndex] using member
  rw [outputIndexKeys_ok keyed] at inKeys
  obtain ⟨basketId, status, -, -, under, key⟩ := statusKeysOf_shape (keysOf_family inKeys)
  cases unproven.symm.trans under
  injection key with _ _ text
  exact absurd text (by decide)

end WalletToolbox

import WalletToolbox.Async.Pool
import WalletToolbox.Proofs.Records
import WalletToolbox.Proofs.Reads

/-! Concurrent change allocation. An allocator changes the store in one place only,
its native reservations. A committed reservation locks both copies of its output,
no reservation fits a locked output, and an allocator that returns an output has
committed a reservation of it. -/

namespace WalletToolbox
open Async Reservation StorageRocksDb

structure Locked (outputId transactionId : Nat) (records : Records) : Prop where
  primary : ∃ record, records.primary outputId = some record ∧
    record.value.spendable = false ∧ record.value.spentBy = some transactionId
  entity : ∃ record, records.row .outputs (.id outputId) = some record ∧
    record.value.spendable = false ∧ record.value.spentBy = some transactionId

def Keyed (records : Records) : Prop :=
  ∀ outputId record, records.primary outputId = some record → record.value.outputId = outputId

def Records.primaryIds (records : Records) : List Nat :=
  records.keys.filterMap fun key => match key with
    | .outputPrimary outputId => some outputId
    | _ => none

theorem mem_primaryIds {records : Records}
    (stored : records.primary outputId = some record) : outputId ∈ records.primaryIds := by
  refine List.mem_filterMap.mpr ⟨.outputPrimary outputId, ?_, rfl⟩
  exact AList.mem_keys.mp (AList.lookup_isSome.mp (Option.isSome_iff_exists.mpr ⟨record, stored⟩))

instance (records : Records) : Decidable (Keyed records) :=
  decidable_of_iff (∀ outputId ∈ records.primaryIds, ∀ record ∈ records.primary outputId, record.value.outputId = outputId)
    ⟨fun every outputId record stored => every outputId (mem_primaryIds stored) record stored,
      fun keyed outputId _ record stored => keyed outputId record stored⟩

structure AllocateArgs where
  userId : Nat
  basketId : Nat
  targetSatoshis : Int
  exactSatoshis : Option Int
  excludeSending : Bool
  transactionId : Nat

def AllocateArgs.program (args : AllocateArgs) : RocksDbM (Option TableOutput) :=
  allocateChangeInput args.userId args.basketId args.targetSatoshis args.exactSatoshis args.excludeSending
    args.transactionId

def AllocatorOp (transactionId : Nat) : DbOp → Prop
  | .reserve reservation => reservation.transactionId = transactionId
  | op => Reads op

def Reserves (transactionId outputId : Nat) (event : Event rocksDb) : Prop :=
  ∃ reservation output, event = ⟨.reserve reservation, .ok (some output)⟩ ∧
    reservation.transactionId = transactionId ∧ output.outputId = outputId

def ReturnsReserved (transactionId : Nat) (past : List (Event rocksDb)) (outcome : Except WalletError (Option TableOutput)) : Prop :=
  ∀ output, outcome = .ok (some output) → ∃ event ∈ past, Reserves transactionId output.outputId event

theorem AllocatorOp.of_reads {transactionId op} (reads : Reads op) : AllocatorOp transactionId op := by
  cases op <;> first | exact reads | exact reads.elim

section
variable {α : Type} {program : RocksDbM α} {transactionId : Nat}

theorem allocatorUses (uses : program.Uses Reads) : program.Uses (AllocatorOp transactionId) :=
  uses.mono fun _ => AllocatorOp.of_reads

end

namespace RocksDbWalletStore
variable {userId basketId transactionId : Nat} {predicate : TableOutput → RocksDbM Bool}
  (predicateReads : ∀ output, (predicate output).Uses Reads) (status : Option TransactionStatus)

theorem tryReserve_uses (outputRecord) :
    (tryReserveSpendableOutput outputRecord userId basketId transactionId status).Uses (AllocatorOp transactionId) :=
  (Program.Uses.ofExcept _).bind fun _ => ⟨rfl, fun _ => Program.Uses.ofExcept _⟩

include predicateReads

theorem reserveIndexEntry_uses (outputId : Nat) :
    (reserveIndexEntry userId basketId predicate transactionId status outputId).Uses (AllocatorOp transactionId) := by
  refine (allocatorUses (getPrimary_uses outputId)).bind fun record => ?_
  cases record with
  | none => trivial
  | some record =>
    dsimp only
    split
    · refine (allocatorUses (predicateReads _)).bind fun accepted => ?_
      split
      · exact tryReserve_uses _ _
      · trivial
    · trivial

theorem reserveFirstOfEntries_uses (entries) :
    (reserveFirstOfEntries userId basketId predicate transactionId status entries).Uses (AllocatorOp transactionId) := by
  induction entries with
  | nil => trivial
  | cons entry rest ih => exact (reserveIndexEntry_uses predicateReads status _).firstSome ih

theorem reserveFromIndexRange_uses (range) :
    (reserveFirstSpendableOutputFromIndexRange userId basketId predicate transactionId range status).Uses
      (AllocatorOp transactionId) :=
  ⟨trivial, fun _ => reserveFirstOfEntries_uses predicateReads status _⟩

theorem reserveFirstOfRanges_uses (ranges) :
    (reserveFirstOfRanges userId basketId predicate transactionId status ranges).Uses (AllocatorOp transactionId) := by
  induction ranges with
  | nil => trivial
  | cons range rest ih => exact (reserveFromIndexRange_uses predicateReads status range).firstSome ih

omit predicateReads in
theorem bucketSeed_uses (status) (satoshis : Int) :
    (spendableStatusValueBucketSeed userId basketId transactionId status satoshis).Uses Reads := by
  have first (keyPrefix : IndexPrefix) (reverse : Bool) : (firstSpendableValueOutputIdInBucket keyPrefix reverse).Uses Reads :=
    ⟨trivial, fun _ => trivial⟩
  refine (Program.Uses.ofExcept _).bind fun keyPrefix => (first _ _).bind fun lowest => (first _ _).bind fun highest => ?_
  split
  · split <;> trivial
  · trivial

variable (mode : SpendableValueReservationMode) (satoshis : Int)

theorem reserveSeededBucket_uses (status) (seeded) :
    (reserveSeededBucket userId basketId predicate transactionId mode status seeded).Uses (AllocatorOp transactionId) := by
  cases seeded with
  | none => trivial
  | some seeded =>
    refine (allocatorUses (bucketSeed_uses status seeded)).bind fun seed => (Program.Uses.ofExcept _).bind fun ranges => ?_
    exact reserveFirstOfRanges_uses predicateReads _ ranges

theorem reserveOfStatus_uses (status) :
    (reserveSpendableOutputOfStatus userId basketId predicate transactionId mode satoshis status).Uses
      (AllocatorOp transactionId) := by
  refine (Program.Uses.ofExcept _).bind fun range => Program.Uses.bind ?_ fun seeded => ?_
  · match mode with
    | .exact => trivial
    | .over | .under => exact ⟨trivial, fun _ => trivial⟩
  · exact (reserveSeededBucket_uses predicateReads mode status seeded).firstSome
      (reserveFromIndexRange_uses predicateReads _ range)

theorem reserveByStatusAndValue_uses (statuses) :
    (reserveSpendableOutputByStatusAndValue userId basketId predicate transactionId mode satoshis statuses).Uses
      (AllocatorOp transactionId) := by
  induction statuses with
  | nil => trivial
  | cons status rest ih => exact (reserveOfStatus_uses predicateReads mode satoshis status).firstSome ih

end RocksDbWalletStore

theorem allocateByMode_uses (userId basketId : Nat) (excludeSending : Bool) (transactionId : Nat)
    (mode) (satoshis : Int) (accepts : TableOutput → Bool) :
    (allocateByMode userId basketId excludeSending transactionId mode satoshis accepts).Uses
      (AllocatorOp transactionId) := by
  exact RocksDbWalletStore.reserveByStatusAndValue_uses (offers_uses _ accepts) mode satoshis _

theorem allocateChangeInput_uses (args : AllocateArgs) : args.program.Uses (AllocatorOp args.transactionId) := by
  refine Program.Uses.bind (.firstSome ?_ (.firstSome (allocateByMode_uses ..) (allocateByMode_uses ..))) fun output => ?_
  · unfold allocateExactly
    split
    · trivial
    · exact allocateByMode_uses ..
  · cases output with
    | none => trivial
    | some output =>
      exact (allocatorUses (validateOutputScript_uses output)).bind fun _ => trivial

section
variable {past more : List (Event rocksDb)} {outcome : Except WalletError (Option TableOutput)} {transactionId : Nat}

theorem ReturnsReserved.error {error} : ReturnsReserved transactionId past (.error error) := by
  rintro _ ⟨⟩
theorem ReturnsReserved.none : ReturnsReserved transactionId past (.ok none) := by
  rintro _ ⟨⟩

namespace RocksDbWalletStore
variable {userId basketId : Nat} {predicate : TableOutput → RocksDbM Bool} (status : Option TransactionStatus)

theorem tryReserve_settles (outputRecord) :
    (tryReserveSpendableOutput outputRecord userId basketId transactionId status).Settles (ReturnsReserved transactionId) past := by
  refine .seq (fun _ more _ reply => .ofExcept fun output found => ?_) fun _ _ _ => .error
  subst found
  exact ⟨_, List.mem_append_right _ (.head _), _, output, rfl, rfl, rfl⟩

theorem reserveIndexEntry_settles (outputId : Nat) :
    (reserveIndexEntry userId basketId predicate transactionId status outputId).Settles (ReturnsReserved transactionId) past := by
  refine .seq (fun record more _ => ?_) fun _ _ _ => .error
  cases record with
  | none => exact ReturnsReserved.none
  | some record =>
    dsimp only
    split
    · refine .seq (fun accepted more _ => ?_) fun _ _ _ => .error
      split
      · exact tryReserve_settles status record
      · exact ReturnsReserved.none
    · exact ReturnsReserved.none

theorem reserveFirstOfEntries_settles (entries) :
    (reserveFirstOfEntries userId basketId predicate transactionId status entries).Settles (ReturnsReserved transactionId) past := by
  induction entries generalizing past with
  | nil => exact ReturnsReserved.none
  | cons entry rest ih => exact (reserveIndexEntry_settles status _).firstSome fun _ _ => ih

theorem reserveFromIndexRange_settles (range) :
    (reserveFirstSpendableOutputFromIndexRange userId basketId predicate transactionId range status).Settles
      (ReturnsReserved transactionId) past :=
  fun _ => reserveFirstOfEntries_settles status _

theorem reserveFirstOfRanges_settles (ranges) :
    (reserveFirstOfRanges userId basketId predicate transactionId status ranges).Settles (ReturnsReserved transactionId) past := by
  induction ranges generalizing past with
  | nil => exact ReturnsReserved.none
  | cons range rest ih => exact (reserveFromIndexRange_settles status range).firstSome fun _ _ => ih

variable (mode : SpendableValueReservationMode) (satoshis : Int)

theorem reserveSeededBucket_settles (status) (seeded) :
    (reserveSeededBucket userId basketId predicate transactionId mode status seeded).Settles (ReturnsReserved transactionId) past := by
  cases seeded with
  | none => exact ReturnsReserved.none
  | some seeded =>
    refine .seq (fun seed _ _ => .seq (fun ranges _ _ => ?_) fun _ _ _ => .error) fun _ _ _ => .error
    exact reserveFirstOfRanges_settles _ ranges

theorem reserveOfStatus_settles (status) :
    (reserveSpendableOutputOfStatus userId basketId predicate transactionId mode satoshis status).Settles
      (ReturnsReserved transactionId) past := by
  refine .seq (fun range _ _ => .seq (fun seeded _ _ => ?_) fun _ _ _ => .error) fun _ _ _ => .error
  exact (reserveSeededBucket_settles mode status seeded).firstSome fun _ _ => reserveFromIndexRange_settles _ range

theorem reserveByStatusAndValue_settles (statuses) :
    (reserveSpendableOutputByStatusAndValue userId basketId predicate transactionId mode satoshis statuses).Settles
      (ReturnsReserved transactionId) past := by
  induction statuses generalizing past with
  | nil => exact ReturnsReserved.none
  | cons status rest ih => exact (reserveOfStatus_settles mode satoshis status).firstSome fun _ _ => ih

end RocksDbWalletStore

theorem validateOutputScript_settles (past) (output) :
    (validateOutputScript output).Settles
      (fun _ outcome => ∀ validated, outcome = .ok validated → ∃ lockingScript, validated = { output with lockingScript }) past := by
  have unchanged : ∀ validated, (Except.ok output : Except WalletError _) = .ok validated →
      ∃ lockingScript, validated = { output with lockingScript } := by
    rintro validated ⟨⟩; exact ⟨output.lockingScript, rfl⟩
  unfold validateOutputScript
  split
  · split
    · exact unchanged
    · refine .seq (fun script _ _ => ?_) fun _ _ _ => by rintro _ ⟨⟩
      cases script with
      | none => exact unchanged
      | some script => rintro validated ⟨⟩; exact ⟨some script, rfl⟩
  · exact unchanged

theorem allocateChangeInput_settles (past) (args : AllocateArgs) :
    args.program.Settles (ReturnsReserved args.transactionId) past := by
  have mode {past : List (Event rocksDb)} (mode : SpendableValueReservationMode) (satoshis : Int) (accepts : TableOutput → Bool) :
      (allocateByMode args.userId args.basketId args.excludeSending args.transactionId mode satoshis accepts).Settles
        (ReturnsReserved args.transactionId) past := RocksDbWalletStore.reserveByStatusAndValue_settles ..
  refine .bind (.mono (.firstSome ?_ fun _ _ =>
    (mode ..).firstSome fun _ _ => mode ..) fun more outcome _ returns => ?_)
  · unfold allocateExactly
    split
    · exact ReturnsReserved.none
    · exact mode ..
  · match outcome with
    | .error error => exact .error
    | .ok none => exact .none
    | .ok (some output) =>
      refine .bind ((validateOutputScript_settles more output).mono fun later outcome grown same => ?_)
      match outcome with
      | .error error => exact .error
      | .ok validated =>
        rintro final ⟨⟩
        obtain ⟨lockingScript, rfl⟩ := same validated rfl
        obtain ⟨event, member, reserves⟩ := returns output rfl
        exact ⟨event, grown.subset member, reserves⟩

end

structure Commits (transactionId : Nat) (output : TableOutput) (before after : Records) : Prop where
  free : ∃ record, before.primary output.outputId = some record ∧ record.value.spendable = true
  locked : Locked output.outputId transactionId after
  frame : ∀ key : StorageKey, (∀ indexKey, key ≠ .index indexKey) → key ≠ .outputPrimary output.outputId →
    key ≠ .entity .outputs (.id output.outputId) → after.lookup key = before.lookup key
  keyed : Keyed after

section
variable {hash : ScriptHash} {database : Database}

@[simp] theorem Reservation.next_outputId (reservation : Reservation) (current) :
    (reservation.next hash current).outputId = current.outputId := applyOutputScriptMetadata_outputId _ _
@[simp] theorem Reservation.next_spendable (reservation : Reservation) (current) :
    (reservation.next hash current).spendable = false := applyOutputScriptMetadata_spendable _ _
@[simp] theorem Reservation.next_spentBy (reservation : Reservation) (current) :
    (reservation.next hash current).spentBy = some reservation.transactionId := applyOutputScriptMetadata_spentBy _ _

theorem reserve_commits (hash) (keyed : Keyed database.records) (reservation : Reservation) :
    (∃ output after, exec hash (.reserve reservation) database = (.ok (some output), after) ∧
      Commits reservation.transactionId output database.records after.records) ∨
    ∃ reply, (∀ output, reply ≠ .ok (some output)) ∧ exec hash (.reserve reservation) database = (reply, database) := by
  obtain ⟨primary, entity, deletes, puts, stored, -, fits, deleted, filled, result⟩ | unchanged :=
    reserve_cases hash reservation database
  · refine .inl ⟨_, _, result, ?_⟩
    have same : (reservation.next hash primary.value).outputId = reservation.output.value.outputId := by
      rw [next_outputId, keyed _ _ stored]
    have indexPuts : ∀ write ∈ puts, ∃ key, write.key = .index key := fun _ => indexPuts_key filled
    refine ⟨?_, ⟨?_, ?_⟩, ?_, ?_⟩
    · exact ⟨primary, same ▸ stored, fits.2.2.2.2.1⟩
    · rw [same]
      exact ⟨_, commit_primary indexPuts, next_spendable .., next_spentBy ..⟩
    · rw [same]
      exact ⟨_, commit_row indexPuts, next_spendable .., next_spentBy ..⟩
    · rw [same]
      exact fun key => commit_other (fun write => indexDeletes_key deleted) indexPuts
    · intro outputId record found
      by_cases here : outputId = reservation.output.value.outputId
      · subst here
        dsimp only at found
        rw [commit_primary indexPuts] at found
        cases found
        exact same
      · refine keyed _ _ (Eq.trans ?_ found)
        exact (commit_other (fun write => indexDeletes_key deleted) indexPuts (by simp) (by simpa using here) (by simp)).symm
  · exact .inr unchanged

theorem Reserves.commits {transactionId outputId op} (keyed : Keyed database.records)
    (reserves : Reserves transactionId outputId ⟨op, (exec hash op database).1⟩) :
    ∃ output : TableOutput, output.outputId = outputId ∧
      Commits transactionId output database.records (exec hash op database).2.records := by
  obtain ⟨reservation, output, shape, rfl, rfl⟩ := reserves
  cases op with
  | reserve other =>
    obtain ⟨stored, after, result, commits⟩ | ⟨reply, none, result⟩ := reserve_commits hash keyed other
    · rw [result] at shape ⊢
      cases shape
      exact ⟨output, rfl, commits⟩
    · rw [result] at shape
      cases shape
      exact (none output rfl).elim
  | get | put | remove | scan | getRange | nextId => cases shape

theorem Locked.not_free {outputId transactionId records} (locked : Locked outputId transactionId records) :
    ¬ ∃ record, records.primary outputId = some record ∧ record.value.spendable = true := by
  rintro ⟨record, stored, spendable⟩
  obtain ⟨other, found, taken, -⟩ := locked.primary
  rw [stored] at found
  cases found
  simp [spendable] at taken

theorem Commits.keeps_locked {transactionId other by_ output before after}
    (commits : Commits transactionId output before after) (locked : Locked other by_ before) : Locked other by_ after := by
  have different : other ≠ output.outputId := by
    rintro rfl
    exact locked.not_free commits.free
  obtain ⟨primary, entity⟩ := locked
  constructor
  · rw [Records.primary, commits.frame _ (by simp) (by simpa using different) (by simp)]
    exact primary
  · rw [Records.row, commits.frame _ (by simp) (by simp) (by simpa using different)]
    exact entity

theorem allocatorOp_cases (hash) {transactionId op} (allowed : AllocatorOp transactionId op)
    (keyed : Keyed database.records) :
    (∃ output, Reserves transactionId output.outputId ⟨op, (exec hash op database).1⟩ ∧
      Commits transactionId output database.records (exec hash op database).2.records) ∨
    (∀ by_ outputId, ¬ Reserves by_ outputId ⟨op, (exec hash op database).1⟩) ∧ (exec hash op database).2 = database := by
  have noReservation (reads : Reads op) : ∀ by_ outputId, ¬ Reserves by_ outputId ⟨op, (exec hash op database).1⟩ := by
    rintro by_ outputId ⟨reservation, output, shape, -, -⟩
    cases op <;> first | exact reads.elim | cases shape
  cases op with
  | reserve reservation =>
    obtain rfl : reservation.transactionId = transactionId := allowed
    obtain ⟨output, after, result, commits⟩ | ⟨reply, none, result⟩ := reserve_commits hash keyed reservation
    · rw [result]
      exact .inl ⟨output, ⟨reservation, output, rfl, rfl, rfl⟩, commits⟩
    · rw [result]
      refine .inr ⟨?_, rfl⟩
      rintro by_ outputId ⟨other, output, shape, -, -⟩
      cases shape
      exact none output rfl
  | get key => exact .inr ⟨noReservation trivial, rfl⟩
  | scan table => exact .inr ⟨noReservation trivial, rfl⟩
  | getRange range => exact .inr ⟨noReservation trivial, rfl⟩
  | put | remove | nextId => exact allowed.elim

end

end WalletToolbox

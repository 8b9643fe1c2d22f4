import WalletToolbox.Proofs.Allocation

/-! Any number of allocators on one store, interleaved at their awaits in any order. -/

namespace WalletToolbox
open Async

abbrev AllocationPool (ι : Type) := Pool rocksDb WalletError (Option TableOutput) Database ι

def startAllocations {ι : Type} (request : ι → AllocateArgs) (database : Database) : AllocationPool ι :=
  .start database fun caller => (request caller).program

def HasReserved {ι : Type} (request : ι → AllocateArgs) (pool : AllocationPool ι) (caller : ι) (outputId : Nat) : Prop :=
  ∃ event ∈ (pool.task caller).past, Reserves (request caller).transactionId outputId event

structure Exclusive {ι : Type} (request : ι → AllocateArgs) (pool : AllocationPool ι) : Prop where
  keyed : Keyed pool.store.records
  locked : ∀ caller outputId, HasReserved request pool caller outputId →
    Locked outputId (request caller).transactionId pool.store.records
  once : ∀ caller other outputId, HasReserved request pool caller outputId → HasReserved request pool other outputId →
    caller = other

section
variable {ι : Type} [DecidableEq ι] {hash : ScriptHash} {request : ι → AllocateArgs} {database : Database}
  {pool after : AllocationPool ι} {caller : ι}

theorem hasReserved_advance {next : op.Reply → RocksDbM (Option TableOutput)}
    (tasks : after.task = Function.update pool.task caller
      ⟨(pool.task caller).past ++ [⟨op, (exec hash op pool.store).1⟩], next (exec hash op pool.store).1⟩) : HasReserved request after other outputId ↔ HasReserved request pool other outputId ∨
      other = caller ∧ Reserves (request caller).transactionId outputId ⟨op, (exec hash op pool.store).1⟩ := by
  unfold HasReserved
  rw [tasks]
  by_cases same : other = caller
  · subst same
    simp only [Function.update_self, List.mem_append, List.mem_singleton, or_and_right, exists_or, exists_eq_left, true_and]
  · simp only [Function.update_of_ne same, same, false_and, or_false]

theorem Exclusive.advance (exclusive : Exclusive request pool)
    (uses : (pool.task caller).program.Uses (AllocatorOp (request caller).transactionId))
    (moves : pool.advance (exec hash) caller = some after) : Exclusive request after := by
  obtain ⟨op, next, awaiting, store, tasks⟩ := Pool.advance_cases moves
  rw [awaiting] at uses
  have reserved {other outputId} : HasReserved request after other outputId ↔ HasReserved request pool other outputId ∨
      other = caller ∧ Reserves (request caller).transactionId outputId ⟨op, (exec hash op pool.store).1⟩ := hasReserved_advance tasks
  obtain ⟨output, reserves, commits⟩ | ⟨nothing, unchanged⟩ := allocatorOp_cases hash uses.1 exclusive.keyed
  · -- the reserved output was free, so nobody had reserved it before
    have fresh {other : ι} (before : HasReserved request pool other output.outputId) : False :=
      (exclusive.locked other _ before).not_free commits.free
    have only {outputId} (again : Reserves (request caller).transactionId outputId ⟨op, (exec hash op pool.store).1⟩) :
        outputId = output.outputId := by
      obtain ⟨_, first, shape, -, named⟩ := reserves
      obtain ⟨_, second, other, -, rfl⟩ := again
      rw [shape] at other
      cases other
      exact named
    refine ⟨store ▸ commits.keyed, fun other outputId has => ?_, fun first second outputId hasFirst hasSecond => ?_⟩
    · rw [store]
      obtain before | ⟨rfl, again⟩ := reserved.mp has
      · exact commits.keeps_locked (exclusive.locked other outputId before)
      · exact only again ▸ commits.locked
    · obtain beforeFirst | ⟨rfl, againFirst⟩ := reserved.mp hasFirst
      · obtain beforeSecond | ⟨rfl, againSecond⟩ := reserved.mp hasSecond
        · exact exclusive.once first second outputId beforeFirst beforeSecond
        · exact (fresh (only againSecond ▸ beforeFirst)).elim
      · obtain beforeSecond | ⟨rfl, -⟩ := reserved.mp hasSecond
        · exact (fresh (only againFirst ▸ beforeSecond)).elim
        · rfl
  · have same {other outputId} : HasReserved request after other outputId ↔ HasReserved request pool other outputId := by
      rw [reserved]
      exact or_iff_left fun has => nothing _ _ has.2
    rw [unchanged] at store
    refine ⟨store ▸ exclusive.keyed, fun other outputId has => ?_, fun first second outputId hasFirst hasSecond => ?_⟩
    · exact store ▸ exclusive.locked other outputId (same.mp has)
    · exact exclusive.once first second outputId (same.mp hasFirst) (same.mp hasSecond)

theorem exclusive_reaches (keyed : Keyed database.records)
    (reached : Pool.Reaches (exec hash) Pool.anyStep (startAllocations request database) pool) : Exclusive request pool := by
  have none (caller : ι) (outputId : Nat) : ¬ HasReserved request (startAllocations request database) caller outputId := by
    rintro ⟨event, member, -⟩
    cases member
  refine Pool.Reaches.invariant ⟨keyed, fun caller outputId has => (none caller outputId has).elim,
    fun caller _ outputId has => (none caller outputId has).elim⟩ (fun before caller after earlier exclusive _ moves => ?_) reached
  exact exclusive.advance (Pool.Reaches.uses (fun caller => allocateChangeInput_uses (request caller)) earlier caller) moves

theorem hasReserved_of_returned (reached : Pool.Reaches (exec hash) Pool.anyStep (startAllocations request database) pool) (returned : (pool.task caller).program = .done (some output)) :
    HasReserved request pool caller output.outputId := by
  have settles := Pool.Reaches.settles (fun caller => allocateChangeInput_settles [] (request caller)) reached caller
  rw [returned] at settles
  exact settles output rfl

/-- No two allocators ever return the same output, and what an allocator returns
stays locked by its own transaction in both copies. -/
theorem allocateChangeInput_exclusive (keyed : Keyed database.records)
    (reached : Pool.Reaches (exec hash) Pool.anyStep (startAllocations request database) pool) :
    (∀ caller other output taken, caller ≠ other → (pool.task caller).program = .done (some output) →
      (pool.task other).program = .done (some taken) → output.outputId ≠ taken.outputId) ∧
    ∀ caller output, (pool.task caller).program = .done (some output) →
      Locked output.outputId (request caller).transactionId pool.store.records := by
  have exclusive := exclusive_reaches keyed reached
  refine ⟨fun caller other output taken different returned returnedOther same => different ?_, fun caller output returned => ?_⟩
  · exact exclusive.once caller other _ (hasReserved_of_returned reached returned)
      (same ▸ hasReserved_of_returned reached returnedOther)
  · exact exclusive.locked caller _ (hasReserved_of_returned reached returned)

end

def changeTransaction : TableTransaction where
  transactionId := 1
  userId := 1
  provenTxId := none
  status := .completed
  reference := "reference"
  isOutgoing := true
  satoshis := 0
  description := "change"
  version := none
  lockTime := none
  txid := some "aa"
  inputBEEF := none
  rawTx := none

def changeOutput : TableOutput where
  outputId := 1
  userId := 1
  transactionId := 1
  basketId := some 1
  spendable := true
  change := true
  outputDescription := ""
  vout := 0
  satoshis := 1000
  providedBy := .storage
  purpose := "change"
  type := "P2PKH"
  txid := some "aa"
  senderIdentityKey := none
  derivationPrefix := none
  derivationSuffix := none
  customInstructions := none
  spentBy := none
  sequenceNumber := none
  spendingDescription := none
  scriptLength := none
  scriptOffset := none
  lockingScript := none
  scriptHash := none

def noHash : ScriptHash := fun _ => ""

/-- A store that holds the two. -/
def fundedStore : Database :=
  Prod.snd <| Program.run (exec noHash)
    (StorageRocksDb.insertTransaction changeTransaction >>= fun _ => StorageRocksDb.insertOutput noHash changeOutput) .empty

/-- Two transactions that both want the output. -/
def rivals (second : Bool) : AllocateArgs :=
  ⟨1, 1, 500, none, true, if second then 8 else 7⟩

def interleavedAwaits : List Bool := (List.replicate 6 [false, true]).flatten ++ [false, true]

theorem allocateChangeInput_exclusive_rivals :
    ∃ pool, Pool.Reaches (exec noHash) Pool.anyStep (startAllocations rivals fundedStore) pool ∧
      (∃ output, (pool.task false).program = .done (some output) ∧ output.outputId = 1) ∧ Locked 1 7 pool.store.records := by
  have runs : ((startAllocations rivals fundedStore).follow (exec noHash) interleavedAwaits).map
      (fun pool => (pool.task false).program.outcome) =
      some (some (.ok (some { changeOutput with spendable := false, spentBy := some 7 }))) := by decide +kernel
  obtain ⟨pool, followed, settled⟩ := Option.map_eq_some_iff.mp runs
  have reached := Pool.reaches_follow followed
  have returned := Program.outcome_ok.mp settled
  refine ⟨pool, reached, ⟨_, returned, rfl⟩, ?_⟩
  exact (allocateChangeInput_exclusive (by decide +kernel) reached).2 false _ returned

end WalletToolbox
